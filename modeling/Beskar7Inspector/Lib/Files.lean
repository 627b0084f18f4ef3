import Beskar7Inspector.Lib.Os
import Mathlib.Data.List.AList

namespace Beskar7Inspector.Lib.Files

open Os

/-- A path below the mount point. -/
inductive Path (Name : Type)
  | root
  | join (dir : Path Name) (name : Name)
  deriving DecidableEq, Repr

namespace Path

variable {Name : Type}

def map (f : Name → Name) : Path Name → Path Name
  | .root => .root
  | .join dir name => .join (dir.map f) (f name)

/-- The path some names further down. -/
def joins (p : Path Name) (names : List Name) : Path Name := names.foldl .join p

theorem map_joins {f : Name → Name} {p : Path Name} {names : List Name} :
    (p.joins names).map f = (p.map f).joins (names.map f) := by
  induction names generalizing p with
  | nil => rfl
  | cons name names ih => exact ih

def depth : Path Name → Nat
  | .root => 0
  | .join dir _ => dir.depth + 1

/-- The ancestor `n` levels below the mount point, or the path itself. -/
def upTo (n : Nat) : Path Name → Path Name
  | .root => .root
  | .join dir name => if dir.depth < n then .join dir name else dir.upTo n

end Path

inductive Node
  | file (mode : Nat) (contents : List UInt8)
  | dir
  deriving DecidableEq, Repr

structure Entry (Name : Type) where
  name : Name
  node : Node

/-- Whether the entries have a directory at a folded path. -/
def HasDir {Name : Type} [DecidableEq Name] (entries : AList fun _ : Path Name => Entry Name) (key : Path Name) : Prop :=
  key = .root ∨ (entries.lookup key).map Entry.node = some .dir

instance {Name : Type} [DecidableEq Name] (entries : AList fun _ : Path Name => Entry Name) (key : Path Name) :
    Decidable (HasDir entries key) := inferInstanceAs (Decidable (_ ∨ _))

/-- The files below a mount point. Names with the same `fold` are one name to
this file system; an entry also keeps the name it was stored under, and lies in
a directory. -/
structure FileTree {Name : Type} [DecidableEq Name] (fold : Name → Name) where
  entries : AList (fun _ : Path Name => Entry Name)
  placed : ∀ key entry, entries.lookup key = some entry →
    ∃ dir, key = .join dir (fold entry.name) ∧ HasDir entries dir

namespace FileTree

variable {Name : Type} [DecidableEq Name] {fold : Name → Name}

def empty : FileTree fold := ⟨∅, fun key entry h => by simp at h⟩

def node? (t : FileTree fold) : Path Name → Option Node
  | .root => some .dir
  | .join dir name => (t.entries.lookup (Path.map fold (.join dir name))).map Entry.node

def contents? (t : FileTree fold) (p : Path Name) : Option (List UInt8) :=
  match t.node? p with
  | some (.file _ contents) => some contents
  | _ => none

def isFile (t : FileTree fold) (p : Path Name) : Bool := (t.contents? p).isSome

def isDir (t : FileTree fold) (p : Path Name) : Bool := t.node? p == some .dir

/-- The names stored in a directory. -/
def names (t : FileTree fold) (dir : Path Name) : List Name :=
  t.entries.entries.filterMap fun x => match x.1 with
    | .root => none
    | .join d _ => if d = dir.map fold then some x.2.name else none

def storedName? (t : FileTree fold) (p : Path Name) : Option Name := (t.entries.lookup (p.map fold)).map Entry.name

theorem hasDir_map_iff {t : FileTree fold} {p : Path Name} : HasDir t.entries (p.map fold) ↔ t.node? p = some .dir := by
  cases p with
  | root => simp [HasDir, node?, Path.map]
  | join dir name => simp [HasDir, node?, Path.map]

/-- The tree without the file at a path. -/
def erase (t : FileTree fold) (p : Path Name) : FileTree fold :=
  if hfile : t.node? p = some .dir then t
  else {
    entries := t.entries.erase (p.map fold)
    placed := by
      intro key entry h
      have hne : key ≠ p.map fold := by
        rintro rfl
        rw [AList.lookup_erase] at h
        cases h
      rw [AList.lookup_erase_ne hne] at h
      obtain ⟨dir, hkey, hdir⟩ := t.placed key entry h
      refine ⟨dir, hkey, hdir.imp_right fun hl => ?_⟩
      have : dir ≠ p.map fold := by
        rintro rfl
        exact hfile (hasDir_map_iff.mp hdir)
      rwa [AList.lookup_erase_ne this] }

/-- The tree with an entry in the place of none or of a file. An entry that is
there keeps its stored name. -/
def insert (t : FileTree fold) (dir : Path Name) (name : Name) (node : Node) : FileTree fold :=
  if hplace : t.node? dir = some .dir ∧ t.node? (.join dir name) ≠ some .dir then {
    entries :=
      let key := Path.map fold (.join dir name)
      t.entries.insert key ⟨((t.entries.lookup key).map Entry.name).getD name, node⟩
    placed := by
      intro key entry h
      have hkeep {d : Path Name} (hd : HasDir t.entries d) : HasDir (t.entries.insert (Path.map fold (.join dir name))
          ⟨((t.entries.lookup (Path.map fold (.join dir name))).map Entry.name).getD name, node⟩) d := by
        refine hd.imp_right fun hl => ?_
        have hne : d ≠ Path.map fold (.join dir name) := by
          rintro rfl
          exact hplace.2 (hasDir_map_iff.mp hd)
        rwa [AList.lookup_insert_ne hne]
      by_cases hk : key = Path.map fold (.join dir name)
      · refine ⟨dir.map fold, ?_, hkeep (hasDir_map_iff.mpr hplace.1)⟩
        rw [hk, AList.lookup_insert] at h
        cases h
        cases hl : t.entries.lookup (Path.map fold (.join dir name)) with
        | none => exact hk
        | some old =>
            obtain ⟨d, hd, _⟩ := t.placed _ old hl
            rw [Path.map, Path.join.injEq] at hd
            rw [hk, Path.map]
            exact congrArg _ hd.2
      · rw [AList.lookup_insert_ne hk] at h
        obtain ⟨d, hd, hdir⟩ := t.placed key entry h
        exact ⟨d, hd, hkeep hdir⟩ }
  else t

section

variable {t : FileTree fold} {p q dir : Path Name} {name : Name} {node : Node}

theorem node?_congr (h : p.map fold = q.map fold) : t.node? p = t.node? q := by
  cases p <;> cases q
  · rfl
  · cases h
  · cases h
  · rw [node?, node?, h]

theorem contents?_congr (h : p.map fold = q.map fold) : t.contents? p = t.contents? q := by
  rw [contents?, contents?, node?_congr h]

/-- What lies in a directory has the directory above it. -/
theorem node?_parent (h : t.node? (.join dir name) = some node) : t.node? dir = some .dir := by
  rw [node?, Option.map_eq_some_iff] at h
  obtain ⟨entry, hl, _⟩ := h
  obtain ⟨d, hd, hdir⟩ := t.placed _ entry hl
  rw [Path.map, Path.join.injEq] at hd
  rw [← hd.1] at hdir
  exact hasDir_map_iff.mp hdir

theorem node?_joins_eq_none (h : t.node? p = none) (names : List Name) : t.node? (p.joins names) = none := by
  induction names generalizing p with
  | nil => exact h
  | cons name names ih =>
      refine ih (Option.eq_none_iff_forall_ne_some.mpr fun node hn => ?_)
      rw [node?_parent hn] at h
      cases h

theorem node?_erase_ne (h : q.map fold ≠ p.map fold) : (t.erase p).node? q = t.node? q := by
  rw [erase]
  split
  · rfl
  · cases q with
    | root => rfl
    | join d n => rw [node?, node?, AList.lookup_erase_ne h]

theorem contents?_erase : (t.erase p).contents? q = if q.map fold = p.map fold then none else t.contents? q := by
  split
  · rename_i h
    rw [erase]
    split
    · rename_i hd
      rw [contents?, node?_congr h, hd]
    · cases q with
      | root => rfl
      | join d n =>
          rw [contents?, node?, h, AList.lookup_erase]
          rfl
  · rename_i h
    rw [contents?, contents?, node?_erase_ne h]

theorem node?_insert_same (hd : t.node? dir = some .dir) (hn : t.node? (.join dir name) ≠ some .dir)
    (h : q.map fold = Path.map fold (.join dir name)) : (t.insert dir name node).node? q = some node := by
  rw [insert, dif_pos ⟨hd, hn⟩]
  cases q with
  | root => cases h
  | join d n =>
      rw [node?, h, AList.lookup_insert]
      rfl

theorem node?_insert_ne (h : q.map fold ≠ Path.map fold (.join dir name)) :
    (t.insert dir name node).node? q = t.node? q := by
  rw [insert]
  split
  · cases q with
    | root => rfl
    | join d n => rw [node?, node?, AList.lookup_insert_ne h]
  · rfl

theorem contents?_insert_file {mode : Nat} {contents : List UInt8} (hd : t.node? dir = some .dir)
    (hn : t.node? (.join dir name) ≠ some .dir) : (t.insert dir name (.file mode contents)).contents? q =
      if q.map fold = Path.map fold (.join dir name) then some contents else t.contents? q := by
  split
  · rename_i h
    rw [contents?, node?_insert_same hd hn h]
  · rename_i h
    rw [contents?, contents?, node?_insert_ne h]

theorem contents?_insert_dir (h : t.contents? (.join dir name) = none) :
    (t.insert dir name .dir).contents? q = t.contents? q := by
  by_cases hq : q.map fold = Path.map fold (.join dir name)
  · rw [contents?_congr (t := t) hq, h, contents?_congr hq]
    rw [insert]
    split
    · rw [contents?, node?, AList.lookup_insert]
      rfl
    · exact h
  · rw [contents?, contents?, node?_insert_ne hq]

theorem mem_names : name ∈ t.names dir ↔ t.storedName? (.join dir name) = some name := by
  rw [names, List.mem_filterMap, storedName?, Option.map_eq_some_iff]
  constructor
  · rintro ⟨⟨key, entry⟩, hmem, h⟩
    have hl := AList.mem_lookup_iff.mpr hmem
    obtain ⟨d, rfl, _⟩ := t.placed key entry hl
    obtain ⟨hd, hn⟩ := Option.ite_none_right_eq_some.mp h
    cases hn
    exact ⟨entry, by rw [Path.map, ← hd]; exact hl, rfl⟩
  · rintro ⟨entry, hl, hn⟩
    exact ⟨⟨_, entry⟩, AList.mem_lookup_iff.mp hl, by simp [Path.map, hn]⟩

theorem names_inj {name' : Name} (h : name ∈ t.names dir) (h' : name' ∈ t.names dir) (heq : fold name = fold name') :
    name = name' := by
  have hs := mem_names.mp h
  rw [storedName?, Path.map, heq] at hs
  exact Option.some.inj (hs.symm.trans (mem_names.mp h'))

/-- An entry is listed under some name that this file system takes for its own. -/
theorem exists_mem_names (h : t.node? (.join dir name) = some node) : ∃ stored ∈ t.names dir, fold stored = fold name := by
  rw [node?, Option.map_eq_some_iff] at h
  obtain ⟨entry, hl, _⟩ := h
  obtain ⟨d, hd, _⟩ := t.placed _ entry hl
  rw [Path.map, Path.join.injEq] at hd
  refine ⟨entry.name, mem_names.mpr ?_, hd.2.symm⟩
  rw [storedName?, Path.map, ← hd.2]
  rw [Path.map] at hl
  rw [hl]
  rfl

theorem names_congr (h : p.map fold = q.map fold) : t.names p = t.names q := by
  rw [names, names, h]

theorem names_of_none (h : t.node? dir = none) : t.names dir = [] := by
  refine List.eq_nil_iff_forall_not_mem.mpr fun name hname => ?_
  have hs := mem_names.mp hname
  rw [storedName?, Option.map_eq_some_iff] at hs
  obtain ⟨entry, hl, _⟩ := hs
  have hnode : t.node? (.join dir name) = some entry.node := by rw [node?, hl, Option.map_some]
  rw [node?_parent hnode] at h
  cases h

theorem storedName?_congr (h : p.map fold = q.map fold) : t.storedName? p = t.storedName? q := by
  rw [storedName?, storedName?, h]

theorem contents?_of_storedName? (h : t.storedName? p = none) : t.contents? p = none := by
  rw [storedName?, Option.map_eq_none_iff] at h
  cases p with
  | root => rfl
  | join dir name => rw [contents?, node?, h, Option.map_none]

theorem storedName?_erase_ne (h : q.map fold ≠ p.map fold) : (t.erase p).storedName? q = t.storedName? q := by
  rw [erase]
  split
  · rfl
  · rw [storedName?, storedName?, AList.lookup_erase_ne h]

theorem storedName?_insert_ne (h : q.map fold ≠ Path.map fold (.join dir name)) :
    (t.insert dir name node).storedName? q = t.storedName? q := by
  rw [insert]
  split
  · rw [storedName?, storedName?, AList.lookup_insert_ne h]
  · rfl

theorem storedName?_insert_new (hd : t.node? dir = some .dir) (hn : t.node? (.join dir name) = none) :
    (t.insert dir name node).storedName? (.join dir name) = some name := by
  rw [insert, dif_pos ⟨hd, by rw [hn]; simp⟩, storedName?, AList.lookup_insert]
  rw [node?, Option.map_eq_none_iff] at hn
  rw [hn]
  rfl

end

/-- Why an entry cannot be made in `dir`. -/
def parentError (t : FileTree fold) (dir : Path Name) : Option Errno :=
  match t.node? dir with
  | some .dir => none
  | some (.file _ _) => some ENOTDIR
  | none => some ENOENT

theorem parentError_eq_none {t : FileTree fold} {dir : Path Name} (h : t.parentError dir = none) :
    t.node? dir = some .dir := by
  rw [parentError] at h
  split at h
  · assumption
  · cases h
  · cases h

def readDir (t : FileTree fold) (dir : Path Name) : Except Errno (List Name) :=
  match t.node? dir with
  | some .dir => .ok (t.names dir)
  | some (.file _ _) => .error ENOTDIR
  | none => .error ENOENT

def read (t : FileTree fold) (p : Path Name) : Except Errno (List UInt8) :=
  match t.node? p with
  | some (.file _ contents) => .ok contents
  | some .dir => .error EISDIR
  | none => .error ENOENT

theorem read_eq_ok_iff {t : FileTree fold} {p : Path Name} {contents : List UInt8} :
    t.read p = .ok contents ↔ t.contents? p = some contents := by
  unfold read contents?
  cases t.node? p with
  | none => simp
  | some node => cases node <;> simp

/-- Open for writing: an existing file is emptied and keeps its mode. -/
def openTruncated (t : FileTree fold) (p : Path Name) (mode : Nat) : Except Errno (FileTree fold) :=
  match p with
  | .root => .error EISDIR
  | .join dir name => match t.node? (.join dir name) with
      | some (.file old _) => .ok (t.insert dir name (.file old []))
      | some .dir => .error EISDIR
      | none => match t.parentError dir with
          | some e => .error e
          | none => .ok (t.insert dir name (.file mode []))

def setPermissions (t : FileTree fold) (p : Path Name) (mode : Nat) : Except Errno (FileTree fold) :=
  match p with
  | .root => .ok t
  | .join dir name => match t.node? (.join dir name) with
      | some (.file _ contents) => .ok (t.insert dir name (.file mode contents))
      | some .dir => .ok t
      | none => .error ENOENT

def append (t : FileTree fold) (p : Path Name) (data : List UInt8) : Except Errno (FileTree fold) :=
  match p with
  | .root => .error EISDIR
  | .join dir name => match t.node? (.join dir name) with
      | some (.file mode contents) => .ok (t.insert dir name (.file mode (contents ++ data)))
      | some .dir => .error EISDIR
      | none => .error ENOENT

def createDirAll (t : FileTree fold) : Path Name → Except Errno (FileTree fold)
  | .root => .ok t
  | .join dir name => match t.node? (.join dir name) with
      | some .dir => .ok t
      | some (.file _ _) => .error EEXIST
      | none => match t.parentError dir with
          | none => .ok (t.insert dir name .dir)
          | some e => if e = ENOTDIR then .error e else do
              let t ← t.createDirAll dir
              .ok (t.insert dir name .dir)

def unlink (t : FileTree fold) (p : Path Name) : Except Errno (FileTree fold) :=
  match t.node? p with
  | some (.file _ _) => .ok (t.erase p)
  | some .dir => .error EISDIR
  | none => .error ENOENT

/-- Rename a file over whatever file has the new name. -/
def rename (t : FileTree fold) (p q : Path Name) : Except Errno (FileTree fold) :=
  match t.node? p, q with
  | none, _ => .error ENOENT
  | some .dir, _ => .error EISDIR
  | some (.file _ _), .root => .error EBUSY
  | some (.file mode contents), .join dir name => match t.node? (.join dir name) with
      | some .dir => .error EISDIR
      | some (.file _ _) => .ok ((t.erase p).insert dir name (.file mode contents))
      | none => match t.parentError dir with
          | some e => .error e
          | none => .ok ((t.erase p).insert dir name (.file mode contents))

section

variable {t t' : FileTree fold} {p q r : Path Name} {mode : Nat} {data : List UInt8}

theorem contents?_openTruncated (h : t.openTruncated p mode = .ok t') :
    t'.contents? r = if r.map fold = p.map fold then some [] else t.contents? r := by
  cases p with
  | root => cases h
  | join dir name =>
      simp only [openTruncated] at h
      split at h
      · rename_i hn
        cases h
        exact contents?_insert_file (node?_parent hn) (by rw [hn]; simp)
      · cases h
      · rename_i hn
        split at h
        · cases h
        · cases h
          rename_i hp
          exact contents?_insert_file (parentError_eq_none hp) (by rw [hn]; simp)

theorem contents?_of_file {contents : List UInt8} (h : t.node? p = some (.file mode contents)) :
    t.contents? p = some contents := by
  rw [contents?, h]

theorem contents?_append (h : t.append p data = .ok t') : ∃ contents, t.contents? p = some contents ∧
    ∀ r, t'.contents? r = if r.map fold = p.map fold then some (contents ++ data) else t.contents? r := by
  cases p with
  | root => cases h
  | join dir name =>
      simp only [append] at h
      split at h
      · rename_i mode contents hn
        cases h
        exact ⟨contents, contents?_of_file hn, fun r => contents?_insert_file (node?_parent hn) (by rw [hn]; simp)⟩
      · cases h
      · cases h

theorem contents?_createDirAll (h : t.createDirAll p = .ok t') : t'.contents? r = t.contents? r := by
  induction p generalizing t' r with
  | root =>
      cases h
      rfl
  | join dir name ih =>
      simp only [createDirAll] at h
      split at h
      · cases h
        rfl
      · cases h
      · rename_i hn
        have hnone : t.contents? (.join dir name) = none := by rw [contents?, hn]
        split at h
        · cases h
          exact contents?_insert_dir hnone
        · split at h
          · cases h
          · cases hd : t.createDirAll dir with
            | error e => rw [hd] at h; cases h
            | ok t₁ =>
                rw [hd] at h
                cases h
                rw [contents?_insert_dir (by rw [ih hd, hnone]), ih hd]

theorem contents?_unlink (h : t.unlink p = .ok t') : t.contents? p ≠ none ∧
    ∀ r, t'.contents? r = if r.map fold = p.map fold then none else t.contents? r := by
  rw [unlink] at h
  split at h
  · rename_i mode contents hn
    cases h
    exact ⟨by rw [contents?_of_file hn]; simp, fun r => contents?_erase⟩
  · cases h
  · cases h

theorem storedName?_unlink (h : t.unlink p = .ok t') :
    t'.storedName? r = if r.map fold = p.map fold then none else t.storedName? r := by
  rw [unlink] at h
  split at h
  · rename_i hn
    cases h
    split
    · rename_i hr
      rw [storedName?_congr hr, erase, dif_neg (by rw [hn]; simp), storedName?, AList.lookup_erase]
      rfl
    · rename_i hr
      exact storedName?_erase_ne hr
  · cases h
  · cases h

theorem contents?_of_unlink_error {e : Errno} (h : t.unlink p = .error e) : t.contents? p = none := by
  rw [unlink] at h
  split at h
  · cases h
  · rename_i hn
    rw [contents?, hn]
  · rename_i hn
    rw [contents?, hn]

theorem contents?_rename (h : t.rename p q = .ok t') (hpq : q.map fold ≠ p.map fold) :
    ∃ contents, t.contents? p = some contents ∧ ∀ r, t'.contents? r =
      if r.map fold = q.map fold then some contents else if r.map fold = p.map fold then none else t.contents? r := by
  unfold rename at h
  split at h
  · cases h
  · cases h
  · cases h
  · rename_i mode contents dir name hp
    have hinsert (hd : t.node? dir = some .dir) (hn : t.node? (.join dir name) ≠ some .dir) :
        ∀ r, ((t.erase p).insert dir name (.file mode contents)).contents? r =
          if r.map fold = Path.map fold (.join dir name) then some contents
          else if r.map fold = p.map fold then none else t.contents? r := by
      intro r
      have hdir : dir.map fold ≠ p.map fold := by
        intro heq
        rw [node?_congr heq, hp] at hd
        cases hd
      rw [contents?_insert_file (by rwa [node?_erase_ne hdir]) (by rwa [node?_erase_ne hpq]), contents?_erase]
    refine ⟨contents, contents?_of_file hp, ?_⟩
    split at h
    · cases h
    · rename_i hn
      cases h
      exact hinsert (node?_parent hn) (by rw [hn]; simp)
    · rename_i hn
      split at h
      · cases h
      · rename_i hd
        cases h
        exact hinsert (parentError_eq_none hd) (by rw [hn]; simp)

theorem storedName?_rename_ne (h : t.rename p q = .ok t') (hp : r.map fold ≠ p.map fold)
    (hq : r.map fold ≠ q.map fold) : t'.storedName? r = t.storedName? r := by
  unfold rename at h
  split at h
  · cases h
  · cases h
  · cases h
  · split at h
    · cases h
    · cases h
      rw [storedName?_insert_ne hq, storedName?_erase_ne hp]
    · split at h
      · cases h
      · cases h
        rw [storedName?_insert_ne hq, storedName?_erase_ne hp]

theorem storedName?_rename_new {dir : Path Name} {name : Name} (h : t.rename p (.join dir name) = .ok t')
    (hne : Path.map fold (.join dir name) ≠ p.map fold) (hn : t.contents? (.join dir name) = none) :
    t'.storedName? (.join dir name) = some name := by
  unfold rename at h
  split at h
  · cases h
  · cases h
  · rename_i heq
    cases heq
  · rename_i mode contents d n hp heq
    cases heq
    split at h
    · cases h
    · rename_i hfile
      rw [contents?_of_file hfile] at hn
      cases hn
    · rename_i hnone
      split at h
      · cases h
      · rename_i hd
        cases h
        have hdir := parentError_eq_none hd
        refine storedName?_insert_new ?_ ?_
        · rwa [node?_erase_ne]
          intro heq
          rw [node?_congr heq, hp] at hdir
          cases hdir
        · rwa [node?_erase_ne hne]

end

end FileTree

end Beskar7Inspector.Lib.Files
