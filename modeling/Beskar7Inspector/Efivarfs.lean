import Beskar7Inspector.Lib.Simulation
import Beskar7Inspector.VarStore

namespace Beskar7Inspector.Efivarfs

open Lib.Program Lib.Interp Lib.Simulation Lib.Text Lib.Os Lib.LittleEndian Esp DevicePath BootOrder Efiboot VarStore

def EFI_GLOBAL_GUID : String := "8be4df61-93ca-11d2-aa0d-00e098032b8c"

def EFI_VARIABLE_ATTRS : UInt32 := 0x07

def FS_IMMUTABLE_FL : UInt32 := 0x10

def EPERM : Errno := 1

/-- The calls on the directory where `efivarfs` is mounted. Reading the directory gives
its entries one by one, the last of which may be an error. -/
inductive DirOp : Type → Type
  | mount : DirOp (Except Errno Unit)
  | readDir : DirOp (Except IoError (List (Except IoError String)))
  | read (file : String) : DirOp (Except IoError (List UInt8))
  | openRead (file : String) : DirOp (Except IoError Unit)
  | getFlags (file : String) : DirOp (Except Errno UInt32)
  | setFlags (file : String) (flags : UInt32) : DirOp (Except Errno Unit)
  | openWrite (file : String) : DirOp (Except IoError Unit)
  | write (file : String) (buf : List UInt8) : DirOp (Except IoError Nat)

abbrev Fs := Try DirOp IoError

def suffix : String := "-" ++ EFI_GLOBAL_GUID

def path (name : String) : String := name ++ suffix

namespace EfivarFs

/-- An entry that could not be read is left out, and with it all that would come after. -/
def list : Fs (List String) := do
  let entries ← attempt .readDir id
  pure ((entries.filterMap Except.toOption).filterMap (stripSuffix suffix))

/-- The value behind the four attribute bytes. -/
def read (name : String) : Fs (Option (List UInt8)) := do
  let r ← always (.read (path name))
  match r with
  | .ok raw => pure (some (raw.drop 4))
  | .error e => if e.isNotFound then pure none else throw e

/-- Best effort: a flag that stays set makes the open for writing fail. -/
def clearImmutable (file : String) : Fs Unit := do
  let r ← always (.getFlags file)
  match r with
  | .ok flags =>
      if flags &&& FS_IMMUTABLE_FL ≠ 0 then
        let _ ← always (.setFlags file (flags &&& ~~~FS_IMMUTABLE_FL))
        pure ()
      else pure ()
  | .error _ => pure ()

def buffer (value : List UInt8) : List UInt8 := encode 4 EFI_VARIABLE_ATTRS.toNat ++ value

/-- One call sets the variable from exactly the buffer. -/
def write (name : String) (value : List UInt8) : Fs Unit := do
  let opened ← always (.openRead (path name))
  match opened with
  | .ok () => clearImmutable (path name)
  | .error _ => pure ()
  attempt (.openWrite (path name)) id
  let n ← attempt (.write (path name) (buffer value)) id
  if n ≠ (buffer value).length then throw (.other "short efivarfs write") else pure ()

end EfivarFs

def efivarFs : Handler VarOp DirOp
  | _, .list => EfivarFs.list.run
  | _, .read name => (EfivarFs.read name).run
  | _, .write name value => (EfivarFs.write name value).run

def mountEfivarfs : Try DirOp EfiBootError Unit := do
  let r ← always .mount
  match r with
  | .ok () => pure ()
  | .error source => if source = EBUSY then pure () else throw (.mount source)

def ensureDiskBootEntry (arch : Deploy.Arch) (gpt : GptEsp) : Try DirOp EfiBootError BootEntry := do
  mountEfivarfs
  interpTry efivarFs (ensureIn arch gpt)

structure VarFile where
  contents : List UInt8
  flags : UInt32

abbrev VarDir := AList (fun _ : String => VarFile)

/-- What the kernel chooses at a call: a failure, the order of a listing and where
it breaks off, a count that falls short, and whether an empty file goes when its
variable was not set. -/
structure DirChoice where
  failure : Option IoError
  listing : List String
  broken : Option (Nat × IoError)
  short : Option Nat
  dropped : Bool

/-- The entries of a listing of `files`. -/
def DirChoice.entries (c : DirChoice) (breaks : Bool) (files : List String) : List (Except IoError String) :=
  let names := if c.listing.Perm files then c.listing else files
  match if breaks then c.broken else none with
  | some (n, e) => (names.take n).map .ok ++ [.error e]
  | none => names.map .ok

/-- A variable that could not be set stays as it was, but a file made for it may be left. -/
def VarDir.giveUp (d : VarDir) (file : String) (c : DirChoice) : VarDir :=
  if (d.lookup file).any (fun f => f.contents.isEmpty) ∧ c.dropped then d.erase file else d

/-- The directory: a file is not found only where there is none, and an
immutable one is not opened for writing. A listing may break off if `breaks` says so. -/
def efivarfs (breaks : Bool) : Machine DirOp DirChoice VarDir where
  step
    | .mount, c, d => (match c.failure with | some (.os e) => .error e | _ => .ok (), d)
    | .readDir, c, d => match c.failure with
        | some e => (.error e, d)
        | none => (.ok (c.entries breaks d.keys), d)
    | .read file, c, d => match d.lookup file with
        | none => (.error (.os ENOENT), d)
        | some f => match c.failure with
            | some e => (if e.isNotFound then .ok f.contents else .error e, d)
            | none => (.ok f.contents, d)
    | .openRead file, c, d => match d.lookup file, c.failure with
        | none, _ => (.error (.os ENOENT), d)
        | some _, some e => (.error e, d)
        | some _, none => (.ok (), d)
    | .getFlags file, c, d => match d.lookup file, c.failure with
        | some f, none => (.ok f.flags, d)
        | _, _ => (.error EINVAL, d)
    | .setFlags file flags, c, d => match d.lookup file, c.failure with
        | some f, none => (.ok (), d.insert file { f with flags := flags })
        | _, _ => (.error EINVAL, d)
    | .openWrite file, c, d => match c.failure with
        | some e => (.error e, d)
        | none => match d.lookup file with
            | some f => if f.flags &&& FS_IMMUTABLE_FL ≠ 0 then (.error (.os EPERM), d) else (.ok (), d)
            | none => (.ok (), d.insert file ⟨[], 0⟩)
    | .write file buf, c, d => match d.lookup file, c.failure with
        | none, _ => (.error (.os ENOENT), d)
        | some _, some e => (.error e, d.giveUp file c)
        | some f, none => match c.short with
            | some n => if n < buf.length then (.ok n, d.giveUp file c)
                else (.ok buf.length, d.insert file { f with contents := buf })
            | none => (.ok buf.length, d.insert file { f with contents := buf })

/-- The variable as the store shows it. -/
def shown (d : VarDir) (name : String) : Option (List UInt8) := (d.lookup (path name)).map (fun f => f.contents.drop 4)

/-- The variables of a directory. -/
def view (d : VarDir) : Store :=
  (d.keys.filterMap (stripSuffix suffix)).foldr (fun name s => s.insert name ((shown d name).getD [])) ∅

theorem stripSuffix_path (name : String) : stripSuffix suffix (path name) = some name :=
  stripSuffix_eq_some_iff.mpr rfl

theorem path_inj {a b : String} : path a = path b ↔ a = b := by
  constructor
  · intro h
    have := stripSuffix_path a
    rw [h, stripSuffix_path] at this
    exact (Option.some.inj this).symm
  · rintro rfl
    rfl

def contents (d : VarDir) (file : String) : Option (List UInt8) := (d.lookup file).map VarFile.contents

theorem shown_eq (d : VarDir) (name : String) : shown d name = (contents d (path name)).map (List.drop 4) := by
  rw [shown, contents, Option.map_map]
  rfl

/-- Only this file may have changed. -/
def Only (file : String) (d d' : VarDir) : Prop := ∀ other, other ≠ file → d'.lookup other = d.lookup other

theorem Only.refl (file : String) (d : VarDir) : Only file d d := fun _ _ => rfl

theorem Only.trans {file : String} {a b c : VarDir} (h : Only file a b) (h' : Only file b c) : Only file a c :=
  fun other hne => (h' other hne).trans (h other hne)

theorem only_insert (d : VarDir) (file : String) (f : VarFile) : Only file d (d.insert file f) :=
  fun _ hne => AList.lookup_insert_ne hne

theorem contents_insert (d : VarDir) (file : String) (f : VarFile) :
    contents (d.insert file f) file = some f.contents := by
  rw [contents, AList.lookup_insert, Option.map_some]

/-- Open for writing, nothing lost: a file that was not there may be there now, empty. -/
def Opened (file : String) (d d' : VarDir) : Prop :=
  Only file d d' ∧ (contents d' file = contents d file ∨ contents d file = none ∧ contents d' file = some [])

/-- A write: set as a whole, or left alone but for an empty file. -/
def Wrote (file : String) (value : List UInt8) (d : VarDir) : Except IoError Unit → VarDir → Prop
  | .ok _, d' => Only file d d' ∧ contents d' file = some (EfivarFs.buffer value)
  | .error _, d' => Only file d d' ∧ (contents d' file = contents d file ∨
      (contents d file).getD [] = [] ∧ (contents d' file).getD [] = [])

theorem Opened.failed {file : String} {d d' : VarDir} (h : Opened file d d') (value : List UInt8) (e : IoError) :
    Wrote file value d (.error e) d' := by
  refine ⟨h.1, h.2.imp_right fun hnew => ?_⟩
  rw [hnew.1, hnew.2]
  exact ⟨rfl, rfl⟩

theorem Opened.giveUp {file : String} {d d' : VarDir} (h : Opened file d d') (c : DirChoice) (value : List UInt8)
    (e : IoError) : Wrote file value d (.error e) (d'.giveUp file c) := by
  rw [VarDir.giveUp]
  split
  · rename_i hempty
    refine ⟨h.1.trans fun other hne => AList.lookup_erase_ne hne, .inr ⟨?_, ?_⟩⟩
    · -- what is dropped was empty, and so was what it was made of
      obtain ⟨f, hf, hf'⟩ := (Option.any_eq_true _ _).mp hempty.1
      have hnil : contents d' file = some [] := by
        rw [contents, hf, Option.map_some, List.isEmpty_iff.mp hf']
      rcases h.2 with hsame | hnew
      · rw [← hsame, hnil]
        rfl
      · rw [hnew.1]
        rfl
    · rw [contents, AList.lookup_erase]
      rfl
  · exact h.failed value e

abbrev FsEnsures {α : Type} (breaks : Bool) (p : Fs α) (d : VarDir) (Q : Except IoError α → VarDir → Prop) : Prop :=
  p.run.wp (efivarfs breaks) (fun _ => True) Q d

variable {breaks : Bool}

theorem fs_clearImmutable (file : String) (d : VarDir) : FsEnsures breaks (EfivarFs.clearImmutable file) d
    (fun r d' => r = .ok () ∧ Only file d d' ∧ contents d' file = contents d file) := by
  refine (Try.wp_bind _ _).mpr ((Try.wp_always _).mpr ⟨trivial, fun c => ⟨trivial, ?_⟩⟩)
  have hsame : (efivarfs breaks).step (.getFlags file) c d = (((efivarfs breaks).step (.getFlags file) c d).1, d) := by
    simp only [efivarfs]
    split <;> rfl
  rw [hsame]
  dsimp only [Try.andThen]
  cases ((efivarfs breaks).step (.getFlags file) c d).1 with
  | error e => exact ⟨trivial, rfl, .refl file d, rfl⟩
  | ok flags =>
      dsimp only
      split
      · refine (Try.wp_bind _ _).mpr ((Try.wp_always _).mpr ⟨trivial, fun c => ⟨trivial, trivial, rfl, ?_⟩⟩)
        simp only [efivarfs]
        split
        · rename_i f hf _
          refine ⟨only_insert d file _, ?_⟩
          rw [contents_insert, contents, hf]
          rfl
        · exact ⟨.refl file d, rfl⟩
      · exact ⟨trivial, rfl, .refl file d, rfl⟩

theorem fs_openWrite (file : String) (d : VarDir) : FsEnsures breaks (attempt (.openWrite file) id) d
    (fun r d' => Opened file d d' ∧ (r = .ok () → (contents d' file).isSome = true)) := by
  refine (Try.wp_attempt _ _).mpr ⟨trivial, fun c => ⟨trivial, ?_⟩⟩
  simp only [efivarfs]
  split
  · exact ⟨⟨.refl file d, .inl rfl⟩, by simp⟩
  · split
    · rename_i f hf
      split
      · exact ⟨⟨.refl file d, .inl rfl⟩, by simp⟩
      · exact ⟨⟨.refl file d, .inl rfl⟩, by simp [contents, hf]⟩
    · rename_i hf
      refine ⟨⟨only_insert d file _, .inr ⟨by rw [contents, hf]; rfl, contents_insert d file _⟩⟩, ?_⟩
      simp [contents_insert]

/-- What one `write` comes to, by the count it answers. -/
def Put (file : String) (buf : List UInt8) (d : VarDir) : Except IoError Nat → VarDir → Prop
  | .ok n, d' => n = buf.length ∧ Only file d d' ∧ contents d' file = some buf ∨
      n ≠ buf.length ∧ ∃ c, d' = d.giveUp file c
  | .error _, d' => ∃ c, d' = d.giveUp file c

theorem fs_put (file : String) (buf : List UInt8) {d : VarDir} (h : (contents d file).isSome = true) :
    FsEnsures breaks (attempt (.write file buf) id) d (Put file buf d) := by
  refine (Try.wp_attempt _ _).mpr ⟨trivial, fun c => ⟨trivial, ?_⟩⟩
  have hset (f : VarFile) : Only file d (d.insert file { f with contents := buf }) ∧
      contents (d.insert file { f with contents := buf }) file = some buf :=
    ⟨only_insert d file _, contents_insert d file _⟩
  simp only [efivarfs]
  split
  · rename_i hf
    rw [contents, hf] at h
    cases h
  · exact ⟨c, rfl⟩
  · rename_i f hf _
    split
    · split
      · rename_i n _ hshort
        exact .inr ⟨Nat.ne_of_lt hshort, c, rfl⟩
      · exact .inl ⟨rfl, hset f⟩
    · exact .inl ⟨rfl, hset f⟩

theorem fs_write (name : String) (value : List UInt8) (d : VarDir) :
    FsEnsures breaks (EfivarFs.write name value) d (Wrote (path name) value d) := by
  have hopened {d' : VarDir} (h : Opened (path name) d d') (hfound : (contents d' (path name)).isSome = true) :
      FsEnsures breaks (do
        let n ← attempt (.write (path name) (EfivarFs.buffer value)) id
        if n ≠ (EfivarFs.buffer value).length then throw (.other "short efivarfs write") else pure ()) d'
        (Wrote (path name) value d) := by
    refine (Try.wp_bind _ _).mpr (Prog.wp_mono (fun _ h => h) ?_ (fs_put _ _ hfound))
    rintro r d'' _ hput
    cases r with
    | error e =>
        obtain ⟨c, rfl⟩ := hput
        exact h.giveUp c value e
    | ok n =>
        dsimp only [Try.andThen]
        rcases hput with ⟨hn, honly, hset⟩ | ⟨hn, c, rfl⟩
        · rw [if_neg (not_not.mpr hn)]
          exact ⟨trivial, h.1.trans honly, hset⟩
        · rw [if_pos hn]
          exact ⟨trivial, h.giveUp c value _⟩
  have hcleared {d' : VarDir} (h : Only (path name) d d') (hc : contents d' (path name) = contents d (path name)) :
      FsEnsures breaks (do
        attempt (.openWrite (path name)) id
        let n ← attempt (.write (path name) (EfivarFs.buffer value)) id
        if n ≠ (EfivarFs.buffer value).length then throw (.other "short efivarfs write") else pure ()) d'
        (Wrote (path name) value d) := by
    refine (Try.wp_bind _ _).mpr (Prog.wp_mono (fun _ h => h) ?_ (fs_openWrite (path name) d'))
    rintro r d'' _ ⟨⟨honly, hcontents⟩, hfound⟩
    have hopen : Opened (path name) d d'' := ⟨h.trans honly, by rwa [hc] at hcontents⟩
    cases r with
    | error e => exact hopen.failed value e
    | ok u => exact hopened hopen (hfound rfl)
  refine (Try.wp_bind _ _).mpr ((Try.wp_always _).mpr ⟨trivial, fun c => ⟨trivial, ?_⟩⟩)
  have hsame : (efivarfs breaks).step (.openRead (path name)) c d = (((efivarfs breaks).step (.openRead (path name)) c d).1, d) := by
    simp only [efivarfs]
    split <;> rfl
  rw [hsame]
  dsimp only [Try.andThen]
  cases ((efivarfs breaks).step (.openRead (path name)) c d).1 with
  | error e => exact hcleared (.refl _ d) rfl
  | ok u =>
      refine (Try.wp_bind _ _).mpr (Prog.wp_mono (fun _ h => h) ?_ (fs_clearImmutable (path name) d))
      rintro r d' _ ⟨rfl, honly, hcontents⟩
      exact hcleared honly hcontents

/-- The store is what the directory shows. -/
def Shows (d : VarDir) (s : Store) : Prop := ∀ name, shown d name = s.lookup name

/-- The same but for one variable that is empty or not there. -/
def ShowsBut (d : VarDir) (s : Store) : Prop :=
  ∃ name, (∀ other, other ≠ name → shown d other = s.lookup other) ∧ (shown d name).getD [] = [] ∧
    (s.lookup name).getD [] = []

/-- Files of other vendors are as they were, and the others hold what they held,
nothing at all, or a value behind the attributes. -/
structure Kept (d₀ d : VarDir) : Prop where
  foreign : ∀ file, stripSuffix suffix file = none → d.lookup file = d₀.lookup file
  whole : ∀ file raw, contents d file = some raw →
    contents d₀ file = some raw ∨ raw = [] ∨ ∃ value, raw = EfivarFs.buffer value

theorem Kept.refl (d : VarDir) : Kept d d := ⟨fun _ _ => rfl, fun _ _ h => .inl h⟩

theorem Kept.step {d₀ d d' : VarDir} (h : Kept d₀ d) {name : String} (honly : Only (path name) d d')
    (hfile : ∀ raw, contents d' (path name) = some raw →
      contents d (path name) = some raw ∨ raw = [] ∨ ∃ value, raw = EfivarFs.buffer value) : Kept d₀ d' := by
  constructor
  · intro file hfree
    have hne : file ≠ path name := by
      rintro rfl
      rw [stripSuffix_path] at hfree
      cases hfree
    rw [honly file hne, h.foreign file hfree]
  · intro file raw hraw
    by_cases hne : file = path name
    · subst hne
      rcases hfile raw hraw with hsame | hnew
      · exact h.whole _ raw hsame
      · exact .inr hnew
    · apply h.whole file raw
      rwa [contents, honly file hne] at hraw

def Refines (d₀ d : VarDir) (w : World) : Prop := Shows d w.store ∧ Kept d₀ d

def RefinesBut (d₀ d : VarDir) (w : World) : Prop := ShowsBut d w.store ∧ Kept d₀ d

/-- A refused write: the only failure that may leave something behind. -/
def refused : ∀ {β : Type}, VarOp β → β → Prop
  | _, .write _ _, .error _ => True
  | _, _, _ => False

instance : Inhabited Choice := ⟨⟨none, []⟩⟩

def allowAll : Faults := ⟨true, true⟩

theorem shown_only {d d' : VarDir} {name other : String} (h : Only (path name) d d') (hne : other ≠ name) :
    shown d' other = shown d other := by
  rw [shown, shown, h (path other) (fun heq => hne (path_inj.mp heq))]

theorem isSome_shown (d : VarDir) (name : String) : (shown d name).isSome = true ↔ path name ∈ d.keys := by
  rw [shown, Option.isSome_map, AList.lookup_isSome, AList.mem_keys]

theorem mem_names {d : VarDir} {name : String} :
    name ∈ d.keys.filterMap (stripSuffix suffix) ↔ (shown d name).isSome = true := by
  rw [List.mem_filterMap, isSome_shown]
  constructor
  · rintro ⟨file, hfile, hstrip⟩
    rw [stripSuffix_eq_some_iff] at hstrip
    rw [path, ← hstrip]
    exact hfile
  · exact fun h => ⟨path name, h, stripSuffix_path name⟩

theorem nodup_names (d : VarDir) : (d.keys.filterMap (stripSuffix suffix)).Nodup := by
  refine d.keys_nodup.filterMap fun a b name ha hb => ?_
  rw [Option.mem_def, stripSuffix_eq_some_iff] at ha hb
  rw [ha, hb]

theorem perm_names {d : VarDir} {s : Store} (h : Shows d s) : (d.keys.filterMap (stripSuffix suffix)).Perm s.keys := by
  refine (List.perm_ext_iff_of_nodup (nodup_names d) s.keys_nodup).mpr fun name => ?_
  rw [mem_names, h name, AList.lookup_isSome, AList.mem_keys]

theorem lookup_foldr {f : String → List UInt8} {names : List String} {name : String} (h : name ∈ names) :
    (names.foldr (fun name s => s.insert name (f name)) (∅ : Store)).lookup name = some (f name) := by
  induction names with
  | nil => cases h
  | cons other names ih =>
      rw [List.foldr_cons]
      by_cases heq : name = other
      · rw [heq, AList.lookup_insert]
      · rw [AList.lookup_insert_ne heq]
        exact ih ((List.mem_cons.mp h).resolve_left heq)

theorem lookup_foldr_none {f : String → List UInt8} {names : List String} {name : String} (h : name ∉ names) :
    (names.foldr (fun name s => s.insert name (f name)) (∅ : Store)).lookup name = none := by
  induction names with
  | nil => rfl
  | cons other names ih =>
      rw [List.mem_cons, not_or] at h
      rw [List.foldr_cons, AList.lookup_insert_ne h.1]
      exact ih h.2

theorem shows_view (d : VarDir) : Shows d (view d) := by
  intro name
  rw [view]
  by_cases h : name ∈ d.keys.filterMap (stripSuffix suffix)
  · obtain ⟨value, hvalue⟩ := Option.isSome_iff_exists.mp (mem_names.mp h)
    rw [lookup_foldr h, hvalue]
    rfl
  · rw [lookup_foldr_none h, ← Option.not_isSome_iff_eq_none]
    exact fun hs => h (mem_names.mpr hs)

/-- The variable store as a directory shows it whose listing may break off: a listing
is then any part of the names. -/
def listed (breaks : Bool) : Machine VarOp Choice World where
  step
    | .list, c, w => if breaks = true ∧ c.failure = none ∧ c.listing.Subperm w.store.keys then (.ok c.listing, w)
        else (firmware allowAll).step .list c w
    | o, c, w => (firmware allowAll).step o c w

/-- Without a break it is the store itself. -/
theorem listed_false : listed false = firmware allowAll := by
  refine congrArg Machine.mk ?_
  funext β o c w
  cases o <;> rfl

theorem listed_list (breaks : Bool) {w : World} {names : List String} (h : names.Perm w.store.keys) :
    (listed breaks).step .list ⟨none, names⟩ w = (.ok names, w) := by
  simp [listed, firmware, h, h.subperm]

theorem listed_part {w : World} {names : List String} (h : names.Subperm w.store.keys) :
    (listed true).step .list ⟨none, names⟩ w = (.ok names, w) := by
  simp [listed, h]

theorem toOption_ok (names : List String) : (names.map (Except.ok (ε := IoError))).filterMap Except.toOption = names := by
  rw [List.filterMap_map]
  exact List.filterMap_some

/-- All the files are listed, or the first of them in some order. -/
theorem entries_cases (breaks : Bool) (c : DirChoice) (files : List String) : ∃ names, names.Perm files ∧
    ((c.entries breaks files).filterMap Except.toOption = names ∨
      breaks = true ∧ ∃ n, (c.entries breaks files).filterMap Except.toOption = names.take n) := by
  have hperm : (if c.listing.Perm files then c.listing else files).Perm files := by
    split
    · assumption
    · exact .refl _
  refine ⟨_, hperm, ?_⟩
  rw [DirChoice.entries]
  split
  · rename_i n e hbroken
    refine .inr ⟨?_, n, ?_⟩
    · cases breaks with
      | false => cases hbroken
      | true => rfl
    · rw [List.filterMap_append, toOption_ok]
      exact List.append_nil _
  · exact .inl (toOption_ok _)

theorem simulates_list {d₀ d : VarDir} {w : World} (h : Refines d₀ d w) :
    FsEnsures breaks EfivarFs.list d (fun b t' => ∃ f, ((listed breaks).step .list f w).1 = b ∧
      Refines d₀ t' ((listed breaks).step .list f w).2) := by
  refine (Try.wp_bind _ _).mpr ((Try.wp_attempt _ _).mpr ⟨trivial, fun c => ⟨trivial, ?_⟩⟩)
  simp only [efivarfs]
  split
  · rename_i e _
    refine ⟨⟨some e, []⟩, ?_, ?_⟩
    · simp [listed, firmware, allowAll]
    · simpa [listed, firmware, allowAll] using h
  · obtain ⟨files, hfiles, hentries⟩ := entries_cases breaks c d.keys
    have hnames := (hfiles.filterMap (stripSuffix suffix)).trans (perm_names h.1)
    rcases hentries with hentries | ⟨rfl, n, hentries⟩
    · have hlist := listed_list breaks hnames
      rw [← hentries] at hlist
      exact ⟨trivial, _, congrArg Prod.fst hlist, by rw [hlist]; exact h⟩
    · have hpart := (((List.take_sublist n files).filterMap (stripSuffix suffix)).subperm).trans hnames.subperm
      have hlist := listed_part hpart
      rw [← hentries] at hlist
      exact ⟨trivial, _, congrArg Prod.fst hlist, by rw [hlist]; exact h⟩

theorem simulates_read {d₀ d : VarDir} {w : World} (h : Refines d₀ d w) (name : String) :
    FsEnsures breaks (EfivarFs.read name) d (fun b t' => ∃ f, ((listed breaks).step (.read name) f w).1 = b ∧
      Refines d₀ t' ((listed breaks).step (.read name) f w).2) := by
  have hlookup := h.1 name
  rw [shown] at hlookup
  have hread : (listed breaks).step (.read name) ⟨none, []⟩ w = (.ok (w.store.lookup name), w) := rfl
  refine (Try.wp_bind _ _).mpr ((Try.wp_always _).mpr ⟨trivial, fun c => ⟨trivial, ?_⟩⟩)
  have hfound {f : VarFile} (hf : d.lookup (path name) = some f) : w.store.lookup name = some (f.contents.drop 4) := by
    rw [← hlookup, hf]
    rfl
  simp only [efivarfs]
  split
  · rename_i hf
    rw [hf] at hlookup
    refine ⟨trivial, ⟨none, []⟩, ?_, h⟩
    rw [hread, ← hlookup]
    rfl
  · rename_i f hf
    split
    · rename_i e _
      split
      · exact ⟨trivial, ⟨none, []⟩, by rw [hread, hfound hf], h⟩
      · rename_i hkind
        dsimp only [Try.andThen]
        rw [if_neg hkind]
        exact ⟨trivial, ⟨some e, []⟩, rfl, h⟩
    · exact ⟨trivial, ⟨none, []⟩, by rw [hread, hfound hf], h⟩

theorem simulates_write {d₀ d : VarDir} {w : World} (h : Refines d₀ d w) (name : String) (value : List UInt8) :
    FsEnsures breaks (EfivarFs.write name value) d (fun b t' => ∃ f,
      ((listed breaks).step (.write name value) f w).1 = b ∧
        (Refines d₀ t' ((listed breaks).step (.write name value) f w).2 ∨
          refused (.write name value) b ∧ RefinesBut d₀ t' ((listed breaks).step (.write name value) f w).2)) := by
  refine Prog.wp_mono (fun _ h => h) ?_ (fs_write name value d)
  rintro r d' _ hwrote
  cases r with
  | ok u =>
      obtain ⟨honly, hset⟩ := hwrote
      refine ⟨⟨none, []⟩, rfl, .inl ⟨fun other => ?_, h.2.step honly fun raw hraw => ?_⟩⟩
      · change _ = AList.lookup other (w.store.insert name value)
        by_cases heq : other = name
        · subst heq
          have hdrop : (EfivarFs.buffer value).drop 4 = value := List.drop_left' (encode_length _ _)
          rw [AList.lookup_insert, shown_eq, hset, Option.map_some, hdrop]
        · rw [AList.lookup_insert_ne heq, shown_only honly heq, h.1 other]
      · rw [hset] at hraw
        exact .inr (.inr ⟨value, (Option.some.inj hraw).symm⟩)
  | error e =>
      obtain ⟨honly, hsame | ⟨hold, hnew⟩⟩ := hwrote
      · refine ⟨⟨some e, []⟩, rfl, .inl ⟨fun other => ?_, h.2.step honly fun raw hraw => .inl (hsame ▸ hraw)⟩⟩
        change _ = AList.lookup other w.store
        by_cases heq : other = name
        · subst heq
          rw [shown_eq, hsame, ← shown_eq, h.1 other]
        · rw [shown_only honly heq, h.1 other]
      · -- the file the write was for is empty now, or gone
        have hempty {d : VarDir} (hd : (contents d (path name)).getD [] = []) : (shown d name).getD [] = [] := by
          rw [shown_eq]
          cases hc : contents d (path name) with
          | none => rfl
          | some raw =>
              rw [hc] at hd
              obtain rfl : raw = [] := hd
              rfl
        refine ⟨⟨some e, []⟩, rfl, .inr ⟨trivial, ⟨name, fun other heq => ?_, hempty hnew, ?_⟩,
          h.2.step honly fun raw hraw => .inr (.inl ?_)⟩⟩
        · rw [shown_only honly heq, h.1 other]
          rfl
        · change (AList.lookup name w.store).getD [] = []
          rw [← h.1 name]
          exact hempty hold
        · rw [hraw] at hnew
          exact hnew

theorem simulates_efivarFs (breaks : Bool) (d₀ : VarDir) :
    Simulates (listed breaks) (efivarfs breaks) efivarFs refused (Refines d₀) (RefinesBut d₀) := by
  intro β o d w h
  cases o with
  | list => exact Prog.wp_mono (fun _ h => h) (fun _ _ _ ⟨f, hb, ht⟩ => ⟨f, hb, .inl ht⟩) (simulates_list h)
  | read name => exact Prog.wp_mono (fun _ h => h) (fun _ _ _ ⟨f, hb, ht⟩ => ⟨f, hb, .inl ht⟩) (simulates_read h name)
  | write name value => exact simulates_write h name value

theorem stops_readEntries (names : List String) : StopsOn refused (readEntries names).run := by
  induction names with
  | nil => exact .pure _
  | cons name names ih =>
      rw [readEntries]
      cases parseBootVarName name with
      | none => exact ih
      | some n =>
          refine .bind (.attempt fun _ h => h) fun value => .bind ih fun rest => ?_
          obtain ⟨entries, used⟩ := rest
          dsimp only
          cases value.bind parseLoadOption with
          | none => exact .pure _
          | some opt => exact .pure _

theorem stops_readBootOrder : StopsOn refused readBootOrder.run := by
  refine .bind (.attempt fun _ h => h) fun raw => ?_
  cases raw with
  | none => exact .pure _
  | some raw =>
      dsimp only
      cases parseBootOrder raw with
      | none => exact .throw _
      | some order => exact .pure _

theorem stops_obtainEntry (arch : Deploy.Arch) (gpt : GptEsp) (entries : List (UInt16 × LoadOption))
    (used : List UInt16) : StopsOn refused (obtainEntry arch gpt entries used).run := by
  rw [obtainEntry]
  have hwrite (n : UInt16) (outcome : Outcome) : StopsOn refused (do
      attempt (.write (bootVarName n)
        (encodeLoadOption LOAD_OPTION_ACTIVE DESCRIPTION (hdFileDevicePath gpt arch.espLoaderPath)))
        (.writeVar (bootVarName n))
      pure (n, outcome) : Efi (UInt16 × Outcome)).run :=
    .bind (.attempt fun _ h => h) fun _ => .pure _
  cases pickExisting entries gpt arch.espLoaderPath with
  | some n => exact .pure _
  | none =>
      cases previousEntry entries with
      | some n => exact .bind (.pure _) fun chosen => hwrite chosen.1 chosen.2
      | none =>
          cases freeBootNumber used with
          | some n => exact .bind (.pure _) fun chosen => hwrite chosen.1 chosen.2
          | none => exact .bind (.throw _) fun chosen => hwrite chosen.1 chosen.2

theorem stops_ensureIn (arch : Deploy.Arch) (gpt : GptEsp) : StopsOn refused (ensureIn arch gpt).run := by
  refine .bind (.bind (.attempt fun _ h => h) fun names => .bind (stops_readEntries names) fun _ => .pure _) fun found => ?_
  refine .bind stops_readBootOrder fun previous => .bind (stops_obtainEntry arch gpt _ _) fun chosen => ?_
  dsimp only
  split
  · exact .bind (.attempt fun _ h => h) fun _ => .pure _
  · exact .pure _

/-- A run of the registration over the store a directory shows. -/
def listedRun (breaks : Bool) (arch : Deploy.Arch) (gpt : GptEsp) (plan : Nat → Choice) (s : Store) :
    Ending (Except EfiBootError BootEntry) World :=
  (ensureIn arch gpt).run.run (listed breaks) plan ⟨s, []⟩

/-- Every run over the directory is a run over the store it shows, with the same
result: the store of the model where no listing breaks off, else one that answers a
listing with a part of its names. At the end the directory shows the store of that
run, after an error but for one empty variable, and nothing else in it has changed. -/
theorem ensureDiskBootEntry_refines (breaks : Bool) (arch : Deploy.Arch) (gpt : GptEsp) (plan : Nat → DirChoice)
    (d : VarDir) :
    let ending := (ensureDiskBootEntry arch gpt).run.run (efivarfs breaks) plan d
    ((∃ source, ending.value = .error (.mount source)) ∧ ending.final = d) ∨
      ∃ plan', let abstract := listedRun breaks arch gpt plan' (view d)
        ending.value = abstract.value ∧
          (Shows ending.final abstract.final.store ∨
            (∃ e, ending.value = .error e) ∧ ShowsBut ending.final abstract.final.store) ∧
          Kept d ending.final ∧ (breaks = false → abstract = ensureRun allowAll arch gpt plan' (view d)) := by
  have hrun : (ensureDiskBootEntry arch gpt).run.wp (efivarfs breaks) (fun _ => True) (fun r d' =>
      ((∃ source, r = .error (.mount source)) ∧ d' = d) ∨
        ∃ plan', let abstract := listedRun breaks arch gpt plan' (view d)
          r = abstract.value ∧
            (Shows d' abstract.final.store ∨ (∃ e, r = .error e) ∧ ShowsBut d' abstract.final.store) ∧ Kept d d' ∧
            (breaks = false → abstract = ensureRun allowAll arch gpt plan' (view d))) d := by
    have hstart : Refines d d ⟨view d, []⟩ := ⟨shows_view d, .refl d⟩
    have hensure := Simulates.wp (simulates_efivarFs breaks d) (stops_ensureIn arch gpt) hstart
    refine (Try.wp_bind _ _).mpr ((Try.wp_bind _ _).mpr ((Try.wp_always _).mpr ⟨trivial, fun c => ⟨trivial, ?_⟩⟩))
    have hthen : (interpTry efivarFs (ensureIn arch gpt)).run.wp (efivarfs breaks) (fun _ => True) (fun r d' =>
        ((∃ source, r = .error (.mount source)) ∧ d' = d) ∨
          ∃ plan', let abstract := listedRun breaks arch gpt plan' (view d)
            r = abstract.value ∧
              (Shows d' abstract.final.store ∨ (∃ e, r = .error e) ∧ ShowsBut d' abstract.final.store) ∧
              Kept d d' ∧ (breaks = false → abstract = ensureRun allowAll arch gpt plan' (view d))) d := by
      refine Prog.wp_mono (fun _ h => h) ?_ hensure
      rintro r d' _ ⟨plan', hvalue, hrelated⟩
      have hwhole : breaks = false → listedRun breaks arch gpt plan' (view d) = ensureRun allowAll arch gpt plan' (view d) := by
        rintro rfl
        rw [listedRun, listed_false]
        rfl
      refine .inr ⟨plan', hvalue.symm, ?_⟩
      rcases hrelated with ⟨hshows, hkept⟩ | ⟨herror, hshows, hkept⟩
      · exact ⟨.inl hshows, hkept, hwhole⟩
      · exact ⟨.inr ⟨herror, hshows⟩, hkept, hwhole⟩
    have hsame : (efivarfs breaks).step .mount c d = (((efivarfs breaks).step .mount c d).1, d) := rfl
    rw [hsame]
    dsimp only [Try.andThen]
    cases ((efivarfs breaks).step .mount c d).1 with
    | ok u => exact ⟨trivial, hthen⟩
    | error e =>
        dsimp only
        split
        · exact ⟨trivial, hthen⟩
        · exact ⟨trivial, .inl ⟨⟨e, rfl⟩, rfl⟩⟩
  exact Prog.value_of_wp hrun plan

end Beskar7Inspector.Efivarfs
