import Beskar7Inspector.Lib.LoadOrder
import Beskar7Inspector.Lib.Os
import Beskar7Inspector.Lib.ProcTable
import Beskar7Inspector.Lib.Threads
import Beskar7Inspector.Modules

namespace Beskar7Inspector.LoadDrivers

open Lib.Program Lib.Recorder Lib.Os Lib.Text Lib.ProcTable Lib.LoadOrder Lib.Threads SysTree

def LOAD_LIST_NAME : String := "beskar7.load"
def ENXIO : Errno := 6
def ENODEV : Errno := 19

/-- How many modules were inserted, were there or found no device, and failed. -/
structure Tally where
  loaded : UInt32
  skipped : UInt32
  failed : UInt32
  deriving DecidableEq, Repr

inductive Message
  | noLoadList
  | cannotRead
  | failedToLoad (module : String) (e : Errno)
  | summary (tally : Tally)
  deriving DecidableEq, Repr

inductive DriverOp : Type → Type
  | openFile (path : String) : DriverOp (Except IoError Nat)
  | finitModule (fd : Nat) (params : List UInt8) (flags : Nat) : DriverOp (Except Errno Unit)
  | eprintln (m : Message) : DriverOp Unit
  | settle (bootif : Option String) : DriverOp Unit

/-- The list of the first version, by name, that has one. -/
def findLoadList (root : SysDir) : Option (List String) :=
  ((((root.readDir []).getD []).insertionSort (· ≤ ·)).map (fun v => [v, LOAD_LIST_NAME])).find? fun path =>
    match root.find path with
    | some (.attr _) => true
    | _ => false

def parseLoadList (content : String) : List String :=
  ((lines content).map trim).filter (fun l => l ≠ "" ∧ (stripPrefix "#" l).isNone)

def insmod (path : String) : Prog DriverOp (Except Errno Unit) := do
  match ← Prog.perform (.openFile path) with
  | .error e => pure (.error (e.rawOsError.getD EINVAL))
  | .ok fd => Prog.perform (.finitModule fd [0] 0)

def loadModules : List String → Tally → Prog DriverOp Tally
  | [], tally => pure tally
  | module :: modules, tally => do
      match ← insmod module with
      | .ok () => loadModules modules { tally with loaded := tally.loaded + 1 }
      | .error e =>
          if e = EEXIST ∨ e = ENODEV ∨ e = ENXIO then loadModules modules { tally with skipped := tally.skipped + 1 }
          else do
            Prog.perform (.eprintln (.failedToLoad module e))
            loadModules modules { tally with failed := tally.failed + 1 }

def loadDrivers (root : SysDir) (bootif : Option String) : Prog DriverOp Unit :=
  match findLoadList root with
  | none => Prog.perform (.eprintln .noLoadList)
  | some listPath => match root.readToString listPath with
      | none => Prog.perform (.eprintln .cannotRead)
      | some content => do
          let tally ← loadModules (parseLoadList content) ⟨0, 0, 0⟩
          Prog.perform (.eprintln (.summary tally))
          Prog.perform (.settle bootif)

/-! The list is made when the image is built. -/

def isBlank (c : Char) : Bool := c == ' ' || c == '\t'

/-- The lines that are neither white space nor a comment, without the blanks around them. -/
def curated (modulesList : String) : List String :=
  (splitChar '\n' modulesList).filterMap fun l =>
    match l.toList.dropWhile (fun c => isAsciiWhitespace c || c == '\x0b') with
    | [] => none
    | c :: _ => if c = '#' then none else some (trimEndMatches isBlank (String.ofList (l.toList.dropWhile isBlank)))

def awkFields (line : String) : List String := ((line.toList.splitOnP isBlank).filter (· ≠ [])).map String.ofList

def insmodPath (line : String) : Option String :=
  match awkFields line with
  | "insmod" :: rest => some (rest.headD "")
  | _ => none

/-- `basename`, with the ending of a compressed file taken off. -/
def uncompressed (ko : String) : String :=
  let base := ((splitChar '/' ko).getLast?).getD ""
  let unc := (stripSuffix ".gz" base).getD base
  (stripSuffix ".zst" unc).getD unc

def shippedAs (kver ko : String) : String := "/lib/modules/" ++ kver ++ "/" ++ uncompressed ko

/-- The lines of the list, from what the tool says each module depends on; a
module it does not know fails the build. -/
def loadList (kver modulesList : String) (showDepends : String → Option (List String)) : Option (List String) :=
  ((curated modulesList).mapM showDepends).map fun outputs =>
    (firsts [] (outputs.flatten.filterMap insmodPath)).map (shippedAs kver)

/-! What a run does, whatever is answered. -/

inductive Event
  | openFile (path : String) (r : Except IoError Nat)
  | finitModule (fd : Nat) (params : List UInt8) (flags : Nat) (r : Except Errno Unit)
  | eprintln (m : Message)
  | settle (bootif : Option String)

def event : ∀ {β : Type}, DriverOp β → β → Event
  | _, .openFile path, r => .openFile path r
  | _, .finitModule fd params flags, r => .finitModule fd params flags r
  | _, .eprintln m, _ => .eprintln m
  | _, .settle bootif, _ => .settle bootif

/-- The ends of an insertion that are no failure, apart from success. -/
def expected : List (Except Errno Unit) := [.error EEXIST, .error ENODEV, .error ENXIO]

/-- One attempt at one module: its file is opened and inserted, without parameters. -/
inductive Tried (path : String) : List Event → Except Errno Unit → Prop
  | unopened (e : IoError) : Tried path [.openFile path (.error e)] (.error (e.rawOsError.getD EINVAL))
  | opened (fd : Nat) (r : Except Errno Unit) : Tried path [.openFile path (.ok fd), .finitModule fd [0] 0 r] r

/-- The line that is written behind an attempt: what failed, and with which error. -/
def complaint (path : String) : Except Errno Unit → List Event
  | .ok _ => []
  | .error e => if .error e ∈ expected then [] else [.eprintln (.failedToLoad path e)]

/-- The attempts at all the modules, each once and in turn, with what they come to. -/
inductive Loads : List String → List Event → List (String × Except Errno Unit) → Prop
  | nil : Loads [] [] []
  | cons {path : String} {modules : List String} {attempt trace : List Event} {r : Except Errno Unit}
      {results : List (String × Except Errno Unit)} (h : Tried path attempt r) (hrest : Loads modules trace results) :
      Loads (path :: modules) (attempt ++ (complaint path r ++ trace)) ((path, r) :: results)

/-- The summary of the attempts. -/
def account (results : List (String × Except Errno Unit)) : Tally where
  loaded := UInt32.ofNat (results.countP fun a => a.2 = .ok ())
  skipped := UInt32.ofNat (results.countP fun a => a.2 ∈ expected)
  failed := UInt32.ofNat (results.countP fun a => a.2 ∉ .ok () :: expected)

section

variable {modules : List String} {trace : List Event} {results : List (String × Except Errno Unit)}

theorem runs_insmod {path : String} {r : Except Errno Unit} (h : Runs event (insmod path) trace r) : Tried path trace r := by
  obtain ⟨first, opened, second, hopen, hrest, rfl⟩ := Runs.bind_iff.mp h
  obtain rfl := hopen.perform
  cases opened with
  | error e =>
      cases hrest
      exact .unopened e
  | ok fd =>
      obtain rfl := Runs.perform hrest
      exact .opened fd r

/-- A module failed to load only if one of the calls did. -/
theorem Loads.ok_of_calls (h : Loads modules trace results) (hopened : ∀ path e, .openFile path (.error e) ∉ trace)
    (hinserted : ∀ fd params flags e, .finitModule fd params flags (.error e) ∉ trace) : ∀ a ∈ results, a.2 = .ok () := by
  induction h with
  | nil => exact List.forall_mem_nil _
  | @cons path modules attempt trace r results htried hrest ih =>
      simp only [List.mem_append, not_or] at hopened hinserted
      refine List.forall_mem_cons.mpr ⟨?_, ih (fun path e => (hopened path e).2.2) fun fd params flags e =>
        (hinserted fd params flags e).2.2⟩
      cases htried with
      | unopened e => exact absurd List.mem_cons_self (hopened _ e).1
      | opened fd =>
          cases r with
          | ok _ => rfl
          | error e => exact absurd (List.mem_cons_of_mem _ List.mem_cons_self) (hinserted fd _ _ e).1

theorem runs_loadModules {tally tally' : Tally} (h : Runs event (loadModules modules tally) trace tally') :
    ∃ results, Loads modules trace results ∧ tally' = ⟨tally.loaded + (account results).loaded,
      tally.skipped + (account results).skipped, tally.failed + (account results).failed⟩ := by
  induction modules generalizing tally trace with
  | nil =>
      cases h
      exact ⟨[], .nil, by simp [account]⟩
  | cons path modules ih =>
      rw [loadModules] at h
      obtain ⟨attempt, r, rest, htried, hrest, rfl⟩ := Runs.bind_iff.mp h
      replace htried := runs_insmod htried
      cases r with
      | ok _ =>
          obtain ⟨results, hloads, rfl⟩ := ih hrest
          refine ⟨_, .cons htried hloads, ?_⟩
          simp [account, expected, UInt32.ofNat_add, UInt32.add_assoc, UInt32.add_comm]
      | error e =>
          by_cases hexpected : e = EEXIST ∨ e = ENODEV ∨ e = ENXIO
          · dsimp only at hrest
            rw [if_pos hexpected] at hrest
            obtain ⟨results, hloads, rfl⟩ := ih hrest
            have hmem : Except.error e ∈ expected := by simpa [expected] using hexpected
            have hcons := Loads.cons htried hloads
            rw [complaint, if_pos hmem, List.nil_append] at hcons
            refine ⟨_, hcons, ?_⟩
            simp [account, hmem, UInt32.ofNat_add, UInt32.add_assoc, UInt32.add_comm]
          · dsimp only at hrest
            rw [if_neg hexpected] at hrest
            obtain ⟨line, _, later, hline, hlater, rfl⟩ := Runs.bind_iff.mp hrest
            obtain rfl := hline.perform
            obtain ⟨results, hloads, rfl⟩ := ih hlater
            have hmem : Except.error e ∉ expected := by simpa [expected] using hexpected
            have hcons := Loads.cons htried hloads
            rw [complaint, if_neg hmem] at hcons
            refine ⟨_, hcons, ?_⟩
            simp [account, hmem, UInt32.ofNat_add, UInt32.add_assoc, UInt32.add_comm]

end

/-! The list as it was written is the list that is read. -/

section

def Clean (s : String) : Prop := ∀ c ∈ s.toList, isWhitespace c = false

theorem clean_of_all {s : String} (h : s.toList.all (!isWhitespace ·) = true) : Clean s := by
  intro c hc
  have hclean := List.all_eq_true.mp h c hc
  rwa [Bool.not_eq_true'] at hclean

theorem trim_of_clean {s : String} (h : Clean s) : trim s = s := by
  have hdrop {cs : List Char} (hcs : ∀ c ∈ cs, isWhitespace c = false) : cs.dropWhile isWhitespace = cs := by
    cases cs with
    | nil => rfl
    | cons c cs => rw [List.dropWhile_cons, hcs c List.mem_cons_self]; rfl
  have hreverse : s.toList.reverse.dropWhile isWhitespace = s.toList.reverse :=
    hdrop fun c hc => h c (List.mem_reverse.mp hc)
  rw [trim, hdrop h, String.ofList_toList, trimEndMatches, hreverse, List.reverse_reverse, String.ofList_toList]

theorem Clean.append {a b : String} (ha : Clean a) (hb : Clean b) : Clean (a ++ b) := by
  intro c hc
  rw [String.toList_append, List.mem_append] at hc
  exact hc.elim (ha c) (hb c)

theorem Clean.of_append {a b : String} (h : Clean (a ++ b)) : Clean a := by
  intro c hc
  refine h c ?_
  rw [String.toList_append]
  exact List.mem_append_left _ hc

theorem Clean.stripSuffix {suf s : String} (h : Clean s) : Clean ((stripSuffix suf s).getD s) := by
  cases hs : Lib.Text.stripSuffix suf s with
  | none => exact h
  | some rest =>
      rw [stripSuffix_eq_some_iff.mp hs] at h
      exact h.of_append

theorem clean_uncompressed {ko : String} (h : Clean ko) : Clean (uncompressed ko) := by
  have hbase : Clean (((splitChar '/' ko).getLast?).getD "") := by
    cases hlast : (splitChar '/' ko).getLast? with
    | none => exact fun c hc => nomatch hc
    | some piece =>
        obtain ⟨hko, -⟩ := (splitChar_eq_iff (c := '/') (s := ko) (by simp [splitChar])).mp rfl
        have hinside : piece.toList <:+: (String.intercalate (String.singleton '/') (splitChar '/' ko)).toList :=
          infix_intercalate (List.mem_of_getLast? hlast)
        rw [← hko] at hinside
        exact fun c hc => h c (hinside.subset hc)
  exact hbase.stripSuffix.stripSuffix

theorem clean_shippedAs {kver ko : String} (hkver : Clean kver) (hko : Clean ko) : Clean (shippedAs kver ko) := by
  have hdir : Clean "/lib/modules/" := clean_of_all (by decide)
  have hslash : Clean "/" := clean_of_all (by decide)
  exact ((hdir.append hkver).append hslash).append (clean_uncompressed hko)

theorem parseLoadList_unlines {paths : List String} (h : ∀ path ∈ paths, Clean path ∧ path.toList.head? = some '/') :
    parseLoadList (unlines paths) = paths := by
  have hline : ∀ path ∈ paths, '\n' ∉ path.toList := fun path hpath hc =>
    absurd ((h path hpath).1 _ hc) (by decide)
  rw [parseLoadList, lines_unlines hline, List.map_map]
  have hread : ∀ path ∈ paths, (trim ∘ fun l => (stripSuffix "\r" l).getD l) path = path := by
    intro path hpath
    have hclean := (h path hpath).1
    have hstrip : stripSuffix "\r" path = none := by
      rw [Option.eq_none_iff_forall_ne_some]
      intro rest hrest
      rw [stripSuffix_eq_some_iff.mp hrest] at hclean
      refine absurd (hclean '\r' ?_) (by decide)
      rw [String.toList_append]
      exact List.mem_append_right _ (by decide)
    rw [Function.comp_apply, hstrip, Option.getD_none, trim_of_clean hclean]
  rw [List.map_congr_left hread, List.map_id', List.filter_eq_self]
  intro path hpath
  have hhead := (h path hpath).2
  have hne : path ≠ "" := by
    rintro rfl
    cases hhead
  have hcomment : stripPrefix "#" path = none := by
    rw [Option.eq_none_iff_forall_ne_some]
    intro rest hrest
    rw [stripPrefix_eq_some_iff.mp hrest, String.toList_append] at hhead
    change some '#' = some '/' at hhead
    exact absurd hhead (by decide)
  rw [hcomment]
  exact decide_eq_true ⟨hne, rfl⟩

/-- The files of the modules that one entry of the curated list comes to. -/
def chain (kver : String) (showDepends : String → Option (List String)) (mod : String) : List String :=
  (((showDepends mod).getD []).filterMap insmodPath).map (shippedAs kver)

theorem mapM_eq_some {f : String → Option (List String)} {ls : List String} {outputs : List (List String)}
    (h : ls.mapM f = some outputs) : outputs = ls.map (fun l => (f l).getD []) := by
  induction ls generalizing outputs with
  | nil =>
      cases h
      rfl
  | cons l ls ih =>
      rw [List.mapM_cons] at h
      obtain ⟨output, hl, h⟩ := Option.bind_eq_some_iff.mp h
      obtain ⟨outputs', hls, h⟩ := Option.bind_eq_some_iff.mp h
      cases h
      rw [List.map_cons, hl, ← ih hls]
      rfl

theorem loadList_eq {kver modulesList : String} {showDepends : String → Option (List String)} {paths : List String}
    (h : loadList kver modulesList showDepends = some paths) :
    paths = (firsts [] ((curated modulesList).flatMap fun mod =>
      ((showDepends mod).getD []).filterMap insmodPath)).map (shippedAs kver) := by
  obtain ⟨outputs, houtputs, rfl⟩ := Option.map_eq_some_iff.mp h
  rw [mapM_eq_some houtputs, List.filterMap_flatten, List.map_map]
  rfl

theorem mem_loadList {kver modulesList : String} {showDepends : String → Option (List String)} {paths : List String}
    (h : loadList kver modulesList showDepends = some paths) {path : String} :
    path ∈ paths ↔ ∃ mod ∈ curated modulesList, path ∈ chain kver showDepends mod := by
  rw [loadList_eq h, List.mem_map]
  constructor
  · rintro ⟨ko, hko, rfl⟩
    obtain ⟨mod, hmod, hko⟩ := List.mem_flatMap.mp (mem_firsts.mp hko).1
    exact ⟨mod, hmod, List.mem_map_of_mem hko⟩
  · rintro ⟨mod, hmod, hpath⟩
    obtain ⟨ko, hko, rfl⟩ := List.mem_map.mp hpath
    exact ⟨ko, mem_firsts.mpr ⟨List.mem_flatMap.mpr ⟨mod, hmod, hko⟩, List.not_mem_nil⟩, rfl⟩

theorem ordered_loadList {needs : String → List String} {base : Set String} {kver modulesList : String}
    {showDepends : String → Option (List String)} {paths : List String}
    (h : loadList kver modulesList showDepends = some paths)
    (hchains : ∀ mod ∈ curated modulesList, Ordered needs base (chain kver showDepends mod)) :
    Ordered needs base paths := by
  rw [loadList_eq h]
  refine Ordered.firsts ?_ (List.forall_mem_nil _)
  rw [List.map_flatMap, List.flatMap_def]
  exact Ordered.flatten (List.forall_mem_map.mpr hchains)

end

/-- The image: the modules of one version of the kernel, and the list beside them. -/
def initramfs (kver : String) (paths : List String) (kos : List (String × SysNode)) : SysDir where
  entries := [(kver, .dir ((LOAD_LIST_NAME, .attr (some (unlines paths))) :: kos))]
  distinct := List.nodup_singleton kver

theorem find_initramfs (kver : String) (paths : List String) (kos : List (String × SysNode)) :
    (initramfs kver paths kos).find [kver, LOAD_LIST_NAME] = some (.attr (some (unlines paths))) := by
  simp [SysDir.find, initramfs, SysNode.find, SysNode.children]

theorem findLoadList_initramfs (kver : String) (paths : List String) (kos : List (String × SysNode)) :
    findLoadList (initramfs kver paths kos) = some [kver, LOAD_LIST_NAME] := by
  have hdir : (initramfs kver paths kos).readDir [] = some [kver] := rfl
  rw [findLoadList, hdir, Option.getD_some, List.insertionSort_cons, List.insertionSort_nil, List.orderedInsert_nil,
    List.map_singleton, List.find?_singleton, find_initramfs]
  rfl

theorem parseLoadList_loadList {kver modulesList : String} {showDepends : String → Option (List String)}
    {paths : List String} (hbuilt : loadList kver modulesList showDepends = some paths) (hkver : Clean kver)
    (hclean : ∀ mod output, showDepends mod = some output → ∀ ko ∈ output.filterMap insmodPath, Clean ko) :
    parseLoadList (unlines paths) = paths := by
  refine parseLoadList_unlines fun path hpath => ?_
  obtain ⟨mod, -, hchain⟩ := (mem_loadList hbuilt).mp hpath
  obtain ⟨ko, hko, rfl⟩ := List.mem_map.mp hchain
  cases houtput : showDepends mod with
  | none =>
      rw [houtput] at hko
      cases hko
  | some output =>
      rw [houtput] at hko
      refine ⟨clean_shippedAs hkver (hclean mod output houtput ko hko), ?_⟩
      simp only [shippedAs, String.toList_append, List.append_assoc]
      rfl

/-- What is in the kernel after some attempts: what was before, and what was inserted or found there. -/
def There (base : Set String) (results : List (String × Except Errno Unit)) (path : String) : Prop :=
  path ∈ base ∨ ∃ r, (path, r) ∈ results ∧ (r = .ok () ∨ r = .error EEXIST)

/-- The answers are those of a kernel that takes a module which works whenever all that
it needs is there, unless the module is there itself. -/
def Accepts (needs : String → List String) (works : String → Prop) (base : Set String)
    (results : List (String × Except Errno Unit)) : Prop :=
  ∀ before path r after, results = before ++ (path, r) :: after → works path → (∀ need ∈ needs path, There base before need) →
    r = .ok () ∨ r = .error EEXIST

section

variable {needs : String → List String} {works : String → Prop} {base seen : Set String} {modules : List String}
  {trace : List Event} {before results : List (String × Except Errno Unit)}

theorem There.append {path : String} (h : There base before path) (results : List (String × Except Errno Unit)) :
    There base (before ++ results) path :=
  h.imp_right fun ⟨r, hmem, hr⟩ => ⟨r, List.mem_append_left _ hmem, hr⟩

/-- In an order in which all that a module needs comes before it, what can be loaded at all is loaded. -/
theorem Loads.there (h : Loads modules trace results) (hordered : Ordered needs seen modules)
    (haccepts : Accepts needs works base (before ++ results))
    (hseen : ∀ path ∈ seen, Loadable needs works base path → There base before path) :
    ∀ path ∈ modules, Loadable needs works base path → There base (before ++ results) path := by
  induction h generalizing seen before with
  | nil => exact fun _ h => nomatch h
  | @cons path modules attempt trace r results htried hrest ih =>
      have hthere : Loadable needs works base path → There base (before ++ [(path, r)]) path := by
        intro hloadable
        cases hloadable with
        | base hbase => exact .inl hbase
        | load hworks hall =>
            refine .inr ⟨r, List.mem_append_right _ List.mem_cons_self, ?_⟩
            exact haccepts before path r results rfl hworks fun need hneed =>
              hseen need (hordered.1 need hneed) (hall need hneed)
      have hsplit : before ++ (path, r) :: results = (before ++ [(path, r)]) ++ results := by
        rw [List.append_assoc, List.singleton_append]
      rw [hsplit] at haccepts ⊢
      have hlater := ih hordered.2 haccepts fun path' hpath' hloadable => by
        cases hpath' with
        | inl heq =>
            subst heq
            exact hthere hloadable
        | inr hold => exact (hseen path' hold hloadable).append _
      intro path' hpath' hloadable
      cases List.mem_cons.mp hpath' with
      | inl heq =>
          subst heq
          exact (hthere hloadable).append results
      | inr hmem => exact hlater path' hmem hloadable

end

theorem runs_loadDrivers {root : SysDir} {listPath : List String} {content : String} {bootif : Option String}
    {trace : List Event} (hfind : findLoadList root = some listPath) (hread : root.readToString listPath = some content)
    (h : Runs event (loadDrivers root bootif) trace ()) : ∃ loads results,
      trace = loads ++ [.eprintln (.summary (account results)), .settle bootif] ∧
      Loads (parseLoadList content) loads results := by
  simp only [loadDrivers, hfind, hread] at h
  obtain ⟨loads, tally, rest, hloads, hrest, rfl⟩ := Runs.bind_iff.mp h
  obtain ⟨line, _, wait, hline, hwait, rfl⟩ := Runs.bind_iff.mp hrest
  obtain rfl := hline.perform
  obtain rfl := hwait.perform
  obtain ⟨results, hresults, rfl⟩ := runs_loadModules hloads
  refine ⟨loads, results, ?_, hresults⟩
  simp only [UInt32.zero_add]
  rfl

/-- Over the image that the list was built for, and whatever is answered: each module
that is listed is tried once, in order, and each failure reported with its error; then
come the summary and the wait. Where the kernel takes what it can, the modules that can
be loaded at all are there in the end, whatever becomes of the others. -/
theorem loadDrivers_loads {kver modulesList : String} {showDepends : String → Option (List String)} {paths : List String}
    (hbuilt : loadList kver modulesList showDepends = some paths) (hkver : Clean kver)
    (hclean : ∀ mod output, showDepends mod = some output → ∀ ko ∈ output.filterMap insmodPath, Clean ko)
    {kos : List (String × SysNode)} {bootif : Option String} {trace : List Event}
    (h : Runs event (loadDrivers (initramfs kver paths kos) bootif) trace ()) : ∃ loads results,
      trace = loads ++ [.eprintln (.summary (account results)), .settle bootif] ∧ Loads paths loads results ∧
      (∀ path, path ∈ paths ↔ ∃ mod ∈ curated modulesList, path ∈ chain kver showDepends mod) ∧
      ∀ needs works base, (∀ mod ∈ curated modulesList, Ordered needs base (chain kver showDepends mod)) →
        Accepts needs works base results → ∀ path ∈ paths, Loadable needs works base path → There base results path := by
  have hcontent : (initramfs kver paths kos).readToString [kver, LOAD_LIST_NAME] = some (unlines paths) := by
    rw [SysDir.readToString, find_initramfs]
  obtain ⟨loads, results, htrace, hloads⟩ := runs_loadDrivers (findLoadList_initramfs kver paths kos) hcontent h
  rw [parseLoadList_loadList hbuilt hkver hclean] at hloads
  refine ⟨loads, results, htrace, hloads, fun path => mem_loadList hbuilt, fun needs works base hchains haccepts => ?_⟩
  have hnone : Accepts needs works base ([] ++ results) := haccepts
  exact hloads.there (ordered_loadList hbuilt hchains) hnone fun path hpath _ => .inl hpath

def netDrivers (mod : String) : Option (List String) :=
  if mod = "virtio_net" then some ["insmod /lib/modules/6.6/net_failover.ko.gz ", "insmod /lib/modules/6.6/virtio_net.ko.gz "]
  else if mod = "e1000" then some ["builtin e1000"]
  else none

/-- Every file can be opened and every module inserted. -/
def allWell : Answers DriverOp := fun {β} o =>
  match β, o with
  | _, .openFile _ => .ok 3
  | _, .finitModule _ _ _ => .ok ()
  | _, .eprintln _ => ()
  | _, .settle _ => ()

/-- The one module needs the other. -/
def guestNeeds (path : String) : List String :=
  if path = "/lib/modules/6.6/virtio_net.ko" then ["/lib/modules/6.6/net_failover.ko"] else []

theorem loadDrivers_loads_guest : ∃ results,
    Runs event (loadDrivers (initramfs "6.6" ["/lib/modules/6.6/net_failover.ko", "/lib/modules/6.6/virtio_net.ko"] []) none)
      [.openFile "/lib/modules/6.6/net_failover.ko" (.ok 3), .finitModule 3 [0] 0 (.ok ()),
        .openFile "/lib/modules/6.6/virtio_net.ko" (.ok 3), .finitModule 3 [0] 0 (.ok ()),
        .eprintln (.summary ⟨2, 0, 0⟩), .settle none] () ∧
    There ∅ results "/lib/modules/6.6/virtio_net.ko" := by
  have hbuilt : loadList "6.6" "# guests\n virtio_net\n\ne1000\n" netDrivers =
      some ["/lib/modules/6.6/net_failover.ko", "/lib/modules/6.6/virtio_net.ko"] := by
    decide +kernel
  have hcurated : curated "# guests\n virtio_net\n\ne1000\n" = ["virtio_net", "e1000"] := by decide +kernel
  have hnet : chain "6.6" netDrivers "virtio_net" =
      ["/lib/modules/6.6/net_failover.ko", "/lib/modules/6.6/virtio_net.ko"] := by
    decide +kernel
  have he1000 : chain "6.6" netDrivers "e1000" = [] := by decide +kernel
  have hkos : ∀ ko ∈ ["insmod /lib/modules/6.6/net_failover.ko.gz ",
      "insmod /lib/modules/6.6/virtio_net.ko.gz "].filterMap insmodPath, ko.toList.all (!isWhitespace ·) = true := by
    decide +kernel
  have hclean : ∀ mod output, netDrivers mod = some output → ∀ ko ∈ output.filterMap insmodPath, Clean ko := by
    intro mod output houtput ko hko
    rw [netDrivers] at houtput
    split at houtput
    · cases houtput
      exact clean_of_all (hkos ko hko)
    · split at houtput
      · cases houtput
        have hnone : ["builtin e1000"].filterMap insmodPath = [] := by decide +kernel
        rw [hnone] at hko
        cases hko
      · cases houtput
  have hkver : Clean "6.6" := clean_of_all (by decide)
  have hcontent : (initramfs "6.6" ["/lib/modules/6.6/net_failover.ko", "/lib/modules/6.6/virtio_net.ko"] []).readToString
      ["6.6", LOAD_LIST_NAME] =
        some (unlines ["/lib/modules/6.6/net_failover.ko", "/lib/modules/6.6/virtio_net.ko"]) := by
    rw [SysDir.readToString, find_initramfs]
  have hruns : Runs event (loadDrivers (initramfs "6.6"
      ["/lib/modules/6.6/net_failover.ko", "/lib/modules/6.6/virtio_net.ko"] []) none)
      [.openFile "/lib/modules/6.6/net_failover.ko" (.ok 3), .finitModule 3 [0] 0 (.ok ()),
        .openFile "/lib/modules/6.6/virtio_net.ko" (.ok 3), .finitModule 3 [0] 0 (.ok ()),
        .eprintln (.summary ⟨2, 0, 0⟩), .settle none] () := by
    simp only [loadDrivers, findLoadList_initramfs, hcontent, parseLoadList_loadList hbuilt hkver hclean]
    exact .call allWell (.call allWell (.call allWell (.call allWell (.call allWell (.call allWell (.ret ()))))))
  obtain ⟨loads, results, htrace, hloads, -, hthere⟩ := loadDrivers_loads hbuilt hkver hclean hruns
  have hsub : ∀ e ∈ loads, e ∈ _ := fun e he => htrace.symm ▸ List.mem_append_left _ he
  have hall : ∀ a ∈ results, a.2 = .ok () :=
    hloads.ok_of_calls (fun path e he => by simpa using hsub _ he) fun fd params flags e he => by simpa using hsub _ he
  have haccepts : Accepts guestNeeds (fun _ => True) ∅ results := fun before path r after hresults _ _ =>
    .inl (hall (path, r) (by rw [hresults]; simp))
  refine ⟨results, hruns, hthere guestNeeds _ ∅ ?_ haccepts _ (by simp) ?_⟩
  · rw [hcurated, List.forall_mem_cons, List.forall_mem_singleton, hnet, he1000]
    exact ⟨⟨by simp [guestNeeds], by simp [guestNeeds], trivial⟩, trivial⟩
  · refine .load trivial fun need hneed => .load trivial fun need' hneed' => ?_
    have hfailover : need = "/lib/modules/6.6/net_failover.ko" := by simpa [guestNeeds] using hneed
    subst hfailover
    simp [guestNeeds] at hneed'

end Beskar7Inspector.LoadDrivers
