import Beskar7Inspector.EspFallback
import Beskar7Inspector.Lib.EfiShell

namespace Beskar7Inspector.StartupNsh

open Lib.Text Lib.Decimal Lib.EfiShell Deploy EspFallback

/-- Two hex digits for each of the random bytes. -/
def newMarker (bytes : List UInt8) : String :=
  String.ofList (bytes.flatMap fun b => [Nat.digitChar (b.toNat / 16), Nat.digitChar (b.toNat % 16)])

/-- A path on one of the file systems the Shell has mapped. -/
def onMapping (n : Nat) (path : String) : List Char := "FS".toList ++ Nat.toDigits 10 n ++ ':' :: path.toList

def markerPath (marker : String) : String := "\\EFI\\beskar7\\" ++ marker ++ ".id"

def noDisk (marker : String) : List Char :=
  "beskar7: no disk with marker ".toList ++ marker.toList ++ " found, stopping at the Shell prompt".toList

/-- Those of the mappings that carry the marker. -/
def marked (sys : System) (marker : String) (ns : List Nat) : List Nat :=
  ns.filter (fun n => sys.present (onMapping n (markerPath marker)))

/-- What a file system that carries the marker adds to the log, and whether the
Shell is back afterwards. -/
def bootFrom (arch : Arch) (sys : System) (n : Nat) : List Event × Bool :=
  let path := onMapping n arch.espLoaderPath
  let starting := Event.said ("beskar7: starting ".toList ++ path)
  let returned := Event.said ("beskar7: ".toList ++ arch.espLoaderPath.toList ++ " on FS".toList ++ Nat.toDigits 10 n ++
    ": returned".toList)
  if sys.present path then
    if sys.returns path then ([starting, .started path, returned], true) else ([starting, .started path], false)
  else ([starting, .unknown path, returned], true)

def bootEach (arch : Arch) (sys : System) : List Nat → List Event × Bool
  | [] => ([], true)
  | n :: ns =>
      let first := bootFrom arch sys n
      if first.2 then (first.1 ++ (bootEach arch sys ns).1, (bootEach arch sys ns).2) else (first.1, false)

section

variable (arch : Arch) (marker : String)

def scriptLines : List (List Char) :=
  let loader := arch.espLoaderPath.toList
  ["@echo -off".toList,
    startupNshSignature.toList ++ ": boot the disk provisioned with marker ".toList ++ marker.toList ++ ".".toList,
    "set -v b7found 0".toList,
    "for %i run (0 ".toList ++ (Nat.repr (startupNshMappings - 1)).toList ++ ")".toList,
    "  if exist FS%i:\\EFI\\".toList ++ markerDirName.toList ++ "\\".toList ++ marker.toList ++ ".id then".toList,
    "    set -v b7found 1".toList,
    "    echo beskar7: starting FS%i:".toList ++ loader,
    "    FS%i:".toList ++ loader,
    "    echo beskar7: ".toList ++ loader ++ " on FS%i: returned".toList,
    "  endif".toList,
    "endfor".toList,
    "if %b7found% == 0 then".toList,
    "  echo beskar7: no disk with marker ".toList ++ marker.toList ++
      " found, stopping at the Shell prompt".toList,
    "endif".toList]

def bootBlock : List Stmt :=
  let loader := arch.espLoaderPath.toList
  [.set "b7found".toList "1".toList,
    .echo ("beskar7: starting FS%i:".toList ++ loader),
    .run ("FS%i:".toList ++ loader),
    .echo ("beskar7: ".toList ++ loader ++ " on FS%i: returned".toList)]

def scriptStmts : List Stmt :=
  [.set "b7found".toList "0".toList,
    .forRun 'i' 0 31
      [.ifExist ("FS%i:\\EFI\\beskar7\\".toList ++ marker.toList ++ ".id".toList) (bootBlock arch)],
    .ifEqual "%b7found%".toList "0".toList [.echo (noDisk marker)]]

theorem toList_crlf {lines : List String} (h : lines ≠ []) :
    (String.intercalate "\r\n" lines ++ "\r\n").toList = (lines.map String.toList).flatMap (· ++ ['\r', '\n']) := by
  rw [String.toList_append, String.toList_intercalate]
  induction lines with
  | nil => exact absurd rfl h
  | cons line lines ih =>
      cases lines with
      | nil => simp
      | cons next lines =>
          have hrest := ih (List.cons_ne_nil _ _)
          rw [List.map_cons, List.flatMap_cons, ← hrest]
          simp

theorem toList_renderStartupNsh :
    (renderStartupNsh arch marker).toList = (scriptLines arch marker).flatMap (· ++ ['\r', '\n']) := by
  rw [renderStartupNsh, toList_crlf (List.cons_ne_nil _ _)]
  simp only [List.map_cons, List.map_nil, String.toList_append]
  rfl

/-- The lines as they are read; the last line break leaves an empty one. -/
def readLines : List Line :=
  let loader := arch.espLoaderPath.toList
  [.skip, .skip, .stmt (.set "b7found".toList "0".toList), .forRun 'i' 0 31,
    .ifExist ("FS%i:\\EFI\\beskar7\\".toList ++ marker.toList ++ ".id".toList),
    .stmt (.set "b7found".toList "1".toList),
    .stmt (.echo ("beskar7: starting FS%i:".toList ++ loader)),
    .stmt (.run ("FS%i:".toList ++ loader)),
    .stmt (.echo ("beskar7: ".toList ++ loader ++ " on FS%i: returned".toList)),
    .endIf, .endFor, .ifEqual "%b7found%".toList "0".toList, .stmt (.echo (noDisk marker)), .endIf, .skip]

theorem readLine_ifExist :
    readLine ("  if exist FS%i:\\EFI\\".toList ++ markerDirName.toList ++ "\\".toList ++ marker.toList ++
      ".id then".toList) = some (.ifExist ("FS%i:\\EFI\\beskar7\\".toList ++ marker.toList ++ ".id".toList)) := by
  have hstrip : stripSuffix " then" (String.ofList ("FS%i:\\EFI\\beskar7\\".toList ++ marker.toList ++
      ".id then".toList)) = some (String.ofList ("FS%i:\\EFI\\beskar7\\".toList ++ marker.toList ++ ".id".toList)) := by
    rw [stripSuffix_eq_some_iff]
    apply String.toList_inj.mp
    simp only [String.toList_append, String.toList_ofList, List.append_assoc]
    rfl
  change (stripSuffix " then" (String.ofList ("FS%i:\\EFI\\beskar7\\".toList ++ marker.toList ++
    ".id then".toList))).map (fun path => Line.ifExist path.toList) = _
  rw [hstrip, Option.map_some, String.toList_ofList]

theorem mapM_readLine : (scriptLines arch marker ++ [[]]).mapM readLine = some (readLines arch marker) := by
  cases arch with
  | x86_64 =>
    simp only [scriptLines, List.cons_append, List.nil_append, List.mapM_cons, List.mapM_nil]
    rw [readLine_ifExist]
    rfl
  | aarch64 =>
    simp only [scriptLines, List.cons_append, List.nil_append, List.mapM_cons, List.mapM_nil]
    rw [readLine_ifExist]
    rfl

end

/-- No character of the marker means anything to the Shell. -/
def Plain (marker : String) : Prop := '%' ∉ marker.toList ∧ '\r' ∉ marker.toList

theorem plain_newMarker (bytes : List UInt8) : Plain (newMarker bytes) := by
  have hdigit : ∀ n < 16, Nat.digitChar n ≠ '%' ∧ Nat.digitChar n ≠ '\r' := by decide
  have hall : ∀ c ∈ (newMarker bytes).toList, c ≠ '%' ∧ c ≠ '\r' := by
    intro c hc
    rw [newMarker, String.toList_ofList, List.mem_flatMap] at hc
    obtain ⟨b, _, hc⟩ := hc
    have hb := b.toNat_lt
    rcases List.mem_cons.mp hc with rfl | hc
    · exact hdigit _ (by omega)
    · rw [List.mem_singleton.mp hc]
      exact hdigit _ (by omega)
  exact ⟨fun h => (hall _ h).1 rfl, fun h => (hall _ h).2 rfl⟩

variable {arch : Arch} {marker : String} {sys : System}

theorem readScript_renderStartupNsh (h : Plain marker) :
    readScript (renderStartupNsh arch marker) = some (scriptStmts arch marker) := by
  have hfree : ∀ line ∈ scriptLines arch marker, '\r' ∉ line := by
    have hloader : '\r' ∉ arch.espLoaderPath.toList := by cases arch <;> decide
    have hmarker := h.2
    simp only [scriptLines, List.forall_mem_cons, List.mem_append, not_or, hloader, hmarker, not_false_eq_true,
      and_true, List.not_mem_nil, false_implies, implies_true]
    and_intros <;> decide
  rw [readScript, toList_renderStartupNsh, splitLines_lines hfree, mapM_readLine]
  rfl

theorem not_mem_digits (n : Nat) : '%' ∉ Nat.toDigits 10 n := by
  intro h
  have := isAsciiDigit_of_mem_toDigits h
  revert this
  decide

theorem expand_index {s : State} {n : Nat} (hs : s.index = some ('i', Nat.toDigits 10 n)) {before after : List Char}
    (hbefore : '%' ∉ before) (hafter : '%' ∉ after) :
    expand s (before ++ "%i".toList ++ after) = before ++ Nat.toDigits 10 n ++ after := by
  rw [List.append_assoc]
  exact expand_mark hs hbefore (not_mem_digits n) hafter

/-- The state of the script in its loop. -/
def inLoop (n : Nat) (s : State) : State := { s with index := some ('i', Nat.toDigits 10 n) }

theorem free_loader (arch : Arch) : '%' ∉ arch.espLoaderPath.toList := by cases arch <;> decide

theorem expand_starting {n : Nat} {s : State} (hs : s.index = some ('i', Nat.toDigits 10 n)) :
    expand s ("beskar7: starting FS%i:".toList ++ arch.espLoaderPath.toList) =
      "beskar7: starting ".toList ++ onMapping n arch.espLoaderPath := calc
  _ = expand s ("beskar7: starting FS".toList ++ "%i".toList ++ ':' :: arch.espLoaderPath.toList) := rfl
  _ = "beskar7: starting FS".toList ++ Nat.toDigits 10 n ++ ':' :: arch.espLoaderPath.toList :=
      expand_index hs (by decide) (by simpa using free_loader arch)
  _ = _ := by
      rw [onMapping, List.append_assoc, List.append_assoc]
      rfl

theorem expand_run {n : Nat} {s : State} (hs : s.index = some ('i', Nat.toDigits 10 n)) :
    expand s ("FS%i:".toList ++ arch.espLoaderPath.toList) = onMapping n arch.espLoaderPath :=
  @expand_index s n hs "FS".toList (':' :: arch.espLoaderPath.toList) (by decide) (by simpa using free_loader arch)

theorem expand_returned {n : Nat} {s : State} (hs : s.index = some ('i', Nat.toDigits 10 n)) :
    expand s ("beskar7: ".toList ++ arch.espLoaderPath.toList ++ " on FS%i: returned".toList) =
      "beskar7: ".toList ++ arch.espLoaderPath.toList ++ " on FS".toList ++ Nat.toDigits 10 n ++ ": returned".toList := calc
  _ = expand s ("beskar7: ".toList ++ arch.espLoaderPath.toList ++ " on FS".toList ++ "%i".toList ++
        ": returned".toList) := by
      simp only [List.append_assoc]
      rfl
  _ = _ := by
      refine expand_index hs ?_ (by decide)
      simp only [List.mem_append, free_loader arch, or_false]
      decide

theorem expand_marker {n : Nat} {s : State} (hs : s.index = some ('i', Nat.toDigits 10 n)) (h : Plain marker) :
    expand s ("FS%i:\\EFI\\beskar7\\".toList ++ marker.toList ++ ".id".toList) = onMapping n (markerPath marker) := calc
  _ = expand s ("FS".toList ++ "%i".toList ++ ':' :: (markerPath marker).toList) := by
      simp only [markerPath, String.toList_append, List.append_assoc]
      rfl
  _ = _ := by
      refine expand_index hs (by decide) ?_
      simp only [markerPath, String.toList_append, List.mem_cons, List.mem_append, h.1, or_false]
      decide

/-- The state after a file system with the marker. -/
def State.booted (arch : Arch) (sys : System) (s : State) (n : Nat) : State :=
  { s with vars := ("b7found".toList, "1".toList) :: s.vars, log := s.log ++ (bootFrom arch sys n).1 }

theorem execAll_bootBlock {n : Nat} {s : State} (hs : s.index = some ('i', Nat.toDigits 10 n)) :
    execAll sys (bootBlock arch) s =
      if (bootFrom arch sys n).2 then .ok (State.booted arch sys s n) else .error (State.booted arch sys s n) := by
  have hs' : ({ s with vars := ("b7found".toList, "1".toList) :: s.vars } : State).index = _ := hs
  simp only [bootBlock, execAll, exec, bind, Except.bind, expand_note, expand_starting hs', expand_run hs']
  rw [State.booted, bootFrom]
  by_cases hpresent : sys.present (onMapping n arch.espLoaderPath) = true
  · by_cases hreturns : sys.returns (onMapping n arch.espLoaderPath) = true
    · simp only [hpresent, hreturns, if_true, expand_note, expand_returned hs']
      simp only [State.note, List.append_assoc]
      rfl
    · simp only [hpresent, hreturns, if_true, if_false, Bool.false_eq_true]
      simp only [State.note, List.append_assoc]
      rfl
  · simp only [hpresent, if_true, if_false, Bool.false_eq_true, expand_note, expand_returned hs']
    simp only [State.note, List.append_assoc]
    rfl

/-- How the loop leaves the state: a file system with the marker sets the flag. -/
def State.Looped (s : State) (found : Bool) (log : List Event) (s' : State) : Prop :=
  s'.log = s.log ++ log ∧
    (if found then s'.vars.lookup "b7found".toList = some "1".toList else s'.vars = s.vars)

/-- The statements of the loop, on one mapping. -/
def tryOne (arch : Arch) (sys : System) (marker : String) (s : State) (n : Nat) : Except State State :=
  execAll sys [.ifExist ("FS%i:\\EFI\\beskar7\\".toList ++ marker.toList ++ ".id".toList) (bootBlock arch)]
    { s with index := some ('i', Nat.toDigits 10 n) }

theorem tryOne_eq (h : Plain marker) (s : State) (n : Nat) : tryOne arch sys marker s n =
    let s' := { s with index := some ('i', Nat.toDigits 10 n) }
    if sys.present (onMapping n (markerPath marker)) then
      if (bootFrom arch sys n).2 then .ok (State.booted arch sys s' n) else .error (State.booted arch sys s' n)
    else .ok s' := by
  have hs : ({ s with index := some ('i', Nat.toDigits 10 n) } : State).index = _ := rfl
  rw [tryOne, execAll, exec, expand_marker hs h]
  split
  · rw [execAll_bootBlock hs]
    split <;> rfl
  · rfl

theorem foldlM_tryOne (h : Plain marker) (ns : List Nat) (s : State) :
    ∃ s', State.Looped s (!(marked sys marker ns).isEmpty) (bootEach arch sys (marked sys marker ns)).1 s' ∧
      ns.foldlM (tryOne arch sys marker) s =
        if (bootEach arch sys (marked sys marker ns)).2 then .ok s' else .error s' := by
  induction ns generalizing s with
  | nil => exact ⟨s, ⟨(List.append_nil _).symm, rfl⟩, rfl⟩
  | cons n ns ih =>
      rw [List.foldlM_cons, tryOne_eq h]
      by_cases hn : sys.present (onMapping n (markerPath marker)) = true
      · have hmarked : marked sys marker (n :: ns) = n :: marked sys marker ns := List.filter_cons_of_pos hn
        rw [hmarked, bootEach]
        simp only [hn, if_true]
        by_cases hback : (bootFrom arch sys n).2 = true
        · simp only [hback, if_true]
          obtain ⟨s', ⟨hlog, hvars⟩, heq⟩ := ih (State.booted arch sys { s with index := some ('i', Nat.toDigits 10 n) } n)
          refine ⟨s', ⟨?_, ?_⟩, heq⟩
          · rw [hlog, State.booted, List.append_assoc]
          · -- the flag is set, whether or not there are more to come
            cases hempty : (marked sys marker ns).isEmpty with
            | false =>
                rw [hempty] at hvars
                exact hvars
            | true =>
                rw [hempty] at hvars
                have hsame : s'.vars = ("b7found".toList, "1".toList) :: s.vars := hvars
                rw [hsame]
                exact (rfl : List.lookup "b7found".toList (("b7found".toList, "1".toList) :: s.vars) = some "1".toList)
        · simp only [hback, if_false, Bool.false_eq_true]
          refine ⟨State.booted arch sys { s with index := some ('i', Nat.toDigits 10 n) } n, ⟨rfl, ?_⟩, rfl⟩
          exact (rfl : List.lookup "b7found".toList (("b7found".toList, "1".toList) :: s.vars) = some "1".toList)
      · have hmarked : marked sys marker (n :: ns) = marked sys marker ns := List.filter_cons_of_neg hn
        rw [hmarked]
        simp only [hn, if_false, Bool.false_eq_true]
        obtain ⟨s', hs', heq⟩ := ih { s with index := some ('i', Nat.toDigits 10 n) }
        exact ⟨s', hs', heq⟩

theorem expand_flag {s : State} {value : List Char} (hindex : s.index = none)
    (hflag : s.vars.lookup "b7found".toList = some value) : expand s "%b7found%".toList = value := by
  rw [expand, hindex]
  have hsplit : "%b7found%".toList.splitOn '%' = [[], "b7found".toList, []] := by decide
  dsimp only
  rw [hsplit, expandVars, hflag]
  · simp [expandVars]
  · simp

theorem expand_zero (s : State) : expand s "0".toList = "0".toList := expand_free (by decide)

theorem free_noDisk (h : Plain marker) : '%' ∉ noDisk marker := by
  have hbefore : '%' ∉ "beskar7: no disk with marker ".toList := by decide
  have hafter : '%' ∉ " found, stopping at the Shell prompt".toList := by decide
  intro hmem
  cases List.mem_append.mp hmem with
  | inl hmem =>
    cases List.mem_append.mp hmem with
    | inl hmem => exact hbefore hmem
    | inr hmem => exact h.1 hmem
  | inr hmem => exact hafter hmem

theorem lookup_flag {s s' : State} {found : List Nat} {log : List Event}
    (hs : s.vars.lookup "b7found".toList = some "0".toList) (h : State.Looped s (!found.isEmpty) log s') :
    s'.vars.lookup "b7found".toList = some (if found = [] then "0".toList else "1".toList) := by
  obtain ⟨_, hvars⟩ := h
  cases found with
  | nil =>
    have hsame : s'.vars = s.vars := hvars
    rw [hsame, hs, if_pos rfl]
  | cons n found =>
    rw [if_neg (List.cons_ne_nil n found)]
    exact hvars

/-- The end of the script, at the prompt: whether the flag was set decides what it says. -/
theorem execAll_tail (h : Plain marker) {s : State} {none : Prop} [Decidable none] (hindex : s.index = Option.none)
    (hflag : s.vars.lookup "b7found".toList = some (if none then "0".toList else "1".toList)) :
    ∃ s', execAll sys [.ifEqual "%b7found%".toList "0".toList [.echo (noDisk marker)]] s = .ok s' ∧
      s'.log = s.log ++ if none then [.said (noDisk marker)] else [] := by
  rw [execAll, exec, expand_flag hindex hflag, expand_zero]
  by_cases hnone : none
  · refine ⟨s.note (.said (noDisk marker)), ?_, ?_⟩
    · rw [if_pos hnone, if_pos rfl, execAll, exec, expand_free (free_noDisk h)]
      rfl
    · rw [if_pos hnone]
      rfl
  · refine ⟨s, ?_, ?_⟩
    · rw [if_neg hnone, if_neg (by decide)]
      rfl
    · rw [if_neg hnone, List.append_nil]

theorem ne_nil_of_bootEach {found : List Nat} (h : (bootEach arch sys found).2 ≠ true) : found ≠ [] := by
  rintro rfl
  exact h rfl

/-- All that running the script comes to. -/
theorem runScript_renderStartupNsh (h : Plain marker) :
    let found := marked sys marker (List.range 32)
    runScript sys (renderStartupNsh arch marker) =
      some ⟨(bootEach arch sys found).1 ++ if found = [] then [.said (noDisk marker)] else [],
        (bootEach arch sys found).2⟩ := by
  intro found
  let s₀ : State := ⟨[("b7found".toList, "0".toList)], none, []⟩
  obtain ⟨s', hs', heq⟩ := @foldlM_tryOne arch marker sys h (List.range 32) s₀
  have hexec : execAll sys (scriptStmts arch marker) ⟨[], none, []⟩ =
      ((List.range 32).foldlM (tryOne arch sys marker) s₀).map (fun t => { t with index := none }) >>=
        execAll sys [.ifEqual "%b7found%".toList "0".toList [.echo (noDisk marker)]] := rfl
  have hlog : s'.log = (bootEach arch sys found).1 := hs'.1
  rw [runScript, readScript_renderStartupNsh h]
  simp only [Option.bind_eq_bind, Option.bind_some]
  rw [hexec, heq]
  by_cases hback : (bootEach arch sys found).2 = true
  · have hflag : ({ s' with index := none } : State).vars.lookup "b7found".toList =
        some (if found = [] then "0".toList else "1".toList) := lookup_flag rfl hs'
    obtain ⟨t, ht, htlog⟩ := @execAll_tail marker sys h { s' with index := none } (found = []) _ rfl hflag
    rw [if_pos hback]
    simp only [Except.map, bind, Except.bind]
    rw [ht, hback, ← hlog]
    change some (Ended.mk t.log true) = _
    rw [htlog]
  · have hgone : (bootEach arch sys found).2 = false := Bool.eq_false_iff.mpr hback
    rw [if_neg hback, if_neg (ne_nil_of_bootEach hback), List.append_nil, hgone, ← hlog]
    rfl

/-- The images started, in order. -/
def startedIn (log : List Event) : List (List Char) :=
  log.filterMap fun
    | .started path => some path
    | _ => none

theorem startedIn_append (log log' : List Event) : startedIn (log ++ log') = startedIn log ++ startedIn log' :=
  List.filterMap_append

/-- There is a loader on that mapping, and it does not come back. -/
def keepsControl (arch : Arch) (sys : System) (n : Nat) : Bool :=
  let path := onMapping n arch.espLoaderPath
  sys.present path && !sys.returns path

theorem bootFrom_back (n : Nat) : (bootFrom arch sys n).2 = !keepsControl arch sys n := by
  rw [bootFrom, keepsControl]
  cases hpresent : sys.present (onMapping n arch.espLoaderPath) with
  | false => rfl
  | true => cases hreturns : sys.returns (onMapping n arch.espLoaderPath) <;> rfl

theorem startedIn_bootFrom (n : Nat) :
    startedIn (bootFrom arch sys n).1 = [onMapping n arch.espLoaderPath].filter sys.present := by
  rw [bootFrom]
  cases hpresent : sys.present (onMapping n arch.espLoaderPath) with
  | false =>
    rw [List.filter_cons_of_neg (by rw [hpresent]; exact Bool.false_ne_true)]
    rfl
  | true =>
    rw [List.filter_cons_of_pos hpresent]
    cases hreturns : sys.returns (onMapping n arch.espLoaderPath) <;> rfl

theorem bootEach_back (found : List Nat) : (bootEach arch sys found).2 = !found.any (keepsControl arch sys) := by
  induction found with
  | nil => rfl
  | cons n found ih =>
    rw [bootEach, List.any_cons]
    have hback := @bootFrom_back arch sys n
    cases hkeeps : keepsControl arch sys n with
    | false =>
      rw [hkeeps] at hback
      simp only [hback, Bool.not_false, if_true, ih, Bool.false_or]
    | true =>
      rw [hkeeps] at hback
      simp only [hback, Bool.not_true, Bool.false_eq_true, if_false, Bool.true_or]

theorem startedIn_bootEach (found : List Nat) :
    startedIn (bootEach arch sys found).1 =
      ((found.take (found.findIdx (keepsControl arch sys) + 1)).map (onMapping · arch.espLoaderPath)).filter
        sys.present := by
  induction found with
  | nil => rfl
  | cons n found ih =>
    have hfirst := @startedIn_bootFrom arch sys n
    have hback := @bootFrom_back arch sys n
    rw [bootEach, List.findIdx_cons, List.take_succ_cons, List.map_cons, ← List.singleton_append, List.filter_append]
    cases hkeeps : keepsControl arch sys n with
    | false =>
      rw [hkeeps] at hback
      simp only [hback, Bool.not_false, if_true, cond_false]
      rw [startedIn_append, hfirst, ih]
    | true =>
      rw [hkeeps] at hback
      simp only [hback, Bool.not_true, Bool.false_eq_true, if_false, cond_true]
      rw [hfirst, List.take_zero, List.map_nil, List.filter_nil, List.append_nil]

/-- What is said at a file system that carries the marker differs from the closing
message at its tenth character. -/
theorem noDisk_not_mem_bootFrom (n : Nat) : Event.said (noDisk marker) ∉ (bootFrom arch sys n).1 := by
  let path := onMapping n arch.espLoaderPath
  let report := arch.espLoaderPath.toList ++ " on FS".toList ++ Nat.toDigits 10 n ++ ": returned".toList
  have hstarting : Event.said (noDisk marker) ≠ .said ("beskar7: starting ".toList ++ path) := by
    intro h
    have htexts : noDisk marker = "beskar7: starting ".toList ++ path := Event.said.inj h
    have htenth : some 'n' = some 's' := congrArg (fun text => text[9]?) htexts
    exact absurd htenth (by decide)
  have hreturned : Event.said (noDisk marker) ≠ .said ("beskar7: ".toList ++ arch.espLoaderPath.toList ++
      " on FS".toList ++ Nat.toDigits 10 n ++ ": returned".toList) := by
    intro h
    have htexts := Event.said.inj h
    have htenth : some 'n' = some '\\' := by
      cases arch with
      | x86_64 => exact congrArg (fun text => text[9]?) htexts
      | aarch64 => exact congrArg (fun text => text[9]?) htexts
    exact absurd htenth (by decide)
  rw [bootFrom]
  cases sys.present (onMapping n arch.espLoaderPath) with
  | false =>
    simp only [Bool.false_eq_true, if_false, List.mem_cons, List.not_mem_nil, or_false, reduceCtorEq, false_or]
    exact not_or.mpr ⟨hstarting, hreturned⟩
  | true =>
    cases sys.returns (onMapping n arch.espLoaderPath) with
    | false =>
      simp only [Bool.false_eq_true, if_true, if_false, List.mem_cons, List.not_mem_nil, or_false, reduceCtorEq]
      exact hstarting
    | true =>
      simp only [if_true, List.mem_cons, List.not_mem_nil, or_false, reduceCtorEq, false_or]
      exact not_or.mpr ⟨hstarting, hreturned⟩

theorem noDisk_not_mem_bootEach (found : List Nat) : Event.said (noDisk marker) ∉ (bootEach arch sys found).1 := by
  induction found with
  | nil => exact List.not_mem_nil
  | cons n found ih =>
    have hfirst := @noDisk_not_mem_bootFrom arch marker sys n
    rw [bootEach]
    split
    · rw [List.mem_append, not_or]
      exact ⟨hfirst, ih⟩
    · exact hfirst

/-- The script of a deploy, run by the Shell: of the mapped file systems, in
order, those with the marker file of that deploy are tried, up to the first whose
loader stays. The closing message is said where there is none. -/
theorem startup_nsh_boots (arch : Arch) (sys : System) (bytes : List UInt8) :
    let marker := newMarker bytes
    let pl : Places := ⟨.join .root "EFI", marker⟩
    let found := (List.range startupNshMappings).filter fun n => sys.present (onMapping n (uefiPath pl.newMarker))
    ∃ ended, runScript sys (renderStartupNsh arch marker) = some ended ∧
      startedIn ended.log =
        ((found.take (found.findIdx (keepsControl arch sys) + 1)).map (onMapping · arch.espLoaderPath)).filter
          sys.present ∧
      ended.prompt = !found.any (keepsControl arch sys) ∧
      (Event.said (noDisk marker) ∈ ended.log ↔ found = []) := by
  intro marker pl found
  have hpath : uefiPath pl.newMarker = markerPath marker := by
    change "" ++ "\\" ++ "EFI" ++ "\\" ++ "beskar7" ++ "\\" ++ (marker ++ ".id") = "\\EFI\\beskar7\\" ++ marker ++ ".id"
    rw [← String.append_assoc]
    rfl
  have hfound : marked sys marker (List.range 32) = found := by
    rw [marked, ← hpath]
    rfl
  have hrun := @runScript_renderStartupNsh arch marker sys (plain_newMarker bytes)
  simp only [hfound] at hrun
  refine ⟨_, hrun, ?_, bootEach_back found, ?_⟩
  · rw [startedIn_append, startedIn_bootEach]
    split <;> exact List.append_nil _
  · rw [List.mem_append, or_iff_right (noDisk_not_mem_bootEach found)]
    by_cases hnone : found = []
    · rw [if_pos hnone]
      exact iff_of_true (List.mem_singleton_self _) hnone
    · rw [if_neg hnone]
      exact iff_of_false List.not_mem_nil hnone

end Beskar7Inspector.StartupNsh
