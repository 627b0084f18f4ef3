import Beskar7Inspector.EspAllOrNothing

namespace Beskar7Inspector.EspFrame

open Lib.Program Lib.Text Lib.Os Lib.Recorder Lib.Files Lib.FileCalls Deploy EspFallback EspScan EspCleaning EspPlacing
  EspAllOrNothing

def markersDir : EspPath := (Path.root.join "EFI").join markerDirName

/-- A file `*.id` of `EFI/beskar7`. -/
def IdFile (q : EspPath) : Prop := ∃ name, ".id".toList <:+ (asciiLower name).toList ∧ Same q (markersDir.join name)

/-- A script of ours where the Shell looks. -/
def OurScript (t : EspTree) (q : EspPath) : Prop :=
  ∃ dir ∈ startupNshDirs, Same q (scriptAt dir) ∧ ∃ contents, t.contents? q = some contents ∧ hasSignature contents = true

def Own (marker : String) (t : EspTree) (q : EspPath) : Prop := IdFile q ∨ Temporary (places marker) q ∨ OurScript t q

/-- The image's files are as they were, and what is new is ours. -/
structure Frame (marker : String) (t t' : EspTree) : Prop where
  kept : ∀ q contents, t.contents? q = some contents → ¬Own marker t q → t'.contents? q = some contents
  created : ∀ q, t.contents? q = none → t'.contents? q ≠ none → Own marker t' q
  images : ∀ dir ∈ startupNshDirs, ∀ contents, t.contents? (scriptAt dir) = some contents →
    hasSignature contents = false → t'.contents? (scriptAt dir) = some contents

/-- The script was put into place. -/
def placed : EspEvent := ⟨.rename, script, none⟩

theorem placed_not_mem {f s : Bool} {trace : List EspEvent} (h : Traced f false s trace) : placed ∉ trace := by
  intro hmem
  have hno := List.any_eq_false.mp h.changed placed hmem
  exact hno (by decide)

def Outside (S : EspPath → Prop) (t t' : EspTree) : Prop := ∀ q, ¬S q → t'.contents? q = t.contents? q

variable {may : Unnoticed} {S : EspPath → Prop} {t t' t'' : EspTree} {α β : Type}

theorem Outside.refl : Outside S t t := fun _ _ => rfl

theorem Outside.trans (h : Outside S t t') (h' : Outside S t' t'') : Outside S t t'' :=
  fun q hq => (h' q hq).trans (h q hq)

/-- A part that touches nothing but `S` and does not put the script into place. -/
abbrev Keeps (may : Unnoticed) (S : EspPath → Prop) (p : EspIo α) : Prop :=
  ∀ t, Does event (disk may) (Outside S t) p t (fun _ _ trace => placed ∉ trace)

namespace Keeps

theorem pure (a : α) : Keeps may S (pure a : EspIo α) := fun _ => Does.pure Outside.refl (by simp)

theorem throw (e : StepError) : Keeps may S (throw e : EspIo α) := fun _ => Does.throw Outside.refl (by simp)

theorem bind {x : EspIo α} {f : α → EspIo β} (hx : Keeps may S x) (hf : ∀ a, Keeps may S (f a)) :
    Keeps may S (x >>= f) := by
  intro t
  apply Does.bind (hx t)
  · intro _ _ _ _ h
    exact h
  · intro a t₁ trace h₁ htrace
    apply ((hf a t₁).weaken fun _ h => h₁.trans h).mono
    intro _ _ trace' _ htrace'
    rw [List.mem_append, not_or]
    exact ⟨htrace, htrace'⟩

theorem looked {o : FileOp String (Except IoError Unit)} {tag : IoError → StepError}
    (ho : ∀ (f : Option Fault) (t : EspTree), act o f t = looked f t (.ok ())) (hev : ∀ r, event o r ≠ placed) :
    Keeps may S (attempt o tag) := by
  intro t
  apply does_looked (fun f => ho f t) Outside.refl
  · intro e h
    exact hev _ (List.mem_singleton.mp h).symm
  · intro h
    exact hev _ (List.mem_singleton.mp h).symm

theorem isDir (p : EspPath) : Keeps may S (always (.isDir p) : EspIo Bool) := by
  intro t
  apply Does.always Outside.refl
  intro f
  exact ⟨Outside.refl, by simp [event, placed]⟩

theorem removeFile {p : EspPath} {tag : IoError → StepError} (hp : ∀ q, Same q p → S q) :
    Keeps may S (attempt (.removeFile p) tag) := by
  intro t
  apply does_removeFile Outside.refl
  · intro e
    simp [placed]
  · intro t' _ herase
    constructor
    · intro q hq
      exact (herase q).trans (if_neg fun hs => hq (hp q hs))
    · simp [placed]

theorem discard {p : EspPath} (hp : ∀ q, Same q p → S q) : Keeps may S (always (.discard p) : EspIo Unit) := by
  intro t
  apply does_discard Outside.refl
  · intro _
    simp [placed]
  · intro t' herase
    constructor
    · intro q hq
      exact (herase q).trans (if_neg fun hs => hq (hp q hs))
    · simp [placed]

theorem createDirAll {p : EspPath} {tag : IoError → StepError} : Keeps may S (attempt (.createDirAll p) tag) := by
  intro t
  apply does_createDirAll
  · intro t' h q _
    exact h q
  · intro e t' _
    simp [placed]
  · intro t' _
    simp [placed]

theorem listing {dir : EspPath} : Keeps may S (mapErr reading (listing dir)) := by
  intro t
  apply Does.mapResult
  apply does_listing Outside.refl
  · intro e _
    simp [placed]
  · intro e _ _
    simp [placed]
  · simp [placed]

theorem removeScripts {paths : List EspPath} (hp : ∀ p ∈ paths, ∀ q, Same q p → S q) : Keeps may S (removeScripts paths) := by
  induction paths with
  | nil => exact Keeps.pure ()
  | cons p rest ih =>
      rw [List.forall_mem_cons] at hp
      exact (Keeps.removeFile hp.1).bind fun _ => ih hp.2

theorem syncDirs {dirs : List EspPath} : Keeps may S (syncDirs dirs) := by
  induction dirs with
  | nil => exact Keeps.pure ()
  | cons dir rest ih =>
      apply (Keeps.isDir dir).bind
      intro isDir
      cases isDir with
      | true => exact (Keeps.looked (fun _ _ => by rw [act]) (fun _ => by simp [event, placed])).bind fun _ => ih
      | false => exact ih

theorem discardAll {paths : List EspPath} (hp : ∀ p ∈ paths, ∀ q, Same q p → S q) : Keeps may S (discardAll paths) := by
  induction paths with
  | nil => exact Keeps.pure ()
  | cons p rest ih =>
      rw [List.forall_mem_cons] at hp
      exact (Keeps.discard hp.1).bind fun _ => ih hp.2

theorem nextEntry {p : EspPath} : Keeps may S (attempt (.nextEntry p) reading) :=
  Keeps.looked (fun _ _ => by rw [act]) (fun _ => by simp [event, placed])

theorem removeEach {markerDir : EspPath} {keep : Option EspPath} {names : List String}
    (hp : ∀ name, isMarkerName name = true → ∀ q, Same q (markerDir.join name) → S q) :
    Keeps may S (removeEach markerDir keep names) := by
  induction names with
  | nil => exact Keeps.nextEntry
  | cons name rest ih =>
      apply Keeps.nextEntry.bind
      intro _
      dsimp only
      split
      · rename_i h
        exact (Keeps.removeFile (hp name h.1)).bind fun _ => ih
      · exact ih

theorem removeMarkers {markerDir : EspPath} {keep : Option EspPath}
    (hp : ∀ name, isMarkerName name = true → ∀ q, Same q (markerDir.join name) → S q) :
    Keeps may S (removeMarkers markerDir keep) := by
  apply Keeps.listing.bind
  intro entries
  cases entries with
  | none => exact Keeps.pure ()
  | some names => exact Keeps.removeEach hp

end Keeps

section Places

variable {marker : String} {pl : Places} {arch : Arch}

theorem idFile_of_suffix {name : String} {q : EspPath} (hname : ".id".toList <:+ (asciiLower name).toList)
    (hq : Same q ((places marker).markerDir.join name)) : IdFile q :=
  ⟨name, hname, hq⟩

theorem suffix_of_isMarkerName {name : String} (h : isMarkerName name = true) :
    ".id".toList <:+ (asciiLower name).toList := by
  rw [isMarkerName, Option.any_eq_true] at h
  obtain ⟨ext, hext, hid⟩ := h
  rw [eqIgnoreAsciiCase, beq_iff_eq] at hid
  rw [extension] at hext
  split at hext
  · rename_i hlen
    have hsplit := List.takeWhile_append_dropWhile (l := name.toList.reverse) (p := fun c => decide (c ≠ '.'))
    cases hdrop : name.toList.reverse.dropWhile (fun c => decide (c ≠ '.')) with
    | nil =>
        rw [hdrop, List.append_nil] at hsplit
        have hcount := congrArg List.length hsplit
        rw [List.length_reverse] at hcount hlen
        omega
    | cons c before =>
        have hdot : c = '.' := by
          have hhead := List.head?_dropWhile_not (fun c => decide (c ≠ '.')) name.toList.reverse
          rw [hdrop] at hhead
          simpa using hhead
        rw [hdrop, hdot] at hsplit
        have hname : name.toList = before.reverse ++ ('.' :: (name.toList.reverse.takeWhile (· ≠ '.')).reverse) := by
          have hrev := congrArg List.reverse hsplit
          rw [List.reverse_reverse, List.reverse_append, List.reverse_cons, List.append_assoc] at hrev
          exact hrev.symm
        obtain rfl := Option.some.inj hext
        have hlower := congrArg String.toList hid
        simp only [asciiLower, String.toList_ofList] at hlower
        simp only [asciiLower, String.toList_ofList]
        rw [hname, List.map_append, List.map_cons, hlower]
        exact List.suffix_append _ _
  · cases hext

theorem suffix_newMarker (marker : String) : ".id".toList <:+ (asciiLower (marker ++ ".id")).toList := by
  simp only [asciiLower, String.toList_ofList, String.toList_append, List.map_append]
  exact List.suffix_append _ _

theorem idFile_of_isPlaces (hpl : IsPlaces pl marker) {name : String} (hname : ".id".toList <:+ (asciiLower name).toList)
    {q : EspPath} (hq : Same q (pl.markerDir.join name)) : IdFile q :=
  idFile_of_suffix hname (hq.trans (hpl.markerDir name))

theorem temporary_of_isPlaces (hpl : IsPlaces pl marker) {q : EspPath} (hq : Temporary pl q) : Temporary (places marker) q := by
  rcases hq with hq | hq
  · exact Or.inl (hq.trans hpl.tmpMarker)
  · exact Or.inr hq

theorem not_idFile_scriptAt (dir : List String) : ¬IdFile (scriptAt dir) := by
  rintro ⟨name, hname, hsame⟩
  rw [scriptAt_eq] at hsame
  rw [← (same_join_iff.mp hsame).2] at hname
  exact absurd hname (by decide)

theorem hasSignature_scriptContents : hasSignature (scriptContents arch pl) = true := by
  rw [hasSignature, decide_eq_true_iff, scriptContents, renderStartupNsh, utf8_append]
  refine List.IsInfix.trans ?_ (List.prefix_append _ _).isInfix
  have hline : utf8 startupNshSignature <:+: utf8 (startupNshSignature ++ ": boot the disk provisioned with marker " ++
      pl.marker ++ ".") := by
    rw [utf8_append, utf8_append, utf8_append, List.append_assoc, List.append_assoc]
    exact (List.prefix_append _ _).isInfix
  exact hline.trans (isInfix_utf8 (infix_intercalate (by simp)))

theorem signed_of_own {dir : List String} (h : Own marker t (scriptAt dir)) : IsOurScript t dir := by
  rcases h with h | h | ⟨_, _, _, hsigned⟩
  · exact absurd h (not_idFile_scriptAt dir)
  · exact absurd h not_temporary_scriptAt
  · exact hsigned

theorem not_own_of_image {dir : List String} (h : IsImageScript t dir) : ¬Own marker t (scriptAt dir) := by
  intro hown
  obtain ⟨contents, hc, hm⟩ := h
  obtain ⟨contents', hc', hm'⟩ := signed_of_own hown
  rw [hc] at hc'
  obtain rfl := Option.some.inj hc'
  rw [hm] at hm'
  cases hm'

/-- Where only what is ours changed, and the script at the root as it may, the
image's files are untouched. -/
theorem Frame.of_outside (hout : Outside (fun q => Own marker t q ∨ Same q script) t t')
    (himage : IsImageScript t [] → t'.contents? script = t.contents? script)
    (hnew : t.contents? script = none → t'.contents? script = none ∨ IsOurScript t' []) : Frame marker t t' := by
  have hkept : ∀ q contents, t.contents? q = some contents → ¬Own marker t q → t'.contents? q = some contents := by
    intro q contents hq hown
    by_cases hs : Same q script
    · have hroot : t.contents? script = some contents := (FileTree.contents?_congr hs.symm).trans hq
      have hsig : hasSignature contents = false := by
        by_contra htrue
        exact hown (Or.inr (Or.inr ⟨[], by decide, hs, contents, hq, by simpa using htrue⟩))
      rw [FileTree.contents?_congr hs, himage ⟨contents, hroot, hsig⟩, hroot]
    · rw [hout q (by rintro (h | h) <;> contradiction), hq]
  constructor
  case kept => exact hkept
  case created =>
    intro q hnone hsome
    by_cases hs : Same q script
    · have hroot : t.contents? script = none := (FileTree.contents?_congr hs.symm).trans hnone
      rcases hnew hroot with hn | ⟨contents, hc, hm⟩
      · exact absurd ((FileTree.contents?_congr hs).trans hn) hsome
      · exact Or.inr (Or.inr ⟨[], by decide, hs, contents, (FileTree.contents?_congr hs).trans hc, hm⟩)
    · by_cases hown : Own marker t q
      · rcases hown with hown | hown | ⟨dir, hdir, hq, contents, hc, hm⟩
        · exact Or.inl hown
        · exact Or.inr (Or.inl hown)
        · rw [hnone] at hc
          cases hc
      · rw [hout q (by rintro (h | h) <;> contradiction)] at hsome
        exact absurd hnone hsome
  case images =>
    intro dir hdir contents hc hm
    exact hkept _ _ hc (not_own_of_image ⟨contents, hc, hm⟩)

theorem keeps_leaveInPlace {ours : List (Bool × EspPath)} {imageScript : EspPath} (hpl : IsPlaces pl marker)
    (hid : ∀ q, IdFile q → S q) (hours : ∀ x ∈ ours, ∀ q, Same q x.2 → S q) :
    Keeps may S (leaveInPlace pl ours imageScript) := by
  apply Keeps.bind
  · apply Keeps.removeScripts
    intro p hp
    obtain ⟨x, hx, rfl⟩ := List.mem_map.mp hp
    exact hours x hx
  intro _
  apply Keeps.bind
  · apply Keeps.removeMarkers
    intro name hname q hq
    exact hid q (idFile_of_isPlaces hpl (suffix_of_isMarkerName hname) hq)
  intro _
  exact Keeps.syncDirs.bind fun _ => Keeps.pure _

/-- What a run that writes the pair may touch besides the script at the root. -/
structure Beside (marker : String) (ours : List (Bool × EspPath)) (S : EspPath → Prop) : Prop where
  idFile : ∀ q, IdFile q → S q
  temporary : ∀ q, Temporary (places marker) q → S q
  ours : ∀ x ∈ ours, x.1 = false → ∀ q, Same q x.2 → S q
  notScript : ¬S script

/-- The script at the root is as it was or the new one. -/
structure Pair (arch : Arch) (pl : Places) (S : EspPath → Prop) (t t' : EspTree) : Prop where
  outside : Outside (fun q => S q ∨ Same q script) t t'
  root : t'.contents? script = t.contents? script ∨ t'.contents? script = some (scriptContents arch pl)

/-- The log tells which of the two it is. -/
structure Settled (arch : Arch) (pl : Places) (t t' : EspTree) (trace : List EspEvent) : Prop where
  new : placed ∈ trace → t'.contents? script = some (scriptContents arch pl)
  old : placed ∉ trace → t'.contents? script = t.contents? script

theorem Outside.pair (h : Outside S t t') (hscript : ¬S script) : Pair arch pl S t t' :=
  ⟨fun q hq => h q fun hs => hq (Or.inl hs), Or.inl (h script hscript)⟩

theorem Pair.step (h : Pair arch pl S t t') (h' : Outside S t' t'') (hscript : ¬S script) : Pair arch pl S t t'' := by
  constructor
  · intro q hq
    exact (h' q fun hs => hq (Or.inl hs)).trans (h.outside q hq)
  · rw [h' script hscript]
    exact h.root

theorem Outside.settled {trace : List EspEvent} (h : Outside S t t') (hscript : ¬S script) (hno : placed ∉ trace) :
    Settled arch pl t t' trace :=
  ⟨fun hmem => absurd hmem hno, fun _ => h script hscript⟩

theorem Settled.step {trace trace' : List EspEvent} (h : Settled arch pl t t' trace) (h' : Outside S t' t'')
    (hscript : ¬S script) (hno : placed ∉ trace') : Settled arch pl t t'' (trace ++ trace') := by
  constructor
  · intro hmem
    rw [h' script hscript]
    exact h.new ((List.mem_append.mp hmem).resolve_right hno)
  · intro hmem
    rw [h' script hscript]
    exact h.old fun hin => hmem (List.mem_append_left _ hin)

theorem Pair.after (h' : Pair arch pl S t' t'') (h : Outside S t t') (hscript : ¬S script) : Pair arch pl S t t'' := by
  constructor
  · intro q hq
    exact (h'.outside q hq).trans (h q fun hs => hq (Or.inl hs))
  · rw [← h script hscript]
    exact h'.root

theorem Settled.after {trace trace' : List EspEvent} (h' : Settled arch pl t' t'' trace') (h : Outside S t t')
    (hscript : ¬S script) (hno : placed ∉ trace) : Settled arch pl t t'' (trace ++ trace') := by
  constructor
  · intro hmem
    exact h'.new ((List.mem_append.mp hmem).resolve_left hno)
  · intro hmem
    rw [← h script hscript]
    exact h'.old fun hin => hmem (List.mem_append_right _ hin)

/-- A part of such a run that keeps to `S`. -/
theorem Keeps.paired {p : EspIo α} {t₁ : EspTree} (h : Keeps may S p) (hscript : ¬S script) (hpair : Pair arch pl S t t₁)
    {trace : List EspEvent} (hsettled : Settled arch pl t t₁ trace) :
    Does event (disk may) (Pair arch pl S t) p t₁ (fun _ t' trace' => Settled arch pl t t' (trace ++ trace')) := by
  apply Does.weaken
  · apply (h t₁).mono
    intro _ t₂ trace' hout hno
    exact hsettled.step hout hscript hno
  · intro t₂ hout
    exact hpair.step hout hscript

theorem keeps_undo {also : List EspPath} {e : StepError} (htemp : ∀ q, Temporary pl q → S q)
    (halso : ∀ p ∈ also, ∀ q, Same q p → S q) : Keeps may S (undo pl also e) := by
  apply Keeps.bind
  · apply Keeps.discardAll
    intro p hp q hq
    rcases List.mem_append.mp hp with hp | hp
    · rcases List.mem_cons.mp hp with rfl | hp
      · exact htemp q (Or.inl hq)
      · rw [List.mem_singleton.mp hp] at hq
        exact htemp q (Or.inr hq)
    · exact halso p hp q hq
  · intro _
    exact Keeps.throw e

section Writing

variable {ours : List (Bool × EspPath)}

theorem Outside.of_temporary (hpl : IsPlaces pl marker) (hS : Beside marker ours S)
    (h : ∀ q, ¬Temporary pl q → t'.contents? q = t.contents? q) : Outside S t t' :=
  fun q hq => h q fun hs => hq (hS.temporary q (temporary_of_isPlaces hpl hs))

def MarkerMoved (arch : Arch) (pl : Places) (S : EspPath → Prop) (t : EspTree) (r : Except StepError Unit) (t' : EspTree)
    (trace : List EspEvent) : Prop :=
  Outside S t t' ∧ placed ∉ trace ∧ (r = .ok () → t'.contents? tmpScript = some (scriptContents arch pl))

theorem does_moveMarker {I : EspTree → Prop} (hpl : IsPlaces pl marker) (hS : Beside marker ours S) (ht : I t)
    (hI : ∀ t' : EspTree, Outside S t t' → I t') (hscript : t.contents? tmpScript = some (scriptContents arch pl)) :
    Does event (disk may) I (attempt (.rename pl.tmpMarker pl.newMarker) placing) t (MarkerMoved arch pl S t) := by
  apply does_rename (not_same_newMarker_tmpMarker pl) ht
  · intro e
    exact ⟨Outside.refl, by simp [placed], by simp⟩
  · intro t' contents _ _ hrename
    have hout : Outside S t t' := by
      intro q hq
      rw [hrename q, if_neg, if_neg]
      · exact fun hs => hq (hS.temporary q (temporary_of_isPlaces hpl (Or.inl hs)))
      · exact fun hs => hq (hS.idFile q (idFile_of_isPlaces hpl (suffix_newMarker _) hs))
    refine ⟨hI t' hout, hout, by simp [placed, Places.newMarker, Places.markerDir, script], fun _ => ?_⟩
    rw [hrename, if_neg fun hs => not_same_newMarker_tmpScript pl (Eq.symm hs),
      if_neg fun hs => not_same_tmpMarker_tmpScript pl (Eq.symm hs), hscript]

def ScriptMoved (arch : Arch) (pl : Places) (t t₁ : EspTree) (r : Except StepError Unit) (t' : EspTree)
    (trace : List EspEvent) : Prop :=
  match r with
  | .ok () => Settled arch pl t t' trace
  | .error _ => t' = t₁ ∧ placed ∉ trace

theorem does_moveScript {t₁ : EspTree} (hS : Beside marker ours S) (hpl : IsPlaces pl marker) (hpair : Pair arch pl S t t₁)
    (hscript : t₁.contents? tmpScript = some (scriptContents arch pl)) :
    Does event (disk may) (Pair arch pl S t) (attempt (.rename tmpScript script) placing) t₁
      (ScriptMoved arch pl t t₁) := by
  apply does_rename not_same_script_tmpScript hpair
  · intro e
    exact ⟨rfl, by simp [placed]⟩
  · intro t' contents _ hc hrename
    rw [hscript] at hc
    obtain rfl := Option.some.inj hc
    have hnew : t'.contents? script = some (scriptContents arch pl) := (hrename script).trans (if_pos rfl)
    refine ⟨⟨?_, Or.inr hnew⟩, fun _ => hnew, fun hno => absurd (List.mem_singleton.mpr rfl) hno⟩
    intro q hq
    rw [not_or] at hq
    rw [hrename q, if_neg hq.2, if_neg, hpair.outside q (not_or.mpr hq)]
    exact fun hs => hq.1 (hS.temporary q (temporary_of_isPlaces hpl (Or.inr hs)))

theorem does_putInPlace_frame (hpl : IsPlaces pl marker) (hS : Beside marker ours S) :
    Does event (disk may) (Pair arch pl S t) (putInPlace arch pl) t (fun _ t' trace => Settled arch pl t t' trace) := by
  have htemp : ∀ q, Temporary pl q → S q := fun q hq => hS.temporary q (temporary_of_isPlaces hpl hq)
  have hundo : ∀ e, Keeps may S (undo pl [] e) := fun e => keeps_undo htemp (by simp)
  have hundoMarker : ∀ e, Keeps may S (undo pl [pl.newMarker] e) := by
    intro e
    apply keeps_undo htemp
    intro p hp q hq
    rw [List.mem_singleton.mp hp] at hq
    exact hS.idFile q (idFile_of_isPlaces hpl (suffix_newMarker _) hq)
  refine Does.outcome_bind (does_writeTemporaries fun t' h => (Outside.of_temporary hpl hS h).pair hS.notScript) ?_
  rintro r t₁ trace₁ hpair₁ ⟨hsame₁, h₁⟩
  have hout₁ : Outside S t t₁ := Outside.of_temporary hpl hS hsame₁
  cases r with
  | error e => exact (hundo e).paired hS.notScript hpair₁ (hout₁.settled hS.notScript (placed_not_mem h₁))
  | ok _ =>
      obtain ⟨-, hscript₁, htrace₁⟩ := h₁
      have hsettled₁ : Settled arch pl t t₁ trace₁ := hout₁.settled hS.notScript (placed_not_mem htrace₁)
      refine Does.outcome_bind (does_moveMarker hpl hS hpair₁ (fun t' h => hpair₁.step h hS.notScript) hscript₁) ?_
      rintro r t₂ trace₂ hpair₂ ⟨hout₂, hno₂, hscript₂⟩
      have hsettled₂ := hsettled₁.step hout₂ hS.notScript hno₂
      cases r with
      | error e =>
          apply ((hundo e).paired hS.notScript hpair₂ hsettled₂).mono
          intro _ _ _ _ h
          rwa [← List.append_assoc]
      | ok _ =>
          refine Does.outcome_bind (does_moveScript hS hpl hpair₂ (hscript₂ rfl)) ?_
          intro r t₃ trace₃ hpair₃ h₃
          cases r with
          | error e =>
              obtain ⟨rfl, hno₃⟩ := h₃
              have hsettled₃ := hsettled₂.step Outside.refl hS.notScript hno₃
              apply ((hundoMarker e).paired hS.notScript hpair₃ hsettled₃).mono
              intro _ _ _ _ h
              rwa [List.append_assoc, List.append_assoc] at h
          | ok _ =>
              apply Does.pure hpair₃
              rw [List.append_nil]
              have hbefore : placed ∉ trace₁ ++ trace₂ := by
                rw [List.mem_append, not_or]
                exact ⟨placed_not_mem htrace₁, hno₂⟩
              constructor
              · intro hmem
                rw [← List.append_assoc] at hmem
                exact h₃.new ((List.mem_append.mp hmem).resolve_left hbefore)
              · intro hmem
                exact h₃.old fun hin => hmem (List.mem_append_right _ (List.mem_append_right _ hin))

theorem keeps_removeStale (hpl : IsPlaces pl marker) (hS : Beside marker ours S) : Keeps may S (removeStale pl ours) := by
  apply Keeps.bind
  · apply Keeps.removeMarkers
    intro name hname q hq
    exact hS.idFile q (idFile_of_isPlaces hpl (suffix_of_isMarkerName hname) hq)
  intro _
  apply Keeps.bind
  · apply Keeps.removeScripts
    intro p hp
    obtain ⟨x, hx, rfl⟩ := List.mem_map.mp hp
    obtain ⟨hx, hroot⟩ := List.mem_filter.mp hx
    exact hS.ours x hx (by simpa using hroot)
  intro _
  exact Keeps.syncDirs

theorem does_writePair_frame (hpl : IsPlaces pl marker) (hS : Beside marker ours S) :
    Does event (disk may) (Pair arch pl S t) (writePair arch pl ours) t (fun _ t' trace => Settled arch pl t t' trace) := by
  have hcreate : Keeps may S (attempt (.createDirAll pl.markerDir) (StepError.mk "creating \\EFI\\beskar7")) :=
    Keeps.createDirAll
  have hfirst : Does event (disk may) (Pair arch pl S t)
      (attempt (.createDirAll pl.markerDir) (StepError.mk "creating \\EFI\\beskar7")) t
      (fun _ t₁ trace => Outside S t t₁ ∧ placed ∉ trace) := by
    apply Does.weaken
    · apply (hcreate t).mono
      intro _ _ _ hout hno
      exact ⟨hout, hno⟩
    · intro t₁ hout
      exact hout.pair hS.notScript
  refine Does.bind hfirst (fun _ _ _ _ h => h.1.settled hS.notScript h.2) ?_
  rintro ⟨⟩ t₁ trace₁ _ ⟨hout₁, hno₁⟩
  have hput : Does event (disk may) (Pair arch pl S t) (putInPlace arch pl) t₁
      (fun _ t' trace => Settled arch pl t t' (trace₁ ++ trace)) := by
    apply Does.weaken
    · apply (does_putInPlace_frame hpl hS).mono
      intro _ _ _ _ h
      exact h.after hout₁ hS.notScript hno₁
    · intro t₂ hpair
      exact hpair.after hout₁ hS.notScript
  refine Does.bind hput (fun _ _ _ _ h => h) ?_
  rintro ⟨⟩ t₂ trace₂ hpair₂ hsettled₂
  have hstale : Keeps may S (removeStale pl ours) := keeps_removeStale hpl hS
  refine Does.bind (hstale.paired hS.notScript hpair₂ hsettled₂) (fun _ _ _ _ h => by rwa [List.append_assoc] at h) ?_
  intro _ t₃ trace₃ hpair₃ hsettled₃
  apply Does.pure hpair₃
  rwa [List.append_nil, ← List.append_assoc]

end Writing

/-- What a run that writes the pair may touch besides the script at the root. -/
def Others (marker : String) (t : EspTree) (q : EspPath) : Prop :=
  IdFile q ∨ Temporary (places marker) q ∨ ∃ dir ∈ startupNshDirs, dir ≠ [] ∧ Same q (scriptAt dir) ∧
    ∃ contents, t.contents? q = some contents ∧ hasSignature contents = true

theorem Others.own {q : EspPath} (h : Others marker t q) : Own marker t q := by
  rcases h with h | h | ⟨dir, hdir, -, hq⟩
  · exact Or.inl h
  · exact Or.inr (Or.inl h)
  · exact Or.inr (Or.inr ⟨dir, hdir, hq⟩)

theorem signed_congr {q q' : EspPath} (h : Same q' q)
    (hsigned : ∃ contents, t.contents? q = some contents ∧ hasSignature contents = true) :
    ∃ contents, t.contents? q' = some contents ∧ hasSignature contents = true := by
  obtain ⟨contents, hc, hm⟩ := hsigned
  exact ⟨contents, (FileTree.contents?_congr h).trans hc, hm⟩

theorem Found.beside {found : Scripts} (hfound : Found may t startupNshDirs ⟨[], none⟩ found) :
    Beside marker found.ours (Others marker t) where
  idFile _ h := Or.inl h
  temporary _ h := Or.inr (Or.inl h)
  ours x hx hroot q hq := by
    rcases hfound.ours x hx with hx | ⟨dir, hdir, hempty, hsame, hsigned⟩
    · cases hx
    · refine Or.inr (Or.inr ⟨dir, hdir, ?_, Eq.trans hq hsame, signed_congr hq hsigned⟩)
      rintro rfl
      rw [hempty] at hroot
      cases hroot
  notScript := by
    rintro (h | h | ⟨dir, hdir, hne, hsame, -⟩)
    · exact not_idFile_scriptAt [] h
    · exact not_temporary_script h
    · exact not_same_scriptAt_script dir hdir hne (Eq.symm hsame)

theorem Found.own {found : Scripts} (hfound : Found may t startupNshDirs ⟨[], none⟩ found) :
    ∀ x ∈ found.ours, ∀ q, Same q x.2 → Own marker t q := by
  intro x hx q hq
  rcases hfound.ours x hx with hx | ⟨dir, hdir, -, hsame, hsigned⟩
  · cases hx
  · exact Or.inr (Or.inr ⟨dir, hdir, Eq.trans hq hsame, signed_congr hq hsigned⟩)

theorem Frame.of_own (h : Outside (Own marker t) t t') : Frame marker t t' := by
  apply Frame.of_outside (fun q hq => h q fun hs => hq (Or.inl hs))
  · intro himage
    exact h script (not_own_of_image himage)
  · intro hnone
    have hown : ¬Own marker t (scriptAt []) := by
      intro hown
      obtain ⟨contents, hc, -⟩ := signed_of_own hown
      exact absurd (hnone.symm.trans hc) (by simp)
    exact Or.inl ((h script hown).trans hnone)

theorem Pair.frame (h : Pair arch pl (Others marker t) t t')
    (himage : IsImageScript t [] → t'.contents? script = t.contents? script) : Frame marker t t' := by
  refine Frame.of_outside ?_ himage ?_
  · intro q hq
    exact h.outside q fun hs => hq (hs.imp_left Others.own)
  · intro hnone
    rw [← hnone]
    exact h.root.imp_right fun hnew => ⟨_, hnew, hasSignature_scriptContents⟩

/-- Where the image has a script at the root, the run is in frame when it does
not put the new one there, and only then. -/
theorem frame_iff {trace : List EspEvent} (h : Pair arch pl (Others marker t) t t') (hsettled : Settled arch pl t t' trace) :
    Frame marker t t' ↔ (IsImageScript t [] → placed ∉ trace) := by
  constructor
  · intro hframe himage hmem
    obtain ⟨contents, hc, hm⟩ := himage
    have hkept := hframe.images [] (by decide) contents hc hm
    have hnew : t'.contents? (scriptAt []) = some (scriptContents arch pl) := hsettled.new hmem
    rw [hkept] at hnew
    rw [Option.some.inj hnew, hasSignature_scriptContents] at hm
    cases hm
  · intro hno
    exact h.frame fun himage => hsettled.old (hno himage)

theorem does_leaveInPlace_frame {found : Scripts} {imageScript : EspPath} (hpl : IsPlaces pl marker)
    (hfound : Found may t startupNshDirs ⟨[], none⟩ found) :
    Does event (disk may) (Frame marker t) (leaveInPlace pl found.ours imageScript) t
      (fun _ t' trace => Frame marker t t' ∧ placed ∉ trace) := by
  have hkeeps : Keeps may (Own marker t) (leaveInPlace pl found.ours imageScript) :=
    keeps_leaveInPlace hpl (fun _ h => Or.inl h) (Found.own hfound)
  apply Does.weaken
  · apply (hkeeps t).mono
    intro _ _ _ hout hno
    exact ⟨Frame.of_own hout, hno⟩
  · intro _ hout
    exact Frame.of_own hout

/-- No look at a script at the root fails unnoticed: neither asking whether it
is a file nor finding the root to be missing. -/
def seeRoot : ∀ {β : Type}, FileOp String β → Option Fault → Option Fault
  | _, .isFile p, f => if Same p script then none else f
  | _, .readDir p, f => if p = .root then f.filter (fun x => !x.error.isNotFound) else f
  | _, _, f => f

section Seeing

variable {I : EspTree → Prop} {mask : {β : Type} → FileOp String β → Option Fault → Option Fault}

abbrev masked (mask : {β : Type} → FileOp String β → Option Fault → Option Fault) :
    Machine (FileOp String) (Option Fault) EspTree :=
  (disk ⟨true, true⟩).restrict mask

/-- A look in a masked world: what it finds and that it changes nothing. -/
theorem does_look {ε : Type} {p : Try (FileOp String) ε α} {R : Except ε α → Prop} (h : Looks ⟨true, true⟩ p t R) (hI : I t) :
    Does event (masked mask) I p t (fun r t' _ => t' = t ∧ R r) := by
  apply ((h I hI).mono _).restrict
  rintro r t' _ _ ⟨rfl, -, -, hr⟩
  exact ⟨rfl, hr⟩

theorem does_listRoot (hI : I t) : Does event (masked seeRoot) I (listing (Path.root : EspPath)) t (fun r t' _ =>
    t' = t ∧ ∀ names, r = .ok names → names = some (t.names .root)) := by
  apply Does.always_bind hI
  intro f
  have hstep : (masked seeRoot).step (.readDir .root) f t =
      looked (f.filter (fun x => !x.error.isNotFound)) t (t.readDir .root) := rfl
  rw [hstep]
  cases hf : f.filter (fun x => !x.error.isNotFound) with
  | some x =>
      have hx := (Option.filter_eq_some_iff.mp hf).2
      rw [Bool.not_eq_true'] at hx
      refine ⟨hI, ?_⟩
      dsimp only [looked]
      rw [hx]
      exact Does.throw hI ⟨rfl, by simp⟩
  | none =>
      refine ⟨hI, Does.pure hI ⟨rfl, ?_⟩⟩
      intro names hnames
      exact (Except.ok.inj hnames).symm

theorem listed_of_contents {dir : EspPath} {name : String} {contents : List UInt8}
    (h : t.contents? (.join dir name) = some contents) : ∃ stored ∈ t.names dir, asciiLower stored = asciiLower name := by
  cases hnode : t.node? (.join dir name) with
  | none =>
      rw [FileTree.contents?, hnode] at h
      cases h
  | some node => exact FileTree.exists_mem_names hnode

theorem does_childRoot (hI : I t) : Does event (masked seeRoot) I (child .root startupNshFilename) t (fun r t' _ =>
    t' = t ∧ ∀ next, r = .ok next → IsImageScript t [] → ∃ path, next = some path ∧ Same path script) := by
  refine Does.bind (does_listRoot hI) (fun _ _ _ _ h => ⟨h.1, by simp⟩) ?_
  rintro entries t _ _ ⟨rfl, hnames⟩
  rw [hnames entries rfl]
  refine (does_look (looks_findEntry .root startupNshFilename _) hI).mono ?_
  rintro r t _ _ ⟨rfl, hr⟩
  refine ⟨rfl, ?_⟩
  rintro next rfl ⟨contents, hc, -⟩
  cases next with
  | some path => exact ⟨path, rfl, hr⟩
  | none =>
      obtain ⟨stored, hstored, hlower⟩ := listed_of_contents hc
      exact absurd hlower (hr stored hstored)

theorem isFile_seen {path : EspPath} {f : Option Fault} (h : Same path script) :
    ((masked seeRoot).step (.isFile path) f t).1 = t.isFile path := by
  have hmask : seeRoot (.isFile path) f = none := if_pos h
  change ((disk ⟨true, true⟩).step (.isFile path) (seeRoot (.isFile path) f) t).1 = t.isFile path
  rw [hmask]
  rfl

theorem does_resolveRoot (hI : I t) : Does event (masked seeRoot) I (resolveFile [startupNshFilename]) t (fun r t' _ =>
    t' = t ∧ ∀ file, r = .ok file → IsImageScript t [] → ∃ path, file = some path ∧ Same path script) := by
  refine Does.bind (does_childRoot hI) (fun _ _ _ _ h => ⟨h.1, by simp⟩) ?_
  rintro next t _ _ ⟨rfl, hnext⟩
  cases next with
  | none =>
      refine Does.pure hI ⟨rfl, ?_⟩
      intro _ _ himage
      obtain ⟨path, hpath, -⟩ := hnext none rfl himage
      cases hpath
  | some path =>
      apply Does.always_bind hI
      intro f
      refine ⟨hI, Does.pure hI ⟨rfl, ?_⟩⟩
      intro file hfile himage
      obtain ⟨path', hpath, hsame⟩ := hnext _ rfl himage
      obtain rfl := Option.some.inj hpath
      obtain ⟨contents, hc, -⟩ := himage
      have hthere : t.isFile path = true := by
        rw [FileTree.isFile, FileTree.contents?_congr hsame]
        exact Option.isSome_of_mem hc
      rw [isFile_seen hsame, hthere] at hfile
      exact ⟨path, (Except.ok.inj hfile).symm, hsame⟩

theorem does_mapErr {M : Machine (FileOp String) (Option Fault) EspTree} {x : FileIo α} {R : α → Prop}
    (h : Does event M I x t (fun r t' _ => t' = t ∧ ∀ a, r = .ok a → R a)) :
    Does event M I (mapErr reading x) t (fun r t' _ => t' = t ∧ ∀ a, r = .ok a → R a) := by
  apply Does.mapResult
  apply h.mono
  rintro r t' _ _ ⟨rfl, hr⟩
  refine ⟨rfl, ?_⟩
  intro a ha
  exact hr a (mapError_eq_ok.mp ha)

theorem does_isOurs (hI : I t) (path : EspPath) : Does event (masked mask) I (mapErr reading (isOurs path)) t
    (fun r t' _ => t' = t ∧ ∀ mine, r = .ok mine →
      ∃ contents, t.contents? path = some contents ∧ hasSignature contents = mine) := by
  apply does_mapErr
  apply (does_look (looks_isOurs path) hI).mono
  rintro r _ _ _ ⟨rfl, hr⟩
  refine ⟨rfl, ?_⟩
  rintro mine rfl
  exact hr

/-- With nothing overlooked at the root a scan that ends well has found the image's script there. -/
theorem does_scanRoot (hI : I t) (before : Scripts) : Does event (masked seeRoot) I (scanScripts [[]] before) t (fun r _ _ =>
    ∀ found, r = .ok found → IsImageScript t [] → found.imageScript ≠ none) := by
  refine Does.bind (does_mapErr (does_resolveRoot hI)) (by simp) ?_
  rintro file t _ _ ⟨rfl, hfile⟩
  cases file with
  | none =>
      apply Does.pure hI
      intro _ _ himage
      obtain ⟨path, hpath, -⟩ := hfile none rfl himage
      cases hpath
  | some path =>
      refine Does.bind (does_isOurs hI path) (by simp) ?_
      rintro mine t _ _ ⟨rfl, hmine⟩
      obtain ⟨contents, hc, rfl⟩ := hmine mine rfl
      by_cases hsig : hasSignature contents = true
      · rw [if_pos hsig]
        apply Does.pure hI
        rintro _ _ ⟨contents', hc', hm'⟩
        obtain ⟨path', hpath, hsame⟩ := hfile _ rfl ⟨contents', hc', hm'⟩
        obtain rfl := Option.some.inj hpath
        have heq := Option.some.inj (hc.symm.trans ((FileTree.contents?_congr hsame).trans hc'))
        rw [heq, hm'] at hsig
        cases hsig
      · rw [if_neg hsig]
        by_cases hnone : before.imageScript.isNone = true
        · rw [if_pos hnone]
          apply Does.pure hI
          rintro _ ⟨⟩ _
          simp
        · rw [if_neg hnone]
          apply Does.pure hI
          rintro _ ⟨⟩ _
          simpa using hnone

/-- Looking in one directory leaves the looks in the others as they are. -/
theorem does_scan_cons {dir : List String} {dirs : List (List String)} {before : Scripts}
    {Q : Except StepError Scripts → Prop} (hI : I t) (herr : ∀ e, Q (.error e))
    (hrest : ∀ middle, Does event (masked mask) I (scanScripts dirs middle) t (fun r _ _ => Q r)) :
    Does event (masked mask) I (scanScripts (dir :: dirs) before) t (fun r _ _ => Q r) := by
  have hresolve : Does event (masked mask) I (mapErr reading (resolveFile (dir ++ [startupNshFilename]))) t
      (fun r t' _ => t' = t ∧ ∀ file, r = .ok file → True) := by
    apply does_mapErr
    apply (does_look (looks_resolveFrom .root _) hI).mono
    rintro _ _ _ _ ⟨rfl, -⟩
    exact ⟨rfl, fun _ _ => trivial⟩
  refine Does.bind hresolve (fun e _ _ _ _ => herr e) ?_
  rintro file t _ _ ⟨rfl, -⟩
  cases file with
  | none => exact hrest before
  | some path =>
      refine Does.bind (does_isOurs hI path) (fun e _ _ _ _ => herr e) ?_
      rintro mine t _ _ ⟨rfl, -⟩
      split
      · exact hrest _
      · split
        · exact hrest _
        · exact hrest _

theorem does_scan_seen (hI : I t) : Does event (masked seeRoot) I (scanScripts startupNshDirs ⟨[], none⟩) t (fun r _ _ =>
    ∀ found, r = .ok found → IsImageScript t [] → found.imageScript ≠ none) := by
  apply does_scan_cons hI (by simp)
  intro middle
  apply does_scan_cons hI (by simp)
  intro last
  exact does_scanRoot hI last

/-- A run that overlooks no script of the image's at the root stays in frame all along. -/
theorem does_writeEspFiles_frame (hscan : Does event (masked mask) (Frame marker t) (scanScripts startupNshDirs ⟨[], none⟩) t
    (fun r _ _ => ∀ found, r = .ok found → IsImageScript t [] → found.imageScript ≠ none)) :
    Does event (masked mask) (Frame marker t) (writeEspFiles arch marker) t (fun _ _ _ => True) := by
  have hI : Frame marker t t := Frame.of_own Outside.refl
  have hchild : Does event (masked mask) (Frame marker t) (mapErr reading (child .root "EFI")) t
      (fun r t' _ => t' = t ∧ ∀ efi, r = .ok efi → ∀ p, efi = some p → Same p (.join .root "EFI")) := by
    apply does_mapErr
    exact does_look looks_childEfi hI
  refine Does.bind hchild (fun _ _ _ _ _ => trivial) ?_
  rintro efi t _ _ ⟨rfl, hefi⟩
  have hpl : IsPlaces ⟨efi.getD (.join .root "EFI"), marker⟩ marker :=
    isPlaces_getD (hefi efi rfl)
  refine Does.bind ((does_look (looks_scanScripts startupNshDirs ⟨[], none⟩) hI).and hscan)
    (fun _ _ _ _ _ => trivial) ?_
  rintro found t _ _ ⟨⟨rfl, hfound⟩, hseen⟩
  have hfound' := hfound found rfl
  cases himage : found.imageScript with
  | some imageScript =>
      apply ((does_leaveInPlace_frame hpl hfound').restrict mask).mono
      exact fun _ _ _ _ _ => trivial
  | none =>
      have hno : ¬IsImageScript _ [] := fun h => hseen found rfl h himage
      have hbeside : Beside marker found.ours (Others marker t) := Found.beside hfound'
      apply (((does_writePair_frame hpl hbeside).restrict mask).weaken _).mono
      · exact fun _ _ _ _ _ => trivial
      · intro t' hpair
        exact hpair.frame fun himage => absurd himage hno

end Seeing

end Places

/-- Every run ends in frame that does not put the new script over one of the
image's at the root, and no other does. Where there is none at the root, or no
look at it fails unnoticed, every state of the run is in frame. -/
theorem writeEspFiles_frame (arch : Arch) (marker : String) (t : EspTree) (plan : Nat → Option Fault) :
    let ending := (writeEspFiles arch marker).run.run (logged event (disk ⟨true, true⟩)) plan (t, [])
    let seeing := (writeEspFiles arch marker).run.run (logged event ((disk ⟨true, true⟩).restrict seeRoot)) plan (t, [])
    (Frame marker t ending.final.1 ↔ (IsImageScript t [] → placed ∉ ending.final.2)) ∧
      (¬IsImageScript t [] → ∀ x ∈ ending.visited, Frame marker t x.1) ∧
      ∀ x ∈ seeing.visited, Frame marker t x.1 := by
  have hdoes : Does event (disk ⟨true, true⟩) (fun _ => True) (writeEspFiles arch marker) t (fun _ t' log =>
      Frame marker t t' ↔ (IsImageScript t [] → placed ∉ log)) := by
    apply does_writeEspFiles_cases trivial
    · intro e f log hlog
      exact ⟨fun _ _ => placed_not_mem hlog, fun _ => Frame.of_own Outside.refl⟩
    · intro pl found imageScript log₁ hpl hfound _ _ hlog₁
      apply ((does_leaveInPlace_frame hpl hfound).weaken fun _ _ => trivial).mono
      rintro _ t' log _ ⟨hframe, hno⟩
      refine ⟨fun _ _ => ?_, fun _ => hframe⟩
      rw [List.mem_append, not_or]
      exact ⟨placed_not_mem hlog₁, hno⟩
    · intro pl found log₁ hpl hfound _ hlog₁
      have hbeside : Beside marker found.ours (Others marker t) := Found.beside hfound
      apply Does.weaken (I := Pair arch pl (Others marker t) t) _ (fun _ _ => trivial)
      apply (does_writePair_frame hpl hbeside).mono
      intro _ t' log hpair hsettled
      exact frame_iff hpair (hsettled.after Outside.refl hbeside.notScript (placed_not_mem hlog₁))
  have hno : ¬IsImageScript t [] → Does event (masked fun {_} _ f => f) (Frame marker t) (writeEspFiles arch marker) t
      (fun _ _ _ => True) := by
    intro himage
    apply does_writeEspFiles_frame
    apply (does_look (looks_scanScripts _ _) (Frame.of_own Outside.refl)).mono
    intro _ _ _ _ _ _ _ h
    exact absurd h himage
  have hseen : Does event (masked seeRoot) (Frame marker t) (writeEspFiles arch marker) t (fun _ _ _ => True) :=
    does_writeEspFiles_frame (does_scan_seen (Frame.of_own Outside.refl))
  exact ⟨(hdoes.run plan).2, fun h => ((hno h).run plan).1, (hseen.run plan).1⟩

/-- An ESP whose image brings a script of its own. -/
def scriptedEsp : EspTree :=
  (FileTree.empty.insert .root "EFI" .dir).insert .root "startup.nsh" (.file 0o666 (utf8 "FS0:\\EFI\\kairos\\shim.efi"))

def failingAt (call n : Nat) : Option Fault := if n = call then some ⟨.os EIO, 0⟩ else none

def runFailing (call : Nat) : Ending (Except StepError StartupNsh) (EspTree × List EspEvent) :=
  (writeEspFiles .x86_64 "0123456789abcdef").run.run (logged event (disk ⟨true, true⟩)) (failingAt call)
    (scriptedEsp, [])

/-- Where the question whether it is a file fails, the image's script is written over. -/
theorem not_frame_overlooked : ¬Frame "0123456789abcdef" scriptedEsp (runFailing 15).final.1 := by
  intro h
  have hbefore : scriptedEsp.contents? (scriptAt []) = some (utf8 "FS0:\\EFI\\kairos\\shim.efi") := by
    decide +kernel
  have hafter : (runFailing 15).final.1.contents? (scriptAt []) ≠ some (utf8 "FS0:\\EFI\\kairos\\shim.efi") := by
    decide +kernel
  exact hafter (h.images [] (by decide) _ hbefore (by decide +kernel))

end Beskar7Inspector.EspFrame
