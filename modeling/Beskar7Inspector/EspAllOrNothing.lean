import Beskar7Inspector.EspPlacing

namespace Beskar7Inspector.EspAllOrNothing

open Lib.Program Lib.Text Lib.Os Lib.Recorder Lib.Files Lib.FileCalls Deploy EspFallback EspScan EspCleaning EspPlacing

/-- The paths of a run on any ESP, up to case. -/
def places (marker : String) : Places := ⟨.join .root "EFI", marker⟩

def SameFiles (t t' : EspTree) : Prop := ∀ p, t'.contents? p = t.contents? p

/-- The marker and the script of this run are both in place or both not: no
marker, and the script at the root as it was or gone. -/
def Together (arch : Arch) (marker : String) (t t' : EspTree) : Prop :=
  (t'.contents? (places marker).newMarker = some markerContents ∧
    t'.contents? script = some (scriptContents arch (places marker))) ∨
  (t'.contents? (places marker).newMarker = none ∧
    (t'.contents? script = t.contents? script ∨ t'.contents? script = none))

def AllOrNothing (arch : Arch) (marker : String) (t : EspTree) (r : Except DeployError StartupNsh) (t' : EspTree) : Prop :=
  (∀ cause, r = .ok (.notWritten cause) → SameFiles t t') ∧ Together arch marker t t'

/-- No call fails for a full or read-only ESP in a run that removed a file or
put the script into place; and where one on a temporary does, no file had a
temporary's name. -/
def Spared (marker : String) (t : EspTree) (log : List EspEvent) : Prop :=
  (log.any isFull = true → log.any changes = false) ∧
    (log.any (fun ev => onTemporary ev && isFull ev) = true →
      t.contents? (places marker).tmpMarker = none ∧ t.contents? tmpScript = none)

section

variable {may : Unnoticed} {I : EspTree → Prop} {arch : Arch} {pl : Places} {t t' : EspTree} {marker : String}

/-- What a run leaves, by where it ended. -/
inductive FilesEnd (arch : Arch) (pl : Places) (t : EspTree) : Except StepError StartupNsh → EspTree → List EspEvent → Prop
  | untouched {e : StepError} {t' : EspTree} (h : SameFiles t t') {f : Bool} {log : List EspEvent}
      (hlog : Traced f false false log) : FilesEnd arch pl t (.error e) t' log
  | left {removable : EspPath → Prop} {r : Except StepError StartupNsh} {t' : EspTree} {log : List EspEvent}
      (h : Cleaned removable t r t' log) (hr : ∀ s, r = .ok s → ∃ path, s = .leftInPlace path) : FilesEnd arch pl t r t' log
  | undone {e : StepError} {t' : EspTree} (h : Begun pl t t') (htmp : ∀ q, Temporary pl q → t'.contents? q = none)
      {log : List EspEvent} (hlog : Traced (isFullOrReadOnly e.source) false (isFullOrReadOnly e.source) log) :
      FilesEnd arch pl t (.error e) t' log
  | inPlace {r : Except StepError StartupNsh} {t' : EspTree} {log : List EspEvent}
      (hmarker : t'.contents? pl.newMarker = some markerContents)
      (hscript : t'.contents? script = some (scriptContents arch pl)) (hlog : Traced (errorFull r) true false log)
      (hr : ∀ s, r = .ok s → ∃ replaced, s = .written replaced) : FilesEnd arch pl t r t' log

/-- What is removed once the pair is in place. -/
def Stale (pl : Places) (p : EspPath) : Prop := ¬Same p pl.newMarker ∧ ¬Same p script

theorem not_same_scriptAt_script : ∀ dir ∈ startupNshDirs, dir ≠ [] → ¬Same (scriptAt dir) script := by decide

theorem stale_of_outside {p : EspPath} {dir : List String} (hdir : dir ∈ startupNshDirs) (hne : dir ≠ [])
    (hp : Same p (scriptAt dir)) : Stale pl p :=
  ⟨fun hs => not_same_scriptAt_newMarker pl dir (Eq.trans (Eq.symm hp) hs),
    fun hs => not_same_scriptAt_script dir hdir hne (Eq.trans (Eq.symm hp) hs)⟩

theorem stale_of_listed (hname : pl.marker ++ ".id" ∈ t.names pl.markerDir) {name : String}
    (hlisted : name ∈ t.names pl.markerDir) (hne : some (pl.markerDir.join name) ≠ some pl.newMarker) :
    Stale pl (pl.markerDir.join name) := by
  refine ⟨fun hs => hne ?_, not_same_of_depth (by simp [Places.markerDir, script, Path.depth])⟩
  rw [FileTree.names_inj hlisted hname (same_join_iff.mp hs).2]
  rfl

theorem does_removeStale {ours : List (Bool × EspPath)} (hI : Outlives I (Stale pl)) (ht : I t)
    (hname : pl.marker ++ ".id" ∈ t.names pl.markerDir)
    (hours : ∀ x ∈ ours, ∃ dir ∈ startupNshDirs, x.1 = dir.isEmpty ∧ Same x.2 (scriptAt dir)) :
    Does event (disk may) I (removeStale pl ours) t (Cleaned (Stale pl) t) := by
  refine Does.bind (does_removeMarkers hI ht pl.markerDir _ fun name hn _ hne => stale_of_listed hname hn hne)
    (fun _ _ _ _ h => h.stop) fun _ t₁ _ ht₁ h₁ => ?_
  have hscripts : ∀ p ∈ (ours.filter (!·.1)).map Prod.snd, Stale pl p := by
    intro p hp
    obtain ⟨x, hx, rfl⟩ := List.mem_map.mp hp
    obtain ⟨hx, houtside⟩ := List.mem_filter.mp hx
    obtain ⟨dir, hdir, hempty, hsame⟩ := hours x hx
    have hne : dir ≠ [] := by
      rintro rfl
      simp [hempty] at houtside
    exact stale_of_outside hdir hne hsame
  exact ((cleans_removeScripts hI _ hscripts).bind (fun _ => cleans_syncDirs pl.dirs) t₁ ht₁).mono
    fun _ _ _ _ h => h₁.trans h

theorem does_leaveInPlace (removable : EspPath → Prop) {ours : List (Bool × EspPath)} {imageScript : EspPath}
    (hI : Outlives I removable) (ht : I t) (hours : ∀ x ∈ ours, removable x.2)
    (hmarkers : ∀ name, removable (pl.markerDir.join name)) :
    Does event (disk may) I (leaveInPlace pl ours imageScript) t (fun r t' log => Cleaned removable t r t' log ∧
      ∀ s, r = .ok s → s = .leftInPlace (uefiPath imageScript)) := by
  have hmark : Cleans may I removable (removeMarkers pl.markerDir none) := fun t ht =>
    does_removeMarkers hI ht _ _ fun name _ _ _ => hmarkers name
  have hpaths : ∀ p ∈ ours.map Prod.snd, removable p := by
    intro p hp
    obtain ⟨x, hx, rfl⟩ := List.mem_map.mp hp
    exact hours x hx
  refine Does.bind (cleans_removeScripts hI _ hpaths t ht) (fun _ _ _ _ h => ⟨h.stop, by simp⟩) fun _ t₁ _ ht₁ h₁ => ?_
  refine Does.bind (hmark t₁ ht₁) (fun _ _ _ _ h => ⟨h₁.trans h.stop, by simp⟩) fun _ t₂ _ ht₂ h₂ => ?_
  refine Does.bind (cleans_syncDirs pl.dirs t₂ ht₂) (fun _ _ _ _ h => ⟨h₁.trans (h₂.trans h.stop), by simp⟩)
    fun _ t₃ _ ht₃ h₃ => Does.pure ht₃ ⟨h₁.trans (h₂.trans (h₃.trans (Cleaned.refl .nil))), ?_⟩
  rintro s hs
  cases hs
  rfl

theorem Cleaned.keeps {p : EspPath} {r : Except StepError Unit} {log : List EspEvent} (h : Cleaned (Stale pl) t r t' log)
    (hp : ∀ q, Stale pl q → ¬Same p q) : t'.contents? p = t.contents? p := by
  rcases h.shrinks p with hs | ⟨_, q, hq, hs⟩
  · exact hs
  · exact absurd hs (hp q hq)

theorem does_writePair {ours : List (Bool × EspPath)} (hc : may.cleanUps = false) (h₀ : t.contents? pl.newMarker = none)
    (hours : ∀ x ∈ ours, ∃ dir ∈ startupNshDirs, x.1 = dir.isEmpty ∧ Same x.2 (scriptAt dir)) :
    Does event (disk may) (fun _ => True) (writePair arch pl ours) t (FilesEnd arch pl t) := by
  refine Does.bind (P := fun r t' log => SameFiles t t' ∧ Traced (errorFull r) false false log)
    (does_createDirAll (fun _ _ => trivial) (fun e t' h => ⟨h, ?_⟩) fun t' h => ⟨h, ⟨rfl, rfl, rfl⟩⟩)
    (fun _ _ _ _ h => .untouched h.1 h.2) ?_
  · exact ⟨by simp [isFull, errorFull], rfl, by simp [onTemporary]⟩
  rintro ⟨⟩ t₁ log₁ _ ⟨hsame, hlog₁⟩
  have h₁ : t₁.contents? pl.newMarker = none := (hsame _).trans h₀
  refine Does.bind (does_putInPlace h₁ fun _ _ => trivial) ?_ ?_
  · rintro e t' log _ ⟨hundone, hlog⟩
    obtain ⟨hbegun, htmp⟩ := hundone hc
    exact .undone (fun q hq => (hbegun q hq).trans (hsame q)) htmp (by simpa [errorFull] using hlog₁.append hlog)
  rintro ⟨⟩ t₂ log₂ _ ⟨hcomplete, _, hname, hlog₂⟩
  have hend {r : Except StepError Unit} {r' : Except StepError StartupNsh} {t₃ : EspTree} {log₃ : List EspEvent}
      (h₃ : Cleaned (Stale pl) t₂ r t₃ log₃) (hr : errorFull r = errorFull r')
      (hr' : ∀ s, r' = .ok s → ∃ replaced, s = .written replaced) : FilesEnd arch pl t r' t₃ (log₁ ++ (log₂ ++ log₃)) := by
    obtain ⟨changed, hlog₃, _⟩ := h₃.traced
    refine .inPlace ?_ ?_ ?_ hr'
    · rw [Cleaned.keeps h₃ fun q hq hs => hq.1 (Eq.symm hs), hcomplete.newMarker_eq]
    · rw [Cleaned.keeps h₃ fun q hq hs => hq.2 (Eq.symm hs), hcomplete.script_eq]
    · have hlog := hlog₁.append (hlog₂.append hlog₃)
      rw [hr] at hlog
      simpa [errorFull] using hlog
  refine Does.bind (does_removeStale (fun _ _ _ _ _ _ => trivial) trivial hname hours)
    (fun e _ _ _ h => hend h rfl (by simp)) fun _ t₃ log₃ _ h₃ => Does.pure trivial ?_
  rw [List.append_nil]
  exact hend h₃ rfl fun s hs => ⟨_, by cases hs; rfl⟩

theorem Looks.traced {α ε : Type} {p : Try (FileOp String) ε α} {R : Except ε α → Prop} (h : Looks may p t R) (hI : I t) :
    Does event (disk may) I p t (fun r t' log => t' = t ∧ R r ∧ ∃ f, Traced f false false log ∧ (∀ a, r = .ok a → f = false)) := by
  refine (h I hI).mono fun r t' log _ ⟨ht, hl, hn, hr⟩ => ⟨ht, hr, log.any isFull, Traced.of_isLook hl, fun a ha => ?_⟩
  refine List.any_eq_false.mpr fun ev hev => ?_
  have := hn a ha ev hev
  cases hf : ev.failure with
  | none => simp [isFull, hf]
  | some e =>
      rw [hf, Option.all_some, IoError.isNotFound, beq_iff_eq] at this
      simp [isFull, hf, isFullOrReadOnly, this, ENOENT, ENOSPC, EROFS]

/-- The files of a run start in the directory `EFI`, in whatever case. -/
structure IsPlaces (pl : Places) (marker : String) : Prop where
  efiDir : Same pl.efiDir (.join .root "EFI")
  marker : pl.marker = marker

namespace IsPlaces

theorem markerDir (h : IsPlaces pl marker) (name : String) :
    Same (pl.markerDir.join name) ((places marker).markerDir.join name) :=
  same_join_iff.mpr ⟨same_join_iff.mpr ⟨h.efiDir, rfl⟩, rfl⟩

theorem newMarker (h : IsPlaces pl marker) : Same pl.newMarker (places marker).newMarker := by
  rw [Places.newMarker, h.marker]
  exact h.markerDir _

theorem tmpMarker (h : IsPlaces pl marker) : Same pl.tmpMarker (places marker).tmpMarker := by
  rw [Places.tmpMarker, h.marker]
  exact h.markerDir _

theorem scriptContents (h : IsPlaces pl marker) : scriptContents arch pl = scriptContents arch (places marker) := by
  rw [EspPlacing.scriptContents, h.marker]
  rfl

end IsPlaces

/-- The directory `EFI` as it is stored, or where it will be. -/
theorem isPlaces_getD {efi : Option EspPath} (h : ∀ p, efi = some p → Same p (.join .root "EFI")) :
    IsPlaces ⟨efi.getD (.join .root "EFI"), marker⟩ marker := by
  refine ⟨?_, rfl⟩
  cases efi with
  | none => rfl
  | some p => exact h p rfl

theorem looks_childEfi : Looks may (child .root "EFI") t
    (fun r => ∀ efi, r = .ok efi → ∀ p, efi = some p → Same p (.join .root "EFI")) := by
  apply (looks_child .root "EFI").mono
  rintro r hr efi rfl p rfl
  exact hr

theorem FilesEnd.prepend {r : Except StepError StartupNsh} {pre log : List EspEvent} (h : FilesEnd arch pl t r t' log)
    (hpre : Traced false false false pre) : FilesEnd arch pl t r t' (pre ++ log) := by
  cases h with
  | untouched h hlog => exact .untouched h (hpre.append hlog)
  | left h hr => exact .left ((Cleaned.refl (r := .ok ()) hpre).trans h) hr
  | undone h htmp hlog => exact .undone h htmp (by simpa using hpre.append hlog)
  | inPlace hmarker hscript hlog hr => exact .inPlace hmarker hscript (by simpa using hpre.append hlog) hr

/-- A run by the branch it takes; the looks before it change nothing. -/
theorem does_writeEspFiles_cases {Q : Except StepError StartupNsh → EspTree → List EspEvent → Prop} (hI : I t)
    (hstop : ∀ e f log, Traced f false false log → Q (.error e) t log)
    (hleave : ∀ pl found imageScript log₁, IsPlaces pl marker → Found may t startupNshDirs ⟨[], none⟩ found →
      found.imageScript = some imageScript → (may.looks = false → IsFirstImage t startupNshDirs imageScript) →
      Traced false false false log₁ → Does event (disk may) I (leaveInPlace pl found.ours imageScript) t
        (fun r t' log => Q r t' (log₁ ++ log)))
    (hpair : ∀ pl found log₁, IsPlaces pl marker → Found may t startupNshDirs ⟨[], none⟩ found →
      found.imageScript = none → Traced false false false log₁ → Does event (disk may) I (writePair arch pl found.ours) t
        (fun r t' log => Q r t' (log₁ ++ log))) :
    Does event (disk may) I (writeEspFiles arch marker) t Q := by
  have hchild : Looks may (mapErr reading (child .root "EFI")) t
      (fun r => ∀ efi, r = .ok efi → ∀ p, efi = some p → Same p (.join .root "EFI")) := by
    apply Looks.mapErr
    apply looks_childEfi.mono
    intro r hr efi hefi
    exact hr efi (mapError_eq_ok.mp hefi)
  refine Does.bind (Looks.traced hchild hI) ?_ ?_
  · rintro e _ log _ ⟨rfl, _, f, hlog, _⟩
    exact hstop e f log hlog
  rintro efi t log₁ _ ⟨rfl, hefi, f, hlog₁, hf⟩
  obtain rfl := hf efi rfl
  have hpl : IsPlaces ⟨efi.getD (.join .root "EFI"), marker⟩ marker := isPlaces_getD (hefi efi rfl)
  have hscan : Looks may (scanScripts startupNshDirs ⟨[], none⟩) t (fun r => ∀ found, r = .ok found →
      Found may t startupNshDirs ⟨[], none⟩ found ∧
        (may.looks = false → ∀ p, found.imageScript = some p → IsFirstImage t startupNshDirs p)) := by
    by_cases hl : may.looks = false
    · refine ((looks_scanScripts _ _).and (looks_scanScripts_first hl _ _)).mono fun r ⟨hr, hfirst⟩ found h => ?_
      refine ⟨hr found h, fun _ p hp => ?_⟩
      rcases hfirst found h p hp with hb | ⟨_, hfirst⟩
      · cases hb
      · exact hfirst
    · exact (looks_scanScripts _ _).mono fun r hr found h => ⟨hr found h, fun hn => absurd hn hl⟩
  refine Does.bind (Looks.traced hscan hI) ?_ ?_
  · rintro e _ log _ ⟨rfl, _, f, hlog, _⟩
    exact hstop e f _ (hlog₁.append hlog)
  rintro found t log₂ _ ⟨rfl, hr, f, hlog₂, hf⟩
  obtain rfl := hf found rfl
  obtain ⟨hfound, hfirst⟩ := hr found rfl
  have hpre : Traced false false false (log₁ ++ log₂) := hlog₁.append hlog₂
  cases himage : found.imageScript with
  | some imageScript =>
      refine (hleave _ found imageScript _ hpl hfound himage (fun hl => hfirst hl _ himage) hpre).mono ?_
      intro r t' log _ h
      rwa [← List.append_assoc]
  | none =>
      refine (hpair _ found _ hpl hfound himage hpre).mono ?_
      intro r t' log _ h
      rwa [← List.append_assoc]

theorem Found.ours_at {found : Scripts} (h : Found may t startupNshDirs ⟨[], none⟩ found) :
    ∀ x ∈ found.ours, ∃ dir ∈ startupNshDirs, x.1 = dir.isEmpty ∧ Same x.2 (scriptAt dir) := by
  intro x hx
  rcases h.ours x hx with hx | ⟨dir, hdir, hempty, hsame, _⟩
  · cases hx
  · exact ⟨dir, hdir, hempty, hsame⟩

theorem does_writeEspFiles (hc : may.cleanUps = false) (h₀ : t.contents? (places marker).newMarker = none) :
    Does event (disk may) (fun _ => True) (writeEspFiles arch marker) t
      (fun r t' log => ∃ pl, IsPlaces pl marker ∧ FilesEnd arch pl t r t' log) := by
  refine does_writeEspFiles_cases trivial (fun e f log hlog => ?_) ?_ ?_
  · exact ⟨places marker, ⟨rfl, rfl⟩, .untouched (fun _ => rfl) hlog⟩
  · intro pl found imageScript log₁ hpl _ _ _ hlog₁
    refine (does_leaveInPlace (fun _ => True) (fun _ _ _ _ _ _ => trivial) trivial (fun _ _ => trivial)
      fun _ => trivial).mono fun r t' log _ h => ⟨pl, hpl, ?_⟩
    exact (FilesEnd.left h.1 fun s hs => ⟨_, h.2 s hs⟩).prepend hlog₁
  · intro pl found log₁ hpl hfound _ hlog₁
    refine (does_writePair hc ?_ (Found.ours_at hfound)).mono fun r t' log _ h => ⟨pl, hpl, h.prepend hlog₁⟩
    exact (FileTree.contents?_congr hpl.newMarker).trans h₀

theorem notWritten_iff {text : IoError → String} {r : Except StepError StartupNsh} {P : Prop}
    (hr : ∀ s, r = .ok s → ∀ cause, s ≠ .notWritten cause) :
    (∀ cause, fallbackOutcome text r = .ok (.notWritten cause) → P) ↔ (errorFull r = true → P) := by
  cases r with
  | ok s => simpa [fallbackOutcome, errorFull] using fun cause h => absurd h (hr s rfl cause)
  | error e =>
      simp only [fallbackOutcome, errorFull]
      split <;> simp_all

theorem together_of_same (h₀ : t.contents? (places marker).newMarker = none) (hmarker : t'.contents? (places marker).newMarker =
    t.contents? (places marker).newMarker) (hscript : t'.contents? script = t.contents? script) :
    Together arch marker t t' :=
  .inr ⟨hmarker.trans h₀, .inl hscript⟩

theorem allOrNothing_iff_spared {text : IoError → String} {r : Except StepError StartupNsh} {log : List EspEvent}
    (hpl : IsPlaces pl marker) (h₀ : t.contents? (places marker).newMarker = none) (h : FilesEnd arch pl t r t' log) :
    AllOrNothing arch marker t (fallbackOutcome text r) t' ↔ Spared marker t log := by
  unfold AllOrNothing Spared
  cases h with
  | untouched h hlog =>
      rw [hlog.changed, hlog.spoilt]
      exact iff_of_true ⟨fun _ _ => h, together_of_same h₀ (h _) (h _)⟩ ⟨fun _ => rfl, by simp⟩
  | left h hr =>
      obtain ⟨changed, hlog, hsame, hgone⟩ := h.traced
      have hnot : ∀ s, r = .ok s → ∀ cause, s ≠ .notWritten cause := by
        rintro s hs cause rfl
        obtain ⟨_, h⟩ := hr _ hs
        cases h
      rw [notWritten_iff hnot, hlog.full, hlog.changed, hlog.spoilt]
      have htogether : Together arch marker t t' := by
        refine .inr ⟨?_, (h.shrinks script).imp_right And.left⟩
        rcases h.shrinks (places marker).newMarker with hs | hs
        · exact hs.trans h₀
        · exact hs.1
      rw [and_iff_left htogether, and_iff_left (by simp)]
      refine imp_congr_right fun _ => ⟨fun hs => ?_, hsame⟩
      refine Bool.eq_false_iff.mpr fun hc => ?_
      obtain ⟨p, hp, hn⟩ := hgone hc
      exact hp ((hs p).symm.trans hn)
  | @undone e t' h htmp log hlog =>
      rw [notWritten_iff (by simp), hlog.changed, hlog.spoilt]
      have hmarker : ¬Temporary pl (places marker).newMarker := fun ht =>
        not_temporary_newMarker (ht.imp (Eq.trans hpl.newMarker) (Eq.trans hpl.newMarker))
      rw [and_iff_left (together_of_same h₀ (h _ hmarker) (h _ not_temporary_script)), and_iff_right fun _ => rfl]
      refine imp_congr_right fun _ => ⟨fun hs => ⟨?_, ?_⟩, fun ⟨hm, hs⟩ p => ?_⟩
      · exact (hs _).symm.trans (htmp _ (.inl hpl.tmpMarker.symm))
      · exact (hs _).symm.trans (htmp _ (.inr rfl))
      · by_cases hp : Temporary pl p
        · rw [htmp p hp]
          rcases hp with hp | hp
          · exact ((FileTree.contents?_congr (Eq.trans hp hpl.tmpMarker)).trans hm).symm
          · exact ((FileTree.contents?_congr hp).trans hs).symm
        · exact h p hp
  | inPlace hmarker hscript hlog hr =>
      have hnot : ∀ s, r = .ok s → ∀ cause, s ≠ .notWritten cause := by
        rintro s hs cause rfl
        obtain ⟨_, h⟩ := hr _ hs
        cases h
      rw [notWritten_iff hnot, hlog.full, hlog.changed, hlog.spoilt]
      have hnew : t'.contents? (places marker).newMarker = some markerContents :=
        (FileTree.contents?_congr hpl.newMarker.symm).trans hmarker
      have htogether : Together arch marker t t' := .inl ⟨hnew, hpl.scriptContents ▸ hscript⟩
      rw [and_iff_left htogether, and_iff_left (by simp)]
      refine imp_congr_right fun _ => ⟨fun hs => ?_, by simp⟩
      have := hs (places marker).newMarker
      rw [h₀, hnew] at this
      cases this

end

/-- The fallback is all or nothing exactly in the runs that are spared. -/
theorem writeEspFallback_allOrNothing_iff (text : IoError → String) (arch : Arch) (marker : String) (t : EspTree)
    (h₀ : t.contents? (places marker).newMarker = none) (plan : Nat → Option Fault) :
    let ending := (writeEspFallback text arch marker).run.run (logged event (disk ⟨false, true⟩)) plan (t, [])
    AllOrNothing arch marker t ending.value ending.final.1 ↔ Spared marker t ending.final.2 := by
  have hdoes : Does event (disk ⟨false, true⟩) (fun _ => True) (writeEspFallback text arch marker) t (fun r t' log =>
      AllOrNothing arch marker t r t' ↔ Spared marker t log) :=
    Does.mapResult ((does_writeEspFiles rfl h₀).mono fun r t' log _ ⟨pl, hpl, h⟩ => allOrNothing_iff_spared hpl h₀ h)
  exact (hdoes.run plan).2

/-- An ESP with the loader, and the marker and script of an earlier deploy. -/
def redeployedEsp : EspTree :=
  let efi : EspPath := .join .root "EFI"
  let loader := ((FileTree.empty.insert .root "EFI" .dir).insert efi "BOOT" .dir).insert (efi.join "BOOT") "BOOTX64.EFI"
    (.file 0o666 [77, 90])
  let marked := (loader.insert efi "beskar7" .dir).insert (efi.join "beskar7") "fedcba9876543210.id"
    (.file 0o666 markerContents)
  marked.insert .root "startup.nsh" (.file 0o666 (utf8 (renderStartupNsh .x86_64 "fedcba9876543210")))

def readOnlyAt (call n : Nat) : Option Fault := if n = call then some ⟨.os EROFS, 0⟩ else none

def redeploy (plan : Nat → Option Fault) : Ending (Except DeployError StartupNsh) (EspTree × List EspEvent) :=
  (writeEspFallback (fun _ => "read-only") .x86_64 "0123456789abcdef").run.run (logged event (disk ⟨false, true⟩)) plan
    (redeployedEsp, [])

theorem writeEspFallback_allOrNothing_redeployed :
    AllOrNothing .x86_64 "0123456789abcdef" redeployedEsp (redeploy (readOnlyAt 24)).value
      (redeploy (readOnlyAt 24)).final.1 :=
  (writeEspFallback_allOrNothing_iff (fun _ => "read-only") .x86_64 "0123456789abcdef" redeployedEsp (by decide +kernel)
    (readOnlyAt 24)).mpr ⟨by decide +kernel, fun _ => by decide +kernel⟩

/-- One that turns read-only at the removal of the old marker has the new pair,
and is reported as not written. -/
theorem not_allOrNothing_redeployed :
    ¬AllOrNothing .x86_64 "0123456789abcdef" redeployedEsp (redeploy (readOnlyAt 35)).value
      (redeploy (readOnlyAt 35)).final.1 := by
  intro h
  have hvalue : (redeploy (readOnlyAt 35)).value = .ok (.notWritten "removing an old marker: read-only") := by
    decide +kernel
  have hsame := h.1 _ hvalue (places "0123456789abcdef").newMarker
  have hnew : (redeploy (readOnlyAt 35)).final.1.contents? (places "0123456789abcdef").newMarker = some markerContents := by
    decide +kernel
  have hold : redeployedEsp.contents? (places "0123456789abcdef").newMarker = none := by
    decide +kernel
  rw [hnew, hold] at hsame
  cases hsame

end Beskar7Inspector.EspAllOrNothing
