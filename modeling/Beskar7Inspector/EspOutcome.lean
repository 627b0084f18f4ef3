import Beskar7Inspector.EspAllOrNothing
import Beskar7Inspector.EspRemovals

namespace Beskar7Inspector.EspOutcome

open Lib.Program Lib.Text Lib.Os Lib.Recorder Lib.Files Lib.FileCalls Deploy EspFallback EspScan EspCleaning EspPlacing
  EspAllOrNothing EspRemovals

structure PairLeft (arch : Arch) (marker : String) (t t' : EspTree) (replaced : Bool) : Prop where
  noImageScript : ∀ dir ∈ startupNshDirs, ¬IsImageScript t dir
  script : t'.contents? script = some (utf8 (renderStartupNsh arch marker))
  newMarker : t'.contents? (places marker).newMarker = some markerContents
  onlyMarker : ∀ name ∈ t'.names (places marker).markerDir, isMarkerName name = true → name = marker ++ ".id"
  noOthers : ∀ dir ∈ startupNshDirs, dir ≠ [] → t'.contents? (scriptAt dir) = none
  noTemporaries : t'.contents? (places marker).tmpMarker = none ∧ t'.contents? tmpScript = none
  replaced : replaced = true ↔ ∃ dir ∈ startupNshDirs, IsOurScript t dir

/-- What a run that left the image's script leaves: that path is the image's
first script, nothing is written, and nothing of ours is left. -/
structure ImageLeft (marker : String) (t t' : EspTree) (uefi : String) : Prop where
  first : ∃ path, IsFirstImage t startupNshDirs path ∧ uefi = uefiPath path
  noOurs : ∀ dir ∈ startupNshDirs, ¬IsOurScript t' dir
  noMarkers : ∀ name ∈ t'.names (places marker).markerDir, isMarkerName name = false
  noNewMarker : t'.contents? (places marker).newMarker = none
  nothingWritten : ∀ p, t'.contents? p = t.contents? p ∨ t'.contents? p = none

section

variable {may : Unnoticed} {arch : Arch} {pl : Places} {t t' : EspTree} {marker : String} {found : Scripts}

theorem names_places (hpl : IsPlaces pl marker) : t.names (places marker).markerDir = t.names pl.markerDir :=
  FileTree.names_congr (same_join_iff.mpr ⟨hpl.efiDir.symm, rfl⟩)

theorem does_removeStale_left {ours : List (Bool × EspPath)} (hl : may.looks = false) :
    Does event (disk may) (fun _ => True) (removeStale pl ours) t (fun r t' _ => Removed (fun p =>
      OldMarker pl.markerDir (some pl.newMarker) (t.names pl.markerDir) p ∨
        p ∈ (ours.filter (!·.1)).map Prod.snd ∨ False) t r t') :=
  does_then (does_removeMarkers_done hl pl.markerDir _) fun _ => (removes_removeScripts _).bind fun _ =>
    removes_syncDirs pl.dirs

theorem ours_isEmpty_iff (hl : may.looks = false) (hfound : Found may t startupNshDirs ⟨[], none⟩ found) :
    (!found.ours.isEmpty) = true ↔ ∃ dir ∈ startupNshDirs, IsOurScript t dir := by
  rw [Bool.not_eq_true', List.isEmpty_eq_false_iff_exists_mem]
  constructor
  · rintro ⟨x, hx⟩
    rcases hfound.ours x hx with hx | ⟨dir, hdir, _, hsame, contents, hc, hm⟩
    · cases hx
    · exact ⟨dir, hdir, contents, (FileTree.contents?_congr hsame.symm).trans hc, hm⟩
  · rintro ⟨dir, hdir, hours⟩
    obtain ⟨x, hx, _⟩ := hfound.mine hl hdir hours
    exact ⟨x, hx⟩

/-- What the three parts of writing the pair make of the files. -/
theorem pairLeft_of_removed {t₁ t₂ t₃ : EspTree} {log : List EspEvent} (hl : may.looks = false) (hpl : IsPlaces pl marker)
    (hfound : Found may t startupNshDirs ⟨[], none⟩ found) (hnone : found.imageScript = none)
    (hsame : ∀ q, t₁.contents? q = t.contents? q) (hcomplete : Complete arch pl t₁ t₂)
    (htmp : ∀ q, Temporary pl q → t₂.contents? q = none) (hcleaned : Cleaned (Stale pl) t₂ (.ok ()) t₃ log)
    (hremoved : Removed (fun p => OldMarker pl.markerDir (some pl.newMarker) (t₂.names pl.markerDir) p ∨
      p ∈ (found.ours.filter (!·.1)).map Prod.snd ∨ False) t₂ (.ok ()) t₃) :
    PairLeft arch marker t t₃ (!found.ours.isEmpty) := by
  have hgone {p : EspPath} (hp : t₂.contents? p = none) : t₃.contents? p = none := by
    rcases hcleaned.shrinks p with hs | hs
    · rw [hs, hp]
    · exact hs.1
  have hnoImage : ∀ dir ∈ startupNshDirs, ¬IsImageScript t dir := fun dir hdir himage => hfound.image hl hdir himage hnone
  constructor
  case noImageScript => exact hnoImage
  case script =>
    rw [Cleaned.keeps hcleaned fun q hq hs => hq.2 (Eq.symm hs), hcomplete.script_eq, scriptContents, hpl.marker]
  case newMarker =>
    rw [FileTree.contents?_congr hpl.newMarker.symm, Cleaned.keeps hcleaned fun q hq hs => hq.1 (Eq.symm hs),
      hcomplete.newMarker_eq]
  case onlyMarker =>
    intro name hlisted hmarker
    rw [names_places hpl] at hlisted
    have hkept := Option.some.inj (hremoved.markers (fun p => .inl) hlisted hmarker)
    rw [Places.newMarker, Path.join.injEq] at hkept
    rw [hkept.2, hpl.marker]
  case noOthers =>
    intro dir hdir hne
    by_cases hours : IsOurScript t dir
    · refine hfound.gone hl hdir hours fun x hx hempty => hremoved.done _ rfl x.2 (.inr (.inl ?_))
      exact List.mem_map_of_mem (List.mem_filter.mpr ⟨hx, by simpa [hempty] using hne⟩)
    · have hnothing : t.contents? (scriptAt dir) = none := by
        by_contra hsome
        obtain ⟨contents, hc⟩ := Option.ne_none_iff_exists'.mp hsome
        cases hm : hasSignature contents with
        | true => exact hours ⟨contents, hc, hm⟩
        | false => exact hnoImage dir hdir ⟨contents, hc, hm⟩
      refine hgone ?_
      rw [hcomplete _ not_temporary_scriptAt, if_neg (not_same_scriptAt_script dir hdir hne),
        if_neg (not_same_scriptAt_newMarker pl dir), hsame, hnothing]
  case noTemporaries =>
    rw [← FileTree.contents?_congr hpl.tmpMarker]
    exact ⟨hgone (htmp _ (.inl rfl)), hgone (htmp _ (.inr rfl))⟩
  case replaced => exact ours_isEmpty_iff hl hfound

theorem does_writePair_left (hl : may.looks = false) (hpl : IsPlaces pl marker)
    (h₀ : t.contents? (places marker).newMarker = none) (hfound : Found may t startupNshDirs ⟨[], none⟩ found)
    (hnone : found.imageScript = none) :
    Does event (disk may) (fun _ => True) (writePair arch pl found.ours) t (fun r t' _ => ∀ s, r = .ok s →
      ∃ replaced, s = .written replaced ∧ PairLeft arch marker t t' replaced) := by
  refine Does.bind (P := fun _ t' _ => ∀ q, t'.contents? q = t.contents? q)
    (does_createDirAll (fun _ _ => trivial) (fun _ _ hsame => hsame) fun _ hsame => hsame)
    (fun _ _ _ _ _ => by simp) fun _ t₁ _ _ hsame => ?_
  have h₁ : t₁.contents? pl.newMarker = none :=
    (hsame _).trans ((FileTree.contents?_congr hpl.newMarker).trans h₀)
  refine Does.bind (does_putInPlace h₁ fun _ _ => trivial) (fun _ _ _ _ _ => by simp)
    fun _ t₂ _ _ ⟨hcomplete, htmp, hname, _⟩ => ?_
  have hcleaned : Does event (disk may) (fun _ => True) (removeStale pl found.ours) t₂ (Cleaned (Stale pl) t₂) :=
    does_removeStale (fun _ _ _ _ _ _ => trivial) trivial hname (Found.ours_at hfound)
  refine Does.bind (hcleaned.and (does_removeStale_left hl)) (fun _ _ _ _ _ => by simp)
    fun _ t₃ _ _ ⟨hcleaned, hremoved⟩ => Does.pure trivial ?_
  rintro _ ⟨⟩
  exact ⟨_, rfl, pairLeft_of_removed hl hpl hfound hnone hsame hcomplete htmp hcleaned hremoved⟩

theorem does_leaveInPlace_left {imageScript : EspPath} (hl : may.looks = false) (hpl : IsPlaces pl marker)
    (h₀ : t.contents? (places marker).newMarker = none) (hfound : Found may t startupNshDirs ⟨[], none⟩ found)
    (hfirst : IsFirstImage t startupNshDirs imageScript) :
    Does event (disk may) (fun _ => True) (leaveInPlace pl found.ours imageScript) t (fun r t' _ => ∀ s, r = .ok s →
      s = .leftInPlace (uefiPath imageScript) ∧ ImageLeft marker t t' (uefiPath imageScript)) := by
  have hremoved : Does event (disk may) (fun _ => True) (leaveInPlace pl found.ours imageScript) t (fun r t' _ =>
      ∀ s, r = .ok s → (∀ x ∈ found.ours, t'.storedName? x.2 = none) ∧
        ∀ name ∈ t'.names pl.markerDir, isMarkerName name = false) := by
    refine Does.bind (removes_removeScripts _ t) (fun _ _ _ _ _ => by simp) fun _ t₁ _ _ hscripts => ?_
    refine Does.bind (does_removeMarkers_done hl pl.markerDir none) (fun _ _ _ _ _ => by simp)
      fun _ t₂ _ _ hmarkers => ?_
    refine Does.bind (removes_syncDirs pl.dirs t₂) (fun _ _ _ _ _ => by simp) fun _ t₃ _ _ hsync =>
      Does.pure trivial fun _ _ => ⟨fun x hx => ?_, fun name hname => ?_⟩
    · exact hsync.keepsNone (hmarkers.keepsNone (hscripts.done _ rfl x.2 (List.mem_map_of_mem hx)))
    · by_contra hmarker
      have := hmarkers.markers (fun _ h => h) (hsync.names hname) (by simpa using hmarker)
      cases this
  refine ((does_leaveInPlace (fun _ => True) (fun _ _ _ _ _ _ => trivial) trivial (fun _ _ => trivial)
    fun _ => trivial).and hremoved).mono ?_
  rintro r t' _ _ ⟨⟨hcleaned, hvalue⟩, hleft⟩ s hs
  obtain ⟨hours, hmarkers⟩ := hleft s hs
  have hnothing : ∀ p, t'.contents? p = t.contents? p ∨ t'.contents? p = none := fun p =>
    (hcleaned.shrinks p).imp_right And.left
  refine ⟨hvalue s hs, ⟨imageScript, hfirst, rfl⟩, ?_, ?_, ?_, hnothing⟩
  · rintro dir hdir ⟨contents, hc, hm⟩
    have hgone : t'.contents? (scriptAt dir) = none := by
      rcases hnothing (scriptAt dir) with hsame | hgone
      · exact hfound.gone hl hdir ⟨contents, hsame ▸ hc, hm⟩ fun x hx _ => hours x hx
      · exact hgone
    rw [hgone] at hc
    cases hc
  · intro name hname
    rw [names_places hpl] at hname
    exact hmarkers name hname
  · rcases hnothing (places marker).newMarker with hsame | hgone
    · exact hsame.trans h₀
    · exact hgone

end

/-- What a run leaves when it writes the pair, and when it leaves the image's script. -/
theorem writeEspFiles_left (arch : Arch) (marker : String) (t : EspTree)
    (h₀ : t.contents? (places marker).newMarker = none) (plan : Nat → Option Fault) :
    let ending := (writeEspFiles arch marker).run.run (logged event (disk ⟨true, false⟩)) plan (t, [])
    (∀ replaced, ending.value = .ok (.written replaced) → PairLeft arch marker t ending.final.1 replaced) ∧
      ∀ uefi, ending.value = .ok (.leftInPlace uefi) → ImageLeft marker t ending.final.1 uefi := by
  have hdoes : Does event (disk ⟨true, false⟩) (fun _ => True) (writeEspFiles arch marker) t (fun r t' _ =>
      (∀ replaced, r = .ok (.written replaced) → PairLeft arch marker t t' replaced) ∧
        ∀ uefi, r = .ok (.leftInPlace uefi) → ImageLeft marker t t' uefi) := by
    refine does_writeEspFiles_cases trivial (fun _ _ _ _ => by simp) ?_ ?_
    · intro pl found imageScript log₁ hpl hfound _ hfirst _
      refine (does_leaveInPlace_left rfl hpl h₀ hfound (hfirst rfl)).mono fun r t' _ _ h => ⟨fun _ hr => ?_, fun _ hr => ?_⟩
      · cases (h _ hr).1
      · obtain ⟨heq, hleft⟩ := h _ hr
        obtain rfl := StartupNsh.leftInPlace.inj heq
        exact hleft
    · intro pl found log₁ hpl hfound hnone _
      refine (does_writePair_left rfl hpl h₀ hfound hnone).mono fun r t' _ _ h => ⟨fun _ hr => ?_, fun _ hr => ?_⟩
      · obtain ⟨_, heq, hleft⟩ := h _ hr
        obtain rfl := StartupNsh.written.inj heq
        exact hleft
      · obtain ⟨_, heq, _⟩ := h _ hr
        cases heq
  exact (hdoes.run plan).2

theorem writeEspFiles_left_redeployed :
    let ending := (writeEspFiles .x86_64 "0123456789abcdef").run.run (logged event (disk ⟨true, false⟩)) (fun _ => none)
      (redeployedEsp, [])
    PairLeft .x86_64 "0123456789abcdef" redeployedEsp ending.final.1 true :=
  (writeEspFiles_left .x86_64 "0123456789abcdef" redeployedEsp (by decide +kernel) fun _ => none).1 true
    (by decide +kernel)

end Beskar7Inspector.EspOutcome
