import Beskar7Inspector.EspAllOrNothing
import Beskar7Inspector.EspRemovals

namespace Beskar7Inspector.EspMarkers

open Lib.Program Lib.Text Lib.Os Lib.Recorder Lib.Files Lib.FileCalls Deploy EspFallback EspScan EspCleaning EspPlacing
  EspAllOrNothing EspRemovals

/-- How a script refers to a marker. -/
def markerText (marker : String) : List UInt8 := utf8 ("\\EFI\\beskar7\\" ++ marker ++ ".id")

def HasMarker (t : EspTree) (marker : String) : Prop := t.contents? (places marker).newMarker ≠ none

/-- What `P` says of every script of ours where the Shell looks. -/
def OursAre (P : List UInt8 → Prop) (t : EspTree) : Prop :=
  ∀ dir ∈ startupNshDirs, ∀ contents, t.contents? (scriptAt dir) = some contents → hasSignature contents = true → P contents

/-- Every script of ours names a marker that is there. -/
def ScriptsFind (t : EspTree) : Prop :=
  OursAre (fun contents => ∃ marker, markerText marker <:+: contents ∧ HasMarker t marker) t

/-- An image script is there, or no script of ours stands outside the root but
one that names the new marker. -/
def Guarded (marker : String) (t : EspTree) : Prop :=
  (∃ dir ∈ startupNshDirs, IsImageScript t dir) ∨ ∀ dir ∈ startupNshDirs, dir ≠ [] → ∀ contents,
    t.contents? (scriptAt dir) = some contents → hasSignature contents = true → markerText marker <:+: contents

section

variable {may : Unnoticed} {arch : Arch} {pl : Places} {t t' t₀ : EspTree} {marker : String} {dir : List String}

theorem markerText_infix (hpl : IsPlaces pl marker) : markerText marker <:+: scriptContents arch pl := by
  rw [scriptContents, hpl.marker, renderStartupNsh, utf8_append]
  refine List.IsInfix.trans ?_ (List.prefix_append _ _).isInfix
  have hline : "  if exist FS%i:\\EFI\\" ++ markerDirName ++ "\\" ++ marker ++ ".id then" =
      "  if exist FS%i:" ++ ("\\EFI\\beskar7\\" ++ marker ++ ".id") ++ " then" := by
    apply String.toList_inj.mp
    simp [markerDirName]
  have hin : markerText marker <:+: utf8 ("  if exist FS%i:\\EFI\\" ++ markerDirName ++ "\\" ++ marker ++ ".id then") := by
    rw [hline, utf8_append, utf8_append]
    exact ⟨_, _, rfl⟩
  exact hin.trans (isInfix_utf8 (infix_intercalate (by simp)))

theorem ScriptsFind.of_sub (h : ScriptsFind t)
    (hscripts : ∀ dir ∈ startupNshDirs, ∀ contents, t'.contents? (scriptAt dir) = some contents →
      hasSignature contents = true → t.contents? (scriptAt dir) = some contents)
    (hmarkers : ∀ marker, HasMarker t marker → HasMarker t' marker) : ScriptsFind t' := by
  intro dir hdir contents hc hm
  obtain ⟨named, hnamed, hhas⟩ := h dir hdir contents (hscripts dir hdir contents hc hm) hm
  exact ⟨named, hnamed, hmarkers named hhas⟩

theorem ScriptsFind.same (h : ScriptsFind t) (hsame : ∀ q, ¬Temporary pl q → t'.contents? q = t.contents? q) :
    ScriptsFind t' := by
  refine h.of_sub (fun dir _ contents hc _ => ?_) fun marker hhas => ?_
  · rwa [← hsame _ not_temporary_scriptAt]
  · rwa [HasMarker, hsame _ not_temporary_newMarker]

/-- The new pair goes into place without a moment at which a script looks in vain. -/
theorem ScriptsFind.underway (hpl : IsPlaces pl marker) (h : ScriptsFind t₀) (hu : Underway arch pl t₀ t) :
    ScriptsFind t := by
  rcases hu with hb | hm | hc
  · exact h.same hb
  · refine h.of_sub (fun dir _ contents hc _ => ?_) fun marker hhas => ?_
    · rwa [hm _ not_temporary_scriptAt, if_neg (not_same_scriptAt_newMarker pl dir)] at hc
    · rw [HasMarker, hm _ not_temporary_newMarker]
      split
      · simp
      · exact hhas
  · have hmarkers (m : String) (hhas : HasMarker t₀ m) : HasMarker t m := by
      rw [HasMarker, hc _ not_temporary_newMarker]
      split
      · simp
      · split
        · simp
        · exact hhas
    intro dir hdir contents hcontents hm
    rw [hc _ not_temporary_scriptAt] at hcontents
    split at hcontents
    · obtain rfl := Option.some.inj hcontents
      refine ⟨marker, markerText_infix hpl, ?_⟩
      rw [HasMarker, hc _ not_temporary_newMarker, if_neg, if_pos hpl.newMarker.symm]
      · simp
      · exact not_same_newMarker_script _
    · rw [if_neg (not_same_scriptAt_newMarker pl dir)] at hcontents
      obtain ⟨named, hnamed, hhas⟩ := h dir hdir contents hcontents hm
      exact ⟨named, hnamed, hmarkers named hhas⟩

/-- The new marker is there and every script of ours names it. -/
def AllNew (marker : String) (t : EspTree) : Prop := HasMarker t marker ∧ OursAre (markerText marker <:+: ·) t

theorem AllNew.scriptsFind (h : AllNew marker t) : ScriptsFind t :=
  fun dir hdir contents hc hm => ⟨marker, h.2 dir hdir contents hc hm, h.1⟩

theorem AllNew.outlives (hpl : IsPlaces pl marker) : Outlives (AllNew marker) (Stale pl) := by
  rintro t t' p ⟨hp, _⟩ ⟨hhas, hours⟩ herase
  refine ⟨?_, fun dir hdir contents hc hm => ?_⟩
  · rw [HasMarker, herase, if_neg]
    · exact hhas
    · exact fun hs => hp (hs.symm.trans hpl.newMarker.symm)
  · rw [herase] at hc
    split at hc
    · cases hc
    · exact hours dir hdir contents hc hm

/-- With the pair in place every script of ours names the new marker. -/
theorem AllNew.of_complete (hpl : IsPlaces pl marker) (hc : Complete arch pl t₀ t)
    (hours : ∀ dir ∈ startupNshDirs, dir ≠ [] → ∀ contents, t₀.contents? (scriptAt dir) = some contents →
      hasSignature contents = true → markerText marker <:+: contents) : AllNew marker t := by
  constructor
  · rw [HasMarker, hc _ not_temporary_newMarker, if_neg, if_pos hpl.newMarker.symm]
    · simp
    · exact not_same_newMarker_script _
  · intro dir hdir contents hcontents hm
    rw [hc _ not_temporary_scriptAt] at hcontents
    split at hcontents
    · obtain rfl := Option.some.inj hcontents
      exact markerText_infix hpl
    · rename_i hroot
      rw [if_neg (not_same_scriptAt_newMarker pl dir)] at hcontents
      exact hours dir hdir (fun hnil => hroot (hnil ▸ rfl)) contents hcontents hm

def NoneOurs (t : EspTree) : Prop := OursAre (fun _ => False) t

theorem NoneOurs.scriptsFind (h : NoneOurs t) : ScriptsFind t :=
  fun dir hdir contents hc hm => (h dir hdir contents hc hm).elim

theorem NoneOurs.outlives {removable : EspPath → Prop} : Outlives NoneOurs removable := by
  intro t t' p _ h herase dir hdir contents hc
  rw [herase] at hc
  split at hc
  · cases hc
  · exact h dir hdir contents hc

theorem ScriptsFind.outlives : Outlives ScriptsFind (fun p => ∃ dir, Same p (scriptAt dir)) := by
  rintro t t' p ⟨at_, hp⟩ h herase
  refine h.of_sub (fun dir _ contents hc _ => ?_) fun marker hhas => ?_
  · rw [herase] at hc
    split at hc
    · cases hc
    · exact hc
  · rw [HasMarker, herase, if_neg]
    · exact hhas
    · exact fun hs => not_same_scriptAt_newMarker (places marker) at_ (hp.symm.trans hs.symm)

theorem does_leaveInPlace_scriptsFind {found : Scripts} {imageScript : EspPath} (hl : may.looks = false)
    (h : ScriptsFind t) (hfound : Found may t startupNshDirs ⟨[], none⟩ found) :
    Does event (disk may) ScriptsFind (leaveInPlace pl found.ours imageScript) t (fun _ _ _ => True) := by
  have hpaths : ∀ p ∈ found.ours.map Prod.snd, ∃ dir, Same p (scriptAt dir) := by
    intro p hp
    obtain ⟨x, hx, rfl⟩ := List.mem_map.mp hp
    rcases hfound.ours x hx with hx | ⟨dir, _, _, hsame, _⟩
    · cases hx
    · exact ⟨dir, hsame⟩
  refine Does.bind ((cleans_removeScripts ScriptsFind.outlives _ hpaths t h).and (removes_removeScripts _ t))
    (fun _ _ _ _ _ => trivial) fun _ t₁ _ _ ⟨hcleaned, hremoved⟩ => ?_
  have hnone : NoneOurs t₁ := by
    intro dir hdir contents hc hm
    have hbefore : t.contents? (scriptAt dir) = some contents := by
      rcases hcleaned.shrinks (scriptAt dir) with hs | ⟨hs, _⟩
      · rw [← hs, hc]
      · rw [hs] at hc
        cases hc
    have hgone : t₁.contents? (scriptAt dir) = none := hfound.gone hl hdir ⟨contents, hbefore, hm⟩ fun x hx _ =>
      hremoved.done _ rfl x.2 (List.mem_map_of_mem hx)
    rw [hgone] at hc
    cases hc
  refine Does.weaken ?_ fun _ => NoneOurs.scriptsFind
  have hoften : Outlives NoneOurs (fun _ => True) := NoneOurs.outlives
  have hsync : Cleans may NoneOurs (fun _ => True) (syncDirs pl.dirs) := cleans_syncDirs pl.dirs
  refine Does.bind (does_removeMarkers hoften hnone pl.markerDir none fun _ _ _ _ => trivial) (fun _ _ _ _ _ => trivial)
    fun _ t₂ _ h₂ _ => ?_
  exact Does.bind (hsync t₂ h₂) (fun _ _ _ _ _ => trivial) fun _ t₃ _ h₃ _ => Does.pure h₃ trivial

theorem does_writePair_scriptsFind {ours : List (Bool × EspPath)} (hpl : IsPlaces pl marker)
    (h₀ : t.contents? pl.newMarker = none) (h : ScriptsFind t)
    (hours : ∀ x ∈ ours, ∃ dir ∈ startupNshDirs, x.1 = dir.isEmpty ∧ Same x.2 (scriptAt dir))
    (houtside : ∀ dir ∈ startupNshDirs, dir ≠ [] → ∀ contents, t.contents? (scriptAt dir) = some contents →
      hasSignature contents = true → markerText marker <:+: contents) :
    Does event (disk may) ScriptsFind (writePair arch pl ours) t (fun _ _ _ => True) := by
  refine Does.bind (P := fun _ t' _ => ∀ q, t'.contents? q = t.contents? q)
    (does_createDirAll (fun t' hsame => h.same fun q (_ : ¬Temporary pl q) => hsame q) (fun _ _ hsame => hsame) fun _ hsame => hsame)
    (fun _ _ _ _ _ => trivial) fun _ t₁ _ h₁ hsame => ?_
  refine Does.bind (does_putInPlace ((hsame _).trans h₀) fun t hu => h₁.underway hpl hu) (fun _ _ _ _ _ => trivial)
    fun _ t₂ _ _ ⟨hcomplete, _, hname, _⟩ => ?_
  have hnew : AllNew marker t₂ := AllNew.of_complete hpl hcomplete fun dir hdir hne contents hc hm =>
    houtside dir hdir hne contents ((hsame _).symm.trans hc) hm
  refine Does.bind ((does_removeStale (AllNew.outlives hpl) hnew hname hours).weaken fun _ => AllNew.scriptsFind)
    (fun _ _ _ _ _ => trivial) fun _ t₃ _ h₃ _ => Does.pure h₃ trivial

theorem does_writeEspFiles_scriptsFind (hl : may.looks = false) (h₀ : t.contents? (places marker).newMarker = none)
    (h : ScriptsFind t) (hguarded : Guarded marker t) :
    Does event (disk may) ScriptsFind (writeEspFiles arch marker) t (fun _ _ _ => True) := by
  refine does_writeEspFiles_cases h (fun _ _ _ _ => trivial) ?_ ?_
  · intro pl found imageScript log₁ _ hfound _ _ _
    exact does_leaveInPlace_scriptsFind hl h hfound
  · intro pl found log₁ hpl hfound hnone _
    refine does_writePair_scriptsFind hpl ((FileTree.contents?_congr hpl.newMarker).trans h₀) h (Found.ours_at hfound) ?_
    refine hguarded.resolve_left ?_
    rintro ⟨dir, hdir, himage⟩
    exact hfound.image hl hdir himage hnone

end

/-- At every point of a run on guarded files each script of ours finds a marker. -/
theorem writeEspFiles_scriptsFind (arch : Arch) (marker : String) (t : EspTree) (h : ScriptsFind t)
    (hnew : ¬HasMarker t marker) (hguarded : Guarded marker t) (plan : Nat → Option Fault) :
    ∀ x ∈ ((writeEspFiles arch marker).run.run (logged event (disk ⟨true, false⟩)) plan (t, [])).visited,
      ScriptsFind x.1 :=
  ((does_writeEspFiles_scriptsFind rfl (not_not.mp hnew) h hguarded).run plan).1

/-- Every call fails from that number on, as if the run stopped there. -/
def stoppedAt (call n : Nat) : Option Fault := if n < call then none else some ⟨.os EIO, 0⟩

def runStopped (t : EspTree) (call : Nat) : Ending (Except StepError StartupNsh) (EspTree × List EspEvent) :=
  (writeEspFiles .x86_64 "0123456789abcdef").run.run (logged event (disk ⟨true, false⟩)) (stoppedAt call) (t, [])

/-- An ESP of an earlier deploy, with its script in `dir`. -/
def deployedEsp (dir : EspPath) : EspTree :=
  let efi : EspPath := .join .root "EFI"
  let boot := (FileTree.empty.insert .root "EFI" .dir).insert efi "BOOT" .dir
  let marked := (boot.insert efi "beskar7" .dir).insert (efi.join "beskar7") "fedcba9876543210.id"
    (.file 0o666 markerContents)
  marked.insert dir "startup.nsh" (.file 0o666 (utf8 (renderStartupNsh .x86_64 "fedcba9876543210")))

theorem deployed_finds {dir : EspPath} (hmarker : HasMarker (deployedEsp dir) "fedcba9876543210")
    (hothers : ∀ d ∈ startupNshDirs, (deployedEsp dir).contents? (scriptAt d) = none ∨
      (deployedEsp dir).contents? (scriptAt d) = some (utf8 (renderStartupNsh .x86_64 "fedcba9876543210"))) :
    ScriptsFind (deployedEsp dir) := by
  intro d hd contents hc _
  rcases hothers d hd with hn | hs
  · rw [hn] at hc
    cases hc
  · rw [hs] at hc
    obtain rfl := Option.some.inj hc
    have hin : markerText "fedcba9876543210" <:+: scriptContents .x86_64 (places "fedcba9876543210") :=
      markerText_infix ⟨rfl, rfl⟩
    exact ⟨_, hin, hmarker⟩

theorem writeEspFiles_scriptsFind_deployed : ScriptsFind (runStopped (deployedEsp .root) 30).final.1 := by
  refine writeEspFiles_scriptsFind .x86_64 "0123456789abcdef" (deployedEsp .root) (deployed_finds ?_ ?_) ?_ ?_
    (stoppedAt 30) _ (Prog.final_mem_visited _ _ _)
  · rw [HasMarker]
    decide +kernel
  · decide +kernel
  · rw [HasMarker]
    decide +kernel
  · refine .inr ?_
    have hnone : ∀ dir ∈ startupNshDirs, dir ≠ [] → (deployedEsp .root).contents? (scriptAt dir) = none := by
      decide +kernel
    intro dir hdir hne contents hc
    rw [hnone dir hdir hne] at hc
    cases hc

theorem eq_zero_of_toLower {c : Char} (h : c.toLower = '0') : c = '0' := by
  unfold Char.toLower at h
  split at h
  · rename_i hupper
    have hlow := UInt32.le_iff_toNat_le.mp hupper.1
    have hhigh := UInt32.le_iff_toNat_le.mp hupper.2
    have hval := UInt32.toNat_inj.mpr (congrArg Char.val h)
    simp at hlow hhigh hval
    omega
  · exact h

/-- Where one marker is left, a script that refers to another finds none. -/
theorem not_scriptsFind {t : EspTree} {dir : List String} {contents : List UInt8} (hdir : dir ∈ startupNshDirs)
    (hc : t.contents? (scriptAt dir) = some contents) (hm : hasSignature contents = true)
    (hnames : t.names (places "").markerDir = ["0123456789abcdef.id"])
    (hother : ¬utf8 "\\EFI\\beskar7\\0" <:+: contents) : ¬ScriptsFind t := by
  intro h
  obtain ⟨m, hinfix, hhas⟩ := h dir hdir contents hc hm
  obtain ⟨node, hnode⟩ : ∃ node, t.node? (places m).newMarker = some node := by
    rw [HasMarker, FileTree.contents?] at hhas
    cases hn : t.node? (places m).newMarker with
    | none => simp [hn] at hhas
    | some node => exact ⟨node, rfl⟩
  obtain ⟨stored, hstored, hlower⟩ := FileTree.exists_mem_names hnode
  have hlisted : stored ∈ t.names (places "").markerDir := hstored
  rw [hnames, List.mem_singleton] at hlisted
  rw [hlisted] at hlower
  have hmarker : (places m).marker = m := rfl
  rw [hmarker] at hlower
  have hchars := congrArg String.toList hlower
  simp only [asciiLower, String.toList_ofList, String.toList_append, List.map_append] at hchars
  cases hlist : m.toList with
  | nil => simp [hlist] at hchars
  | cons c rest =>
      have hfirst : c = '0' := by
        apply eq_zero_of_toLower
        rw [hlist] at hchars
        exact (List.cons.inj hchars).1.symm
      refine hother (List.IsInfix.trans ?_ hinfix)
      apply isInfix_utf8
      exact ⟨[], rest ++ ".id".toList, by simp [hlist, hfirst]⟩

/-- The old marker is gone and our script in `EFI/BOOT` that names it is not. -/
theorem not_scriptsFind_stale : ScriptsFind (deployedEsp ((Path.root.join "EFI").join "BOOT")) ∧
    ¬ScriptsFind (runStopped (deployedEsp ((Path.root.join "EFI").join "BOOT")) 34).final.1 := by
  constructor
  · refine deployed_finds ?_ (by decide +kernel)
    rw [HasMarker]
    decide +kernel
  · have hscript : (runStopped (deployedEsp ((Path.root.join "EFI").join "BOOT")) 34).final.1.contents?
        (scriptAt ["EFI", "BOOT"]) = some (utf8 (renderStartupNsh .x86_64 "fedcba9876543210")) := by decide +kernel
    exact not_scriptsFind (by decide) hscript (by decide +kernel) (by decide +kernel) (by decide +kernel)

end Beskar7Inspector.EspMarkers
