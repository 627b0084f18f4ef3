import Beskar7Inspector.EspCleaning

namespace Beskar7Inspector.EspRemovals

open Lib.Program Lib.Text Lib.Os Lib.Recorder Lib.Files Lib.FileCalls EspFallback EspScan EspCleaning

variable {may : Unnoticed} {t t' t'' : EspTree} {α β : Type}

/-- Entries only go, and after a part that ends well those of `gone` are not there. -/
structure Removed (gone : EspPath → Prop) (t : EspTree) (r : Except StepError α) (t' : EspTree) : Prop where
  entries : ∀ p name, t'.storedName? p = some name → t.storedName? p = some name
  done : ∀ a, r = .ok a → ∀ p, gone p → t'.storedName? p = none

abbrev Removes (may : Unnoticed) (gone : EspPath → Prop) (p : EspIo α) : Prop :=
  ∀ t, Does event (disk may) (fun _ => True) p t (fun r t' _ => Removed gone t r t')

section

variable {gone gone' : EspPath → Prop}

theorem Removed.refl {r : Except StepError α} : Removed (fun _ => False) t r t := ⟨fun _ _ h => h, fun _ _ _ h => h.elim⟩

theorem Removed.keepsNone {r : Except StepError α} (h : Removed gone t r t') {p : EspPath} (hp : t.storedName? p = none) :
    t'.storedName? p = none := by
  refine Option.eq_none_iff_forall_ne_some.mpr fun name hname => ?_
  rw [h.entries p name hname] at hp
  cases hp

theorem Removes.pure (a : α) : Removes may (fun _ => False) (pure a : EspIo α) := fun _ =>
  Does.pure trivial (.refl)

theorem does_then {x : EspIo α} {f : α → EspIo β}
    (hx : Does event (disk may) (fun _ => True) x t (fun r t' _ => Removed gone t r t'))
    (hf : ∀ a, Removes may gone' (f a)) :
    Does event (disk may) (fun _ => True) (x >>= f) t (fun r t' _ => Removed (fun p => gone p ∨ gone' p) t r t') := by
  refine Does.bind hx (fun e t' _ _ h => ⟨h.entries, by simp⟩) fun a t₁ _ _ h => ?_
  refine (hf a t₁).mono fun r t' _ _ h' => ⟨fun p n hp => h.entries p n (h'.entries p n hp), fun b hb p hp => ?_⟩
  rcases hp with hp | hp
  · exact h'.keepsNone (h.done a rfl p hp)
  · exact h'.done b hb p hp

theorem Removes.bind {x : EspIo α} {f : α → EspIo β} (hx : Removes may gone x) (hf : ∀ a, Removes may gone' (f a)) :
    Removes may (fun p => gone p ∨ gone' p) (x >>= f) := fun t => does_then (hx t) hf

theorem Removes.mono {x : EspIo α} (h : Removes may gone x) (hg : ∀ p, gone' p → gone p) : Removes may gone' x :=
  fun t => (h t).mono fun _ _ _ _ h => ⟨h.entries, fun a ha p hp => h.done a ha p (hg p hp)⟩

theorem Removes.after {x : EspIo α} {f : α → EspIo β} (hx : Removes may (fun _ => False) x)
    (hf : ∀ a, Removes may gone (f a)) : Removes may gone (x >>= f) :=
  (hx.bind hf).mono fun _ hp => .inr hp

end

theorem removes_removeFile (p : EspPath) (step : String) :
    Removes may (· = p) (attempt (.removeFile p) (StepError.mk step)) := by
  refine fun t => does_changed (fun _ => by rw [act]) trivial ?_ fun t' ht => ⟨trivial, ?_, ?_⟩
  · rintro e t' (rfl | ⟨_, rfl⟩) <;> exact ⟨trivial, fun _ _ h => h, by simp⟩
  · intro q name hq
    rw [FileTree.storedName?_unlink ht] at hq
    split at hq
    · cases hq
    · exact hq
  · rintro _ _ q rfl
    exact (FileTree.storedName?_unlink ht).trans (if_pos rfl)

theorem removes_nextEntry (p : EspPath) : Removes may (fun _ => False) (attempt (.nextEntry p) reading) := fun _ =>
  does_looked (fun _ => by rw [act]) trivial (fun _ => .refl) (.refl)

theorem removes_syncDirs (dirs : List EspPath) : Removes may (fun _ => False) (syncDirs dirs) := by
  induction dirs with
  | nil => exact Removes.pure ()
  | cons dir rest ih =>
      have hdir : Removes may (fun _ => False) (always (.isDir dir) : EspIo Bool) := fun _ =>
        Does.always trivial fun _ => ⟨trivial, .refl⟩
      have hsync : Removes may (fun _ => False) (attempt (.syncDir dir) (StepError.mk "flushing the ESP directories")) :=
        fun _ => does_looked (fun _ => by rw [act]) trivial (fun _ => .refl) (.refl)
      refine hdir.after fun isDir => ?_
      cases isDir with
      | true => exact hsync.after fun _ => ih
      | false => exact ih

theorem removes_removeScripts (paths : List EspPath) : Removes may (· ∈ paths) (removeScripts paths) := by
  induction paths with
  | nil => exact (Removes.pure ()).mono fun p hp => by simp at hp
  | cons p rest ih => exact ((removes_removeFile p _).bind fun _ => ih).mono fun q hq => List.mem_cons.mp hq

/-- The markers of a listing that are not the one to keep. -/
def OldMarker (markerDir : EspPath) (keep : Option EspPath) (names : List String) (p : EspPath) : Prop :=
  ∃ name ∈ names, isMarkerName name = true ∧ p = markerDir.join name ∧ some p ≠ keep

theorem removes_removeEach (markerDir : EspPath) (keep : Option EspPath) (names : List String) :
    Removes may (OldMarker markerDir keep names) (removeEach markerDir keep names) := by
  induction names with
  | nil =>
      refine (removes_nextEntry markerDir).mono fun p ⟨name, hname, _⟩ => ?_
      cases hname
  | cons name rest ih =>
      refine (removes_nextEntry markerDir).after fun _ => ?_
      dsimp only
      split
      · refine ((removes_removeFile _ _).bind fun _ => ih).mono fun p ⟨n, hn, hmarker, hp, hkeep⟩ => ?_
        rcases List.mem_cons.mp hn with rfl | hn
        · exact .inl hp
        · exact .inr ⟨n, hn, hmarker, hp, hkeep⟩
      · rename_i hnot
        refine ih.mono fun p ⟨n, hn, hmarker, hp, hkeep⟩ => ?_
        rcases List.mem_cons.mp hn with rfl | hn
        · exact absurd ⟨hmarker, hp ▸ hkeep⟩ hnot
        · exact ⟨n, hn, hmarker, hp, hkeep⟩

theorem does_removeMarkers_done (hl : may.looks = false) (markerDir : EspPath) (keep : Option EspPath) :
    Does event (disk may) (fun _ => True) (removeMarkers markerDir keep) t (fun r t' _ =>
      Removed (OldMarker markerDir keep (t.names markerDir)) t r t') := by
  refine Does.bind (P := fun r t' _ => t' = t ∧ ∀ entries, r = .ok entries → entries.getD [] = t.names markerDir)
    (Does.mapResult (does_listing trivial (fun e _ => ⟨rfl, by simp⟩) (fun e _ hn => ⟨rfl, ?_⟩)
      ⟨rfl, by simp⟩)) ?_ ?_
  · rintro entries hentries
    obtain rfl := Except.ok.inj hentries
    rw [FileTree.names_of_none (hn.resolve_left (by simp [hl])), Option.getD_none]
  · rintro e _ _ _ ⟨rfl, _⟩
    exact ⟨fun _ _ h => h, by simp⟩
  rintro entries _ _ _ ⟨rfl, hentries⟩
  have hnames := hentries entries rfl
  cases entries with
  | none =>
      refine Does.pure trivial ⟨fun _ _ h => h, fun _ _ p ⟨name, hname, _⟩ => ?_⟩
      rw [← hnames] at hname
      cases hname
  | some names =>
      rw [← hnames]
      exact removes_removeEach markerDir keep names _

theorem Removed.names {gone : EspPath → Prop} {r : Except StepError α} (h : Removed gone t r t') {dir : EspPath}
    {name : String} (hname : name ∈ t'.names dir) : name ∈ t.names dir :=
  FileTree.mem_names.mpr (h.entries _ _ (FileTree.mem_names.mp hname))

theorem Removed.markers {gone : EspPath → Prop} {markerDir : EspPath} {keep : Option EspPath} {a : α}
    (h : Removed gone t (.ok a) t') (hold : ∀ p, OldMarker markerDir keep (t.names markerDir) p → gone p) {name : String}
    (hname : name ∈ t'.names markerDir) (hmarker : isMarkerName name = true) : some (markerDir.join name) = keep := by
  by_contra hkeep
  have hgone := h.done a rfl (markerDir.join name) (hold _ ⟨name, h.names hname, hmarker, rfl, hkeep⟩)
  rw [FileTree.mem_names.mp hname] at hgone
  cases hgone

end Beskar7Inspector.EspRemovals
