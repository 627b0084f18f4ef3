import Beskar7Inspector.EspScan

namespace Beskar7Inspector.EspCleaning

open Lib.Program Lib.Text Lib.Os Lib.Recorder Lib.Files Lib.FileCalls EspFallback EspScan

abbrev EspEvent := Event String

/-- A call that failed because the ESP is full or read-only. -/
def isFull (ev : EspEvent) : Bool := ev.failure.any isFullOrReadOnly

/-- A call on one of the two temporaries. -/
def onTemporary (ev : EspEvent) : Bool :=
  match ev.call with
  | .openTruncated | .writeAll | .syncFile | .rename => true
  | _ => false

/-- A removal that succeeded, or the script put into place. -/
def changes (ev : EspEvent) : Bool :=
  ev.failure.isNone && (ev.call == .removeFile || (ev.call == .rename && ev.path == script))

structure Traced (full changed spoilt : Bool) (trace : List EspEvent) : Prop where
  full : trace.any isFull = full
  changed : trace.any changes = changed
  spoilt : trace.any (fun ev => onTemporary ev && isFull ev) = spoilt

def errorFull {α : Type} : Except StepError α → Bool
  | .ok _ => false
  | .error e => isFullOrReadOnly e.source

section

variable {f f' c c' s s' : Bool} {trace trace' : List EspEvent}

theorem Traced.nil : Traced false false false [] := ⟨rfl, rfl, rfl⟩

theorem Traced.append (h : Traced f c s trace) (h' : Traced f' c' s' trace') :
    Traced (f || f') (c || c') (s || s') (trace ++ trace') where
  full := by rw [List.any_append, h.full, h'.full]
  changed := by rw [List.any_append, h.changed, h'.changed]
  spoilt := by rw [List.any_append, h.spoilt, h'.spoilt]

theorem isFull_eq_false_of_isLook {ev : EspEvent} (h : ev.call.isLook = true) :
    changes ev = false ∧ onTemporary ev = false := by
  obtain ⟨call, path, failure⟩ := ev
  cases call <;> simp_all [Call.isLook, changes, onTemporary]

theorem Traced.of_isLook (h : ∀ ev ∈ trace, ev.call.isLook = true) : Traced (trace.any isFull) false false trace where
  full := rfl
  changed := List.any_eq_false.mpr fun ev hev => by simp [(isFull_eq_false_of_isLook (h ev hev)).1]
  spoilt := List.any_eq_false.mpr fun ev hev => by simp [(isFull_eq_false_of_isLook (h ev hev)).2]

end

/-- The effect of a part that only removes files, each `removable`: it fails
for a full or read-only ESP exactly when one of its calls did. -/
structure Cleaned (removable : EspPath → Prop) (t : EspTree) {α : Type} (r : Except StepError α) (t' : EspTree)
    (trace : List EspEvent) : Prop where
  shrinks : ∀ p, t'.contents? p = t.contents? p ∨ t'.contents? p = none ∧ ∃ q, removable q ∧ Same p q
  traced : ∃ changed, Traced (errorFull r) changed false trace ∧
    (changed = false → ∀ p, t'.contents? p = t.contents? p) ∧
    (changed = true → ∃ p, t.contents? p ≠ none ∧ t'.contents? p = none)

/-- The files outlive the removal of a removable one. -/
def Outlives (I : EspTree → Prop) (removable : EspPath → Prop) : Prop :=
  ∀ (t t' : EspTree) (p : EspPath), removable p → I t →
    (∀ r, t'.contents? r = if Same r p then none else t.contents? r) → I t'

section

variable {may : Unnoticed} {I : EspTree → Prop} {removable : EspPath → Prop} {t t' t'' : EspTree} {α β : Type}

theorem Cleaned.refl {r : Except StepError α} {trace : List EspEvent} (h : Traced (errorFull r) false false trace) :
    Cleaned removable t r t trace :=
  ⟨fun _ => .inl rfl, false, h, fun _ _ => rfl, by simp⟩

theorem Cleaned.trans {a : α} {r : Except StepError β} {trace trace' : List EspEvent}
    (h : Cleaned removable t (.ok a) t' trace) (h' : Cleaned removable t' r t'' trace') :
    Cleaned removable t r t'' (trace ++ trace') := by
  obtain ⟨c, hc, hsame, hgone⟩ := h.traced
  obtain ⟨c', hc', hsame', hgone'⟩ := h'.traced
  refine ⟨fun p => ?_, c || c', ?_, ?_, ?_⟩
  · rcases h'.shrinks p with hp' | hp'
    · rw [hp']
      exact h.shrinks p
    · exact .inr hp'
  · simpa [errorFull] using hc.append hc'
  · intro hcc p
    obtain ⟨rfl, rfl⟩ := Bool.or_eq_false_iff.mp hcc
    rw [hsame' rfl, hsame rfl]
  · intro hcc
    rcases Bool.or_eq_true_iff.mp hcc with rfl | rfl
    · obtain ⟨p, hp, hn⟩ := hgone rfl
      refine ⟨p, hp, ?_⟩
      rcases h'.shrinks p with hp' | hp'
      · rw [hp', hn]
      · exact hp'.1
    · obtain ⟨p, hp, hn⟩ := hgone' rfl
      refine ⟨p, ?_, hn⟩
      rcases h.shrinks p with hp' | hp'
      · rwa [← hp']
      · exact absurd hp'.1 hp

theorem Cleaned.stop {e : StepError} {trace : List EspEvent} (h : Cleaned removable t (.error e : Except StepError α) t' trace) :
    Cleaned removable t (.error e : Except StepError β) t' trace :=
  ⟨h.shrinks, h.traced⟩

/-- A part that cleans from whatever files satisfy `I`. -/
abbrev Cleans (may : Unnoticed) (I : EspTree → Prop) (removable : EspPath → Prop) (p : EspIo α) : Prop :=
  ∀ t, I t → Does event (disk may) I p t (Cleaned removable t)

theorem Cleans.bind {x : EspIo α} {f : α → EspIo β} (hx : Cleans may I removable x)
    (hf : ∀ a, Cleans may I removable (f a)) : Cleans may I removable (x >>= f) := fun t hI =>
  Does.bind (hx t hI) (fun _ _ _ _ h => h.stop) fun a t' _ hI' h =>
    (hf a t' hI').mono fun _ _ _ _ h' => h.trans h'

theorem Cleans.pure (a : α) : Cleans may I removable (pure a : EspIo α) := fun _ hI =>
  Does.pure hI (Cleaned.refl .nil)

theorem cleans_removeFile (hI : Outlives I removable) {p : EspPath} (hp : removable p) (step : String) :
    Cleans may I removable (attempt (.removeFile p) (StepError.mk step)) := by
  intro t ht
  refine does_removeFile ht (fun e => Cleaned.refl ⟨?_, ?_, ?_⟩) fun t' hfile herase => ⟨hI t t' p hp ht herase, ?_, ?_⟩
  · simp [isFull, errorFull]
  · simp [changes]
  · simp [onTemporary]
  · intro r
    have hr := herase r
    split at hr
    · exact .inr ⟨hr, p, hp, ‹_›⟩
    · exact .inl hr
  · exact ⟨true, ⟨rfl, rfl, rfl⟩, by simp, fun _ => ⟨p, hfile, (herase p).trans (if_pos rfl)⟩⟩

theorem cleans_nextEntry (p : EspPath) : Cleans may I removable (attempt (.nextEntry p) reading) := by
  intro t ht
  refine does_looked (fun _ => by rw [act]) ht (fun e => Cleaned.refl ⟨?_, rfl, rfl⟩) (Cleaned.refl ⟨rfl, rfl, rfl⟩)
  simp [isFull, errorFull, reading, event]

theorem cleans_syncDir (p : EspPath) (step : String) :
    Cleans may I removable (attempt (.syncDir p) (StepError.mk step)) := by
  intro t ht
  refine does_looked (fun _ => by rw [act]) ht (fun e => Cleaned.refl ⟨?_, rfl, rfl⟩) (Cleaned.refl ⟨rfl, rfl, rfl⟩)
  simp [isFull, errorFull, event]

theorem cleans_isDir (p : EspPath) : Cleans may I removable (always (.isDir p) : EspIo Bool) := fun _ ht =>
  Does.always ht fun _ => ⟨ht, Cleaned.refl ⟨rfl, rfl, rfl⟩⟩

theorem cleans_syncDirs (dirs : List EspPath) : Cleans may I removable (syncDirs dirs) := by
  induction dirs with
  | nil => exact Cleans.pure ()
  | cons dir rest ih =>
      refine (cleans_isDir dir).bind fun isDir => ?_
      cases isDir with
      | true => exact (cleans_syncDir dir _).bind fun _ => ih
      | false => exact ih

theorem cleans_removeScripts (hI : Outlives I removable) (paths : List EspPath) (hp : ∀ p ∈ paths, removable p) :
    Cleans may I removable (removeScripts paths) := by
  induction paths with
  | nil => exact Cleans.pure ()
  | cons p rest ih =>
      exact (cleans_removeFile hI (hp p List.mem_cons_self) _).bind fun _ =>
        ih fun q hq => hp q (List.mem_cons_of_mem _ hq)

theorem cleans_removeEach (hI : Outlives I removable) (markerDir : EspPath) (keep : Option EspPath) (names : List String)
    (hp : ∀ name ∈ names, isMarkerName name = true → some (markerDir.join name) ≠ keep → removable (markerDir.join name)) :
    Cleans may I removable (removeEach markerDir keep names) := by
  induction names with
  | nil => exact cleans_nextEntry markerDir
  | cons name rest ih =>
      refine (cleans_nextEntry markerDir).bind fun _ => ?_
      have hrest := ih fun n hn => hp n (List.mem_cons_of_mem _ hn)
      dsimp only
      split
      · rename_i h
        exact (cleans_removeFile hI (hp name List.mem_cons_self h.1 h.2) _).bind fun _ => hrest
      · exact hrest

/-- The listing is that of the files before any marker is removed. -/
theorem does_removeMarkers (hI : Outlives I removable) (ht : I t) (markerDir : EspPath) (keep : Option EspPath)
    (hp : ∀ name ∈ t.names markerDir, isMarkerName name = true → some (markerDir.join name) ≠ keep →
      removable (markerDir.join name)) :
    Does event (disk may) I (removeMarkers markerDir keep) t (Cleaned removable t) := by
  refine Does.bind (Does.mapResult (Q := fun r t' trace => t' = t ∧ Traced (errorFull r) false false trace ∧
    ∀ names, r = .ok (some names) → names = t.names markerDir)
    (does_listing ht (fun e _ => ?_) (fun e he _ => ?_) ?_)) ?_ ?_
  · exact ⟨rfl, ⟨by simp [isFull, errorFull, reading], rfl, rfl⟩, by simp⟩
  · have : e.rawOsError = some ENOENT := by simpa [IoError.isNotFound] using he
    exact ⟨rfl, ⟨by simp [isFull, errorFull, isFullOrReadOnly, this, ENOENT, ENOSPC, EROFS], rfl, rfl⟩,
      by simp⟩
  · exact ⟨rfl, ⟨rfl, rfl, rfl⟩, by simp⟩
  · rintro e _ trace _ ⟨rfl, htrace, _⟩
    exact Cleaned.refl htrace
  rintro entries _ trace _ ⟨rfl, htrace, hnames⟩
  cases entries with
  | none => exact Does.pure ht (Cleaned.refl (by simpa [errorFull] using htrace))
  | some names =>
      cases hnames names rfl
      exact (cleans_removeEach hI markerDir keep _ hp _ ht).mono fun r t' trace' _ h =>
        (Cleaned.refl (r := .ok ()) htrace).trans h

end

end Beskar7Inspector.EspCleaning
