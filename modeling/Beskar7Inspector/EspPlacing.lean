import Beskar7Inspector.EspCleaning

namespace Beskar7Inspector.EspPlacing

open Lib.Program Lib.Os Lib.Text Lib.Recorder Lib.Files Lib.FileCalls Deploy EspFallback EspScan EspCleaning

section Paths

theorem depth_eq_of_same {p q : EspPath} (h : Same p q) : p.depth = q.depth := by
  have hmap (p : EspPath) : (p.map asciiLower).depth = p.depth := by
    induction p with
    | root => rfl
    | join dir name ih => rw [Lib.Files.Path.map, Path.depth, Path.depth, ih]
  rw [← hmap p, ← hmap q, h]

theorem same_join_iff {dir dir' : EspPath} {name name' : String} :
    Same (.join dir name) (.join dir' name') ↔ Same dir dir' ∧ asciiLower name = asciiLower name' := by
  rw [Same, Lib.Files.Path.map, Lib.Files.Path.map, Path.join.injEq]

theorem asciiLower_ne_of_length {a b : String} (h : a.length ≠ b.length) : asciiLower a ≠ asciiLower b := by
  intro heq
  have := congrArg String.length heq
  rw [length_asciiLower, length_asciiLower] at this
  exact h this

variable (pl : Places)

theorem not_same_newMarker_tmpMarker : ¬Same pl.newMarker pl.tmpMarker := by
  intro h
  refine asciiLower_ne_of_length ?_ (same_join_iff.mp h).2
  rw [String.length_append, String.length_append]
  have : ".id".length ≠ ".id.tmp".length := by decide
  omega

theorem not_same_script_tmpScript : ¬Same script tmpScript := by decide

theorem not_same_of_depth {p q : EspPath} (h : p.depth ≠ q.depth) : ¬Same p q := fun hs => h (depth_eq_of_same hs)

theorem not_same_newMarker_script : ¬Same pl.newMarker script :=
  not_same_of_depth (by simp [Places.newMarker, Places.markerDir, script, Path.depth])

theorem not_same_newMarker_tmpScript : ¬Same pl.newMarker tmpScript :=
  not_same_of_depth (by simp [Places.newMarker, Places.markerDir, tmpScript, Path.depth])

theorem not_same_tmpMarker_script : ¬Same pl.tmpMarker script :=
  not_same_of_depth (by simp [Places.tmpMarker, Places.markerDir, script, Path.depth])

theorem not_same_tmpMarker_tmpScript : ¬Same pl.tmpMarker tmpScript :=
  not_same_of_depth (by simp [Places.tmpMarker, Places.markerDir, tmpScript, Path.depth])

theorem scriptAt_eq (dir : List String) : scriptAt dir = (Path.root.joins dir).join startupNshFilename := by
  rw [scriptAt, Path.joins, List.foldl_append]
  rfl

theorem not_same_of_getLast {dir dir' : EspPath} {name name' : String}
    (h : name.toList.getLast?.map Char.toLower ≠ name'.toList.getLast?.map Char.toLower) :
    ¬Same (.join dir name) (.join dir' name') := by
  intro hs
  have hnames := congrArg String.toList (same_join_iff.mp hs).2
  rw [asciiLower, asciiLower, String.toList_ofList, String.toList_ofList] at hnames
  have hlast := congrArg List.getLast? hnames
  rw [List.getLast?_map, List.getLast?_map] at hlast
  exact h hlast

theorem getLast_append {a b : String} (h : b.toList ≠ []) : (a ++ b).toList.getLast? = b.toList.getLast? := by
  rw [String.toList_append, List.getLast?_append_of_ne_nil _ h]

theorem not_same_scriptAt_newMarker (dir : List String) : ¬Same (scriptAt dir) pl.newMarker := by
  rw [scriptAt_eq]
  apply not_same_of_getLast
  rw [getLast_append (by decide)]
  decide

end Paths

section

variable {may : Unnoticed} {I : EspTree → Prop} {t : EspTree}

/-- What a write of a temporary leaves: the contents when it ends well, and
whatever there when it fails. -/
def Written (path : EspPath) (contents : List UInt8) (t : EspTree) (r : Except IoError Unit) (t' : EspTree)
    (trace : List EspEvent) : Prop :=
  (∀ q, ¬Same q path → t'.contents? q = t.contents? q) ∧
    match r with
    | .ok () => t'.contents? path = some contents ∧ Traced false false false trace
    | .error e => Traced (isFullOrReadOnly e) false (isFullOrReadOnly e) trace

theorem does_writeSynced {path : EspPath} {contents : List UInt8}
    (hI : ∀ t' : EspTree, (∀ q, ¬Same q path → t'.contents? q = t.contents? q) → I t') :
    Does event (disk may) I (writeSynced path contents) t (Written path contents t) := by
  have hfail (call : Call) (e : IoError) (h : call = .openTruncated ∨ call = .writeAll ∨ call = .syncFile) :
      Traced (isFullOrReadOnly e) false (isFullOrReadOnly e) [⟨call, path, some e⟩] := by
    rcases h with rfl | rfl | rfl <;> exact ⟨by simp [isFull], rfl, by simp [isFull, onTemporary]⟩
  have hdone (call : Call) (h : call ≠ .removeFile ∧ call ≠ .rename) : Traced false false false [⟨call, path, none⟩] :=
    ⟨rfl, by simp [changes, h], by simp [isFull]⟩
  refine Does.bind (P := Written path [] t) ?_ (fun _ _ _ _ h => h) ?_
  · refine does_openTruncated (hI t fun _ _ => rfl) (fun e => ⟨fun _ _ => rfl, hfail _ e (.inl rfl)⟩) fun t' ht => ?_
    have hsame : ∀ q, ¬Same q path → t'.contents? q = t.contents? q := fun q hq => (ht q).trans (if_neg hq)
    exact ⟨hI t' hsame, hsame, (ht path).trans (if_pos rfl), hdone _ (by decide)⟩
  rintro ⟨⟩ t₁ trace₁ _ ⟨hsame₁, hempty, htrace₁⟩
  refine Does.bind (P := Written path contents t) ?_
    (fun e _ _ _ h => ⟨h.1, by simpa using htrace₁.append h.2⟩) ?_
  · refine does_writeAll (hI t₁ hsame₁) (fun e t' ht => ?_) fun t' old hold ht => ?_
    · have hsame : ∀ q, ¬Same q path → t'.contents? q = t.contents? q := fun q hq => (ht q hq).trans (hsame₁ q hq)
      exact ⟨hI t' hsame, hsame, hfail _ e (.inr (.inl rfl))⟩
    · have hsame : ∀ q, ¬Same q path → t'.contents? q = t.contents? q := fun q hq =>
        ((ht q).trans (if_neg hq)).trans (hsame₁ q hq)
      rw [hempty] at hold
      cases hold
      exact ⟨hI t' hsame, hsame, (ht path).trans (if_pos rfl), hdone _ (by decide)⟩
  rintro ⟨⟩ t₂ trace₂ _ ⟨hsame₂, hcontents, htrace₂⟩
  refine does_looked (fun _ => by rw [act]) (hI t₂ hsame₂) (fun e => ⟨hsame₂, ?_⟩) ⟨hsame₂, hcontents, ?_⟩
  · simpa [event] using htrace₁.append (htrace₂.append (hfail .syncFile e (.inr (.inr rfl))))
  · simpa [event] using htrace₁.append (htrace₂.append (hdone .syncFile (by decide)))

/-- The names a run writes its files under before they are complete. -/
def Temporary (pl : Places) (p : EspPath) : Prop := Same p pl.tmpMarker ∨ Same p tmpScript

variable {arch : Arch} {pl : Places}

theorem not_temporary_newMarker {pl' : Places} : ¬Temporary pl pl'.newMarker := by
  rintro (h | h)
  · refine not_same_of_getLast ?_ h
    rw [getLast_append (by decide), getLast_append (by decide)]
    decide
  · exact not_same_newMarker_tmpScript pl' h

theorem not_temporary_scriptAt {dir : List String} : ¬Temporary pl (scriptAt dir) := by
  rw [scriptAt_eq]
  rintro (h | h)
  · refine not_same_of_getLast ?_ h
    rw [getLast_append (by decide)]
    decide
  · exact not_same_of_getLast (by decide) h

theorem not_temporary_script : ¬Temporary pl script := by
  rintro (h | h)
  · exact not_same_tmpMarker_script pl h.symm
  · exact not_same_script_tmpScript h

def scriptContents (arch : Arch) (pl : Places) : List UInt8 := utf8 (renderStartupNsh arch pl.marker)

/-- What the writing of both temporaries leaves. -/
def Prepared (arch : Arch) (pl : Places) (t : EspTree) (r : Except StepError Unit) (t' : EspTree)
    (trace : List EspEvent) : Prop :=
  (∀ q, ¬Temporary pl q → t'.contents? q = t.contents? q) ∧
    match r with
    | .ok () => t'.contents? pl.tmpMarker = some markerContents ∧
        t'.contents? tmpScript = some (scriptContents arch pl) ∧ Traced false false false trace
    | .error e => Traced (isFullOrReadOnly e.source) false (isFullOrReadOnly e.source) trace

theorem does_writeTemporaries (hI : ∀ t' : EspTree, (∀ q, ¬Temporary pl q → t'.contents? q = t.contents? q) → I t') :
    Does event (disk may) I (writeTemporaries arch pl) t (Prepared arch pl t) := by
  refine Does.bind (P := fun r t' trace => ∃ r', r = Except.mapError (StepError.mk "writing the marker") r' ∧
    Written pl.tmpMarker markerContents t r' t' trace) (Does.mapResult ?_) ?_ ?_
  · refine (does_writeSynced fun t' h => hI t' fun q hq => h q fun hs => hq (.inl hs)).mono fun r _ _ _ h => ⟨r, rfl, h⟩
  · rintro e t' trace _ ⟨r, hr, hsame, h⟩
    cases r with
    | ok _ => cases hr
    | error e' => cases hr; exact ⟨fun q hq => hsame q fun hs => hq (.inl hs), h⟩
  rintro ⟨⟩ t₁ trace₁ _ ⟨r, hr, hsame₁, h₁⟩
  cases r with
  | error e => cases hr
  | ok _ =>
      obtain ⟨hmarker, htrace₁⟩ := h₁
      refine Does.mapResult ((does_writeSynced ?_).mono ?_)
      · exact fun t' h => hI t' fun q hq => (h q fun hs => hq (.inr hs)).trans (hsame₁ q fun hs => hq (.inl hs))
      rintro r t' trace _ ⟨hsame, h⟩
      refine ⟨fun q hq => (hsame q fun hs => hq (.inr hs)).trans (hsame₁ q fun hs => hq (.inl hs)), ?_⟩
      cases r with
      | error e => simpa using htrace₁.append h
      | ok _ =>
          have hmarker' := (hsame _ (not_same_tmpMarker_tmpScript pl)).trans hmarker
          exact ⟨hmarker', h.1, by simpa using htrace₁.append h.2⟩

/-- Only temporaries differ from the files at the start. -/
def Begun (pl : Places) (t₀ t : EspTree) : Prop := ∀ q, ¬Temporary pl q → t.contents? q = t₀.contents? q

/-- The marker is in place too. -/
def Marked (pl : Places) (t₀ t : EspTree) : Prop := ∀ q, ¬Temporary pl q →
  t.contents? q = if Same q pl.newMarker then some markerContents else t₀.contents? q

/-- The marker and the script are in place. -/
def Complete (arch : Arch) (pl : Places) (t₀ t : EspTree) : Prop := ∀ q, ¬Temporary pl q →
  t.contents? q = if Same q script then some (scriptContents arch pl)
    else if Same q pl.newMarker then some markerContents else t₀.contents? q

/-- The files while the pair is put into place. -/
def Underway (arch : Arch) (pl : Places) (t₀ t : EspTree) : Prop := Begun pl t₀ t ∨ Marked pl t₀ t ∨ Complete arch pl t₀ t

def Discarded (paths : List EspPath) (t t' : EspTree) : Prop :=
  ∀ q, t'.contents? q = t.contents? q ∨ t'.contents? q = none ∧ ∃ p ∈ paths, Same q p

theorem does_discardAll (paths : List EspPath) (hI : ∀ t' : EspTree, Discarded paths t t' → I t') :
    Does event (disk may) I (discardAll paths) t (fun r t' trace => r = .ok () ∧ Discarded paths t t' ∧
      (may.cleanUps = false → ∀ p ∈ paths, t'.contents? p = none) ∧ Traced false false false trace) := by
  induction paths generalizing t with
  | nil => exact Does.pure (hI t fun _ => .inl rfl) ⟨rfl, fun _ => .inl rfl, by simp, .nil⟩
  | cons p rest ih =>
      have hstart := hI t fun _ => .inl rfl
      refine Does.bind (P := fun r t' trace => r = .ok () ∧ Discarded [p] t t' ∧
        (may.cleanUps = false → t'.contents? p = none) ∧ trace = [⟨.discard, p, none⟩])
        (does_discard hstart (fun hc => ?_) fun t' ht => ?_) (fun _ _ _ _ h => by cases h.1) ?_
      · exact ⟨rfl, fun _ => .inl rfl, fun hn => (Bool.false_ne_true (hn.symm.trans hc)).elim, rfl⟩
      · have hd : Discarded [p] t t' := fun q => by
          have := ht q
          split at this
          · exact .inr ⟨this, p, List.mem_singleton.mpr rfl, ‹_›⟩
          · exact .inl this
        refine ⟨hI t' fun q => (hd q).imp_right fun h => ?_, rfl, hd, fun _ => (ht p).trans (if_pos rfl), rfl⟩
        obtain ⟨hn, r, hr, hs⟩ := h
        exact ⟨hn, p, List.mem_cons_self, List.mem_singleton.mp hr ▸ hs⟩
      rintro ⟨⟩ t₁ trace₁ _ ⟨_, hd, hgone, rfl⟩
      have hsub {t' : EspTree} (h : Discarded rest t₁ t') : Discarded (p :: rest) t t' := by
        intro q
        rcases h q with hq | ⟨hq, r, hr, hs⟩
        · rw [hq]
          refine (hd q).imp_right fun ⟨hn, r, hr, hs⟩ => ⟨hn, p, List.mem_cons_self, List.mem_singleton.mp hr ▸ hs⟩
        · exact .inr ⟨hq, r, List.mem_cons_of_mem _ hr, hs⟩
      refine (ih fun t' h => hI t' (hsub h)).mono ?_
      rintro r t' trace _ ⟨rfl, hd', hgone', htrace⟩
      refine ⟨rfl, hsub hd', fun hn => List.forall_mem_cons.mpr ⟨?_, hgone' hn⟩, ?_⟩
      · rcases hd' p with hp | hp
        · rw [hp, hgone hn]
        · exact hp.1
      · simpa using (⟨rfl, rfl, rfl⟩ : Traced false false false [⟨.discard, p, none⟩]).append htrace

variable {t₀ : EspTree}

theorem Begun.marked (h : Begun pl t₀ t) {t' : EspTree} (ht : ∀ q, t'.contents? q =
    if Same q pl.newMarker then some markerContents else if Same q pl.tmpMarker then none else t.contents? q) :
    Marked pl t₀ t' := by
  intro q hq
  rw [ht q, h q hq]
  split
  · rfl
  · rw [if_neg fun hs => hq (.inl hs)]

theorem Marked.complete (h : Marked pl t₀ t) {t' : EspTree} (ht : ∀ q, t'.contents? q =
    if Same q script then some (scriptContents arch pl) else if Same q tmpScript then none else t.contents? q) :
    Complete arch pl t₀ t' := by
  intro q hq
  rw [ht q, h q hq]
  split
  · rfl
  · rw [if_neg fun hs => hq (.inr hs)]

theorem Complete.newMarker_eq (h : Complete arch pl t₀ t) : t.contents? pl.newMarker = some markerContents := by
  rw [h _ not_temporary_newMarker, if_neg (not_same_newMarker_script pl), if_pos rfl]

theorem Complete.script_eq (h : Complete arch pl t₀ t) : t.contents? script = some (scriptContents arch pl) := by
  rw [h _ not_temporary_script, if_pos rfl]

theorem Discarded.of_not_temporary {also : List EspPath} {t' : EspTree}
    (h : Discarded ([pl.tmpMarker, tmpScript] ++ also) t t') {q : EspPath} (hq : ¬Temporary pl q) :
    t'.contents? q = t.contents? q ∨ t'.contents? q = none ∧ ∃ p ∈ also, Same q p := by
  refine (h q).imp_right fun ⟨hnone, p, hp, hs⟩ => ⟨hnone, ?_⟩
  rcases List.mem_append.mp hp with hp | hp
  · rcases List.mem_cons.mp hp with rfl | hp
    · exact absurd (.inl hs) hq
    · exact absurd (.inr (List.mem_singleton.mp hp ▸ hs)) hq
  · exact ⟨p, hp, hs⟩

theorem Begun.discard {t' : EspTree} (hb : Begun pl t₀ t) (h : Discarded ([pl.tmpMarker, tmpScript] ++ []) t t') :
    Begun pl t₀ t' := by
  intro q hq
  rcases h.of_not_temporary hq with hs | ⟨_, p, hp, _⟩
  · rw [hs, hb q hq]
  · cases hp

theorem Marked.discard {t' : EspTree} (hm : Marked pl t₀ t) (h₀ : t₀.contents? pl.newMarker = none)
    (h : Discarded ([pl.tmpMarker, tmpScript] ++ [pl.newMarker]) t t') (hgone : t'.contents? pl.newMarker = none) :
    Begun pl t₀ t' := by
  intro q hq
  by_cases hs : Same q pl.newMarker
  · rw [FileTree.contents?_congr hs, hgone, FileTree.contents?_congr hs, h₀]
  · rcases h.of_not_temporary hq with hq' | ⟨_, p, hp, hsame⟩
    · rw [hq', hm q hq, if_neg hs]
    · exact absurd (List.mem_singleton.mp hp ▸ hsame) hs

theorem Marked.discard_or {t' : EspTree} (hm : Marked pl t₀ t) (h₀ : t₀.contents? pl.newMarker = none)
    (h : Discarded ([pl.tmpMarker, tmpScript] ++ [pl.newMarker]) t t') : Begun pl t₀ t' ∨ Marked pl t₀ t' := by
  by_cases hgone : t'.contents? pl.newMarker = none
  · exact .inl (hm.discard h₀ h hgone)
  · refine .inr fun q hq => ?_
    rcases h.of_not_temporary hq with hq' | ⟨hnone, p, hp, hsame⟩
    · rw [hq', hm q hq]
    · rw [List.mem_singleton.mp hp] at hsame
      exact absurd ((FileTree.contents?_congr hsame.symm).trans hnone) hgone

/-- How the pair is put into place, or not. -/
def Ended (may : Unnoticed) (arch : Arch) (pl : Places) (t₀ : EspTree) (r : Except StepError Unit) (t' : EspTree)
    (trace : List EspEvent) : Prop :=
  match r with
  | .ok () => Complete arch pl t₀ t' ∧ (∀ q, Temporary pl q → t'.contents? q = none) ∧
      pl.marker ++ ".id" ∈ t'.names pl.markerDir ∧ Traced false true false trace
  | .error e => (may.cleanUps = false → Begun pl t₀ t' ∧ ∀ q, Temporary pl q → t'.contents? q = none) ∧
      Traced (isFullOrReadOnly e.source) false (isFullOrReadOnly e.source) trace

theorem does_undo (before : List EspEvent) {also : List EspPath} {e : StepError}
    (hI : ∀ t' : EspTree, Discarded ([pl.tmpMarker, tmpScript] ++ also) t t' → I t')
    (hbegun : ∀ t' : EspTree, Discarded ([pl.tmpMarker, tmpScript] ++ also) t t' → (∀ p ∈ also, t'.contents? p = none) →
      Begun pl t₀ t')
    (hbefore : Traced (isFullOrReadOnly e.source) false (isFullOrReadOnly e.source) before) :
    Does event (disk may) I (undo pl also e) t (fun r t' trace => Ended may arch pl t₀ r t' (before ++ trace)) := by
  refine Does.bind (does_discardAll _ hI) (fun _ _ _ _ h => by cases h.1) ?_
  rintro ⟨⟩ t' trace ht' ⟨_, hd, hgone, htrace⟩
  refine Does.throw ht' ⟨fun hc => ⟨hbegun t' hd fun p hp => hgone hc p (List.mem_append_right _ hp), ?_⟩, ?_⟩
  · rintro q (hq | hq)
    · exact (FileTree.contents?_congr hq).trans (hgone hc _ (by simp))
    · exact (FileTree.contents?_congr hq).trans (hgone hc _ (by simp))
  · simpa using hbefore.append htrace

theorem traced_rename_error (p : EspPath) (e : IoError) :
    Traced (isFullOrReadOnly e) false (isFullOrReadOnly e) [⟨.rename, p, some e⟩] :=
  ⟨by simp [isFull], by simp [changes], by simp [isFull, onTemporary]⟩

def ScriptRenamed (arch : Arch) (pl : Places) (t₀ t₁ : EspTree) (r : Except StepError Unit) (t : EspTree)
    (trace : List EspEvent) : Prop :=
  match r with
  | .ok () => Complete arch pl t₀ t ∧ (∀ q, Temporary pl q → t.contents? q = none) ∧
      pl.marker ++ ".id" ∈ t.names pl.markerDir ∧ Traced false true false trace
  | .error e => t = t₁ ∧ Traced (isFullOrReadOnly e.source) false (isFullOrReadOnly e.source) trace

theorem does_renameScript {t₁ : EspTree} (hI : ∀ t : EspTree, Underway arch pl t₀ t → I t) (hm : Marked pl t₀ t₁)
    (hscript : t₁.contents? tmpScript = some (scriptContents arch pl)) (htmp : t₁.contents? pl.tmpMarker = none)
    (hname : t₁.storedName? pl.newMarker = some (pl.marker ++ ".id")) :
    Does event (disk may) I (attempt (.rename tmpScript script) placing) t₁ (ScriptRenamed arch pl t₀ t₁) := by
  refine does_rename not_same_script_tmpScript (hI t₁ (.inr (.inl hm))) (fun e => ⟨rfl, traced_rename_error _ e⟩) ?_
  intro t contents hr hc ht
  obtain rfl := Option.some.inj (hscript.symm.trans hc)
  refine ⟨hI t (.inr (.inr (hm.complete ht))), hm.complete ht, ?_, ?_, ⟨rfl, by simp [changes], rfl⟩⟩
  · rintro q (hq | hq)
    · have := ht pl.tmpMarker
      rw [if_neg (not_same_tmpMarker_script pl), if_neg (not_same_tmpMarker_tmpScript pl)] at this
      rw [FileTree.contents?_congr hq, this, htmp]
    · have := ht tmpScript
      rw [if_neg fun hs => not_same_script_tmpScript (Eq.symm hs), if_pos rfl] at this
      rw [FileTree.contents?_congr hq, this]
  · exact FileTree.mem_names.mpr ((FileTree.storedName?_rename_ne hr (not_same_newMarker_tmpScript pl)
      (not_same_newMarker_script pl)).trans hname)

def MarkerRenamed (arch : Arch) (pl : Places) (t₀ t₁ : EspTree) (r : Except StepError Unit) (t : EspTree)
    (trace : List EspEvent) : Prop :=
  match r with
  | .ok () => Marked pl t₀ t ∧ t.contents? tmpScript = some (scriptContents arch pl) ∧
      t.contents? pl.tmpMarker = none ∧ t.storedName? pl.newMarker = some (pl.marker ++ ".id") ∧
      Traced false false false trace
  | .error e => t = t₁ ∧ Traced (isFullOrReadOnly e.source) false (isFullOrReadOnly e.source) trace

theorem does_renameMarker {t₁ : EspTree} (h₀ : t₀.contents? pl.newMarker = none)
    (hI : ∀ t : EspTree, Underway arch pl t₀ t → I t) (hb : Begun pl t₀ t₁)
    (hmarker : t₁.contents? pl.tmpMarker = some markerContents)
    (hscript : t₁.contents? tmpScript = some (scriptContents arch pl)) :
    Does event (disk may) I (attempt (.rename pl.tmpMarker pl.newMarker) placing) t₁ (MarkerRenamed arch pl t₀ t₁) := by
  refine does_rename (not_same_newMarker_tmpMarker pl) (hI t₁ (.inl hb)) (fun e => ⟨rfl, traced_rename_error _ e⟩) ?_
  intro t contents hr hc ht
  obtain rfl := Option.some.inj (hmarker.symm.trans hc)
  have hnone : t₁.contents? pl.newMarker = none := (hb _ not_temporary_newMarker).trans h₀
  refine ⟨hI t (.inr (.inl (hb.marked ht))), hb.marked ht, ?_, ?_, ?_, ⟨rfl, ?_, rfl⟩⟩
  · rw [ht, if_neg fun hs => not_same_newMarker_tmpScript pl (Eq.symm hs),
      if_neg fun hs => not_same_tmpMarker_tmpScript pl (Eq.symm hs), hscript]
  · rw [ht, if_neg fun hs => not_same_newMarker_tmpMarker pl (Eq.symm hs), if_pos rfl]
  · exact FileTree.storedName?_rename_new hr (not_same_newMarker_tmpMarker pl) hnone
  · simp [changes, Places.newMarker, Places.markerDir, script]

theorem does_putInPlace (h₀ : t₀.contents? pl.newMarker = none) (hI : ∀ t : EspTree, Underway arch pl t₀ t → I t) :
    Does event (disk may) I (putInPlace arch pl) t₀ (Ended may arch pl t₀) := by
  refine Does.outcome_bind (does_writeTemporaries fun t h => hI t (.inl h)) fun r t₁ trace₁ _ ⟨hb₁, h₁⟩ => ?_
  cases r with
  | error e =>
      exact does_undo trace₁ (fun t h => hI t (.inl (Begun.discard hb₁ h))) (fun t h _ => Begun.discard hb₁ h) h₁
  | ok _ =>
      obtain ⟨hmarker, hscript, htrace₁⟩ := h₁
      refine Does.outcome_bind (does_renameMarker h₀ hI hb₁ hmarker hscript) fun r t₂ trace₂ _ h₂ => ?_
      cases r with
      | error e =>
          obtain ⟨rfl, htrace₂⟩ := h₂
          simpa only [List.append_assoc] using does_undo (trace₁ ++ trace₂)
            (fun t h => hI t (.inl (Begun.discard hb₁ h))) (fun t h _ => Begun.discard hb₁ h)
            (by simpa using htrace₁.append htrace₂)
      | ok _ =>
          obtain ⟨hm, hscript, htmp, hname, htrace₂⟩ := h₂
          refine Does.outcome_bind (does_renameScript hI hm hscript htmp hname) fun r t₃ trace₃ ht₃ h₃ => ?_
          cases r with
          | error e =>
              obtain ⟨rfl, htrace₃⟩ := h₃
              simpa only [List.append_assoc] using does_undo (trace₁ ++ (trace₂ ++ trace₃))
                (fun t h => hI t ((hm.discard_or h₀ h).imp_right .inl))
                (fun t h hgone => hm.discard h₀ h (hgone _ (List.mem_singleton.mpr rfl)))
                (by simpa using htrace₁.append (htrace₂.append htrace₃))
          | ok _ =>
              obtain ⟨hc, hgone, hnames, htrace₃⟩ := h₃
              refine Does.pure ht₃ ⟨hc, hgone, hnames, ?_⟩
              simpa using htrace₁.append (htrace₂.append htrace₃)

end

end Beskar7Inspector.EspPlacing
