import Beskar7Inspector.EspFallback

namespace Beskar7Inspector.EspScan

open Lib.Program Lib.Text Lib.Os Lib.Files Lib.FileCalls EspFallback

abbrev Same (p q : EspPath) : Prop := p.map asciiLower = q.map asciiLower

variable {may : Unnoticed} {t : EspTree}

theorem looks_findEntry (dir : EspPath) (name : String) (names : List String) :
    Looks may (findEntry dir name names) t (fun r => match r with
      | .ok (some p) => Same p (dir.join name)
      | .ok none => ∀ stored ∈ names, asciiLower stored ≠ asciiLower name
      | .error _ => True) := by
  induction names with
  | nil =>
      refine Looks.bind (Looks.nextEntry (R := fun _ => True) (fun _ => trivial) trivial) (fun _ _ => trivial) ?_
      exact fun _ _ => Looks.pure (by simp)
  | cons stored rest ih =>
      refine Looks.bind (Looks.nextEntry (R := fun _ => True) (fun _ => trivial) trivial) (fun _ _ => trivial) ?_
      intro _ _
      split
      · rename_i h
        refine Looks.pure ?_
        rw [eqIgnoreAsciiCase, beq_iff_eq] at h
        simp [Same, Lib.Files.Path.map, h]
      · rename_i h
        refine ih.mono fun r hr => ?_
        rcases r with e | (_ | p)
        · trivial
        · rw [eqIgnoreAsciiCase, beq_iff_eq] at h
          exact List.forall_mem_cons.mpr ⟨h, hr⟩
        · exact hr

theorem looks_child (dir : EspPath) (name : String) :
    Looks may (child dir name) t (fun r => match r with
      | .ok (some p) => Same p (dir.join name)
      | .ok none => may.looks = false → t.node? (dir.join name) = none
      | .error _ => True) := by
  refine Looks.bind (Looks.listing (R := fun r => match r with
    | .ok (some names) => names = t.names dir
    | .ok none => may.looks = true ∨ t.node? dir = none
    | .error _ => True) (fun _ => trivial) id rfl) (fun _ _ => trivial) ?_
  rintro (_ | names) h
  · refine Looks.pure fun hm => ?_
    rcases h with hl | hn
    · rw [hm] at hl
      cases hl
    · exact FileTree.node?_joins_eq_none hn [name]
  · cases h
    refine (looks_findEntry dir name (t.names dir)).mono fun r hr => ?_
    rcases r with e | (_ | p)
    · trivial
    · refine fun _ => Option.eq_none_iff_forall_ne_some.mpr fun node hn => ?_
      obtain ⟨stored, hs, hf⟩ := FileTree.exists_mem_names hn
      exact hr stored hs hf
    · exact hr

theorem Same.joins {p q : EspPath} (h : Same p q) (names : List String) : Same (p.joins names) (q.joins names) := by
  rw [Same, Path.map_joins, Path.map_joins, h]

theorem looks_resolveFrom (path : EspPath) (parts : List String) :
    Looks may (resolveFrom path parts) t (fun r => match r with
      | .ok (some p) => Same p (path.joins parts)
      | .ok none => may.looks = false → t.contents? (path.joins parts) = none
      | .error _ => True) := by
  induction parts generalizing path with
  | nil =>
      refine Looks.bind (Looks.isFile (R := fun r => match r with
        | .ok file => file = true ∨ (may.looks = false → file = t.isFile path)
        | .error _ => False) (fun hm => .inr fun hl => by rw [hm] at hl; cases hl) (.inr fun _ => rfl)) (fun _ h => h.elim) ?_
      intro file h
      cases file with
      | true => exact Looks.pure rfl
      | false =>
          refine Looks.pure fun hl => ?_
          have := (h.resolve_left Bool.false_ne_true) hl
          simpa [FileTree.isFile, Path.joins] using this
  | cons part parts ih =>
      refine Looks.bind (looks_child path part) (fun _ _ => trivial) ?_
      rintro (_ | next) h
      · refine Looks.pure fun hl => ?_
        rw [FileTree.contents?, Path.joins, List.foldl_cons]
        rw [show t.node? (List.foldl Path.join (path.join part) parts) = none from
          FileTree.node?_joins_eq_none (h hl) parts]
      · refine (ih next).mono fun r hr => ?_
        have hnext := h.joins parts
        rcases r with e | (_ | p)
        · trivial
        · exact fun hl => (FileTree.contents?_congr hnext.symm).trans (hr hl)
        · exact Eq.trans hr hnext

/-- Where the Shell looks in one of its directories. -/
def scriptAt (dir : List String) : EspPath := Path.root.joins (dir ++ [startupNshFilename])

/-- What a scan has found after the directories `dirs`, on top of `before`. -/
structure Found (may : Unnoticed) (t : EspTree) (dirs : List (List String)) (before found : Scripts) : Prop where
  ours : ∀ x ∈ found.ours, x ∈ before.ours ∨ ∃ dir ∈ dirs, x.1 = dir.isEmpty ∧ Same x.2 (scriptAt dir) ∧
    ∃ contents, t.contents? x.2 = some contents ∧ hasSignature contents = true
  imageScript : ∀ p, found.imageScript = some p → before.imageScript = some p ∨ ∃ dir ∈ dirs, Same p (scriptAt dir) ∧
    ∃ contents, t.contents? p = some contents ∧ hasSignature contents = false
  keepsOurs : ∀ x ∈ before.ours, x ∈ found.ours
  keepsImageScript : before.imageScript ≠ none → found.imageScript ≠ none
  missesNone : may.looks = false → ∀ dir ∈ dirs, ∀ contents, t.contents? (scriptAt dir) = some contents →
    if hasSignature contents then ∃ x ∈ found.ours, x.1 = dir.isEmpty ∧ Same x.2 (scriptAt dir)
    else found.imageScript ≠ none

theorem Found.refl (found : Scripts) : Found may t [] found found :=
  ⟨fun _ h => .inl h, fun _ h => .inl h, fun _ h => h, id, by simp⟩

theorem Found.cons {dir : List String} {dirs : List (List String)} {before middle found : Scripts}
    (h : Found may t [dir] before middle) (hs : Found may t dirs middle found) :
    Found may t (dir :: dirs) before found where
  ours x hx := by
    rcases hs.ours x hx with hx | ⟨d, hd, hx⟩
    · rcases h.ours x hx with hx | ⟨d, hd, hx⟩
      · exact .inl hx
      · exact .inr ⟨d, List.mem_cons.mpr (.inl (List.mem_singleton.mp hd)), hx⟩
    · exact .inr ⟨d, List.mem_cons_of_mem _ hd, hx⟩
  imageScript p hp := by
    rcases hs.imageScript p hp with hp | ⟨d, hd, hp⟩
    · rcases h.imageScript p hp with hp | ⟨d, hd, hp⟩
      · exact .inl hp
      · exact .inr ⟨d, List.mem_cons.mpr (.inl (List.mem_singleton.mp hd)), hp⟩
    · exact .inr ⟨d, List.mem_cons_of_mem _ hd, hp⟩
  keepsOurs x hx := hs.keepsOurs x (h.keepsOurs x hx)
  keepsImageScript hp := hs.keepsImageScript (h.keepsImageScript hp)
  missesNone hl := by
    refine List.forall_mem_cons.mpr ⟨fun contents hc => ?_, hs.missesNone hl⟩
    have := h.missesNone hl dir (List.mem_singleton.mpr rfl) contents hc
    split at this
    · obtain ⟨x, hx, hsame⟩ := this
      rw [if_pos ‹_›]
      exact ⟨x, hs.keepsOurs x hx, hsame⟩
    · rw [if_neg ‹_›]
      exact hs.keepsImageScript this

theorem looks_isOurs (path : EspPath) :
    Looks may (isOurs path) t (fun r => match r with
      | .ok mine => ∃ contents, t.contents? path = some contents ∧ hasSignature contents = mine
      | .error _ => True) := by
  refine Looks.bind (Looks.read (R := fun r => match r with
    | .ok contents => t.contents? path = some contents
    | .error _ => True) (fun _ => trivial) fun _ h => h) (fun _ _ => trivial) fun contents h => ?_
  exact Looks.pure ⟨contents, h, rfl⟩

theorem Found.nothing {dir : List String} {before : Scripts} (h : may.looks = false → t.contents? (scriptAt dir) = none) :
    Found may t [dir] before before where
  ours _ hx := .inl hx
  imageScript _ hp := .inl hp
  keepsOurs _ hx := hx
  keepsImageScript hp := hp
  missesNone hl := by
    intro d hd contents hc
    rw [List.mem_singleton.mp hd, h hl] at hc
    cases hc

section

variable {dir : List String} {before : Scripts} {path : EspPath} {contents : List UInt8}

theorem Found.ourScript (hp : Same path (scriptAt dir)) (hc : t.contents? path = some contents)
    (hm : hasSignature contents = true) :
    Found may t [dir] before { before with ours := before.ours ++ [(dir.isEmpty, path)] } where
  ours x hx := by
    rcases List.mem_append.mp hx with hx | hx
    · exact .inl hx
    · rw [List.mem_singleton.mp hx]
      exact .inr ⟨dir, List.mem_singleton.mpr rfl, rfl, hp, contents, hc, hm⟩
  imageScript _ hp := .inl hp
  keepsOurs _ hx := List.mem_append_left _ hx
  keepsImageScript hp := hp
  missesNone _ := by
    intro d hd c hd'
    rw [List.mem_singleton.mp hd, FileTree.contents?_congr hp.symm, hc] at hd'
    cases hd'
    rw [List.mem_singleton.mp hd, if_pos hm]
    exact ⟨_, List.mem_append_right _ (List.mem_singleton.mpr rfl), rfl, hp⟩

theorem Found.imagesScript (found : Scripts) (hp : Same path (scriptAt dir))
    (hc : t.contents? path = some contents) (hm : hasSignature contents = false) (hours : found.ours = before.ours)
    (himage : found.imageScript = before.imageScript ∧ before.imageScript ≠ none ∨ found.imageScript = some path) :
    Found may t [dir] before found where
  ours x hx := .inl (hours ▸ hx)
  imageScript p h := by
    rcases himage with ⟨hi, _⟩ | hi
    · exact .inl (hi ▸ h)
    · rw [hi] at h
      cases h
      exact .inr ⟨dir, List.mem_singleton.mpr rfl, hp, contents, hc, hm⟩
  keepsOurs x hx := hours ▸ hx
  keepsImageScript h := by
    rcases himage with ⟨hi, _⟩ | hi
    · rwa [hi]
    · rw [hi]
      simp
  missesNone _ := by
    intro d hd c hd'
    rw [List.mem_singleton.mp hd, FileTree.contents?_congr hp.symm, hc] at hd'
    cases hd'
    rw [if_neg (by rw [hm]; simp)]
    rcases himage with ⟨hi, hne⟩ | hi
    · rwa [hi]
    · rw [hi]
      simp

end

/-- What looking in one directory adds. -/
inductive Scanned (may : Unnoticed) (t : EspTree) (dir : List String) (before : Scripts) : Scripts → Prop
  | nothing (h : may.looks = false → t.contents? (scriptAt dir) = none) : Scanned may t dir before before
  | ours {path : EspPath} {contents : List UInt8} (hp : Same path (scriptAt dir)) (hc : t.contents? path = some contents)
      (hm : hasSignature contents = true) :
      Scanned may t dir before { before with ours := before.ours ++ [(dir.isEmpty, path)] }
  | image {path : EspPath} {contents : List UInt8} (hp : Same path (scriptAt dir)) (hc : t.contents? path = some contents)
      (hm : hasSignature contents = false) (hnone : before.imageScript = none) :
      Scanned may t dir before { before with imageScript := some path }
  | laterImage {path : EspPath} {contents : List UInt8} (hp : Same path (scriptAt dir))
      (hc : t.contents? path = some contents) (hm : hasSignature contents = false) (hne : before.imageScript ≠ none) :
      Scanned may t dir before before

theorem looks_scanScripts_cons {dir : List String} {dirs : List (List String)} {before : Scripts}
    {R : Except StepError Scripts → Prop} (hfail : ∀ e, R (.error e))
    (h : ∀ middle, Scanned may t dir before middle → Looks may (scanScripts dirs middle) t R) :
    Looks may (scanScripts (dir :: dirs) before) t R := by
  refine Looks.bind (S := fun r => match r with
    | .ok (some p) => Same p (scriptAt dir)
    | .ok none => may.looks = false → t.contents? (scriptAt dir) = none
    | .error _ => True) (Looks.mapErr ((looks_resolveFrom .root _).mono ?_)) (fun e _ => hfail e) ?_
  · rintro (e | (_ | p)) h
    · trivial
    · exact h
    · exact h
  rintro (_ | path) hfile
  · exact h before (.nothing hfile)
  refine Looks.bind (S := fun r => match r with
    | .ok mine => ∃ contents, t.contents? path = some contents ∧ hasSignature contents = mine
    | .error _ => True) (Looks.mapErr ((looks_isOurs path).mono ?_)) (fun e _ => hfail e) ?_
  · rintro (e | mine) h
    · trivial
    · exact h
  rintro mine ⟨contents, hc, hm⟩
  split
  · rename_i hmine
    exact h _ (.ours hfile hc (hm.trans hmine))
  · rename_i hmine
    have hsig : hasSignature contents = false := by rw [hm]; exact Bool.eq_false_iff.mpr hmine
    split
    · rename_i hi
      exact h _ (.image hfile hc hsig (Option.isNone_iff_eq_none.mp hi))
    · rename_i hi
      exact h _ (.laterImage hfile hc hsig (by simpa using hi))

theorem Scanned.found {dir : List String} {before middle : Scripts} (h : Scanned may t dir before middle) :
    Found may t [dir] before middle := by
  cases h with
  | nothing h => exact .nothing h
  | ours hp hc hm => exact .ourScript hp hc hm
  | image hp hc hm hnone => exact .imagesScript _ hp hc hm rfl (.inr rfl)
  | laterImage hp hc hm hne => exact .imagesScript _ hp hc hm rfl (.inl ⟨rfl, hne⟩)

theorem looks_scanScripts (dirs : List (List String)) (before : Scripts) :
    Looks may (scanScripts dirs before) t (fun r => ∀ found, r = .ok found → Found may t dirs before found) := by
  induction dirs generalizing before with
  | nil => exact Looks.pure fun found h => by cases h; exact .refl before
  | cons dir dirs ih =>
      refine looks_scanScripts_cons (by simp) fun middle hmiddle => ?_
      exact (ih middle).mono fun r hr found h => hmiddle.found.cons (hr found h)

def IsImageScript (t : EspTree) (dir : List String) : Prop :=
  ∃ contents, t.contents? (scriptAt dir) = some contents ∧ hasSignature contents = false

def IsOurScript (t : EspTree) (dir : List String) : Prop :=
  ∃ contents, t.contents? (scriptAt dir) = some contents ∧ hasSignature contents = true

theorem Found.mine {dirs : List (List String)} {before found : Scripts} {dir : List String}
    (h : Found may t dirs before found) (hl : may.looks = false) (hdir : dir ∈ dirs) (hours : IsOurScript t dir) :
    ∃ x ∈ found.ours, x.1 = dir.isEmpty ∧ Same x.2 (scriptAt dir) := by
  obtain ⟨contents, hc, hm⟩ := hours
  have hmine := h.missesNone hl dir hdir contents hc
  rwa [if_pos hm] at hmine

theorem Found.image {dirs : List (List String)} {before found : Scripts} {dir : List String}
    (h : Found may t dirs before found) (hl : may.looks = false) (hdir : dir ∈ dirs) (himage : IsImageScript t dir) :
    found.imageScript ≠ none := by
  obtain ⟨contents, hc, hm⟩ := himage
  have hfound := h.missesNone hl dir hdir contents hc
  rwa [hm] at hfound

/-- Where what was found is removed, no script of ours is left. -/
theorem Found.gone {dirs : List (List String)} {before found : Scripts} {dir : List String} {t' : EspTree}
    (h : Found may t dirs before found) (hl : may.looks = false) (hdir : dir ∈ dirs) (hours : IsOurScript t dir)
    (hgone : ∀ x ∈ found.ours, x.1 = dir.isEmpty → t'.storedName? x.2 = none) : t'.contents? (scriptAt dir) = none := by
  obtain ⟨x, hx, hempty, hat⟩ := h.mine hl hdir hours
  rw [← FileTree.contents?_congr hat, FileTree.contents?_of_storedName? (hgone x hx hempty)]

/-- The path is that of the image's script in the first directory that has one. -/
def IsFirstImage (t : EspTree) (dirs : List (List String)) (p : EspPath) : Prop :=
  ∃ pre dir post, dirs = pre ++ dir :: post ∧ (∀ d ∈ pre, ¬IsImageScript t d) ∧ IsImageScript t dir ∧ Same p (scriptAt dir)

theorem IsFirstImage.cons {dir : List String} {dirs : List (List String)} {p : EspPath} (h : IsFirstImage t dirs p)
    (hdir : ¬IsImageScript t dir) : IsFirstImage t (dir :: dirs) p := by
  obtain ⟨pre, first, post, rfl, hpre, hfirst, hp⟩ := h
  exact ⟨dir :: pre, first, post, rfl, List.forall_mem_cons.mpr ⟨hdir, hpre⟩, hfirst, hp⟩

theorem not_isImageScript {dir : List String} {path : EspPath} {contents : List UInt8} (hp : Same path (scriptAt dir))
    (hc : t.contents? path = some contents) (hm : hasSignature contents = true) : ¬IsImageScript t dir := by
  rintro ⟨other, ho, hother⟩
  rw [← FileTree.contents?_congr hp, hc] at ho
  obtain rfl := Option.some.inj ho
  rw [hm] at hother
  cases hother

theorem looks_scanScripts_first (hl : may.looks = false) (dirs : List (List String)) (before : Scripts) :
    Looks may (scanScripts dirs before) t (fun r => ∀ found, r = .ok found → ∀ p, found.imageScript = some p →
      before.imageScript = some p ∨ before.imageScript = none ∧ IsFirstImage t dirs p) := by
  induction dirs generalizing before with
  | nil => exact Looks.pure fun found h p hp => by cases h; exact .inl hp
  | cons dir dirs ih =>
      refine looks_scanScripts_cons (by simp) fun middle hmiddle => (ih middle).mono fun r hr found h p hp => ?_
      have hrest := hr found h p hp
      cases hmiddle with
      | nothing hnone =>
          refine hrest.imp_right fun ⟨hb, hfirst⟩ => ⟨hb, hfirst.cons ?_⟩
          rintro ⟨contents, hc, _⟩
          rw [hnone hl] at hc
          cases hc
      | ours hpath hc hm => exact hrest.imp_right fun ⟨hb, hfirst⟩ => ⟨hb, hfirst.cons (not_isImageScript hpath hc hm)⟩
      | @image path contents hpath hc hm hnone =>
          refine .inr ⟨hnone, [], dir, dirs, rfl, by simp, ?_, ?_⟩
          · exact ⟨contents, (FileTree.contents?_congr hpath.symm).trans hc, hm⟩
          · rcases hrest with hrest | ⟨hrest, _⟩
            · obtain rfl := Option.some.inj hrest
              exact hpath
            · cases hrest
      | laterImage hpath hc hm hne =>
          rcases hrest with hrest | ⟨hb, _⟩
          · exact .inl hrest
          · exact absurd hb hne

end Beskar7Inspector.EspScan
