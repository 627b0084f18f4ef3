import Mathlib.Data.Finset.Basic
import Mathlib.Data.List.Chain

namespace Beskar7Inspector.Lib.DepthFirst

variable {α : Type} {r : α → α → Prop}

/-- `c` is at the end of a chain of at most `k` names that starts with `a`. -/
inductive Within (r : α → α → Prop) : Nat → α → α → Prop
  | here (k : Nat) (a : α) : Within r (k + 1) a a
  | step {k : Nat} {a b c : α} (h : r a b) (w : Within r k b c) : Within r (k + 1) a c

theorem Within.mono {k l : Nat} {a b : α} (h : Within r k a b) (hkl : k ≤ l) : Within r l a b := by
  induction h generalizing l with
  | here k a =>
      cases l with
      | zero => omega
      | succ l => exact .here l a
  | step hab _ ih =>
      cases l with
      | zero => omega
      | succ l => exact .step hab (ih (Nat.le_of_succ_le_succ hkl))

/-- A chain goes on from the end of another. -/
theorem Within.append {k l : Nat} {a b c d : α} (h : Within r k a b) (hbc : r b c) (w : Within r l c d) :
    Within r (k + l) a d := by
  induction h with
  | here k a => exact (Within.step hbc w).mono (by omega)
  | step hab _ ih => exact (Within.step hab (ih hbc)).mono (by omega)

variable [DecidableEq α] (succ : α → List α)

/-- Depth-first walk with at most `d` levels and a set of names already seen;
a name met again is not entered again, whatever its depth was. -/
def walk : Nat → Finset α → α → Finset α
  | 0, seen, _ => seen
  | d + 1, seen, a =>
      if a ∈ seen then seen else (succ a).foldl (fun seen b => walk d seen b) (insert a seen)

/-- Every chain of distinct names from `a` that avoids `path` has at most `d` names. -/
def Short (d : Nat) (path : List α) (a : α) : Prop :=
  ∀ l : List α, (a :: l).IsChain (fun x y => y ∈ succ x) → (path ++ a :: l).Nodup → (a :: l).length ≤ d

variable {succ}

theorem foldl_walk_mono {d : Nat} (hmono : ∀ (seen : Finset α) (b : α), seen ⊆ walk succ d seen b)
    (bs : List α) (seen : Finset α) : seen ⊆ bs.foldl (fun seen b => walk succ d seen b) seen := by
  induction bs generalizing seen with
  | nil => exact Finset.Subset.refl _
  | cons b bs ih => exact (hmono seen b).trans (ih _)

theorem subset_walk (d : Nat) (seen : Finset α) (a : α) : seen ⊆ walk succ d seen a := by
  induction d generalizing seen a with
  | zero => exact Finset.Subset.refl _
  | succ d ih =>
      rw [walk]
      split
      · exact Finset.Subset.refl _
      · exact (Finset.subset_insert a seen).trans (foldl_walk_mono ih _ _)

theorem subset_foldl_walk (succ : α → List α) (d : Nat) (bs : List α) (seen : Finset α) :
    seen ⊆ bs.foldl (fun seen b => walk succ d seen b) seen :=
  foldl_walk_mono (subset_walk d) bs seen

/-- The walk enters only names at the end of a chain within its bound. -/
theorem within_of_mem_walk {d : Nat} {seen : Finset α} {a b : α} (h : b ∈ walk succ d seen a) :
    b ∈ seen ∨ Within (fun x y => y ∈ succ x) d a b := by
  induction d generalizing seen a with
  | zero => exact .inl h
  | succ d ih =>
      have hfold : ∀ (bs : List α) (seen : Finset α),
          b ∈ bs.foldl (fun seen b => walk succ d seen b) seen →
          b ∈ seen ∨ ∃ c ∈ bs, Within (fun x y => y ∈ succ x) d c b := by
        intro bs
        induction bs with
        | nil => exact fun seen hb => .inl hb
        | cons c bs ihbs =>
            intro seen hb
            rcases ihbs _ hb with hb | ⟨e, he, hw⟩
            · rcases ih hb with hb | hw
              · exact .inl hb
              · exact .inr ⟨c, List.mem_cons_self, hw⟩
            · exact .inr ⟨e, List.mem_cons_of_mem _ he, hw⟩
      rw [walk] at h
      split at h
      · exact .inl h
      · rcases hfold _ _ h with hb | ⟨c, hc, hw⟩
        · rcases Finset.mem_insert.mp hb with rfl | hb
          · exact .inr (.here _ _)
          · exact .inl hb
        · exact .inr (.step hc hw)

theorem Short.mem_path {path : List α} {a : α} (hs : Short succ 0 path a) (hp : path.Nodup) : a ∈ path := by
  by_contra ha
  have h := hs [] (List.isChain_singleton a) (by
    rw [List.nodup_append]
    refine ⟨hp, List.nodup_singleton a, ?_⟩
    rintro x hx y hy rfl
    exact ha (List.mem_singleton.mp hy ▸ hx))
  exact absurd h (by simp)

omit [DecidableEq α] in
theorem Short.tail {d : Nat} {path : List α} {a b : α} (hs : Short succ (d + 1) path a) (hab : b ∈ succ a) :
    Short succ d (path ++ [a]) b := by
  intro l hl hn
  have h := hs (b :: l) (List.isChain_cons_cons.mpr ⟨hab, hl⟩) (by simpa using hn)
  exact Nat.le_of_succ_le_succ h

/-- Unless the bound cuts it short, the walk ends with every entered name's
successors seen. The induction carries the chain of names being entered. -/
theorem walk_closed {d : Nat} {path : List α} {seen : Finset α} {a : α} (hp : path.Nodup)
    (hsub : ∀ x ∈ path, x ∈ seen) (hs : Short succ d path a) :
    a ∈ walk succ d seen a ∧
      ∀ x ∈ walk succ d seen a, x ∉ seen → ∀ y ∈ succ x, y ∈ walk succ d seen a := by
  induction d generalizing path seen a with
  | zero =>
      refine ⟨hsub a (hs.mem_path hp), ?_⟩
      intro x hx hn
      exact absurd hx hn
  | succ d ih =>
      by_cases ha : a ∈ seen
      · have hw : walk succ (d + 1) seen a = seen := by rw [walk, if_pos ha]
        rw [hw]
        exact ⟨ha, fun x hx hn => absurd hx hn⟩
      · have hw : walk succ (d + 1) seen a =
            (succ a).foldl (fun seen b => walk succ d seen b) (insert a seen) := by rw [walk, if_neg ha]
        have hp' : (path ++ [a]).Nodup := by
          rw [List.nodup_append]
          refine ⟨hp, List.nodup_singleton a, ?_⟩
          rintro x hx y hy rfl
          exact ha (List.mem_singleton.mp hy ▸ hsub x hx)
        have hfold : ∀ (bs : List α) (cur : Finset α), (∀ b ∈ bs, b ∈ succ a) →
            (∀ x ∈ path ++ [a], x ∈ cur) →
            (∀ b ∈ bs, b ∈ bs.foldl (fun seen b => walk succ d seen b) cur) ∧
            ∀ x ∈ bs.foldl (fun seen b => walk succ d seen b) cur, x ∉ cur →
              ∀ y ∈ succ x, y ∈ bs.foldl (fun seen b => walk succ d seen b) cur := by
          intro bs
          induction bs with
          | nil =>
              intro cur _ _
              exact ⟨by simp, fun x hx hn => absurd hx hn⟩
          | cons b bs ihbs =>
              intro cur hbs hcur
              obtain ⟨hb, hclosed⟩ := ih hp' hcur (hs.tail (hbs b List.mem_cons_self))
              have hstep : cur ⊆ walk succ d cur b := subset_walk d cur b
              have hrest := subset_foldl_walk succ d bs (walk succ d cur b)
              obtain ⟨hall, hclosed'⟩ := ihbs (walk succ d cur b)
                (fun c hc => hbs c (List.mem_cons_of_mem _ hc)) (fun x hx => hstep (hcur x hx))
              refine ⟨?_, ?_⟩
              · intro c hc
                rcases List.mem_cons.mp hc with rfl | hc
                · exact hrest hb
                · exact hall c hc
              · intro x hx hn y hy
                by_cases hx' : x ∈ walk succ d cur b
                · exact hrest (hclosed x hx' hn y hy)
                · exact hclosed' x hx hx' y hy
        obtain ⟨hall, hclosed⟩ := hfold (succ a) (insert a seen) (fun _ hb => hb) (by
          intro x hx
          rcases List.mem_append.mp hx with hx | hx
          · exact Finset.mem_insert_of_mem (hsub x hx)
          · rw [List.mem_singleton.mp hx]
            exact Finset.mem_insert_self a seen)
        rw [hw]
        refine ⟨subset_foldl_walk succ d _ _ (Finset.mem_insert_self a seen), ?_⟩
        intro x hx hn y hy
        by_cases hxa : x = a
        · subst hxa
          exact hall y hy
        · exact hclosed x hx (by simp [hxa, hn]) y hy

/-- Where no chain of distinct names is longer than the bound, the walk enters
everything that can be reached at all. -/
theorem mem_walk_of_within {d k : Nat} {a b : α} (hs : Short succ d [] a)
    (hw : Within (fun x y => y ∈ succ x) k a b) : b ∈ walk succ d ∅ a := by
  obtain ⟨ha, hclosed⟩ := walk_closed List.nodup_nil (show ∀ x ∈ [], x ∈ (∅ : Finset α) by simp) hs
  have hgo : ∀ {k : Nat} {x y : α}, Within (fun x y => y ∈ succ x) k x y →
      x ∈ walk succ d ∅ a → y ∈ walk succ d ∅ a := by
    intro k x y w
    induction w with
    | here => exact id
    | step h _ ih => exact fun hx => ih (hclosed _ hx (Finset.notMem_empty _) _ h)
  exact hgo hw ha

/-! The walk entered by chains: which of them comes to a name first. -/

/-- The chains of at most `d` names that go on from `above` with `a`, in the order in
which the names are listed. A chain is read from its last name up, and each name stands
with its place in the list it was found in. -/
def chains (succ : α → List α) : Nat → List (α × Nat) → α × Nat → List (List (α × Nat))
  | 0, _, _ => []
  | d + 1, above, a => (a :: above) :: (succ a.1).zipIdx.flatMap (fun b => chains succ d (a :: above) b)

def lastName (c : List (α × Nat)) : Option α := c.head?.map Prod.fst

/-- A chain is first at its last name if the chain above it is first at its own, and no
chain that was first somewhere before it ends in the same name. -/
def FirstAfter (met : Finset (List (α × Nat))) (c : List (α × Nat)) : Prop :=
  (c.tail = [] ∨ c.tail ∈ met) ∧ ∀ o ∈ met, lastName o ≠ lastName c

instance (met : Finset (List (α × Nat))) (c : List (α × Nat)) : Decidable (FirstAfter met c) :=
  inferInstanceAs (Decidable (_ ∧ _))

def meet (met : Finset (List (α × Nat))) (cs : List (List (α × Nat))) : Finset (List (α × Nat)) :=
  cs.foldl (fun met c => if FirstAfter met c then insert c met else met) met

/-- Those of the chains of at most `d` names from `a` that are first at their last name. -/
def firstChains (succ : α → List α) (d : Nat) (a : α) : Finset (List (α × Nat)) := meet ∅ (chains succ d [] (a, 0))

/-- The names at the ends of the chains. -/
def Ends (met : Finset (List (α × Nat))) (seen : Finset α) : Prop :=
  ∀ x, x ∈ seen ↔ ∃ c ∈ met, lastName c = some x

section Chains

variable {met : Finset (List (α × Nat))} {seen : Finset α} {above : List (α × Nat)}

theorem meet_append (met : Finset (List (α × Nat))) (cs ds : List (List (α × Nat))) :
    meet met (cs ++ ds) = meet (meet met cs) ds := List.foldl_append

theorem meet_chains_succ (d : Nat) (met : Finset (List (α × Nat))) (above : List (α × Nat)) (a : α × Nat) :
    meet met (chains succ (d + 1) above a) =
      meet (if FirstAfter met (a :: above) then insert (a :: above) met else met)
        ((succ a.1).zipIdx.flatMap (fun b => chains succ d (a :: above) b)) := rfl

theorem meet_flatMap_same {f : α × Nat → List (List (α × Nat))} (bs : List (α × Nat)) (h : ∀ b, meet met (f b) = met) :
    meet met (bs.flatMap f) = met := by
  induction bs with
  | nil => rfl
  | cons b bs ih => rw [List.flatMap_cons, meet_append, h, ih]

/-- Nothing is first below a chain that was not. -/
theorem meet_below (d : Nat) (b : α × Nat) (hne : above ≠ []) (hout : ∀ c ∈ met, ¬above <:+ c) :
    meet met (chains succ d above b) = met := by
  induction d generalizing above b with
  | zero => rfl
  | succ d ih =>
      have hnot : ¬FirstAfter met (b :: above) := by
        rintro ⟨h | h, _⟩
        · exact hne h
        · exact hout _ h (List.suffix_refl _)
      have hbelow (c : α × Nat) : meet met (chains succ d (b :: above) c) = met := by
        refine ih c (List.cons_ne_nil _ _) ?_
        intro o ho hsuffix
        exact hout o ho ((List.suffix_cons b above).trans hsuffix)
      rw [meet_chains_succ, if_neg hnot, meet_flatMap_same _ hbelow]

omit [DecidableEq α] in
theorem suffix_cons_inj {a b : α × Nat} {c : List (α × Nat)} (ha : a :: above <:+ c) (hb : b :: above <:+ c) : a = b := by
  have heq : a :: above = b :: above := by
    rcases List.suffix_or_suffix_of_suffix ha hb with h | h
    · exact h.eq_of_length rfl
    · exact (h.eq_of_length rfl).symm
  exact (List.cons.inj heq).1

omit [DecidableEq α] in
theorem nodup_zipIdx (names : List α) : names.zipIdx.Nodup := by
  refine List.Nodup.of_map Prod.snd ?_
  rw [List.zipIdx_map_snd]
  exact List.nodup_range'

/-- The chains of `cs` add only chains that go on from `stem`, and then end in the
names that the walk has entered. -/
def Adds (stem : List (α × Nat)) (met : Finset (List (α × Nat))) (cs : List (List (α × Nat))) (seen : Finset α) : Prop :=
  met ⊆ meet met cs ∧ (∀ c ∈ meet met cs, c ∈ met ∨ stem <:+ c) ∧ Ends (meet met cs) seen

/-- The successors one after another, none of which goes on from another. -/
theorem adds_siblings {d : Nat} {stem : List (α × Nat)}
    (hone : ∀ {met : Finset (List (α × Nat))} {seen : Finset α} {b : α × Nat}, Ends met seen → stem ∈ met →
      (∀ c ∈ met, ¬b :: stem <:+ c) → Adds (b :: stem) met (chains succ d stem b) (walk succ d seen b.1))
    (bs : List (α × Nat)) (hnodup : bs.Nodup) (hends : Ends met seen) (hstem : stem ∈ met)
    (hnew : ∀ b ∈ bs, ∀ c ∈ met, ¬b :: stem <:+ c) :
    Adds stem met (bs.flatMap (fun b => chains succ d stem b))
      ((bs.map Prod.fst).foldl (fun seen b => walk succ d seen b) seen) := by
  induction bs generalizing met seen with
  | nil => exact ⟨Finset.Subset.refl _, fun c hc => .inl hc, hends⟩
  | cons b bs ih =>
      obtain ⟨hb, hbs⟩ := List.nodup_cons.mp hnodup
      obtain ⟨hsub, hfrom, hwalk⟩ := hone hends hstem (hnew b List.mem_cons_self)
      have hnew' : ∀ e ∈ bs, ∀ c ∈ meet met (chains succ d stem b), ¬e :: stem <:+ c := by
        intro e he c hc hsuffix
        rcases hfrom c hc with hc | hc
        · exact hnew e (List.mem_cons_of_mem _ he) c hc hsuffix
        · exact hb (suffix_cons_inj hc hsuffix ▸ he)
      obtain ⟨hsub', hfrom', hwalk'⟩ := ih hbs hwalk (hsub hstem) hnew'
      rw [Adds, List.flatMap_cons, meet_append]
      refine ⟨hsub.trans hsub', ?_, hwalk'⟩
      intro c hc
      rcases hfrom' c hc with hc | hc
      · exact (hfrom c hc).imp_right fun h => (List.suffix_cons b _).trans h
      · exact .inr hc

/-- The names that the walk enters are those some chain is first at. The induction
carries the chains that were first before, none of which goes on from this one. -/
theorem adds_chains {d : Nat} {a : α × Nat} (hends : Ends met seen) (habove : above = [] ∨ above ∈ met)
    (hnew : ∀ c ∈ met, ¬a :: above <:+ c) : Adds (a :: above) met (chains succ d above a) (walk succ d seen a.1) := by
  induction d generalizing met seen above a with
  | zero => exact ⟨Finset.Subset.refl _, fun c hc => .inl hc, hends⟩
  | succ d ih =>
      by_cases ha : a.1 ∈ seen
      · have hnot : ¬FirstAfter met (a :: above) := by
          rintro ⟨_, h⟩
          obtain ⟨c, hc, hlast⟩ := (hends a.1).mp ha
          exact h c hc hlast
        have hbelow (b : α × Nat) : meet met (chains succ d (a :: above) b) = met :=
          meet_below d b (List.cons_ne_nil _ _) hnew
        rw [Adds, meet_chains_succ, if_neg hnot, meet_flatMap_same _ hbelow, walk, if_pos ha]
        exact ⟨Finset.Subset.refl _, fun c hc => .inl hc, hends⟩
      · have hfirst : FirstAfter met (a :: above) := by
          refine ⟨habove, fun o ho hlast => ha ((hends a.1).mpr ⟨o, ho, hlast⟩)⟩
        have hends' : Ends (insert (a :: above) met) (insert a.1 seen) := by
          intro x
          rw [Finset.mem_insert, hends, Finset.exists_mem_insert]
          exact or_congr ⟨fun h => congrArg some h.symm, fun h => (Option.some.inj h).symm⟩ Iff.rfl
        have hnew' : ∀ b ∈ (succ a.1).zipIdx, ∀ c ∈ insert (a :: above) met, ¬b :: a :: above <:+ c := by
          intro b _ c hc hsuffix
          rcases Finset.mem_insert.mp hc with rfl | hc
          · have hlen := hsuffix.length_le
            simp only [List.length_cons] at hlen
            omega
          · exact hnew c hc ((List.suffix_cons b _).trans hsuffix)
        obtain ⟨hsub, hfrom, hwalk⟩ := adds_siblings (fun hends hstem hnew => ih hends (.inr hstem) hnew)
          (succ a.1).zipIdx (nodup_zipIdx _) hends' (Finset.mem_insert_self _ _) hnew'
        rw [List.zipIdx_map_fst] at hwalk
        rw [Adds, meet_chains_succ, if_pos hfirst, walk, if_neg ha]
        refine ⟨(Finset.subset_insert _ _).trans hsub, ?_, hwalk⟩
        intro c hc
        rcases hfrom c hc with hc | hc
        · rcases Finset.mem_insert.mp hc with rfl | hc
          · exact .inr (List.suffix_refl _)
          · exact .inl hc
        · exact .inr hc

end Chains

/-- The walk enters a name if and only if a chain is first at it. -/
theorem mem_walk_iff {d : Nat} {a x : α} : x ∈ walk succ d ∅ a ↔ ∃ c ∈ firstChains succ d a, lastName c = some x := by
  have hends : Ends (∅ : Finset (List (α × Nat))) (∅ : Finset α) := by simp [Ends]
  have hadds : Adds [(a, 0)] ∅ (chains succ d [] (a, 0)) (walk succ d ∅ a) := adds_chains hends (.inl rfl) (by simp)
  exact hadds.2.2 x

end Beskar7Inspector.Lib.DepthFirst
