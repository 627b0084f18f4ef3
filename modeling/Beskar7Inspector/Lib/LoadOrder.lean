import Mathlib.Data.Set.Insert

namespace Beskar7Inspector.Lib.LoadOrder

variable {α β : Type} {needs : α → List α} {works : α → Prop} {base seen seen' : Set α}

/-- What can be loaded at all: it works itself, and so does all that it needs. -/
inductive Loadable (needs : α → List α) (works : α → Prop) (base : Set α) : α → Prop
  | base {a} (h : a ∈ base) : Loadable needs works base a
  | load {a} (h : works a) (hneeds : ∀ b ∈ needs a, Loadable needs works base b) : Loadable needs works base a

/-- Each item stands behind all that it needs, apart from what was there before. -/
def Ordered (needs : α → List α) : Set α → List α → Prop
  | _, [] => True
  | seen, a :: l => (∀ b ∈ needs a, b ∈ seen) ∧ Ordered needs (insert a seen) l

/-- The items without those that came before, as `seen` or in the list. -/
def firsts [DecidableEq α] : List α → List α → List α
  | _, [] => []
  | seen, a :: l => if a ∈ seen then firsts seen l else a :: firsts (a :: seen) l

namespace Ordered

theorem mono {l : List α} (h : Ordered needs seen l) (hsub : seen ⊆ seen') : Ordered needs seen' l := by
  induction l generalizing seen seen' with
  | nil => trivial
  | cons a l ih => exact ⟨fun b hb => hsub (h.1 b hb), ih h.2 (Set.insert_subset_insert hsub)⟩

theorem append {l l' : List α} (h : Ordered needs seen l) (h' : Ordered needs seen l') : Ordered needs seen (l ++ l') := by
  induction l generalizing seen with
  | nil => exact h'
  | cons a l ih => exact ⟨h.1, ih h.2 (h'.mono (Set.subset_insert a _))⟩

theorem flatten {ls : List (List α)} (h : ∀ l ∈ ls, Ordered needs seen l) : Ordered needs seen ls.flatten := by
  induction ls with
  | nil => trivial
  | cons l ls ih =>
      rw [List.forall_mem_cons] at h
      exact h.1.append (ih h.2)

/-- An item that came before is not missed. -/
theorem firsts [DecidableEq β] {f : β → α} {before l : List β} (h : Ordered needs seen (l.map f))
    (hbefore : ∀ b ∈ before, f b ∈ seen) : Ordered needs seen ((firsts before l).map f) := by
  induction l generalizing seen before with
  | nil => trivial
  | cons b l ih =>
      rw [LoadOrder.firsts]
      split
      · rename_i hb
        refine ih ?_ hbefore
        have hrest := h.2
        rwa [Set.insert_eq_of_mem (hbefore b hb)] at hrest
      · refine ⟨h.1, ih h.2 fun b' hb' => ?_⟩
        cases List.mem_cons.mp hb' with
        | inl heq => exact heq ▸ Set.mem_insert _ _
        | inr hold => exact Set.mem_insert_of_mem _ (hbefore b' hold)

end Ordered

theorem mem_firsts [DecidableEq α] {before l : List α} {a : α} : a ∈ firsts before l ↔ a ∈ l ∧ a ∉ before := by
  induction l generalizing before with
  | nil => simp [firsts]
  | cons b l ih =>
      rw [firsts]
      split
      · rename_i hb
        rw [ih, List.mem_cons]
        refine and_congr_left fun ha => ⟨.inr, fun h => h.resolve_left ?_⟩
        rintro rfl
        exact ha hb
      · rename_i hb
        rw [List.mem_cons, ih, List.mem_cons, List.mem_cons]
        by_cases hab : a = b
        · simp [hab, hb]
        · simp [hab]

end Beskar7Inspector.Lib.LoadOrder
