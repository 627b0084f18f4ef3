import Beskar7Inspector.Lib.Threads

namespace Beskar7Inspector.Lib.Interp

open Program Recorder Threads

universe u

variable {Op Op' : Type → Type} {Event Event' α β ε : Type}

/-- A program over a lower interface for each call of the upper one. -/
abbrev Handler (Op Op' : Type → Type) : Type 1 := ∀ {β : Type}, Op β → Prog Op' β

/-- The same program, with each of its calls made by the handler's program for it. -/
def interp (handler : Handler Op Op') : Prog Op α → Prog Op' α
  | .ret a => .ret a
  | .call o k => handler o >>= fun b => interp handler (k b)

def interpTry (handler : Handler Op Op') (p : Try Op ε α) : Try Op' ε α := ExceptT.mk (interp handler p.run)

/-- Some answer to every call, changed at one. -/
theorem exists_answers (base : Answers Op) (o : Op β) (b : β) : ∃ answers : Answers Op, answers o = b := by
  classical
  refine ⟨fun {γ} o' => if h : γ = β ∧ HEq o' o then h.1 ▸ b else base o', ?_⟩
  simp

/-- The calls of the upper program in order, and below each of them a run of its handler. -/
inductive Refines (event : ∀ {β : Type}, Op β → β → Event) (event' : ∀ {β : Type}, Op' β → β → Event')
    (handler : Handler Op Op') : List Event → List Event' → Prop
  | nil : Refines @event @event' @handler [] []
  | call {β : Type} (o : Op β) (b : β) {below : List Event'} (h : Runs @event' (handler o) below b) {trace : List Event}
      {trace' : List Event'} (hrest : Refines @event @event' @handler trace trace') :
      Refines @event @event' @handler (event o b :: trace) (below ++ trace')

variable {event : ∀ {β : Type}, Op β → β → Event} {event' : ∀ {β : Type}, Op' β → β → Event'}
  {handler : Handler Op Op'}

/-- A run below is a run above, with every call replaced by a run of its handler. -/
theorem runs_interp (base : Answers Op) {p : Prog Op α} {trace' : List Event'} {a : α}
    (h : Runs event' (interp handler p) trace' a) :
    ∃ trace, Runs event p trace a ∧ Refines event event' handler trace trace' := by
  induction p generalizing trace' with
  | ret b =>
      cases h
      exact ⟨[], .ret _, .nil⟩
  | call o k ih =>
      obtain ⟨below, b, rest, hbelow, hrest, rfl⟩ := Runs.bind_iff.mp h
      obtain ⟨trace, hruns, hrefines⟩ := ih b hrest
      obtain ⟨answers, rfl⟩ := exists_answers base o b
      exact ⟨event o (answers o) :: trace, .call answers hruns, .call o _ hbelow hrefines⟩

/-- Every program makes a run of itself, whatever the world answers. -/
theorem wp_runs (p : Prog Op α) (log : List Event) : p.wp (logged event anyone) (fun _ => True)
    (fun a x => ∃ trace, x.2 = log ++ trace ∧ Runs event p trace a) ((), log) := by
  induction p generalizing log with
  | ret a => exact ⟨trivial, [], (List.append_nil log).symm, .ret a⟩
  | call o k ih =>
      refine ⟨trivial, fun answers => Prog.wp_mono (fun _ h => h) ?_ (ih _ _)⟩
      rintro a ⟨_, _⟩ _ ⟨trace, rfl, hruns⟩
      exact ⟨event o (answers o) :: trace, by simp [anyone], .call answers hruns⟩

theorem yields_iff {p : Try Op ε α} {Q : Except ε α → List Event → Prop} :
    Yields event p Q ↔ ∀ trace r, Runs event p.run trace r → Q r trace := by
  constructor
  · exact fun h trace r hruns => hruns.of_yields h
  · intro h log
    refine Prog.wp_mono (fun _ h => h) ?_ (wp_runs p.run log)
    rintro r _ _ ⟨trace, hlog, hruns⟩
    exact ⟨trace, hlog, h trace r hruns⟩

theorem Yields.and {p : Try Op ε α} {P Q : Except ε α → List Event → Prop} (hp : Yields event p P)
    (hq : Yields event p Q) : Yields event p (fun r trace => P r trace ∧ Q r trace) :=
  yields_iff.mpr fun _ _ h => ⟨h.of_yields hp, h.of_yields hq⟩

/-- What a program yields, the same program yields in the terms of the lower interface. -/
theorem Yields.interp (base : Answers Op) {p : Try Op ε α} {Q : Except ε α → List Event → Prop}
    (h : Yields event p Q) : Yields event' (interpTry handler p)
      (fun r trace' => ∃ trace, Q r trace ∧ Refines event event' handler trace trace') := by
  refine yields_iff.mpr fun trace' r hruns => ?_
  obtain ⟨trace, hupper, hrefines⟩ := runs_interp base hruns
  exact ⟨trace, hupper.of_yields h, hrefines⟩

end Beskar7Inspector.Lib.Interp
