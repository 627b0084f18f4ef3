import Beskar7Inspector.Lib.Recorder
import Mathlib.Data.List.Forall2

namespace Beskar7Inspector.Lib.Threads

open Program Recorder

variable {Op : Type → Type} {Event α β ε : Type} {event : ∀ {β : Type}, Op β → β → Event}

/-- The events of one run of a program to its end, and the value it returns. At
each call the world answers at will. -/
inductive Runs (event : ∀ {β : Type}, Op β → β → Event) : Prog Op α → List Event → α → Prop
  | ret (a : α) : Runs @event (.ret a) [] a
  | call {β : Type} {o : Op β} {k : β → Prog Op α} {trace : List Event} {a : α} (answers : Answers Op)
      (h : Runs @event (k (answers o)) trace a) : Runs @event (.call o k) (event o (answers o) :: trace) a

namespace Runs

theorem bind_iff {p : Prog Op β} {f : β → Prog Op α} {trace : List Event} {a : α} :
    Runs event (p >>= f) trace a ↔
      ∃ first b second, Runs event p first b ∧ Runs event (f b) second a ∧ trace = first ++ second := by
  induction p generalizing trace with
  | ret b =>
      constructor
      · exact fun h => ⟨[], b, trace, .ret b, h, rfl⟩
      · rintro ⟨_, _, second, ⟨⟩, h, rfl⟩
        exact h
  | call o k ih =>
      rw [Prog.call_bind]
      constructor
      · rintro (_ | ⟨answers, h⟩)
        obtain ⟨first, b, second, hp, hf, rfl⟩ := (ih _).mp h
        exact ⟨_, b, second, .call answers hp, hf, rfl⟩
      · rintro ⟨_, b, second, _ | ⟨answers, hp⟩, hf, rfl⟩
        exact .call answers ((ih _).mpr ⟨_, b, second, hp, hf, rfl⟩)

theorem perform {o : Op α} {trace : List Event} {a : α} (h : Runs event (Prog.perform o) trace a) : trace = [event o a] := by
  cases h with
  | call answers h =>
      cases h
      rfl

/-- What the logic proves of a program holds of each of its runs. -/
theorem of_wp {p : Prog Op α} {trace : List Event} {a : α} (h : Runs event p trace a) {I : Unit × List Event → Prop}
    {Q : α → Unit × List Event → Prop} {log : List Event} (hp : p.wp (logged event anyone) I Q ((), log)) :
    Q a ((), log ++ trace) := by
  induction h generalizing log with
  | ret a =>
      rw [List.append_nil]
      exact hp.2
  | call answers _ ih =>
      have := ih (hp.2 answers)
      rwa [List.append_assoc] at this

theorem of_yields {p : Try Op ε α} {trace : List Event} {r : Except ε α} (h : Runs event p.run trace r)
    {Q : Except ε α → List Event → Prop} (hp : Yields event p Q) : Q r trace := by
  obtain ⟨trace', htrace, hq⟩ := h.of_wp (hp [])
  obtain rfl : trace = trace' := by simpa using htrace
  exact hq

/-- A run in which the world answers as `plan` says is one of the runs. -/
theorem exists_of_plan {p : Prog Op α} {a : α} (plan : Nat → Answers Op) (log : List Event)
    (h : (p.run (logged event anyone) plan ((), log)).value = a) : ∃ trace, Runs event p trace a := by
  induction p generalizing plan log with
  | ret b =>
      obtain rfl : b = a := h
      exact ⟨[], .ret b⟩
  | call o k ih =>
      obtain ⟨trace, hruns⟩ := ih (plan 0 o) (fun n => plan (n + 1)) _ h
      exact ⟨event o (plan 0 o) :: trace, .call (plan 0) hruns⟩

end Runs

/-- The runs of several threads, which take turns in any order until all have
returned. Each event stands with the number of its thread. -/
inductive Interleaves (event : ∀ {β : Type}, Op β → β → Event) :
    List (Prog Op α) → List (Nat × Event) → List α → Prop
  | done (values : List α) : Interleaves @event (values.map .ret) [] values
  | turn {threads : List (Prog Op α)} {i : Nat} {β : Type} {o : Op β} {k : β → Prog Op α} {log : List (Nat × Event)}
      {values : List α} (hnext : threads[i]? = some (.call o k)) (answers : Answers Op)
      (h : Interleaves @event (threads.set i (k (answers o))) log values) :
      Interleaves @event threads ((i, event o (answers o)) :: log) values

def eventsOf (i : Nat) (log : List (Nat × Event)) : List Event :=
  (log.filter (fun e => e.1 = i)).map Prod.snd

namespace Interleaves

variable {threads : List (Prog Op α)} {log : List (Nat × Event)} {values : List α}

theorem length_eq (h : Interleaves event threads log values) : values.length = threads.length := by
  induction h with
  | done values => simp
  | turn _ _ _ ih => rwa [List.length_set] at ih

/-- Whatever the order, each thread makes a run of its own, and its value stands
at its number. -/
theorem thread (h : Interleaves event threads log values) {i : Nat} {p : Prog Op α} (hp : threads[i]? = some p) :
    ∃ a, values[i]? = some a ∧ Runs event p (eventsOf i log) a := by
  induction h generalizing p with
  | done values =>
      rw [List.getElem?_map, Option.map_eq_some_iff] at hp
      obtain ⟨a, ha, rfl⟩ := hp
      exact ⟨a, ha, .ret a⟩
  | @turn threads j _ o k log values hnext answers _ ih =>
      by_cases hj : j = i
      · subst hj
        obtain rfl : p = .call o k := Option.some.inj (hp.symm.trans hnext)
        obtain ⟨a, ha, hruns⟩ := ih (List.getElem?_set_self (List.getElem?_eq_some_iff.mp hnext).1)
        refine ⟨a, ha, ?_⟩
        have hevents : eventsOf j ((j, event o (answers o)) :: log) = event o (answers o) :: eventsOf j log := by
          simp [eventsOf]
        rw [hevents]
        exact .call answers hruns
      · obtain ⟨a, ha, hruns⟩ := ih ((List.getElem?_set_ne hj).trans hp)
        refine ⟨a, ha, ?_⟩
        have hevents : eventsOf i ((j, event o (answers o)) :: log) = eventsOf i log := by
          simp [eventsOf, hj]
        rwa [hevents]

theorem mem_eventsOf {i : Nat} {e : Event} (h : (i, e) ∈ log) : e ∈ eventsOf i log := by
  rw [eventsOf, List.mem_map]
  exact ⟨(i, e), by simpa using h, rfl⟩

theorem lt_length (h : Interleaves event threads log values) {i : Nat} {e : Event} (he : (i, e) ∈ log) :
    i < threads.length := by
  induction h with
  | done values => cases he
  | turn hnext _ _ ih =>
      rcases List.mem_cons.mp he with heq | he
      · cases heq
        exact (List.getElem?_eq_some_iff.mp hnext).1
      · have := ih he
        rwa [List.length_set] at this

/-- What holds of every event of every run of each thread alone holds of the
events of all of them together. -/
theorem forall_event {P : Event → Prop} (h : Interleaves event threads log values)
    (hP : ∀ p ∈ threads, ∀ trace a, Runs event p trace a → ∀ e ∈ trace, P e) : ∀ e ∈ log.map Prod.snd, P e := by
  intro e he
  obtain ⟨⟨i, e⟩, hmem, rfl⟩ := List.mem_map.mp he
  have hp := List.getElem?_eq_getElem (h.lt_length hmem)
  obtain ⟨a, _, hruns⟩ := h.thread hp
  exact hP _ (List.mem_of_getElem? hp) _ a hruns e (mem_eventsOf hmem)

theorem cons_ret (h : Interleaves event threads log values) (a : α) :
    Interleaves event (.ret a :: threads) (log.map (fun e => (e.1 + 1, e.2))) (a :: values) := by
  induction h with
  | done values => exact .done (a :: values)
  | @turn threads i _ o k log values hnext answers _ ih => exact .turn (i := i + 1) hnext answers ih

theorem cons_runs {p : Prog Op α} {trace : List Event} {a : α} (hp : Runs event p trace a)
    (h : Interleaves event (.ret a :: threads) log values) :
    Interleaves event (p :: threads) (trace.map (fun e => (0, e)) ++ log) values := by
  induction hp with
  | ret a => exact h
  | call answers _ ih => exact .turn (i := 0) rfl answers (ih h)

/-- Whatever the threads can return alone they can return together, one after another. -/
theorem exists_of_runs {threads : List (Prog Op α)} {values : List α}
    (h : List.Forall₂ (fun p a => ∃ trace, Runs event p trace a) threads values) :
    ∃ log, Interleaves event threads log values := by
  induction h with
  | nil => exact ⟨[], .done []⟩
  | cons hp _ ih =>
      obtain ⟨trace, hp⟩ := hp
      obtain ⟨log, hlog⟩ := ih
      exact ⟨_, cons_runs hp (hlog.cons_ret _)⟩

end Interleaves

end Beskar7Inspector.Lib.Threads
