import Beskar7Inspector.BootstrapPolls
import Mathlib.Algebra.Order.BigOperators.Group.List
import Mathlib.Algebra.Order.Ring.Nat
import Mathlib.Algebra.Group.Action.Defs

namespace Beskar7Inspector.BootstrapBudget

open Lib.Program Lib.Recorder Client Pipeline BootstrapPolls

/-- A server with an answer for each request in turn. -/
def server (answers : Nat → HttpAnswer) : Machine HttpOp Unit Nat where
  step := fun {β} o _ n => match β, o with
    | _, .getBootstrap => (answers n, n + 1)
    | _, .sleep _ => ((), n)

def millis : Event → Nat
  | .got _ => 0
  | .slept millis => millis

/-- All that is asked to sleep, in milliseconds. -/
def slept (trace : List Event) : Nat := (trace.map millis).sum

/-- `beskar7.timeout` or its default, in milliseconds. -/
def budget (timeout : Option UInt64) : Nat := (timeout.map UInt64.toNat).getD defaultPollBudget * 1000

/-- What the wait for the bootstrap data asks to sleep in all. -/
def waited (timeout : Option UInt64) (answers : Nat → HttpAnswer) : Nat :=
  slept ((pollBootstrapOver (pollBudgetIterations timeout)).run.run (logged event (server answers)) (fun _ => ())
    (0, [])).final.2

def retried (answer : HttpAnswer) : Bool :=
  match classOf answer with
  | .transient => true
  | _ => false

def goesOn (answer : HttpAnswer) : Bool :=
  match classOf answer with
  | .notReady => true
  | .transient => true
  | _ => false

/-- How many answers from number `k` on are transient, of `most` at the most. -/
def retriesFrom (answers : Nat → HttpAnswer) : Nat → Nat → Nat
  | 0, _ => 0
  | most + 1, k => if retried (answers k) then retriesFrom answers most (k + 1) + 1 else 0

/-- The answers from number `k` on as polls, `left` at the most: how many of them
each poll retries. -/
def retriesOf (answers : Nat → HttpAnswer) : Nat → Nat → List Nat
  | 0, _ => []
  | left + 1, k =>
      let r := retriesFrom answers (MAX_ATTEMPTS - 1) k
      r :: if goesOn (answers (k + r)) then retriesOf answers left (k + r + 1) else []

/-- The backoffs of so many retries: half a second, one, two and four. -/
def backoffs (retries : Nat) : Nat := 500 * (2 ^ retries - 1)

/-- The answers are read as one poll for every five seconds of the budget. The
backoffs fit into what the sleeps between these polls leave of it. -/
def Fits (budget : Nat) (answers : Nat → HttpAnswer) : Prop :=
  let polls := retriesOf answers (max 1 (min (budget / 5000) (2 ^ 32 - 1))) 0
  (polls.map backoffs).sum ≤ budget - 5000 * (polls.length - 1)

def gots (trace : List Event) : List HttpAnswer :=
  trace.filterMap (fun e => match e with
    | .got answer => some answer
    | .slept _ => none)

theorem slept_append (a b : List Event) : slept (a ++ b) = slept a + slept b := by
  rw [slept, slept, slept, List.map_append, List.sum_append]

theorem gots_append (a b : List Event) : gots (a ++ b) = gots a ++ gots b := List.filterMap_append

theorem slept_retries {n : Nat} {retried : List HttpAnswer} (h : n + retried.length ≤ 5) :
    slept (retries n retried) = 500 * (2 ^ (n + retried.length) - 2 ^ n) := by
  induction retried generalizing n with
  | nil => simp [retries, slept]
  | cons answer rest ih =>
      rw [List.length_cons] at h ⊢
      have hcons : slept (retries n (answer :: rest)) = min (500 * 2 ^ n) 8000 + slept (retries (n + 1) rest) := by
        simp [retries, slept, millis]
      have hsmall : 2 ^ n ≤ 2 ^ 4 := Nat.pow_le_pow_right (by decide) (by omega)
      have hgrows : 2 ^ (n + 1) ≤ 2 ^ (n + 1 + rest.length) := Nat.pow_le_pow_right (by decide) (by omega)
      have hdouble : 2 ^ (n + 1) = 2 * 2 ^ n := Nat.pow_succ'
      have hsum : n + (rest.length + 1) = n + 1 + rest.length := by omega
      rw [hcons, ih (by omega), hsum]
      omega

theorem slept_events (p : Poll) : slept p.events = backoffs p.retried.length := by
  have hbounded : p.retried.length < 5 := p.bounded
  rw [Poll.events, slept_append, slept_retries (by omega), backoffs]
  simp [slept, millis]

theorem slept_timeline (polls : List Poll) :
    slept (timeline polls) =
      (polls.map (fun p => backoffs p.retried.length)).sum + pollInterval * 1000 * (polls.length - 1) := by
  induction polls with
  | nil => rfl
  | cons p polls ih =>
      by_cases hne : polls = []
      · subst hne
        rw [timeline_singleton, slept_events]
        simp
      · have hlen : polls.length ≠ 0 := fun h => hne (List.eq_nil_of_length_eq_zero h)
        rw [timeline_cons hne, slept_append, slept_events, ← List.singleton_append, slept_append, ih]
        simp only [slept, millis, List.map_cons, List.map_nil, List.sum_cons, List.sum_nil, List.length_cons,
          pollInterval]
        omega

theorem gots_retries (n : Nat) (retried : List HttpAnswer) : gots (retries n retried) = retried := by
  induction retried generalizing n with
  | nil => rfl
  | cons answer rest ih => exact congrArg (answer :: ·) (ih (n + 1))

theorem gots_timeline (polls : List Poll) : gots (timeline polls) = polls.flatMap (fun p => p.retried ++ [p.last]) := by
  induction polls with
  | nil => rfl
  | cons p polls ih =>
      have hevents : gots p.events = p.retried ++ [p.last] := by
        rw [Poll.events, gots_append, gots_retries]
        rfl
      by_cases hne : polls = []
      · subst hne
        rw [timeline_singleton, hevents]
        simp
      · rw [timeline_cons hne, gots_append, hevents, List.flatMap_cons, ← ih]
        rfl

/-- The answers of a run are those of the server, in order. -/
theorem gots_run {α : Type} (answers : Nat → HttpAnswer) (p : Prog HttpOp α) (plan : Nat → Unit) (n : Nat)
    (log : List Event) :
    ∃ m, gots (p.run (logged event (server answers)) plan (n, log)).final.2 =
      gots log ++ (List.range' n m).map answers := by
  induction p generalizing plan n log with
  | ret a => exact ⟨0, by simp [Prog.run]⟩
  | call o k ih =>
      cases o with
      | getBootstrap =>
          obtain ⟨m, hm⟩ := ih (answers n) (fun j => plan (j + 1)) (n + 1) (log ++ [.got (answers n)])
          refine ⟨m + 1, hm.trans ?_⟩
          rw [gots_append, List.append_assoc, List.range'_succ]
          rfl
      | sleep millis =>
          obtain ⟨m, hm⟩ := ih () (fun j => plan (j + 1)) n (log ++ [.slept millis])
          refine ⟨m, hm.trans ?_⟩
          rw [gots_append]
          simp [gots]

theorem retried_iff {answer : HttpAnswer} : retried answer = true ↔ classOf answer = .transient := by
  rw [retried]
  cases classOf answer <;> simp

theorem goesOn_iff {answer : HttpAnswer} :
    goesOn answer = true ↔ classOf answer = .notReady ∨ classOf answer = .transient := by
  rw [goesOn]
  cases classOf answer <;> simp

variable {answers : Nat → HttpAnswer}

theorem retriesFrom_eq {r most k : Nat} (hr : r ≤ most) (hretried : ∀ j < r, retried (answers (k + j)) = true)
    (hlast : r < most → retried (answers (k + r)) = false) : retriesFrom answers most k = r := by
  induction most generalizing r k with
  | zero => exact (Nat.le_zero.mp hr).symm
  | succ most ih =>
      cases r with
      | zero =>
          have hstop := hlast (Nat.succ_pos most)
          rw [Nat.add_zero] at hstop
          rw [retriesFrom, hstop]
          rfl
      | succ r =>
          have hfirst := hretried 0 (Nat.succ_pos r)
          rw [Nat.add_zero] at hfirst
          rw [retriesFrom, if_pos hfirst, ih (Nat.le_of_succ_le_succ hr)]
          · intro j hj
            rw [Nat.add_assoc, Nat.add_comm 1 j]
            exact hretried (j + 1) (Nat.succ_lt_succ hj)
          · intro hlt
            rw [Nat.add_assoc, Nat.add_comm 1 r]
            exact hlast (Nat.succ_lt_succ hlt)

/-- The first poll of a run, in the answers of the server. -/
theorem retriesFrom_poll (p : Poll) {k m : Nat} {rest : List HttpAnswer}
    (h : p.retried ++ [p.last] ++ rest = (List.range' k m).map answers) :
    retriesFrom answers (MAX_ATTEMPTS - 1) k = p.retried.length ∧ answers (k + p.retried.length) = p.last ∧
      rest = (List.range' (k + p.retried.length + 1) rest.length).map answers := by
  have hm : m = p.retried.length + 1 + rest.length := by
    have hlength := congrArg List.length h
    simp only [List.length_append, List.length_map, List.length_range', List.length_singleton] at hlength
    omega
  have hsplit : List.range' k m = List.range' k p.retried.length ++ [k + p.retried.length] ++
      List.range' (k + p.retried.length + 1) rest.length := by
    rw [hm, ← List.range'_append_1, ← List.range'_append_1]
    rfl
  rw [hsplit, List.map_append, List.map_append] at h
  obtain ⟨hfront, hrest⟩ := List.append_inj h (by simp)
  obtain ⟨hretried, hlast⟩ := List.append_inj hfront (by simp)
  have hlast : p.last = answers (k + p.retried.length) := List.singleton_inj.mp hlast
  refine ⟨retriesFrom_eq (Nat.le_pred_of_lt p.bounded) ?_ ?_, hlast.symm, hrest⟩
  · intro j hj
    refine retried_iff.mpr (p.transient _ ?_)
    rw [hretried]
    exact List.mem_map.mpr ⟨k + j, List.mem_range'_1.mpr (by omega), rfl⟩
  · intro hfew
    rw [← hlast, Bool.eq_false_iff]
    intro hagain
    have := p.exhausted (retried_iff.mp hagain)
    rw [MAX_ATTEMPTS] at hfew this
    omega

theorem stops_of_polled {left : Nat} {p : Poll} {r : Except RunError (List UInt8)} (h : Polled (left + 1) [p] r) :
    goesOn p.last = false ∨ left = 0 := by
  have houtcome := h.outcome
  match r, houtcome with
  | .ok data, ⟨q, hq, hclass⟩ =>
      obtain rfl : p = q := by simpa using hq
      exact .inl (by simp [goesOn, hclass])
  | .error (.bootstrapAborted e), ⟨q, hq, hclass⟩ =>
      obtain rfl : p = q := by simpa using hq
      exact .inl (by simp [goesOn, hclass])
  | .error .bootstrapTimeout, ⟨hlen, _⟩ => exact .inr (Nat.succ.inj hlen).symm

theorem polled_tail {left : Nat} {p q : Poll} {polls : List Poll} {r : Except RunError (List UInt8)}
    (h : Polled (left + 1) (p :: q :: polls) r) : goesOn p.last = true ∧ Polled left (q :: polls) r := by
  have hfront : (p :: q :: polls).dropLast = p :: (q :: polls).dropLast := rfl
  have hgoesOn := h.goesOn
  rw [hfront, List.forall_mem_cons] at hgoesOn
  refine ⟨goesOn_iff.mpr hgoesOn.1, Nat.le_of_succ_le_succ h.bounded, hgoesOn.2, ?_⟩
  have houtcome := h.outcome
  match r, houtcome with
  | .ok data, ⟨last, hlast, hclass⟩ => exact ⟨last, by rwa [List.getLast?_cons_cons] at hlast, hclass⟩
  | .error (.bootstrapAborted e), ⟨last, hlast, hclass⟩ =>
      exact ⟨last, by rwa [List.getLast?_cons_cons] at hlast, hclass⟩
  | .error .bootstrapTimeout, ⟨hlen, hall⟩ => exact ⟨Nat.succ.inj hlen, (List.forall_mem_cons.mp hall).2⟩

/-- The polls of a run are those the answers of the server are read as. -/
theorem retriesOf_polls {left : Nat} {polls : List Poll} {r : Except RunError (List UInt8)} (h : Polled left polls r)
    {k m : Nat} (hstream : polls.flatMap (fun p => p.retried ++ [p.last]) = (List.range' k m).map answers) :
    retriesOf answers left k = polls.map (fun p => p.retried.length) := by
  induction polls generalizing left k m with
  | nil =>
      cases left with
      | zero => rfl
      | succ left => exact absurd rfl (h.outcome.ne_nil (Nat.succ_pos left))
  | cons p polls ih =>
      cases left with
      | zero => exact absurd h.bounded (Nat.not_succ_le_zero _)
      | succ left =>
          rw [List.flatMap_cons] at hstream
          obtain ⟨hretries, hlast, hrest⟩ := retriesFrom_poll p hstream
          rw [retriesOf, hretries, hlast, List.map_cons]
          cases polls with
          | nil =>
              rcases stops_of_polled h with hstops | rfl
              · rw [hstops]
                rfl
              · simp [retriesOf]
          | cons q polls =>
              obtain ⟨hgoesOn, htail⟩ := polled_tail h
              rw [if_pos hgoesOn, ih htail hrest]

theorem waited_eq (timeout : Option UInt64) (answers : Nat → HttpAnswer) :
    let polls := retriesOf answers (pollBudgetIterations timeout) 0
    waited timeout answers = (polls.map backoffs).sum + pollInterval * 1000 * (polls.length - 1) := by
  intro polls
  have hgiven : ∀ {β : Type} (o : HttpOp β) f s,
      ∃ given : Answers HttpOp, given o = ((server answers).step o f s).1 := by
    intro β o f s
    refine ⟨fun {β} o => match β, o with
      | _, .getBootstrap => answers s
      | _, .sleep _ => (), ?_⟩
    cases o <;> rfl
  obtain ⟨all, htrace, hpolled⟩ :=
    (((yields_pollBootstrapOver (pollBudgetIterations timeout)).inside hgiven 0).run (fun _ => ())).2
  obtain ⟨m, hm⟩ := gots_run answers (pollBootstrapOver (pollBudgetIterations timeout)).run (fun _ => ()) 0 []
  rw [htrace, gots_timeline] at hm
  have hpolls : polls = all.map (fun p => p.retried.length) := retriesOf_polls hpolled hm
  rw [waited, htrace, slept_timeline, hpolls, List.map_map, List.length_map]
  rfl

theorem pollBudgetIterations_eq (timeout : Option UInt64) :
    pollBudgetIterations timeout = max 1 (min (budget timeout / 5000) (2 ^ 32 - 1)) := by
  rw [pollBudgetIterations, budget, pollInterval]
  omega

theorem retriesFrom_le (most k : Nat) : retriesFrom answers most k ≤ most := by
  induction most generalizing k with
  | zero => exact Nat.le_refl 0
  | succ most ih =>
      rw [retriesFrom]
      split
      · exact Nat.succ_le_succ (ih (k + 1))
      · exact Nat.zero_le _

theorem length_retriesOf_le (left k : Nat) : (retriesOf answers left k).length ≤ left := by
  induction left generalizing k with
  | zero => exact Nat.le_refl 0
  | succ left ih =>
      rw [retriesOf, List.length_cons]
      split
      · exact Nat.succ_le_succ (ih _)
      · exact Nat.succ_le_succ (Nat.zero_le left)

theorem exists_of_mem_retriesOf {left k r : Nat} (h : r ∈ retriesOf answers left k) :
    ∃ first, r = retriesFrom answers (MAX_ATTEMPTS - 1) first := by
  induction left generalizing k with
  | zero => simp [retriesOf] at h
  | succ left ih =>
      rw [retriesOf] at h
      rcases List.mem_cons.mp h with rfl | h
      · exact ⟨k, rfl⟩
      · split at h
        · exact ih h
        · simp at h

theorem sum_backoffs_le (left k : Nat) :
    ((retriesOf answers left k).map backoffs).sum ≤ (retriesOf answers left k).length * 7500 := by
  have hsum := List.sum_le_card_nsmul ((retriesOf answers left k).map backoffs) 7500 ?_
  · rwa [List.length_map, smul_eq_mul] at hsum
  · intro millis hmillis
    obtain ⟨_, hr, rfl⟩ := List.mem_map.mp hmillis
    obtain ⟨first, rfl⟩ := exists_of_mem_retriesOf hr
    have hpow : 2 ^ retriesFrom answers (MAX_ATTEMPTS - 1) first ≤ 2 ^ 4 :=
      Nat.pow_le_pow_right (by decide) (retriesFrom_le _ first)
    rw [backoffs]
    omega

theorem retriesOf_transient (h : ∀ k, classOf (answers k) = .transient) (left k : Nat) :
    retriesOf answers left k = List.replicate left (MAX_ATTEMPTS - 1) := by
  induction left generalizing k with
  | zero => rfl
  | succ left ih =>
      have hretries : retriesFrom answers (MAX_ATTEMPTS - 1) k = MAX_ATTEMPTS - 1 :=
        retriesFrom_eq (Nat.le_refl _) (fun j _ => retried_iff.mpr (h (k + j)))
          (fun hlt => absurd hlt (Nat.lt_irrefl _))
      rw [retriesOf, hretries, if_pos (goesOn_iff.mpr (.inr (h _))), ih]
      rfl

/-- The backoffs are all that can be too much. -/
theorem fits_of_not_transient (h : ∀ k, classOf (answers k) ≠ .transient) (budget : Nat) : Fits budget answers := by
  have hnone : ∀ k, retriesFrom answers (MAX_ATTEMPTS - 1) k = 0 := fun k =>
    retriesFrom_eq (Nat.zero_le _) (by simp) fun _ => Bool.eq_false_iff.mpr fun hk => h k (retried_iff.mp hk)
  have hsum := List.sum_eq_zero (l := (retriesOf answers (max 1 (min (budget / 5000) (2 ^ 32 - 1))) 0).map backoffs) ?_
  · rw [Fits, hsum]
    exact Nat.zero_le _
  · intro millis hmillis
    obtain ⟨_, hr, rfl⟩ := List.mem_map.mp hmillis
    obtain ⟨first, rfl⟩ := exists_of_mem_retriesOf hr
    rw [hnone]
    rfl

theorem waited_le (timeout : Option UInt64) (answers : Nat → HttpAnswer) :
    waited timeout answers ≤ 12500 * pollBudgetIterations timeout - 5000 := by
  have hlength : (retriesOf answers (pollBudgetIterations timeout) 0).length ≤ pollBudgetIterations timeout :=
    length_retriesOf_le _ 0
  have hsum := @sum_backoffs_le answers (pollBudgetIterations timeout) 0
  have hpos : 1 ≤ pollBudgetIterations timeout := Nat.le_max_left _ _
  rw [waited_eq, pollInterval]
  omega

/-- Transient answers all the way make the longest wait. -/
theorem waited_transient (timeout : Option UInt64) (h : ∀ k, classOf (answers k) = .transient) :
    waited timeout answers = 12500 * pollBudgetIterations timeout - 5000 := by
  have hpos : 1 ≤ pollBudgetIterations timeout := Nat.le_max_left _ _
  have hbackoffs : backoffs (MAX_ATTEMPTS - 1) = 7500 := rfl
  rw [waited_eq, retriesOf_transient h, List.map_replicate, List.sum_replicate, List.length_replicate, hbackoffs,
    smul_eq_mul, pollInterval]
  omega

/-- The wait keeps its budget just where the backoffs fit into it, and keeps it
whatever the server answers just for eight or nine seconds, where one poll is
made, and from the length on from which the number of polls is capped. -/
theorem waited_le_budget_iff (timeout : Option UInt64) :
    (∀ answers, waited timeout answers ≤ budget timeout ↔ Fits (budget timeout) answers) ∧
      ((∀ answers, waited timeout answers ≤ budget timeout) ↔
        8000 ≤ budget timeout ∧ budget timeout < 10000 ∨ 53687091183000 ≤ budget timeout) := by
  have hpolls := pollBudgetIterations_eq timeout
  have hseconds : ∃ seconds, budget timeout = seconds * 1000 := ⟨_, rfl⟩
  obtain ⟨seconds, hseconds⟩ := hseconds
  constructor
  · intro answers
    have hlength : (retriesOf answers (pollBudgetIterations timeout) 0).length ≤ pollBudgetIterations timeout :=
      length_retriesOf_le _ 0
    rw [waited_eq, Fits, ← hpolls, pollInterval]
    omega
  · constructor
    · intro hall
      have hworst := hall fun _ => .failed "timeout"
      rw [waited_transient timeout fun _ => rfl] at hworst
      omega
    · intro hlong answers
      have hmost := waited_le timeout answers
      omega

/-- Thirty minutes without a single answer from the server: more than an hour. -/
theorem waited_unreachable_exceeds : ¬waited none (fun _ => .failed "timeout") ≤ budget none := by
  rw [waited_transient none fun _ => rfl]
  decide

end Beskar7Inspector.BootstrapBudget
