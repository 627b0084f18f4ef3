import Beskar7Inspector.Lib.Slices
import Beskar7Inspector.Modules
import Mathlib.Order.Nat

namespace Beskar7Inspector.SettleWait

open Lib.Slices SysTree SelectNics Modules

/-- The observation number `i` is the same as the two before it, those of
`earlier` counting, and shows the interface that is needed. -/
def Quiet (earlier : List DeviceCounts) (observations : List (DeviceCounts × Nat)) (i : Nat) : Prop :=
  let seen := earlier ++ observations.map Prod.fst
  ∃ counts k, k + 2 = earlier.length + i ∧ seen[k]? = some counts ∧ seen[k + 1]? = some counts ∧
    seen[k + 2]? = some counts ∧ counts.selectable = true

/-- The observation number `i` is made at the cap or after it. -/
def Late (observations : List (DeviceCounts × Nat)) (i : Nat) : Prop :=
  ∃ counts elapsed, observations[i]? = some (counts, elapsed) ∧ SETTLE_TIMEOUT ≤ elapsed

def Ends (earlier : List DeviceCounts) (observations : List (DeviceCounts × Nat)) (i : Nat) : Prop :=
  Quiet earlier observations i ∨ Late observations i

/-- The counter tells, of an observation that could settle, whether the one
before it was the same. -/
def Holds (earlier : List DeviceCounts) (s : Settle) : Prop :=
  s.prev.selectable = true → s.stable = if earlier.getLast? = some s.prev then 1 else 0

theorem quiet_succ {earlier : List DeviceCounts} {o : DeviceCounts × Nat} {rest : List (DeviceCounts × Nat)} {i : Nat} :
    Quiet earlier (o :: rest) (i + 1) ↔ Quiet (earlier ++ [o.1]) rest i := by
  have hlen : earlier.length + (i + 1) = (earlier ++ [o.1]).length + i := by
    rw [List.length_append, List.length_singleton]
    omega
  have hseen : earlier ++ (o :: rest).map Prod.fst = earlier ++ [o.1] ++ rest.map Prod.fst := by simp
  rw [Quiet, Quiet, hlen, hseen]

theorem quiet_zero {earlier : List DeviceCounts} {prev cur : DeviceCounts} {elapsed : Nat}
    {rest : List (DeviceCounts × Nat)} :
    Quiet (earlier ++ [prev]) ((cur, elapsed) :: rest) 0 ↔
      cur = prev ∧ earlier.getLast? = some cur ∧ cur.selectable = true := by
  rcases List.eq_nil_or_concat' earlier with rfl | ⟨front, last, rfl⟩
  · constructor
    · rintro ⟨_, k, hk, _⟩
      simp at hk
    · rintro ⟨_, h, _⟩
      cases h
  · have hlen : (front ++ [last] ++ [prev]).length = front.length + 2 := by simp
    have hseen : front ++ [last] ++ [prev] ++ ((cur, elapsed) :: rest).map Prod.fst =
        front ++ last :: prev :: cur :: rest.map Prod.fst := by simp
    have hlast : (front ++ last :: prev :: cur :: rest.map Prod.fst)[front.length]? = some last := by simp
    have hprev : (front ++ last :: prev :: cur :: rest.map Prod.fst)[front.length + 1]? = some prev := by simp
    have hcur : (front ++ last :: prev :: cur :: rest.map Prod.fst)[front.length + 2]? = some cur := by simp
    rw [Quiet, hlen, hseen, List.getLast?_concat]
    constructor
    · rintro ⟨counts, k, hk, h0, h1, h2, hselectable⟩
      obtain rfl : k = front.length := by omega
      rw [hlast] at h0
      rw [hprev] at h1
      rw [hcur] at h2
      cases h0
      cases h1
      cases h2
      exact ⟨rfl, rfl, hselectable⟩
    · rintro ⟨rfl, h, hselectable⟩
      exact ⟨_, front.length, rfl, hlast.trans h, hprev, hcur, hselectable⟩

theorem late_succ {o : DeviceCounts × Nat} {rest : List (DeviceCounts × Nat)} {i : Nat} :
    Late (o :: rest) (i + 1) ↔ Late rest i := by
  rw [Late, Late, List.getElem?_cons_succ]

theorem late_zero {cur : DeviceCounts} {elapsed : Nat} {rest : List (DeviceCounts × Nat)} :
    Late ((cur, elapsed) :: rest) 0 ↔ SETTLE_TIMEOUT ≤ elapsed := by
  simp [Late]

theorem ends_succ {earlier : List DeviceCounts} {o : DeviceCounts × Nat} {rest : List (DeviceCounts × Nat)} {i : Nat} :
    Ends earlier (o :: rest) (i + 1) ↔ Ends (earlier ++ [o.1]) rest i :=
  or_congr quiet_succ late_succ

theorem not_ends_nil (earlier : List DeviceCounts) (i : Nat) : ¬Ends earlier [] i := by
  rintro (⟨counts, k, hk, _, _, h, _⟩ | ⟨counts, elapsed, h, _⟩)
  · have hlt := (List.getElem?_eq_some_iff.mp h).1
    simp at hlt
    omega
  · cases h

section

variable {A : Set Nat} {i : Nat}

theorem isLeast_iff_zero (h : 0 ∈ A) : IsLeast A i ↔ i = 0 := by
  constructor
  · intro hi
    exact Nat.le_zero.mp (hi.2 h)
  · rintro rfl
    exact ⟨h, fun j _ => Nat.zero_le j⟩

theorem isLeast_succ_iff (h : 0 ∉ A) : IsLeast A (i + 1) ↔ IsLeast {j | j + 1 ∈ A} i := by
  refine and_congr Iff.rfl ⟨fun hlow j hj => Nat.le_of_succ_le_succ (hlow hj), fun hlow j hj => ?_⟩
  cases j with
  | zero => exact absurd hj h
  | succ j => exact Nat.succ_le_succ (hlow hj)

end

/-- What one observation decides, and what the counter tells after it when the
wait goes on. -/
theorem observe_spec {earlier : List DeviceCounts} {s : Settle} (hs : Holds earlier s) (cur : DeviceCounts)
    (elapsed : Nat) :
    (s.observe cur elapsed).1 =
        (if cur = s.prev ∧ earlier.getLast? = some cur ∧ cur.selectable = true then some .settled
          else if SETTLE_TIMEOUT ≤ elapsed then some .timedOut else none) ∧
      (s.observe cur elapsed).2.prev = cur ∧
      ((s.observe cur elapsed).1 = none → Holds (earlier ++ [s.prev]) (s.observe cur elapsed).2) := by
  obtain ⟨prev, stable⟩ := s
  by_cases hsame : cur = prev
  · subst hsame
    have hquiet : (SETTLE_STABLE_POLLS ≤ stable + 1 ∧ cur.selectable = true) ↔
        (cur = cur ∧ earlier.getLast? = some cur ∧ cur.selectable = true) := by
      by_cases hselectable : cur.selectable = true
      · have hstable : stable = if earlier.getLast? = some cur then 1 else 0 := hs hselectable
        by_cases hlast : earlier.getLast? = some cur
        · rw [if_pos hlast] at hstable
          simp [hstable, hlast, hselectable, SETTLE_STABLE_POLLS]
        · rw [if_neg hlast] at hstable
          simp [hstable, hlast, SETTLE_STABLE_POLLS]
      · simp [hselectable]
    have hobserve : Settle.observe ⟨cur, stable⟩ cur elapsed =
        (if SETTLE_STABLE_POLLS ≤ stable + 1 ∧ cur.selectable = true then some .settled
          else if SETTLE_TIMEOUT ≤ elapsed then some .timedOut else none, ⟨cur, stable + 1⟩) := by
      simp only [Settle.observe, if_pos]
    rw [hobserve]
    refine ⟨if_congr hquiet rfl rfl, rfl, ?_⟩
    intro hnone hselectable
    have hlast : earlier.getLast? ≠ some cur := by
      intro hlast
      dsimp only at hnone
      rw [if_pos (hquiet.mpr ⟨rfl, hlast, hselectable⟩)] at hnone
      cases hnone
    have hstable : stable = if earlier.getLast? = some cur then 1 else 0 := hs hselectable
    rw [if_neg hlast] at hstable
    simp [hstable]
  · have hobserve : Settle.observe ⟨prev, stable⟩ cur elapsed =
        (if SETTLE_TIMEOUT ≤ elapsed then some .timedOut else none, ⟨cur, 0⟩) := by
      simp [Settle.observe, hsame, SETTLE_STABLE_POLLS]
    rw [hobserve]
    refine ⟨(if_neg (fun h => hsame h.1)).symm, rfl, ?_⟩
    intro _ _
    rw [List.getLast?_concat, if_neg (fun h => hsame (Option.some.inj h).symm)]

theorem outcome_eq_iff {a b : SettleOutcome} : a = b ↔ (a = .settled ↔ b = .settled) := by
  cases a <;> cases b <;> decide

theorem observe_ends {earlier : List DeviceCounts} {s : Settle} (hs : Holds earlier s) {cur : DeviceCounts}
    {elapsed : Nat} {rest : List (DeviceCounts × Nat)} (h : Ends (earlier ++ [s.prev]) ((cur, elapsed) :: rest) 0) :
    ∃ outcome next, s.observe cur elapsed = (some outcome, next) ∧
      (outcome = .settled ↔ Quiet (earlier ++ [s.prev]) ((cur, elapsed) :: rest) 0) := by
  have hvalue := (observe_spec hs cur elapsed).1
  rw [quiet_zero]
  by_cases hquiet : cur = s.prev ∧ earlier.getLast? = some cur ∧ cur.selectable = true
  · rw [if_pos hquiet] at hvalue
    exact ⟨.settled, _, Prod.ext hvalue rfl, iff_of_true rfl hquiet⟩
  · have hlate : SETTLE_TIMEOUT ≤ elapsed := late_zero.mp (h.resolve_left (fun hq => hquiet (quiet_zero.mp hq)))
    rw [if_neg hquiet, if_pos hlate] at hvalue
    exact ⟨.timedOut, _, Prod.ext hvalue rfl, iff_of_false (by decide) hquiet⟩

theorem observe_goesOn {earlier : List DeviceCounts} {s : Settle} (hs : Holds earlier s) {cur : DeviceCounts}
    {elapsed : Nat} {rest : List (DeviceCounts × Nat)} (h : ¬Ends (earlier ++ [s.prev]) ((cur, elapsed) :: rest) 0) :
    ∃ next, s.observe cur elapsed = (none, next) ∧ next.prev = cur ∧ Holds (earlier ++ [s.prev]) next := by
  obtain ⟨hquiet, hlate⟩ := not_or.mp h
  rw [quiet_zero] at hquiet
  rw [late_zero] at hlate
  obtain ⟨hvalue, hprev, hholds⟩ := observe_spec hs cur elapsed
  rw [if_neg hquiet, if_neg hlate] at hvalue
  exact ⟨_, Prod.ext hvalue rfl, hprev, hholds hvalue⟩

/-- The first outcome comes with the first observation that ends the wait. -/
theorem firstOutcome_eq_some_iff {observations : List (DeviceCounts × Nat)} {earlier : List DeviceCounts} {s : Settle}
    (hs : Holds earlier s) {i : Nat} {outcome : SettleOutcome} :
    s.firstOutcome observations = some (i, outcome) ↔
      IsLeast {j | Ends (earlier ++ [s.prev]) observations j} i ∧
        (outcome = .settled ↔ Quiet (earlier ++ [s.prev]) observations i) := by
  induction observations generalizing earlier s i with
  | nil =>
      constructor
      · intro h
        cases h
      · rintro ⟨h, -⟩
        exact absurd h.1 (not_ends_nil _ i)
  | cons o rest ih =>
      obtain ⟨cur, elapsed⟩ := o
      rw [Settle.firstOutcome]
      by_cases hends : Ends (earlier ++ [s.prev]) ((cur, elapsed) :: rest) 0
      · obtain ⟨first, next, hobserve, hsettled⟩ := observe_ends hs hends
        rw [hobserve, isLeast_iff_zero hends]
        simp only [Option.some.injEq, Prod.mk.injEq]
        constructor
        · rintro ⟨rfl, rfl⟩
          exact ⟨rfl, hsettled⟩
        · rintro ⟨rfl, h⟩
          exact ⟨rfl, outcome_eq_iff.mpr (hsettled.trans h.symm)⟩
      · obtain ⟨next, hobserve, hprev, hnext⟩ := observe_goesOn hs hends
        rw [hobserve]
        change (next.firstOutcome rest).map (fun r => (r.1 + 1, r.2)) = some (i, outcome) ↔ _
        cases i with
        | zero =>
            refine iff_of_false ?_ (fun h => hends h.1.1)
            rw [Option.map_eq_some_iff]
            rintro ⟨r, _, h⟩
            cases h
        | succ i =>
            have hshift : (next.firstOutcome rest).map (fun r => (r.1 + 1, r.2)) = some (i + 1, outcome) ↔
                next.firstOutcome rest = some (i, outcome) := by
              cases next.firstOutcome rest <;> simp [Prod.ext_iff]
            have hrest := ih hnext (i := i)
            rw [hprev] at hrest
            have hset : {j | j + 1 ∈ {j | Ends (earlier ++ [s.prev]) ((cur, elapsed) :: rest) j}} =
                {j | Ends (earlier ++ [s.prev] ++ [cur]) rest j} := by
              ext j
              exact ends_succ
            rw [hshift, hrest, isLeast_succ_iff hends, hset, quiet_succ]

/-- Once an observation ends the wait, there is an outcome, with it or before it. -/
theorem exists_firstOutcome {observations : List (DeviceCounts × Nat)} {earlier : List DeviceCounts} {s : Settle}
    (hs : Holds earlier s) {k : Nat} (hk : Ends (earlier ++ [s.prev]) observations k) :
    ∃ i outcome, i ≤ k ∧ s.firstOutcome observations = some (i, outcome) := by
  classical
  have hex : ∃ j, Ends (earlier ++ [s.prev]) observations j := ⟨k, hk⟩
  have hleast := Nat.isLeast_find hex
  by_cases hq : Quiet (earlier ++ [s.prev]) observations (Nat.find hex)
  · exact ⟨_, .settled, hleast.2 hk, (firstOutcome_eq_some_iff hs).mpr ⟨hleast, by simp [hq]⟩⟩
  · exact ⟨_, .timedOut, hleast.2 hk, (firstOutcome_eq_some_iff hs).mpr ⟨hleast, by simp [hq]⟩⟩

theorem holds_new (initial : DeviceCounts) : Holds [] (Settle.new initial) := fun _ => rfl

theorem Quiet.selectable {earlier : List DeviceCounts} {observations : List (DeviceCounts × Nat)} {i : Nat}
    (h : Quiet earlier observations i) : ∃ o, observations[i]? = some o ∧ o.1.selectable = true := by
  obtain ⟨counts, k, hk, _, _, hlast, hselectable⟩ := h
  rw [hk, getElem?_past, List.getElem?_map, Option.map_eq_some_iff] at hlast
  obtain ⟨o, ho, rfl⟩ := hlast
  exact ⟨o, ho, hselectable⟩

theorem isOk_eq_true {ε α : Type} {r : Except ε α} (h : r.isOk = true) : ∃ a, r = .ok a := by
  cases r with
  | error e => cases h
  | ok a => exact ⟨a, rfl⟩

/-- The wait ends with the first observation that is the third of the same kind
and shows the interface, or that is made at the cap; never where NIC selection
would fail on what it shows, unless it is made at the cap. -/
theorem settle_firstOutcome :
    (∀ (initial : DeviceCounts) (observations : List (DeviceCounts × Nat)),
      let first := (Settle.new initial).firstOutcome observations
      (∀ i outcome, first = some (i, outcome) ↔ IsLeast {j | Ends [initial] observations j} i ∧
        (outcome = .settled ↔ Quiet [initial] observations i)) ∧
      (first = none ↔ ∀ i, ¬Ends [initial] observations i) ∧
      ∀ k, Late observations k → ∃ i outcome, i ≤ k ∧ first = some (i, outcome)) ∧
    ∀ (bootif : Option String) (block net : SysDir) (polls : List Poll) (i : Nat),
      settle bootif block net polls = some (i, .settled) →
      ∃ poll nics, polls[i]? = some poll ∧ selectNics poll.net bootif = .ok nics := by
  constructor
  · intro initial observations first
    have hs := holds_new initial
    refine ⟨fun i outcome => firstOutcome_eq_some_iff hs, ⟨?_, ?_⟩, ?_⟩
    · intro hnone i hi
      obtain ⟨j, outcome, _, hsome⟩ := exists_firstOutcome hs hi
      exact absurd (hnone.symm.trans hsome) (by simp)
    · intro h
      by_contra hne
      obtain ⟨⟨i, outcome⟩, hsome⟩ := Option.ne_none_iff_exists'.mp hne
      exact h i ((firstOutcome_eq_some_iff hs).mp hsome).1.1
    · intro k hk
      exact exists_firstOutcome hs (.inr hk)
  · intro bootif block net polls i h
    obtain ⟨_, hquiet⟩ := (firstOutcome_eq_some_iff (holds_new _)).mp h
    obtain ⟨o, ho, hselectable⟩ := (hquiet.mp rfl).selectable
    rw [List.getElem?_map, Option.map_eq_some_iff] at ho
    obtain ⟨poll, hpoll, rfl⟩ := ho
    obtain ⟨nics, hnics⟩ := isOk_eq_true hselectable
    exact ⟨poll, nics, hpoll, hnics⟩

end Beskar7Inspector.SettleWait
