import Beskar7Inspector.Pipeline

namespace Beskar7Inspector.BootstrapPolls

open Lib.Program Lib.Recorder Client Pipeline

/-- The poll loop over any fetch and any sleep, in seconds. -/
def pollWith {Op : Type → Type} (sleep : Nat → Try Op RunError Unit)
    (fetch : Try Op RunError (Except ClientError (List UInt8))) : Nat → Try Op RunError (List UInt8)
  | 0 => throw .bootstrapTimeout
  | left + 1 => do
      let r ← fetch
      match r with
      | .ok data => pure data
      | .error e => match classifyPoll e with
          | .abort => throw (.bootstrapAborted e)
          | .notReady => do
              if 0 < left then sleep pollInterval
              pollWith sleep fetch left

theorem pollBootstrap_eq (polls : Nat) :
    pollBootstrap polls = pollWith (fun seconds => always (.sleep seconds)) (always .fetchBootstrap) polls := by
  induction polls with
  | zero => rfl
  | succ left ih =>
      rw [pollBootstrap, ih]
      rfl

/-- The polls over the client's own fetch. -/
def pollBootstrapOver (polls : Nat) : Try HttpOp RunError (List UInt8) :=
  pollWith (fun seconds => always (.sleep (seconds * 1000))) (mapResult .ok fetchBootstrap) polls

inductive Event
  | got (answer : HttpAnswer)
  | slept (millis : Nat)

def event : ∀ {β : Type}, HttpOp β → β → Event
  | _, .getBootstrap, answer => .got answer
  | _, .sleep millis, _ => .slept millis

inductive AnswerClass
  | success (data : List UInt8)
  | notReady
  | transient
  | fatal (e : ClientError)

/-- The policy for one answer. -/
def classOf : HttpAnswer → AnswerClass
  | .failed _ => .transient
  | .response resp =>
      if 200 ≤ resp.status ∧ resp.status < 300 then
        if MAX_BOOTSTRAP_BYTES < resp.body.length then .fatal .bootstrapTooLarge
        else if resp.broken then .transient
        else .success resp.body
      else if resp.status = 404 then .notReady
      else if resp.status = 408 ∨ resp.status = 429 ∨ 500 ≤ resp.status ∧ resp.status < 600 then .transient
      else .fatal (.http resp.status)

/-- One poll: transient answers, each with a backoff after it, and the answer that ends it. -/
structure Poll where
  retried : List HttpAnswer
  last : HttpAnswer
  transient : ∀ answer ∈ retried, classOf answer = .transient
  bounded : retried.length < MAX_ATTEMPTS
  exhausted : classOf last = .transient → retried.length + 1 = MAX_ATTEMPTS

/-- The answers from retry `n` on, each with the wait that follows it. -/
def retries (n : Nat) : List HttpAnswer → List Event
  | [] => []
  | answer :: rest => .got answer :: .slept (min (500 * 2 ^ n) 8000) :: retries (n + 1) rest

def Poll.events (p : Poll) : List Event := retries 0 p.retried ++ [.got p.last]

def Poll.goesOn (p : Poll) : Prop := classOf p.last = .notReady ∨ classOf p.last = .transient

def Outcome (maxPolls : Nat) (polls : List Poll) : Except RunError (List UInt8) → Prop
  | .ok data => ∃ p, polls.getLast? = some p ∧ classOf p.last = .success data
  | .error (.bootstrapAborted e) => ∃ p, polls.getLast? = some p ∧ classOf p.last = .fatal e
  | .error .bootstrapTimeout => polls.length = maxPolls ∧ ∀ p ∈ polls, p.goesOn
  | .error _ => False

theorem backoff_eq (n : Nat) : backoff n = min (500 * 2 ^ n) 8000 := by
  rw [backoff, BACKOFF_BASE, BACKOFF_CAP]
  by_cases hn : n < 5
  · have hsmall : n = 0 ∨ n = 1 ∨ n = 2 ∨ n = 3 ∨ n = 4 := by omega
    rcases hsmall with rfl | rfl | rfl | rfl | rfl <;> rfl
  · have hpow : 2 ^ 5 ≤ 2 ^ n := Nat.pow_le_pow_right (by decide) (by omega)
    have hfactor : 32 ≤ min (if n < 64 then 2 ^ n else 2 ^ 64 - 1) (2 ^ 32 - 1) := by
      split <;> omega
    omega

/-- What one answer makes of an attempt, and of the poll when it ends it there. -/
def Agrees (answer : HttpAnswer) : AnswerClass → Prop
  | .success data => attemptOf answer = .done data
  | .notReady => ∃ e, attemptOf answer = .fatal e ∧ classifyPoll e = .notReady
  | .transient => ∃ e, attemptOf answer = .retry e
  | .fatal e => attemptOf answer = .fatal e ∧ classifyPoll e = .abort

theorem isTransient_iff {status : Nat} :
    isTransient status = true ↔ status = 408 ∨ status = 429 ∨ 500 ≤ status ∧ status < 600 := by
  simp only [isTransient, Bool.or_eq_true, Bool.and_eq_true, beq_iff_eq, decide_eq_true_eq]
  omega

theorem readCapped_eq (resp : Response) (limit : Nat) : readCapped resp limit =
    if limit < resp.body.length then .error .bootstrapTooLarge
    else if resp.broken then .error .body else .ok resp.body := by
  rw [readCapped, List.length_take]
  by_cases hlen : limit < resp.body.length
  · rw [if_pos hlen, Nat.min_eq_left hlen, if_neg (by omega), if_pos (Nat.lt_succ_self _)]
  · rw [if_neg hlen, Nat.min_eq_right (by omega), List.take_of_length_le (by omega)]
    by_cases hb : resp.broken = true
    · rw [if_pos ⟨hb, by omega⟩, if_pos hb]
    · rw [if_neg (fun h => hb h.1), if_neg hlen, if_neg hb]

/-- The client's classifier and the poll's agree with the policy on every answer. -/
theorem agrees_classOf (answer : HttpAnswer) : Agrees answer (classOf answer) := by
  cases answer with
  | failed kind => exact ⟨_, rfl⟩
  | response resp =>
      by_cases hok : 200 ≤ resp.status ∧ resp.status < 300
      · have hstatus : classifyStatus (.response resp) = .ok resp := if_pos hok
        rw [classOf, if_pos hok]
        by_cases hlen : MAX_BOOTSTRAP_BYTES < resp.body.length
        · rw [if_pos hlen]
          refine ⟨?_, rfl⟩
          rw [attemptOf, hstatus]
          simp only [readCapped_eq, if_pos hlen]
        · rw [if_neg hlen]
          by_cases hb : resp.broken = true
          · rw [if_pos hb]
            refine ⟨.body, ?_⟩
            rw [attemptOf, hstatus]
            simp only [readCapped_eq, if_neg hlen, if_pos hb]
          · rw [if_neg hb]
            change attemptOf (.response resp) = .done resp.body
            rw [attemptOf, hstatus]
            simp only [readCapped_eq, if_neg hlen, if_neg hb]
      · rw [classOf, if_neg hok]
        by_cases htransient : isTransient resp.status = true
        · have hstatus : classifyStatus (.response resp) = .error (.retry (.http resp.status)) := by
            rw [classifyStatus, if_neg hok, if_pos htransient]
          have hne : resp.status ≠ 404 := by
            have := isTransient_iff.mp htransient
            omega
          rw [if_neg hne, if_pos (isTransient_iff.mp htransient)]
          exact ⟨.http resp.status, by rw [attemptOf, hstatus]; rfl⟩
        · have hstatus : classifyStatus (.response resp) = .error (.fatal (.http resp.status)) := by
            rw [classifyStatus, if_neg hok, if_neg htransient]
          have hattempt : attemptOf (.response resp) = .fatal (.http resp.status) := by
            rw [attemptOf, hstatus]
            rfl
          rw [isTransient_iff] at htransient
          by_cases hready : resp.status = 404
          · rw [if_pos hready]
            refine ⟨_, hattempt, ?_⟩
            simp [classifyPoll, hready]
          · rw [if_neg hready, if_neg htransient]
            refine ⟨hattempt, ?_⟩
            have hserver : ¬(500 ≤ resp.status ∧ resp.status < 600) := fun h => htransient (.inr (.inr h))
            simp [classifyPoll, hready, hserver]

/-- What the client makes of the answer a poll ends with. -/
def Reports (last : HttpAnswer) : Except ClientError (List UInt8) → Prop
  | .ok data => classOf last = .success data
  | .error e => (classOf last = .fatal e ∧ classifyPoll e = .abort) ∨
      ((classOf last = .notReady ∨ classOf last = .transient) ∧ classifyPoll e = .notReady)

/-- The attempts from number `n` on, with `left` of them allowed. -/
def Attempts (n left : Nat) (r : Except ClientError (List UInt8)) (trace : List Event) : Prop :=
  ∃ retried last, trace = retries n retried ++ [.got last] ∧ (∀ answer ∈ retried, classOf answer = .transient) ∧
    retried.length < left ∧ (classOf last = .transient → retried.length + 1 = left) ∧ Reports last r

theorem Attempts.single {n left : Nat} {answer : HttpAnswer} {r : Except ClientError (List UInt8)} (hleft : 0 < left)
    (hlast : classOf answer = .transient → left = 1) (hr : Reports answer r) :
    Attempts n left r [.got answer] :=
  ⟨[], answer, rfl, by simp, hleft, fun h => (hlast h).symm, hr⟩

theorem Attempts.retry {n left : Nat} {answer : HttpAnswer} {r : Except ClientError (List UInt8)} {trace : List Event}
    (hanswer : classOf answer = .transient) (h : Attempts (n + 1) left r trace) :
    Attempts n (left + 1) r (.got answer :: .slept (min (500 * 2 ^ n) 8000) :: trace) := by
  obtain ⟨retried, last, rfl, hall, hlen, hlast, hr⟩ := h
  refine ⟨answer :: retried, last, rfl, ?_, Nat.succ_lt_succ hlen, fun h => congrArg (· + 1) (hlast h), hr⟩
  intro other hother
  rcases List.mem_cons.mp hother with rfl | hother
  · exact hanswer
  · exact hall other hother

def attemptOnce : Try HttpOp ClientError (Attempt (List UInt8)) := do
  let answer ← always .getBootstrap
  pure (attemptOf answer)

theorem yields_attemptOnce :
    Yields event attemptOnce (fun r trace => ∃ answer, r = .ok (attemptOf answer) ∧ trace = [.got answer]) :=
  Yields.always_bind fun answer => Yields.pure ⟨answer, rfl, rfl⟩

theorem yields_retryFrom (left : Nat) : ∀ (n : Nat) (earlier : Option ClientError), 0 < left →
    Yields event (retryFrom (fun millis => always (.sleep millis)) attemptOnce n earlier left) (Attempts n left) := by
  induction left with
  | zero => exact fun n earlier h => absurd h (Nat.lt_irrefl 0)
  | succ left ih =>
      intro n earlier hpos
      rw [retryFrom]
      refine Yields.bind yields_attemptOnce (by simp) ?_
      rintro _ _ ⟨answer, ⟨⟩, rfl⟩
      have hagrees := agrees_classOf answer
      cases hclass : classOf answer with
      | success data =>
          rw [hclass] at hagrees
          have hdone : attemptOf answer = .done data := hagrees
          rw [hdone]
          exact Yields.pure (.single hpos (by simp [hclass]) hclass)
      | notReady =>
          rw [hclass] at hagrees
          obtain ⟨e, hfatal, hpoll⟩ := hagrees
          rw [hfatal]
          exact Yields.throw (.single hpos (by simp [hclass]) (.inr ⟨.inl hclass, hpoll⟩))
      | fatal e =>
          rw [hclass] at hagrees
          have hfatal : attemptOf answer = .fatal e := hagrees.1
          rw [hfatal]
          exact Yields.throw (.single hpos (by simp [hclass]) (.inl ⟨hclass, hagrees.2⟩))
      | transient =>
          rw [hclass] at hagrees
          obtain ⟨e, hretry⟩ := hagrees
          rw [hretry]
          dsimp only
          by_cases hleft : 0 < left
          · rw [if_pos hleft]
            refine Yields.always_bind fun _ => (ih (n + 1) (some e) hleft).mono fun r trace h => ?_
            have hretried := Attempts.retry hclass h
            rw [← backoff_eq] at hretried
            exact hretried
          · -- the last attempt: no wait, and the error says that the retries are used up
            obtain rfl : left = 0 := by omega
            rw [if_neg hleft, retryFrom]
            exact Yields.throw (.single hpos (by simp) (.inr ⟨.inr hclass, rfl⟩))

theorem yields_poll : Yields event (mapResult .ok fetchBootstrap : Try HttpOp RunError (Except ClientError (List UInt8)))
    (fun r trace => ∃ (p : Poll) (r' : Except ClientError (List UInt8)),
      r = .ok r' ∧ trace = p.events ∧ Reports p.last r') := by
  refine Does.mapResult (Yields.mono (yields_retryFrom MAX_ATTEMPTS 0 none (by decide)) ?_)
  rintro r _ ⟨retried, last, rfl, htransient, hbounded, hexhausted, hr⟩
  exact ⟨⟨retried, last, htransient, hbounded, hexhausted⟩, r, rfl, rfl, hr⟩

def timeline (polls : List Poll) : List Event := List.intercalate [.slept (pollInterval * 1000)] (polls.map Poll.events)

theorem timeline_cons {p : Poll} {polls : List Poll} (h : polls ≠ []) :
    timeline (p :: polls) = p.events ++ .slept (pollInterval * 1000) :: timeline polls := by
  cases polls with
  | nil => exact absurd rfl h
  | cons q polls => simp [timeline, List.intercalate]

theorem timeline_singleton (p : Poll) : timeline [p] = p.events := by simp [timeline, List.intercalate]

theorem Outcome.ne_nil {maxPolls : Nat} {polls : List Poll} {r : Except RunError (List UInt8)}
    (h : Outcome maxPolls polls r) (hpos : 0 < maxPolls) : polls ≠ [] := by
  rintro rfl
  match r, h with
  | .ok data, ⟨p, hp, _⟩ => simp at hp
  | .error (.bootstrapAborted e), ⟨p, hp, _⟩ => simp at hp
  | .error .bootstrapTimeout, ⟨hlen, _⟩ => exact absurd hlen (Nat.ne_of_lt hpos)

theorem Outcome.cons {maxPolls : Nat} {p : Poll} {polls : List Poll} {r : Except RunError (List UInt8)}
    (h : Outcome maxPolls polls r) (hp : p.goesOn) : Outcome (maxPolls + 1) (p :: polls) r := by
  match r, h with
  | .ok data, ⟨q, hq, hclass⟩ => exact ⟨q, by simp [List.getLast?_cons, hq], hclass⟩
  | .error (.bootstrapAborted e), ⟨q, hq, hclass⟩ => exact ⟨q, by simp [List.getLast?_cons, hq], hclass⟩
  | .error .bootstrapTimeout, ⟨hlen, hall⟩ =>
      exact ⟨congrArg (· + 1) hlen, List.forall_mem_cons.mpr ⟨hp, hall⟩⟩

structure Polled (maxPolls : Nat) (polls : List Poll) (r : Except RunError (List UInt8)) : Prop where
  bounded : polls.length ≤ maxPolls
  goesOn : ∀ p ∈ polls.dropLast, p.goesOn
  outcome : Outcome maxPolls polls r

theorem yields_pollBootstrapOver (left : Nat) :
    Yields event (pollBootstrapOver left) (fun r trace => ∃ polls, trace = timeline polls ∧ Polled left polls r) := by
  induction left with
  | zero => exact Yields.throw ⟨[], rfl, Nat.le_refl 0, by simp, rfl, by simp⟩
  | succ left ih =>
      rw [pollBootstrapOver, pollWith]
      refine Yields.bind yields_poll (by simp) ?_
      rintro r _ ⟨p, _, ⟨⟩, rfl, hreports⟩
      have hlen : [p].length ≤ left + 1 := Nat.succ_le_succ (Nat.zero_le left)
      cases r with
      | ok data =>
          exact Yields.pure ⟨[p], by rw [timeline_singleton, List.append_nil], hlen, by simp, p, rfl, hreports⟩
      | error e =>
          dsimp only
          rcases hreports with ⟨hclass, habort⟩ | ⟨hgoesOn, hready⟩
          · rw [habort]
            exact Yields.throw ⟨[p], by rw [timeline_singleton, List.append_nil], hlen, by simp, p, rfl, hclass⟩
          · rw [hready]
            dsimp only
            by_cases hleft : 0 < left
            · rw [if_pos hleft]
              refine Yields.always_bind fun _ => ih.mono ?_
              rintro r _ ⟨polls, rfl, hpolled⟩
              have hne := hpolled.outcome.ne_nil hleft
              refine ⟨p :: polls, (timeline_cons hne).symm, Nat.succ_le_succ hpolled.bounded, ?_,
                hpolled.outcome.cons hgoesOn⟩
              rw [List.dropLast_cons_of_ne_nil hne]
              exact List.forall_mem_cons.mpr ⟨hgoesOn, hpolled.goesOn⟩
            · -- no poll is left, and no wait is made for one
              obtain rfl : left = 0 := by omega
              rw [if_neg hleft, pollWith]
              exact Yields.throw ⟨[p], by rw [timeline_singleton, List.append_nil], hlen, by simp, rfl,
                List.forall_mem_singleton.mpr hgoesOn⟩

theorem Outcome.timeout_iff {maxPolls : Nat} {polls : List Poll} {r : Except RunError (List UInt8)}
    (h : Outcome maxPolls polls r) :
    r = .error .bootstrapTimeout ↔ polls.length = maxPolls ∧ ∀ p ∈ polls, p.goesOn := by
  constructor
  · rintro rfl
    exact h
  · rintro ⟨_, hall⟩
    match r, h with
    | .error .bootstrapTimeout, _ => rfl
    | .ok data, ⟨p, hp, hclass⟩ =>
        rcases hall p (List.mem_of_getLast? hp) with hp' | hp' <;> simp [hclass] at hp'
    | .error (.bootstrapAborted e), ⟨p, hp, hclass⟩ =>
        rcases hall p (List.mem_of_getLast? hp) with hp' | hp' <;> simp [hclass] at hp'

/-- Every run is a list of polls with the interval between them: all but the last
go on, the last decides, and the run times out exactly when it has used them all up. -/
theorem pollBootstrapOver_polls (maxPolls : Nat) (plan : Nat → Answers HttpOp) :
    let ending := (pollBootstrapOver maxPolls).run.run (logged event anyone) plan ((), [])
    ∃ polls : List Poll, ending.final.2 = timeline polls ∧ polls.length ≤ maxPolls ∧
      (∀ p ∈ polls.dropLast, p.goesOn) ∧ Outcome maxPolls polls ending.value ∧
      (ending.value = .error .bootstrapTimeout ↔ polls.length = maxPolls ∧ ∀ p ∈ polls, p.goesOn) := by
  intro ending
  obtain ⟨polls, htrace, hpolled⟩ := ((yields_pollBootstrapOver maxPolls).run plan).2
  exact ⟨polls, htrace, hpolled.bounded, hpolled.goesOn, hpolled.outcome, hpolled.outcome.timeout_iff⟩

end Beskar7Inspector.BootstrapPolls
