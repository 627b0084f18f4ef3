import Beskar7Inspector.Lib.Program

namespace Beskar7Inspector.Lib.Recorder

open Program

universe u
variable {Op : Type → Type} {Event α β δ ε σ : Type} {φ : Type u}

/-- The same machine, with a log of the calls and their answers. -/
def logged (event : ∀ {β : Type}, Op β → β → Event) (M : Machine Op φ σ) : Machine Op φ (σ × List Event) where
  step o f x := ((M.step o f x.1).1, (M.step o f x.1).2, x.2 ++ [event o (M.step o f x.1).1])

/-- Whatever the world chooses, every state of the run satisfies `I`, and the
result, the last state and the events of the run are related by `Q`. -/
def Does (event : ∀ {β : Type}, Op β → β → Event) (M : Machine Op φ σ) (I : σ → Prop) (p : Try Op ε α) (s : σ)
    (Q : Except ε α → σ → List Event → Prop) : Prop :=
  ∀ log, p.run.wp (logged event M) (fun x => I x.1) (fun r x => ∃ trace, x.2 = log ++ trace ∧ Q r x.1 trace) (s, log)

namespace Does

variable {event : ∀ {β : Type}, Op β → β → Event} {M : Machine Op φ σ} {I : σ → Prop} {s : σ}
  {Q : Except ε α → σ → List Event → Prop}

theorem pure {a : α} (hI : I s) (h : Q (.ok a) s []) : Does event M I (pure a : Try Op ε α) s Q :=
  fun log => ⟨hI, [], (List.append_nil log).symm, h⟩

theorem throw {e : ε} (hI : I s) (h : Q (.error e) s []) : Does event M I (throw e : Try Op ε α) s Q :=
  fun log => ⟨hI, [], (List.append_nil log).symm, h⟩

theorem attempt {o : Op (Except δ α)} {tag : δ → ε} (hI : I s) (h : ∀ f, I (M.step o f s).2 ∧
    Q ((M.step o f s).1.mapError tag) (M.step o f s).2 [event o (M.step o f s).1]) :
    Does event M I (Program.attempt o tag) s Q :=
  fun _ => (Try.wp_attempt o tag).mpr ⟨hI, fun f => ⟨(h f).1, _, rfl, (h f).2⟩⟩

theorem always {o : Op α} (hI : I s) (h : ∀ f, I (M.step o f s).2 ∧
    Q (.ok (M.step o f s).1) (M.step o f s).2 [event o (M.step o f s).1]) : Does event M I (Program.always o) s Q :=
  fun _ => (Try.wp_always o).mpr ⟨hI, fun f => ⟨(h f).1, _, rfl, (h f).2⟩⟩

theorem mono {p : Try Op ε α} {R : Except ε α → σ → List Event → Prop} (h : Does event M I p s Q)
    (hQ : ∀ r t trace, I t → Q r t trace → R r t trace) : Does event M I p s R :=
  fun log => Prog.wp_mono (fun _ h => h) (fun r _ hI ⟨trace, hlog, hq⟩ => ⟨trace, hlog, hQ r _ trace hI hq⟩) (h log)

theorem weaken {J : σ → Prop} {p : Try Op ε α} (h : Does event M I p s Q) (hI : ∀ t, I t → J t) : Does event M J p s Q :=
  fun log => Prog.wp_mono (fun x => hI x.1) (fun _ _ _ h => h) (h log)

/-- Two facts about a program, the second on its result and last state alone. -/
theorem and {p : Try Op ε α} {J : σ → Prop} {R : Except ε α → σ → Prop} (h : Does event M I p s Q)
    (h' : Does event M J p s (fun r t _ => R r t)) : Does event M I p s (fun r t trace => Q r t trace ∧ R r t) := by
  intro log
  refine Prog.wp_mono (fun _ h => h.1) ?_ (Prog.wp_and (h log) (h' log))
  rintro r x _ ⟨⟨trace, hlog, hq⟩, _, _, hr⟩
  exact ⟨trace, hlog, hq, hr⟩

/-- The trace of a sequence: an early error has the trace of the first part
alone, else the two traces follow each other. -/
theorem bind {x : Try Op ε β} {f : β → Try Op ε α} {P : Except ε β → σ → List Event → Prop} (hx : Does event M I x s P)
    (hstop : ∀ e t trace, I t → P (.error e) t trace → Q (.error e) t trace)
    (hf : ∀ b t trace, I t → P (.ok b) t trace → Does event M I (f b) t (fun r t' trace' => Q r t' (trace ++ trace'))) :
    Does event M I (x >>= f) s Q := by
  intro log
  refine (Try.wp_bind x f).mpr (Prog.wp_mono (fun _ h => h) ?_ (hx log))
  rintro r ⟨t, _⟩ hI ⟨trace, rfl, hp⟩
  cases r with
  | error e => exact ⟨trace, rfl, hstop e t trace hI hp⟩
  | ok b =>
      refine Prog.wp_mono (fun _ h => h) ?_ (hf b t trace hI hp (log ++ trace))
      rintro r' ⟨t', _⟩ _ ⟨trace', rfl, hq⟩
      exact ⟨trace ++ trace', by rw [List.append_assoc], hq⟩

/-- A call that cannot stop the program comes first in the trace. -/
theorem always_bind {o : Op β} {f : β → Try Op ε α} (hI : I s) (h : ∀ c, I (M.step o c s).2 ∧
    Does event M I (f (M.step o c s).1) (M.step o c s).2
      (fun r t trace => Q r t (event o (M.step o c s).1 :: trace))) : Does event M I (Program.always o >>= f) s Q := by
  refine Does.bind (P := fun r t trace => ∃ c, r = .ok (M.step o c s).1 ∧ t = (M.step o c s).2 ∧
    trace = [event o (M.step o c s).1]) (Does.always hI fun c => ⟨(h c).1, c, rfl, rfl, rfl⟩) ?_ ?_
  · rintro e _ _ _ ⟨c, hr, _⟩
    cases hr
  · rintro b _ _ _ ⟨c, hr, rfl, rfl⟩
    cases hr
    exact (h c).2

theorem attempt_bind {o : Op (Except δ β)} {tag : δ → ε} {f : β → Try Op ε α} (hI : I s)
    (hinv : ∀ c, I (M.step o c s).2)
    (hstop : ∀ c e, (M.step o c s).1 = .error e → Q (.error (tag e)) (M.step o c s).2 [event o (.error e)])
    (hf : ∀ c b, (M.step o c s).1 = .ok b →
      Does event M I (f b) (M.step o c s).2 (fun r t trace => Q r t (event o (.ok b) :: trace))) :
    Does event M I (Program.attempt o tag >>= f) s Q := by
  refine Does.bind (P := fun r t trace => ∃ c, r = (M.step o c s).1.mapError tag ∧ t = (M.step o c s).2 ∧
    trace = [event o (M.step o c s).1]) (Does.attempt hI fun c => ⟨hinv c, c, rfl, rfl, rfl⟩) ?_ ?_
  · rintro e _ _ _ ⟨c, hr, rfl, rfl⟩
    cases ha : (M.step o c s).1 with
    | ok b => rw [ha] at hr; cases hr
    | error e' =>
        rw [ha] at hr
        obtain rfl : e = tag e' := by simpa using hr
        exact hstop c e' ha
  · rintro b _ _ _ ⟨c, hr, rfl, rfl⟩
    cases ha : (M.step o c s).1 with
    | ok b' =>
        rw [ha] at hr
        obtain rfl : b = b' := by simpa using hr
        exact hf c b ha
    | error e' => rw [ha] at hr; cases hr

theorem mapResult {x : Try Op δ β} {f : Except δ β → Except ε α}
    (h : Does event M I x s (fun r t trace => Q (f r) t trace)) : Does event M I (mapResult f x) s Q :=
  fun log => (Try.wp_mapResult f x).mpr (h log)

theorem outcome_bind {x : Try Op ε β} {f : Except ε β → Try Op ε α} {P : Except ε β → σ → List Event → Prop}
    (hx : Does event M I x s P) (hf : ∀ r t trace, I t → P r t trace →
      Does event M I (f r) t (fun r' t' trace' => Q r' t' (trace ++ trace'))) :
    Does event M I (outcome x >>= f) s Q := by
  refine Does.bind (Does.mapResult (Q := fun r t trace => ∃ r', r = .ok r' ∧ P r' t trace)
    (hx.mono fun r _ _ _ h => ⟨r, rfl, h⟩)) ?_ ?_
  · rintro e _ _ _ ⟨_, h, _⟩
    cases h
  · rintro r t trace hI ⟨_, h, hp⟩
    cases h
    exact hf r t trace hI hp

/-- What a program does it also does inside a larger world, of which `put` sets
the part it works on. -/
theorem embed {Op' : Type → Type} {φ' : Type u} {σ' Event' : Type} {event' : ∀ {β : Type}, Op' β → β → Event'}
    {M' : Machine Op' φ' σ'} {I' : σ' → Prop} {g : ∀ {β : Type}, Op β → Op' β} {p : Try Op ε α}
    (h : Does event M I p s Q) (choose : φ' → φ) (put : σ → σ') (wrap : Event → Event')
    (hstep : ∀ {β : Type} (o : Op β) f s,
      M'.step (g o) f (put s) = ((M.step o (choose f) s).1, put (M.step o (choose f) s).2))
    (hevent : ∀ {β : Type} (o : Op β) (b : β), event' (g o) b = wrap (event o b)) (hI : ∀ s, I s → I' (put s)) :
    Does event' M' I' (Program.embed g p) (put s)
      (fun r s' trace' => ∃ t trace, s' = put t ∧ trace' = trace.map wrap ∧ Q r t trace) := by
  intro log'
  have hgo (p : Prog Op (Except ε α)) : ∀ s log, p.wp (logged event M) (fun x => I x.1)
      (fun r x => ∃ trace, x.2 = [] ++ trace ∧ Q r x.1 trace) (s, log) →
      (p.embed g).wp (logged event' M') (fun x => I' x.1) (fun r x => ∃ trace', x.2 = log' ++ trace' ∧
        ∃ t trace, x.1 = put t ∧ trace' = trace.map wrap ∧ Q r t trace) (put s, log' ++ log.map wrap) := by
    induction p with
    | ret r =>
        rintro s log ⟨hs, trace, htrace, hq⟩
        rw [List.nil_append] at htrace
        exact ⟨hI s hs, trace.map wrap, by rw [← htrace], s, trace, rfl, rfl, hq⟩
    | call o k ih =>
        rintro s log ⟨hs, hcall⟩
        refine ⟨hI s hs, fun f => ?_⟩
        have hnext := ih _ _ _ (hcall (choose f))
        rw [List.map_append, List.map_singleton, ← List.append_assoc] at hnext
        simpa only [logged, hstep, hevent] using hnext
  have := hgo p.run s [] (h [])
  rwa [List.map_nil, List.append_nil] at this

/-- What a program does it also does where some of the world's choices are ruled out. -/
theorem restrict {p : Try Op ε α} (h : Does event M I p s Q) (mask : {β : Type} → Op β → φ → φ) :
    Does event (M.restrict mask) I p s Q := by
  intro log
  have hgo (p : Prog Op (Except ε α)) {R : Except ε α → σ × List Event → Prop} :
      ∀ x, p.wp (logged event M) (fun x => I x.1) R x → p.wp (logged event (M.restrict mask)) (fun x => I x.1) R x := by
    induction p with
    | ret r => exact fun _ h => h
    | call o k ih => exact fun _ h => ⟨h.1, fun f => ih _ _ (h.2 (mask o f))⟩
  exact hgo p.run _ (h log)

/-- What a program does holds of its every run, from an empty log. -/
theorem run {p : Try Op ε α} (h : Does event M I p s Q) (plan : Nat → φ) :
    (∀ x ∈ (p.run.run (logged event M) plan (s, [])).visited, I x.1) ∧
      Q (p.run.run (logged event M) plan (s, [])).value (p.run.run (logged event M) plan (s, [])).final.1
        (p.run.run (logged event M) plan (s, [])).final.2 := by
  obtain ⟨hv, trace, hlog, hq⟩ := Prog.run_of_wp (h []) plan
  rw [List.nil_append] at hlog
  exact ⟨hv, hlog ▸ hq⟩

end Does

/-- An answer to every call. -/
def Answers (Op : Type → Type) : Type 1 := ∀ {β : Type}, Op β → β

/-- The world that answers at will. -/
def anyone : Machine Op (Answers Op) Unit where
  step o answers s := (answers o, s)

/-- Whatever the world answers, the program ends with a result and a trace
related by `Q`. -/
def Yields (event : ∀ {β : Type}, Op β → β → Event) (p : Try Op ε α) (Q : Except ε α → List Event → Prop) : Prop :=
  Does event anyone (fun _ => True) p () (fun r _ trace => Q r trace)

namespace Yields

variable {event : ∀ {β : Type}, Op β → β → Event} {Q : Except ε α → List Event → Prop}

theorem pure {a : α} (h : Q (.ok a) []) : Yields event (pure a : Try Op ε α) Q := Does.pure trivial h

theorem throw {e : ε} (h : Q (.error e) []) : Yields event (throw e : Try Op ε α) Q := Does.throw trivial h

theorem attempt {o : Op (Except δ α)} {tag : δ → ε} (h : ∀ r, Q (r.mapError tag) [event o r]) :
    Yields event (attempt o tag) Q := Does.attempt trivial fun _ => ⟨trivial, h _⟩

theorem always {o : Op α} (h : ∀ a, Q (.ok a) [event o a]) : Yields event (always o) Q :=
  Does.always trivial fun _ => ⟨trivial, h _⟩

theorem mono {p : Try Op ε α} {R : Except ε α → List Event → Prop} (h : Yields event p Q)
    (hQ : ∀ r trace, Q r trace → R r trace) : Yields event p R :=
  Does.mono h fun r _ trace _ => hQ r trace

theorem bind {x : Try Op ε β} {f : β → Try Op ε α} {P : Except ε β → List Event → Prop} (hx : Yields event x P)
    (hstop : ∀ e trace, P (.error e) trace → Q (.error e) trace)
    (hf : ∀ b trace, P (.ok b) trace → Yields event (f b) (fun r trace' => Q r (trace ++ trace'))) :
    Yields event (x >>= f) Q :=
  Does.bind hx (fun e _ trace _ => hstop e trace) fun b _ trace _ => hf b trace

theorem always_bind {o : Op β} {f : β → Try Op ε α}
    (h : ∀ b, Yields event (f b) (fun r trace => Q r (event o b :: trace))) : Yields event (Program.always o >>= f) Q :=
  Does.always_bind trivial fun _ => ⟨trivial, h _⟩

theorem attempt_bind {o : Op (Except δ β)} {tag : δ → ε} {f : β → Try Op ε α}
    (hstop : ∀ e, Q (.error (tag e)) [event o (.error e)])
    (hf : ∀ b, Yields event (f b) (fun r trace => Q r (event o (.ok b) :: trace))) :
    Yields event (Program.attempt o tag >>= f) Q :=
  Does.attempt_bind trivial (fun _ => trivial) (fun _ e _ => hstop e) fun _ b _ => hf b

theorem outcome_bind {x : Try Op ε β} {f : Except ε β → Try Op ε α} {P : Except ε β → List Event → Prop}
    (hx : Yields event x P)
    (hf : ∀ r trace, P r trace → Yields event (f r) (fun r' trace' => Q r' (trace ++ trace'))) :
    Yields event (outcome x >>= f) Q :=
  Does.outcome_bind hx fun r _ trace _ => hf r trace

/-- What a program yields whatever the world answers, it does in every world
whose answers can be given at all. -/
theorem inside {φ' : Type u} {σ' : Type} {M : Machine Op φ' σ'} {p : Try Op ε α} (h : Yields event p Q)
    (hM : ∀ {β : Type} (o : Op β) f s, ∃ answers : Answers Op, answers o = (M.step o f s).1) (s : σ') :
    Does event M (fun _ => True) p s (fun r _ trace => Q r trace) := by
  intro log
  have hgo (p : Prog Op (Except ε α)) : ∀ s history,
      p.wp (logged event anyone) (fun _ => True) (fun r x => ∃ trace, x.2 = log ++ trace ∧ Q r trace) ((), history) →
      p.wp (logged event M) (fun _ => True) (fun r x => ∃ trace, x.2 = log ++ trace ∧ Q r trace) (s, history) := by
    induction p with
    | ret r => exact fun s history h => h
    | call o k ih =>
        intro s history h
        refine ⟨trivial, fun f => ?_⟩
        obtain ⟨answers, hanswers⟩ := hM o f s
        have hnext := h.2 answers
        simp only [logged, anyone, hanswers] at hnext
        exact ih _ _ _ hnext
  exact hgo p.run s log (h log)

/-- What a program yields it also yields over a larger interface. -/
theorem embed {Op' : Type → Type} {Event' : Type} {event' : ∀ {β : Type}, Op' β → β → Event'}
    {g : ∀ {β : Type}, Op β → Op' β} {p : Try Op ε α} (h : Yields event p Q) (wrap : Event → Event')
    (hevent : ∀ {β : Type} (o : Op β) (b : β), event' (g o) b = wrap (event o b)) :
    Yields event' (Program.embed g p) (fun r trace' => ∃ trace, trace' = trace.map wrap ∧ Q r trace) := by
  have hembed : Does event' anyone (fun _ => True) (Program.embed g p) () _ :=
    Does.embed h (fun answers {_} o => answers (g o)) id wrap (fun _ _ _ => rfl) hevent fun _ _ => trivial
  refine hembed.mono ?_
  rintro r _ _ _ ⟨_, trace, _, rfl, hq⟩
  exact ⟨trace, rfl, hq⟩

end Yields

/-- Each event of `trace` is allowed by the history before it. -/
def SafeAfter (allowed : List Event → Event → Prop) (history trace : List Event) : Prop :=
  ∀ pre e post, trace = pre ++ e :: post → allowed (history ++ pre) e

/-- Each event of `trace` is followed by events as `follows` asks. -/
def FollowedBy (follows : Event → List Event → Prop) (trace : List Event) : Prop :=
  ∀ pre e post, trace = pre ++ e :: post → follows e post

section

variable {allowed : List Event → Event → Prop} {follows : Event → List Event → Prop} {history : List Event}

@[simp] theorem safeAfter_nil : SafeAfter allowed history [] := by
  intro pre e post h
  simp at h

@[simp] theorem safeAfter_cons {e : Event} {trace : List Event} :
    SafeAfter allowed history (e :: trace) ↔ allowed history e ∧ SafeAfter allowed (history ++ [e]) trace := by
  constructor
  · intro h
    refine ⟨by simpa using h [] e trace rfl, fun pre e' post he => ?_⟩
    rw [List.append_assoc]
    exact h (e :: pre) e' post (by rw [he, List.cons_append])
  · rintro ⟨he, h⟩ pre e' post heq
    cases pre with
    | nil =>
        rw [List.nil_append, List.cons.injEq] at heq
        rwa [List.append_nil, ← heq.1]
    | cons x pre =>
        rw [List.cons_append, List.cons.injEq] at heq
        have := h pre e' post heq.2
        rwa [List.append_assoc, List.singleton_append, heq.1] at this

theorem safeAfter_append {a b : List Event} :
    SafeAfter allowed history (a ++ b) ↔ SafeAfter allowed history a ∧ SafeAfter allowed (history ++ a) b := by
  induction a generalizing history with
  | nil => simp
  | cons e a ih => simp only [List.cons_append, safeAfter_cons, ih, and_assoc, List.append_assoc, List.nil_append]

theorem safeAfter_of_forall {trace : List Event} (h : ∀ e ∈ trace, ∀ l, allowed l e) :
    SafeAfter allowed history trace := by
  rintro pre e post rfl
  exact h e (List.mem_append_right _ List.mem_cons_self) _

@[simp] theorem followedBy_nil : FollowedBy follows [] := by
  intro pre e post h
  simp at h

@[simp] theorem followedBy_cons {e : Event} {trace : List Event} :
    FollowedBy follows (e :: trace) ↔ follows e trace ∧ FollowedBy follows trace := by
  constructor
  · exact fun h => ⟨h [] e trace rfl, fun pre e' post he => h (e :: pre) e' post (by rw [he, List.cons_append])⟩
  · rintro ⟨he, h⟩ pre e' post heq
    cases pre with
    | nil =>
        rw [List.nil_append, List.cons.injEq] at heq
        rwa [← heq.1, ← heq.2]
    | cons x pre =>
        rw [List.cons_append, List.cons.injEq] at heq
        exact h pre e' post heq.2

/-- Events of which nothing is asked may stand first. -/
theorem followedBy_append {a b : List Event} (h : ∀ e ∈ a, ∀ l, follows e l) :
    FollowedBy follows (a ++ b) ↔ FollowedBy follows b := by
  induction a with
  | nil => rfl
  | cons e a ih =>
      rw [List.cons_append, followedBy_cons, ih fun x hx => h x (List.mem_cons_of_mem _ hx)]
      exact and_iff_right (h e List.mem_cons_self _)

end

end Beskar7Inspector.Lib.Recorder
