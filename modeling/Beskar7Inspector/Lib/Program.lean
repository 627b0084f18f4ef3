import Mathlib.Algebra.Group.Nat.Defs

namespace Beskar7Inspector.Lib.Program

universe u

variable {Op : Type → Type} {φ : Type u} {σ α β ε : Type}

/-- A program over the calls `Op`: it returns, or makes one call and goes on
with the answer. What a call does to the world is not part of the program. -/
inductive Prog (Op : Type → Type) (α : Type) : Type 1
  | ret (a : α)
  | call {β : Type} (o : Op β) (k : β → Prog Op α)

namespace Prog

def bind : Prog Op α → (α → Prog Op β) → Prog Op β
  | .ret a, f => f a
  | .call o k, f => .call o (fun b => (k b).bind f)

def perform (o : Op α) : Prog Op α := .call o .ret

instance : Monad (Prog Op) where
  pure := .ret
  bind := .bind

@[simp] theorem call_bind {γ : Type} (o : Op γ) (k : γ → Prog Op α) (f : α → Prog Op β) :
    (Prog.call o k >>= f) = .call o (fun b => k b >>= f) := rfl

end Prog

/-- The same program with its calls made as those of a larger interface. -/
def Prog.embed {Op' : Type → Type} (g : ∀ {β : Type}, Op β → Op' β) : Prog Op α → Prog Op' α
  | .ret a => .ret a
  | .call o k => .call (g o) (fun b => (k b).embed g)

/-- What the world answers to a call: `φ` is the choice it makes at each call
(a fault, say) and `σ` its state. -/
structure Machine (Op : Type → Type) (φ : Type u) (σ : Type) where
  step : {β : Type} → Op β → φ → σ → β × σ

/-- The same machine with its choices first passed through `mask`, which rules
some of them out call by call. -/
def Machine.restrict (M : Machine Op φ σ) (mask : {β : Type} → Op β → φ → φ) : Machine Op φ σ where
  step o f s := M.step o (mask o f) s

/-- A finished run, with every state between two calls in order, the initial
and the final one included. -/
structure Ending (α σ : Type) where
  value : α
  final : σ
  visited : List σ

/-- The run in which the world makes the choices of `plan`, one for each call. -/
def Prog.run (M : Machine Op φ σ) : Prog Op α → (Nat → φ) → σ → Ending α σ
  | .ret a, _, s => ⟨a, s, [s]⟩
  | .call o k, plan, s =>
      let out := (k (M.step o (plan 0) s).1).run M (fun n => plan (n + 1)) (M.step o (plan 0) s).2
      ⟨out.value, out.final, s :: out.visited⟩

/-- Whatever the world chooses, every state of the run satisfies `I` and the
run ends with a value and a state related by `Q`. -/
def Prog.wp (M : Machine Op φ σ) (I : σ → Prop) : Prog Op α → (α → σ → Prop) → σ → Prop
  | .ret a, Q, s => I s ∧ Q a s
  | .call o k, Q, s => I s ∧ ∀ f, (k (M.step o f s).1).wp M I Q (M.step o f s).2

namespace Prog

variable {M : Machine Op φ σ} {I : σ → Prop} {Q R : α → σ → Prop} {s : σ}

@[simp] theorem wp_call {γ : Type} (o : Op γ) (k : γ → Prog Op α) :
    (Prog.call o k).wp M I Q s ↔ I s ∧ ∀ f, (k (M.step o f s).1).wp M I Q (M.step o f s).2 := Iff.rfl

theorem wp_start {p : Prog Op α} (h : p.wp M I Q s) : I s := by
  cases p with
  | ret a => exact h.1
  | call o k => exact h.1

theorem wp_mono {J : σ → Prop} {p : Prog Op α} (hI : ∀ s, I s → J s) (hQ : ∀ a s, I s → Q a s → R a s)
    (h : p.wp M I Q s) : p.wp M J R s := by
  induction p generalizing s with
  | ret a => exact ⟨hI _ h.1, hQ _ _ h.1 h.2⟩
  | call o k ih => exact ⟨hI _ h.1, fun f => ih _ (h.2 f)⟩

theorem wp_bind (p : Prog Op β) (f : β → Prog Op α) :
    (p >>= f).wp M I Q s ↔ p.wp M I (fun b t => (f b).wp M I Q t) s := by
  induction p generalizing s with
  | ret b => exact ⟨fun h => ⟨wp_start h, h⟩, fun h => h.2⟩
  | call o k ih =>
      rw [call_bind, wp_call, wp_call]
      exact and_congr Iff.rfl (forall_congr' fun g => ih _)

theorem wp_and {J : σ → Prop} {p : Prog Op α} (h : p.wp M I Q s) (h' : p.wp M J R s) :
    p.wp M (fun t => I t ∧ J t) (fun a t => Q a t ∧ R a t) s := by
  induction p generalizing s with
  | ret a => exact ⟨⟨h.1, h'.1⟩, h.2, h'.2⟩
  | call o k ih => exact ⟨⟨h.1, h'.1⟩, fun f => ih _ (h.2 f) (h'.2 f)⟩

/-- What the logic proves of a program holds of each of its runs. -/
theorem run_of_wp {p : Prog Op α} (h : p.wp M I Q s) (plan : Nat → φ) :
    (∀ t ∈ (p.run M plan s).visited, I t) ∧ Q (p.run M plan s).value (p.run M plan s).final := by
  induction p generalizing s plan with
  | ret a =>
      refine ⟨?_, h.2⟩
      intro t ht
      rw [List.mem_singleton.mp ht]
      exact h.1
  | call o k ih =>
      obtain ⟨hv, hq⟩ := ih _ (h.2 (plan 0)) (fun n => plan (n + 1))
      refine ⟨?_, hq⟩
      intro t ht
      rcases List.mem_cons.mp ht with rfl | ht
      · exact h.1
      · exact hv t ht

theorem value_of_wp {p : Prog Op α} (h : p.wp M I Q s) (plan : Nat → φ) :
    Q (p.run M plan s).value (p.run M plan s).final :=
  (run_of_wp h plan).2

theorem final_mem_visited (p : Prog Op α) (plan : Nat → φ) (s : σ) :
    (p.run M plan s).final ∈ (p.run M plan s).visited := by
  induction p generalizing s plan with
  | ret a => exact List.mem_singleton.mpr rfl
  | call o k ih => exact List.mem_cons_of_mem _ (ih _ _ _)

end Prog

@[simp] theorem mapError_ok {δ : Type} (tag : δ → ε) (a : α) : (Except.ok a : Except δ α).mapError tag = .ok a := rfl

@[simp] theorem mapError_error {δ : Type} (tag : δ → ε) (e : δ) :
    (Except.error e : Except δ α).mapError tag = .error (tag e) := rfl

theorem mapError_eq_ok {δ : Type} {tag : δ → ε} {r : Except δ α} {a : α} : r.mapError tag = .ok a ↔ r = .ok a := by
  cases r with
  | ok b => simp
  | error e => simp

/-- Programs that may stop early with an error. -/
abbrev Try (Op : Type → Type) (ε : Type) := ExceptT ε (Prog Op)

/-- Make one fallible call and stop with the tagged error when it fails. -/
def attempt {δ : Type} (o : Op (Except δ α)) (tag : δ → ε) : Try Op ε α :=
  ExceptT.mk (.call o (fun r => .ret (r.mapError tag)))

/-- The same program with its result converted. -/
def mapResult {δ : Type} (f : Except δ β → Except ε α) (x : Try Op δ β) : Try Op ε α :=
  ExceptT.mk (x.run >>= fun r => .ret (f r))

/-- Run a program and go on with its result, an error included. -/
def outcome (x : Try Op ε α) : Try Op ε (Except ε α) := mapResult .ok x

/-- The same program with its error converted. -/
def mapErr {δ : Type} (tag : δ → ε) (x : Try Op δ α) : Try Op ε α := mapResult (·.mapError tag) x

/-- Make a call that cannot stop the program. -/
def always (o : Op α) : Try Op ε α := ExceptT.mk (.call o (fun a => .ret (.ok a)))

/-- The same program over a larger interface. -/
def embed {Op' : Type → Type} (g : ∀ {β : Type}, Op β → Op' β) (x : Try Op ε α) : Try Op' ε α :=
  ExceptT.mk (x.run.embed g)

namespace Try

variable {M : Machine Op φ σ} {I : σ → Prop} {Q : Except ε β → σ → Prop} {s : σ}

/-- After an early stop the rest of the program is skipped. -/
def andThen (M : Machine Op φ σ) (I : σ → Prop) (f : α → Try Op ε β) (Q : Except ε β → σ → Prop) :
    Except ε α → σ → Prop
  | .ok a, t => (f a).run.wp M I Q t
  | .error e, t => Q (.error e) t

theorem wp_bind (x : Try Op ε α) (f : α → Try Op ε β) :
    (x >>= f).run.wp M I Q s ↔ x.run.wp M I (andThen M I f Q) s := by
  rw [ExceptT.run_bind, Prog.wp_bind]
  constructor
  · refine Prog.wp_mono (fun _ h => h) ?_
    intro r t _ h
    cases r with
    | ok a => exact h
    | error e => exact h.2
  · refine Prog.wp_mono (fun _ h => h) ?_
    intro r t hI h
    cases r with
    | ok a => exact h
    | error e => exact ⟨hI, h⟩

theorem wp_attempt {δ : Type} (o : Op (Except δ β)) (tag : δ → ε) :
    (attempt o tag).run.wp M I Q s ↔ I s ∧ ∀ f, I (M.step o f s).2 ∧
      Q ((M.step o f s).1.mapError tag) (M.step o f s).2 := Iff.rfl

theorem wp_always (o : Op β) :
    (always o : Try Op ε β).run.wp M I Q s ↔ I s ∧ ∀ f, I (M.step o f s).2 ∧
      Q (.ok (M.step o f s).1) (M.step o f s).2 := Iff.rfl

theorem wp_mapResult {δ γ : Type} {Q : Except ε α → σ → Prop} (f : Except δ γ → Except ε α) (x : Try Op δ γ) :
    (mapResult f x).run.wp M I Q s ↔ x.run.wp M I (fun r t => Q (f r) t) s := by
  rw [mapResult, ExceptT.run_mk, Prog.wp_bind]
  exact ⟨Prog.wp_mono (fun _ h => h) fun _ _ _ h => h.2, Prog.wp_mono (fun _ h => h) fun _ _ hI h => ⟨hI, h⟩⟩

end Try

end Beskar7Inspector.Lib.Program
