import Beskar7Inspector.Lib.Interp

namespace Beskar7Inspector.Lib.Simulation

open Program Interp

universe u v

variable {Op Op' : Type → Type} {φ : Type u} {φ' : Type v} {σ σ' α β δ ε : Type}
variable {failed : ∀ {β : Type}, Op β → β → Prop}

/-- After a call that failed the program makes no other: it ends with an error. -/
inductive StopsOn (failed : ∀ {β : Type}, Op β → β → Prop) : Prog Op (Except ε α) → Prop
  | ret (r : Except ε α) : StopsOn @failed (.ret r)
  | call {β : Type} {o : Op β} {k : β → Prog Op (Except ε α)} (hstop : ∀ b, failed o b → ∃ e, k b = .ret (.error e))
      (hrest : ∀ b, StopsOn @failed (k b)) : StopsOn @failed (.call o k)

namespace StopsOn

theorem pure (a : α) : StopsOn failed (pure a : Try Op ε α).run := .ret (.ok a)

theorem throw (e : ε) : StopsOn failed (throw e : Try Op ε α).run := .ret (.error e)

theorem attempt {o : Op (Except δ α)} {tag : δ → ε} (h : ∀ a, ¬ failed o (.ok a)) :
    StopsOn failed (Program.attempt o tag).run := by
  refine .call (fun r hr => ?_) fun r => .ret _
  cases r with
  | ok a => exact absurd hr (h a)
  | error e => exact ⟨tag e, rfl⟩

theorem bind {x : Try Op ε β} {f : β → Try Op ε α} (hx : StopsOn failed x.run) (hf : ∀ b, StopsOn failed (f b).run) :
    StopsOn failed (x >>= f).run := by
  have hgo (p : Prog Op (Except ε β)) (hp : StopsOn failed p) : StopsOn failed (ExceptT.mk p >>= f).run := by
    induction hp with
    | ret r =>
        cases r with
        | ok b => exact hf b
        | error e => exact .ret (.error e)
    | call hstop _ ih =>
        refine .call (fun b hb => ?_) ih
        obtain ⟨e, he⟩ := hstop b hb
        exact ⟨e, by rw [he]; rfl⟩
  exact hgo x.run hx

end StopsOn

/-- Each call of the upper interface, made by its handler, is answered as the
upper machine may answer it. The states stay related by `R`, unless the call
failed: then `Q` is enough, for it was the last one. -/
def Simulates (M : Machine Op φ σ) (M' : Machine Op' φ' σ') (handler : Handler Op Op')
    (failed : ∀ {β : Type}, Op β → β → Prop) (R Q : σ' → σ → Prop) : Prop :=
  ∀ {β : Type} (o : Op β) (s' : σ') (s : σ), R s' s → (handler o).wp M' (fun _ => True)
    (fun b t' => ∃ f, (M.step o f s).1 = b ∧ (R t' (M.step o f s).2 ∨ failed o b ∧ Q t' (M.step o f s).2)) s'

variable {M : Machine Op φ σ} {M' : Machine Op' φ' σ'} {handler : Handler Op Op'} {R Q : σ' → σ → Prop}

/-- A choice for the first call, and then those of `plan`. -/
def planCons (f : φ) (plan : Nat → φ) : Nat → φ
  | 0 => f
  | n + 1 => plan n

/-- Every run below is a run above, with the same result and related states at
the end; after an error they are related by `Q` at least. -/
theorem Simulates.wp [Inhabited φ] (h : Simulates M M' handler failed R Q) {p : Prog Op (Except ε α)}
    (hp : StopsOn failed p) {s' : σ'} {s : σ} (hR : R s' s) : (interp handler p).wp M' (fun _ => True)
      (fun r t' => ∃ plan, (p.run M plan s).value = r ∧
        (R t' (p.run M plan s).final ∨ (∃ e, r = .error e) ∧ Q t' (p.run M plan s).final)) s' := by
  induction hp generalizing s' s with
  | ret r => exact ⟨trivial, fun _ => default, rfl, .inl hR⟩
  | @call β o k hstop _ ih =>
      refine (Prog.wp_bind _ _).mpr (Prog.wp_mono (fun _ h => h) ?_ (h o s' s hR))
      rintro b t' _ ⟨f, rfl, hstep⟩
      rcases hstep with hstep | ⟨hfailed, hQ⟩
      · refine Prog.wp_mono (fun _ h => h) ?_ (ih _ hstep)
        rintro r u' _ ⟨plan, hvalue, hrelated⟩
        exact ⟨planCons f plan, hvalue, hrelated⟩
      · -- nothing comes after the call, so its states are the last ones
        obtain ⟨e, he⟩ := hstop _ hfailed
        rw [he]
        refine ⟨trivial, fun _ => f, ?_, ?_⟩
        · rw [Prog.run, he]
          rfl
        · rw [Prog.run, he]
          exact .inr ⟨⟨e, rfl⟩, hQ⟩

end Beskar7Inspector.Lib.Simulation
