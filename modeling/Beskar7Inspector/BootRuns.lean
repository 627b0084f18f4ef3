import Beskar7Inspector.BootOptions

namespace Beskar7Inspector.BootRuns

open Lib.Os Deploy Esp DevicePath BootOrder Efiboot VarStore BootOptions

section

variable {arch : Arch} {gpt : GptEsp} {w : World}

theorem starting_congr {s t : Store} (hs : Canonical s) (ht : Canonical t)
    (h : ∀ n, optionAt t (bootVarName n) = optionAt s (bootVarName n)) : Starting arch gpt t = Starting arch gpt s := by
  ext n
  simp only [Starting, hs.holds_iff, ht.holds_iff, h]

theorem canonical_withEntry (hs : Canonical w.store) (n : UInt16) (outcome : Outcome) :
    Canonical (w.withEntry arch gpt n outcome).store := by
  rw [World.withEntry]
  split
  · exact hs
  · exact hs.insert (canonical_bootVarName n) _

theorem canonical_withOrder (hs : Canonical w.store) (previous order : List UInt16) :
    Canonical (w.withOrder previous order).store := by
  rw [World.withOrder]
  split
  · exact hs
  · exact hs.insert (by simp [parseBootVarName_BootOrder]) _

theorem selected_withEntry (hs : Canonical w.store) (d : Decision arch gpt w.store) :
    Selected arch gpt (w.withEntry arch gpt d.number d.outcome).store d.number .reused := by
  have hsel := Decision.selected d
  by_cases ho : d.outcome = .reused
  · rw [World.withEntry, if_pos ho]
    rwa [ho] at hsel
  · have hnone : ∀ m, m ∉ Starting arch gpt w.store := by
      generalize d.number = n, d.outcome = outcome at hsel ho
      cases hsel with
      | reused _ => exact absurd rfl ho
      | replaced h _ => exact h
      | created h _ _ => exact h
    have hc : Canonical (w.withEntry arch gpt d.number d.outcome).store := canonical_withEntry hs d.number d.outcome
    refine .reused ⟨⟨writtenOption arch gpt, hc.holds_iff.mpr (optionAt_withEntry_self ho),
      startsLoader_writtenOption arch gpt⟩, ?_⟩
    rintro m ⟨opt, hopt, hstarts⟩
    rw [hc.holds_iff] at hopt
    by_cases hm : m = d.number
    · rw [hm]
      exact UInt16.le_refl _
    · rw [optionAt_withEntry d.outcome (fun h => hm (bootVarName_injective h))] at hopt
      exact absurd ⟨opt, hs.holds_iff.mpr hopt, hstarts⟩ (hnone m)

theorem selected_withOrder (hs : Canonical w.store) {n : UInt16} (h : Selected arch gpt w.store n .reused)
    (previous order : List UInt16) : Selected arch gpt (w.withOrder previous order).store n .reused := by
  cases h with
  | reused h =>
      refine .reused ?_
      rwa [starting_congr hs (canonical_withOrder hs previous order)
        (fun m => optionAt_withOrder previous order (bootVarName_ne_BootOrder m))]

theorem order_withEntry (hs : Canonical w.store) (d : Decision arch gpt w.store)
    (d' : Decision arch gpt (w.withEntry arch gpt d.number d.outcome).store) :
    d'.number = d.number ∧ d'.outcome = .reused ∧ d'.previous = d.previous ∧ d'.order = d.order := by
  obtain ⟨hnum, hout⟩ := (Decision.selected d').unique (selected_withEntry hs d)
  have hprev : d'.previous = d.previous := by
    have h := d'.read
    rw [readOrder_withEntry, d.read] at h
    exact (Option.some.inj h).symm
  refine ⟨hnum, hout, hprev, ?_⟩
  rw [(canonical_withEntry hs _ _).decision_order, hs.decision_order, hnum, hprev]
  refine placeAfterNetwork_congr rfl fun m hm => ?_
  rw [autoBoots, autoBoots, netBoots, netBoots,
    optionAt_withEntry d.outcome (fun h => hm (bootVarName_injective h))]
  exact ⟨rfl, rfl⟩

/-- Where a run that is not interrupted ends. -/
def settled (d : Decision arch gpt w.store) : World :=
  (w.withEntry arch gpt d.number d.outcome).withOrder d.previous d.order

theorem withOrder_store (v w : World) (h : v.store = w.store) (previous order : List UInt16) :
    (v.withOrder previous order).store = (w.withOrder previous order).store := by
  unfold World.withOrder
  split
  · exact h
  · rw [h]

theorem decision_order_ne_nil {s : Store} (hs : Canonical s) (d : Decision arch gpt s) : d.order ≠ [] := by
  rw [hs.decision_order]
  exact placeAfterNetwork_ne_nil _

theorem canonical_settled (hs : Canonical w.store) (d : Decision arch gpt w.store) : Canonical (settled d).store :=
  canonical_withOrder (canonical_withEntry hs _ _) _ _

theorem readOrder_settled (hs : Canonical w.store) (d : Decision arch gpt w.store) :
    readOrder (settled d).store = some d.order := by
  have hread : readOrder (w.withEntry arch gpt d.number d.outcome).store = some d.previous := by
    rw [readOrder_withEntry]
    exact d.read
  have hlookup := lookup_BootOrder_withOrder hread (decision_order_ne_nil hs d)
  obtain ⟨raw, hraw, hparse⟩ := Option.bind_eq_some_iff.mp hlookup
  rw [readOrder, settled, hraw]
  exact hparse

theorem order_settled (hs : Canonical w.store) (d : Decision arch gpt w.store)
    (d' : Decision arch gpt (settled d).store) :
    d'.number = d.number ∧ d'.outcome = .reused ∧ d'.previous = d.order ∧ d'.order = d.order := by
  have hsel := selected_withOrder (canonical_withEntry hs _ _) (selected_withEntry hs d) d.previous d.order
  obtain ⟨hnum, hout⟩ := (Decision.selected d').unique hsel
  have hprev : d'.previous = d.order := by
    have h := d'.read
    rw [readOrder_settled hs d] at h
    exact (Option.some.inj h).symm
  refine ⟨hnum, hout, hprev, ?_⟩
  rw [(canonical_settled hs d).decision_order, hnum, hprev, hs.decision_order]
  refine placeAfterNetwork_idem fun m hm => ?_
  have hopt : optionAt (settled d).store (bootVarName m) = optionAt w.store (bootVarName m) := by
    rw [settled, optionAt_withOrder _ _ (bootVarName_ne_BootOrder m),
      optionAt_withEntry d.outcome (fun h => hm (bootVarName_injective h))]
  rw [autoBoots, autoBoots, netBoots, netBoots, hopt]
  exact ⟨rfl, rfl⟩

theorem done_of_settled (hs : Canonical w.store) (d : Decision arch gpt w.store) {writes : Bool} {v v' : World}
    {r : Except EfiBootError BootEntry} (hv : v.store = (settled d).store) (h : Ended ⟨false, writes⟩ arch gpt v r v') :
    r = .ok ⟨d.number, .reused, d.order, d.order⟩ ∧ v' = v := by
  obtain ⟨store, log⟩ := v
  subst hv
  have hsel := selected_withOrder (canonical_withEntry hs _ _) (selected_withEntry hs d) d.previous d.order
  cases h with
  | listRefused _ hf => cases hf
  | readRefused _ _ hf => cases hf
  | badOrder hb =>
      have := readOrder_settled hs d
      rw [hb] at this
      cases this
  | noFree names hn hc => exact absurd hsel (not_selected_of_choose hn hc _ _)
  | entryRefused d' hd' => exact absurd (order_settled hs d d').2.1 hd'
  | orderRefused d' hd' =>
      obtain ⟨_, _, hprev, horder⟩ := order_settled hs d d'
      exact absurd (horder.trans hprev.symm) hd'
  | done d' =>
      obtain ⟨hnum, hout, hprev, horder⟩ := order_settled hs d d'
      refine ⟨by rw [Decision.entry, hnum, hout, hprev, horder], ?_⟩
      rw [World.withEntry, if_pos hout, World.withOrder, if_pos (horder.trans hprev.symm)]

end

/-- The store after further runs for the same ESP, whose writes may be refused. -/
def rerun (arch : Arch) (gpt : GptEsp) (s : Store) (plans : List (Nat → Choice)) : Store :=
  plans.foldl (fun t plan => (ensureRun ⟨false, true⟩ arch gpt plan t).final.store) s

section

variable {arch : Arch} {gpt : GptEsp} {s : Store}

theorem rerun_settled (hs : Canonical s) (d : Decision arch gpt (World.mk s []).store) (plans : List (Nat → Choice)) :
    rerun arch gpt (settled d).store plans = (settled d).store := by
  induction plans with
  | nil => rfl
  | cons plan plans ih =>
      obtain ⟨_, hfinal⟩ := done_of_settled (w := ⟨s, []⟩) (v := ⟨(settled d).store, []⟩) hs d rfl
        (ensureRun_ended ⟨false, true⟩ arch gpt plan (settled d).store)
      rw [rerun, List.foldl_cons, hfinal]
      exact ih

/-- An interrupted run and the run after it come to the same store. -/
theorem settled_of_interrupted (hs : Canonical s) (d : Decision arch gpt (World.mk s []).store) {t : Store}
    {r r₁ : Except EfiBootError BootEntry} {w₁ w₂ : World} (h₁ : Ended ⟨false, true⟩ arch gpt ⟨s, []⟩ r₁ w₁)
    (ht : w₁.store = t) (h₂ : Ended ⟨false, false⟩ arch gpt ⟨t, []⟩ r w₂) :
    ∃ e, r = .ok e ∧ e.number = d.number ∧ e.bootOrder = d.order ∧ w₂.store = (settled d).store := by
  have hread : readOrder s ≠ none := by
    rw [d.read]
    nofun
  cases h₁ with
  | listRefused _ hf => cases hf
  | readRefused _ _ hf => cases hf
  | badOrder hb => exact absurd hb hread
  | noFree names hn hc => exact absurd (Decision.selected d) (not_selected_of_choose hn hc _ _)
  | entryRefused d₁ _ _ _ =>
      subst ht
      obtain ⟨d₂, rfl, rfl⟩ := done_of_faultless h₂ hread (Decision.selected d)
      obtain ⟨hnum, hout, hprev, horder⟩ := hs.decision_unique d₂ d
      refine ⟨d₂.entry, rfl, hnum, horder, ?_⟩
      rw [settled, hnum, hout, hprev, horder]
  | orderRefused d₁ _ _ _ =>
      obtain ⟨hnum, hout, _, _⟩ := hs.decision_unique d₁ d
      rw [hnum, hout] at ht
      subst ht
      have hread' : readOrder ((World.mk s []).withEntry arch gpt d.number d.outcome).store ≠ none := by
        rw [readOrder_withEntry]
        exact hread
      obtain ⟨d₂, rfl, rfl⟩ := done_of_faultless h₂ hread' (selected_withEntry (w := ⟨s, []⟩) hs d)
      obtain ⟨hnum₂, hout₂, hprev₂, horder₂⟩ := order_withEntry (w := ⟨s, []⟩) hs d d₂
      refine ⟨d₂.entry, rfl, hnum₂, horder₂, ?_⟩
      rw [World.withEntry, if_pos hout₂, hprev₂, horder₂]
      exact withOrder_store ⟨_, []⟩ ((World.mk s []).withEntry arch gpt d.number d.outcome) rfl _ _
  | done d₁ =>
      obtain ⟨hnum, hout, hprev, horder⟩ := hs.decision_unique d₁ d
      rw [hnum, hout, hprev, horder] at ht
      obtain ⟨rfl, rfl⟩ := done_of_settled (w := ⟨s, []⟩) hs d ht.symm h₂
      exact ⟨_, rfl, rfl, rfl, ht.symm⟩

/-- However a first run is interrupted, the next one ends where a run that is not
interrupted would have, and every later one changes nothing. -/
theorem ensureRun_converges (arch : Arch) (gpt : GptEsp) (plan plan₁ plan₂ : Nat → Choice) {s : Store}
    (hs : Canonical s) {e : BootEntry} (he : (ensureRun ⟨false, false⟩ arch gpt plan s).value = .ok e) :
    (∃ e₂, (ensureRun ⟨false, false⟩ arch gpt plan₂ (ensureRun ⟨false, true⟩ arch gpt plan₁ s).final.store).value =
          .ok e₂ ∧ e₂.number = e.number ∧ e₂.bootOrder = e.bootOrder) ∧
      (ensureRun ⟨false, false⟩ arch gpt plan₂ (ensureRun ⟨false, true⟩ arch gpt plan₁ s).final.store).final.store =
        (ensureRun ⟨false, false⟩ arch gpt plan s).final.store ∧
      ∀ plans plan₃,
        (ensureRun ⟨false, true⟩ arch gpt plan₃
            (rerun arch gpt (ensureRun ⟨false, false⟩ arch gpt plan s).final.store plans)).value =
          .ok ⟨e.number, .reused, e.bootOrder, e.bootOrder⟩ ∧
        (ensureRun ⟨false, true⟩ arch gpt plan₃
            (rerun arch gpt (ensureRun ⟨false, false⟩ arch gpt plan s).final.store plans)).final =
          ⟨(ensureRun ⟨false, false⟩ arch gpt plan s).final.store, []⟩ := by
  have hended := ensureRun_ended ⟨false, false⟩ arch gpt plan s
  have h₁ := ensureRun_ended ⟨false, true⟩ arch gpt plan₁ s
  have h₂ := ensureRun_ended ⟨false, false⟩ arch gpt plan₂ (ensureRun ⟨false, true⟩ arch gpt plan₁ s).final.store
  rw [he] at hended
  generalize (ensureRun ⟨false, false⟩ arch gpt plan s).final = w' at *
  cases hended with
  | done d =>
      obtain ⟨e₂, hvalue, hnum, horder, hstore⟩ := settled_of_interrupted hs d h₁ rfl h₂
      refine ⟨⟨e₂, hvalue, hnum, horder⟩, hstore, fun plans plan₃ => ?_⟩
      have hrerun := rerun_settled hs d plans
      obtain ⟨hvalue₃, hfinal₃⟩ := done_of_settled (w := ⟨s, []⟩) (v := ⟨(settled d).store, []⟩) hs d rfl
        (ensureRun_ended ⟨false, true⟩ arch gpt plan₃ (settled d).store)
      change (ensureRun ⟨false, true⟩ arch gpt plan₃ (rerun arch gpt (settled d).store plans)).value = _ ∧
        (ensureRun ⟨false, true⟩ arch gpt plan₃ (rerun arch gpt (settled d).store plans)).final = _
      rw [hrerun]
      exact ⟨hvalue₃, hfinal₃⟩

theorem ensureRun_converges_pxeStore :
    (ensureRun ⟨false, false⟩ .x86_64 sampleEsp calm
        (ensureRun ⟨false, true⟩ .x86_64 sampleEsp (fun k => ⟨if k = 4 then some (.os EROFS) else none, []⟩)
          pxeStore).final.store).final.store =
      (ensureRun ⟨false, false⟩ .x86_64 sampleEsp calm pxeStore).final.store := by
  have hvalue : (ensureRun ⟨false, false⟩ .x86_64 sampleEsp calm pxeStore).value = .ok ⟨1, .created, [0], [0, 1]⟩ := by
    decide +kernel
  exact (ensureRun_converges .x86_64 sampleEsp calm (fun k => ⟨if k = 4 then some (.os EROFS) else none, []⟩) calm
    (by decide) hvalue).2.1

end

end Beskar7Inspector.BootRuns
