import Beskar7Inspector.BootOptions

namespace Beskar7Inspector.BootSafety

open Lib.Os Deploy Esp DevicePath BootOrder Efiboot VarStore BootOptions

/-- The boot variable a run may have written: it is as it was, or it is new and
has the lowest number not in use, or it was our previous entry. -/
inductive MayChange (s s' : Store) (n : UInt16) : Prop
  | same (h : s'.lookup (bootVarName n) = s.lookup (bootVarName n))
  | new (h : bootVarName n ∉ s) (hn : IsLeast {m | ¬InUse s m} n)
  | ours (h : bootVarName n ∈ s)
      (hn : IsLeast {m | ∃ opt, optionAt s (bootVarName m) = some opt ∧ opt.description = DESCRIPTION} n)

def beforeWrites : EfiBootError → Bool
  | .writeVar _ _ => false
  | _ => true

structure KeepsForeign (arch : Arch) (gpt : GptEsp) (s : Store) (r : Except EfiBootError BootEntry) (w' : World) :
    Prop where
  changed : ∃ n, MayChange s w'.store n ∧
    ∀ name, name ≠ "BootOrder" → name ≠ bootVarName n → w'.store.lookup name = s.lookup name
  entryFirst : ∃ entry order : List Write, w'.writes = entry ++ order ∧ entry.length ≤ 1 ∧ order.length ≤ 1 ∧
    (∀ x ∈ entry, ∃ n, x.name = bootVarName n) ∧ ∀ x ∈ order, x.name = "BootOrder"
  reused : (Starting arch gpt s).Nonempty → ∀ x ∈ w'.writes, x.name = "BootOrder"
  reported : ∀ e, r = .ok e → e.outcome = .reused → ∀ x ∈ w'.writes, x.name = "BootOrder"
  failed : ∀ e, r = .error e → w'.store.lookup "BootOrder" = s.lookup "BootOrder"
  stopped : ∀ e, r = .error e → beforeWrites e = true → w'.writes = [] ∧ w'.store = s
  kept : ∀ e, r = .ok e → ∃ previous, readOrder s = some previous ∧
    (w'.store.lookup "BootOrder").bind parseBootOrder = some e.bootOrder ∧
    e.bootOrder.filter (· ≠ e.number) = previous.filter (· ≠ e.number)

section

variable {arch : Arch} {gpt : GptEsp} {s : Store}

theorem mayChange_refl (s : Store) (n : UInt16) : MayChange s s n := .same rfl

theorem keepsForeign_stopped {e : EfiBootError} : KeepsForeign arch gpt s (.error e) ⟨s, []⟩ where
  changed := ⟨0, mayChange_refl s 0, fun _ _ _ => rfl⟩
  entryFirst := ⟨[], [], rfl, Nat.zero_le _, Nat.zero_le _, nofun, nofun⟩
  reused := nofun
  reported := nofun
  failed _ _ := rfl
  stopped _ _ _ := ⟨rfl, rfl⟩
  kept := nofun

/-- The boot variable of a decision is written only when nothing starts the
loader, and then it is one the run may change. -/
theorem mayChange_of_decision (hs : Canonical s) (d : Decision arch gpt s) (writes : List Write) :
    MayChange s ((World.mk s writes).withEntry arch gpt d.number d.outcome).store d.number := by
  have hsel := Decision.selected d
  generalize d.number = n, d.outcome = outcome at hsel
  cases hsel with
  | reused _ => exact .same rfl
  | replaced _ hleast =>
      obtain ⟨opt, hopt, _⟩ := hleast.1
      refine .ours (mem_of_optionAt (hs.holds_iff.mp hopt)) ?_
      simpa only [Described, hs.holds_iff] using hleast
  | created _ _ hleast =>
      refine .new (fun hmem => ?_) hleast
      exact hleast.1 ⟨bootVarName n, hmem, parseBootVarName_bootVarName n⟩

theorem outcome_of_starting (d : Decision arch gpt s) (h : (Starting arch gpt s).Nonempty) : d.outcome = .reused := by
  obtain ⟨m, hm⟩ := h
  have hsel := Decision.selected d
  generalize d.number = n, d.outcome = outcome at hsel
  cases hsel with
  | reused _ => rfl
  | replaced hs _ => exact absurd hm (hs m)
  | created hs _ _ => exact absurd hm (hs m)

theorem lookup_withEntry (d : Decision arch gpt s) (writes : List Write) {name : String}
    (h : name ≠ bootVarName d.number) :
    ((World.mk s writes).withEntry arch gpt d.number d.outcome).store.lookup name = s.lookup name := by
  rw [World.withEntry]
  split
  · rfl
  · exact AList.lookup_insert_ne h

theorem withEntry_writes (d : Decision arch gpt s) :
    ((World.mk s []).withEntry arch gpt d.number d.outcome).writes =
      if d.outcome = .reused then [] else [⟨bootVarName d.number, true⟩] := by
  rw [World.withEntry]
  split <;> rfl

theorem entryFirst_of_decision (d : Decision arch gpt s) {order : List Write} (hlen : order.length ≤ 1)
    (horder : ∀ x ∈ order, x.name = "BootOrder") :
    ∃ entry order' : List Write,
      ((World.mk s []).withEntry arch gpt d.number d.outcome).writes ++ order = entry ++ order' ∧ entry.length ≤ 1 ∧
        order'.length ≤ 1 ∧ (∀ x ∈ entry, ∃ n, x.name = bootVarName n) ∧ ∀ x ∈ order', x.name = "BootOrder" := by
  refine ⟨_, order, rfl, ?_, hlen, ?_, horder⟩
  · rw [withEntry_writes]
    split <;> simp
  · intro x hx
    rw [withEntry_writes] at hx
    split at hx
    · cases hx
    · rw [List.mem_singleton.mp hx]
      exact ⟨_, rfl⟩

theorem writes_of_reused {d : Decision arch gpt s} (hd : d.outcome = .reused) {order : List Write}
    (horder : ∀ x ∈ order, x.name = "BootOrder") :
    ∀ x ∈ ((World.mk s []).withEntry arch gpt d.number d.outcome).writes ++ order, x.name = "BootOrder" := by
  rw [withEntry_writes, if_pos hd, List.nil_append]
  exact horder

theorem withOrder_writes (w : World) (previous order : List UInt16) :
    ∃ tried : List Write, (w.withOrder previous order).writes = w.writes ++ tried ∧ tried.length ≤ 1 ∧
      ∀ x ∈ tried, x.name = "BootOrder" := by
  rw [World.withOrder]
  split
  · exact ⟨[], (List.append_nil _).symm, Nat.zero_le _, by simp⟩
  · refine ⟨[⟨"BootOrder", true⟩], rfl, le_rfl, fun x hx => ?_⟩
    rw [List.mem_singleton.mp hx]

theorem lookup_withOrder (w : World) (previous order : List UInt16) {name : String} (h : name ≠ "BootOrder") :
    (w.withOrder previous order).store.lookup name = w.store.lookup name := by
  rw [World.withOrder]
  split
  · rfl
  · exact AList.lookup_insert_ne h

theorem MayChange.of_lookup {s t t' : Store} {n : UInt16} (h : MayChange s t n)
    (heq : t'.lookup (bootVarName n) = t.lookup (bootVarName n)) : MayChange s t' n := by
  cases h with
  | same h => exact .same (heq.trans h)
  | new h hn => exact .new h hn
  | ours h hn => exact .ours h hn

theorem keepsForeign_entryRefused {d : Decision arch gpt s} (hd : d.outcome ≠ .reused) {source : IoError} :
    KeepsForeign arch gpt s (.error (.writeVar (bootVarName d.number) source))
      ⟨s, [⟨bootVarName d.number, false⟩]⟩ where
  changed := ⟨d.number, mayChange_refl s _, fun _ _ _ => rfl⟩
  entryFirst := by
    refine ⟨[⟨bootVarName d.number, false⟩], [], rfl, le_rfl, Nat.zero_le _, fun x hx => ?_, nofun⟩
    rw [List.mem_singleton.mp hx]
    exact ⟨_, rfl⟩
  reused h := absurd (outcome_of_starting d h) hd
  reported := nofun
  failed _ _ := rfl
  stopped := by
    rintro e ⟨⟩ ⟨⟩
  kept := nofun

theorem keepsForeign_orderRefused (hs : Canonical s) (d : Decision arch gpt s) {source : IoError} :
    KeepsForeign arch gpt s (.error (.writeVar "BootOrder" source))
      ⟨((World.mk s []).withEntry arch gpt d.number d.outcome).store,
        ((World.mk s []).withEntry arch gpt d.number d.outcome).writes ++ [⟨"BootOrder", false⟩]⟩ := by
  have horder : ∀ x ∈ [Write.mk "BootOrder" false], x.name = "BootOrder" := fun x hx => by
    rw [List.mem_singleton.mp hx]
  exact {
    changed := ⟨d.number, mayChange_of_decision hs d [], fun _ _ h => lookup_withEntry d [] h⟩
    entryFirst := entryFirst_of_decision d le_rfl horder
    reused := fun h => writes_of_reused (outcome_of_starting d h) horder
    reported := nofun
    failed := fun _ _ => lookup_BootOrder_withEntry _ _
    stopped := by rintro e ⟨⟩ ⟨⟩
    kept := nofun }

theorem keepsForeign_done (hs : Canonical s) (d : Decision arch gpt s) :
    KeepsForeign arch gpt s (.ok d.entry)
      (((World.mk s []).withEntry arch gpt d.number d.outcome).withOrder d.previous d.order) := by
  obtain ⟨tried, hwrites, hlen, htried⟩ :=
    withOrder_writes ((World.mk s []).withEntry arch gpt d.number d.outcome) d.previous d.order
  have hread : readOrder ((World.mk s []).withEntry arch gpt d.number d.outcome).store = some d.previous := by
    rw [readOrder_withEntry]
    exact d.read
  have horder := hs.decision_order d
  constructor
  · refine ⟨d.number, (mayChange_of_decision hs d []).of_lookup ?_, fun name horder hname => ?_⟩
    · exact lookup_withOrder _ _ _ (bootVarName_ne_BootOrder _)
    · rw [lookup_withOrder _ _ _ horder, lookup_withEntry d [] hname]
  · rw [hwrites]
    exact entryFirst_of_decision d hlen htried
  · intro h
    rw [hwrites]
    exact writes_of_reused (outcome_of_starting d h) htried
  · rintro e ⟨⟩ hd
    rw [hwrites]
    exact writes_of_reused hd htried
  · nofun
  · nofun
  · rintro e ⟨⟩
    refine ⟨d.previous, d.read, lookup_BootOrder_withOrder hread ?_, ?_⟩
    · rw [horder]
      exact placeAfterNetwork_ne_nil _
    · rw [Decision.entry, horder]
      exact filter_ne_placeAfterNetwork _

/-- Whatever fails, and whatever the boot variables hold, a run keeps every boot
variable that is not ours. -/
theorem ensureRun_keepsForeign (faults : Faults) (arch : Arch) (gpt : GptEsp) (plan : Nat → Choice) {s : Store}
    (hs : Canonical s) :
    KeepsForeign arch gpt s (ensureRun faults arch gpt plan s).value (ensureRun faults arch gpt plan s).final := by
  have hended := ensureRun_ended faults arch gpt plan s
  generalize (ensureRun faults arch gpt plan s).value = r at *
  generalize (ensureRun faults arch gpt plan s).final = w' at *
  cases hended with
  | listRefused _ _ => exact keepsForeign_stopped
  | readRefused _ _ _ => exact keepsForeign_stopped
  | badOrder _ => exact keepsForeign_stopped
  | noFree _ _ _ => exact keepsForeign_stopped
  | entryRefused d hd _ _ => exact keepsForeign_entryRefused hd
  | orderRefused d _ _ _ => exact keepsForeign_orderRefused hs d
  | done d => exact keepsForeign_done hs d

theorem ensureRun_keepsForeign_pxeStore :
    (ensureRun ⟨true, true⟩ .x86_64 sampleEsp (fun k => ⟨if k = 4 then some (.os EROFS) else none, []⟩) pxeStore).value =
        .error (.writeVar "BootOrder" (.os EROFS)) ∧
      KeepsForeign .x86_64 sampleEsp pxeStore (.error (.writeVar "BootOrder" (.os EROFS)))
        (ensureRun ⟨true, true⟩ .x86_64 sampleEsp (fun k => ⟨if k = 4 then some (.os EROFS) else none, []⟩)
          pxeStore).final := by
  have hkeeps := ensureRun_keepsForeign ⟨true, true⟩ .x86_64 sampleEsp
    (fun k => ⟨if k = 4 then some (.os EROFS) else none, []⟩) (s := pxeStore) (by decide)
  have hvalue : (ensureRun ⟨true, true⟩ .x86_64 sampleEsp
      (fun k => ⟨if k = 4 then some (.os EROFS) else none, []⟩) pxeStore).value =
        .error (.writeVar "BootOrder" (.os EROFS)) := by
    decide +kernel
  rw [hvalue] at hkeeps
  exact ⟨hvalue, hkeeps⟩

end

end Beskar7Inspector.BootSafety
