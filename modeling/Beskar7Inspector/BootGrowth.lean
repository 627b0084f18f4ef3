import Beskar7Inspector.BootOptions

namespace Beskar7Inspector.BootGrowth

open Lib.Os Deploy Esp DevicePath BootOrder Efiboot VarStore BootOptions

def bootCount (s : Store) : Nat := (s.keys.filter (fun name => (parseBootVarName name).isSome)).length

/-- The variable `name` holds an option described `beskar7`. -/
def DescribedAt (s : Store) (name : String) : Prop := ∃ opt, optionAt s name = some opt ∧ opt.description = DESCRIPTION

/-- The entry a run would replace is stored under the uppercase name of its number. -/
def PreviousCanonical (s : Store) : Prop :=
  ∀ name n, IsLeast (Described s) n → parseBootVarName name = some n → DescribedAt s name → name = bootVarName n

theorem previousCanonical_of_canonical {s : Store} (hs : Canonical s) : PreviousCanonical s := by
  rintro name n _ hn ⟨opt, hopt, _⟩
  exact hs name (mem_of_optionAt hopt) n hn

theorem mem_described_iff {s : Store} {n : UInt16} :
    n ∈ Described s ↔ ∃ name, parseBootVarName name = some n ∧ DescribedAt s name := by
  constructor
  · rintro ⟨opt, ⟨name, hname, hopt⟩, hdesc⟩
    exact ⟨name, hname, opt, hopt, hdesc⟩
  · rintro ⟨name, hname, opt, hopt, hdesc⟩
    exact ⟨opt, ⟨name, hname, hopt⟩, hdesc⟩

section

variable {s : Store} {name : String} (value : List UInt8)

theorem bootCount_insert_mem (h : name ∈ s) : bootCount (s.insert name value) = bootCount s := by
  have hperm : (s.insert name value).keys.Perm s.keys := by
    rw [AList.keys_insert]
    exact (List.perm_cons_erase (AList.mem_keys.mp h)).symm
  exact (hperm.filter _).length_eq

theorem bootCount_insert_new (h : name ∉ s) :
    bootCount (s.insert name value) = bootCount s + if (parseBootVarName name).isSome then 1 else 0 := by
  rw [bootCount, AList.keys_insert, List.erase_of_not_mem (fun hm => h (AList.mem_keys.mpr hm)), List.filter_cons,
    bootCount]
  split <;> simp

theorem bootCount_insert_BootOrder : bootCount (s.insert "BootOrder" value) = bootCount s := by
  by_cases h : "BootOrder" ∈ s
  · exact bootCount_insert_mem value h
  · rw [bootCount_insert_new value h, parseBootVarName_BootOrder]
    rfl

end

/-- What a run may do to the boot variables. -/
structure Growth (s t : Store) : Prop where
  canonical : PreviousCanonical t
  kept : (Described s).Nonempty → (Described t).Nonempty ∧ bootCount t = bootCount s
  grown : bootCount t = bootCount s ∨ bootCount t = bootCount s + 1 ∧ (Described t).Nonempty

theorem Growth.refl {s : Store} (h : PreviousCanonical s) : Growth s s := ⟨h, fun hd => ⟨hd, rfl⟩, .inl rfl⟩

theorem Growth.trans {s t u : Store} (h : Growth s t) (h' : Growth t u) : Growth s u where
  canonical := h'.canonical
  kept hd := by
    obtain ⟨ht, hcount⟩ := h.kept hd
    obtain ⟨hu, hcount'⟩ := h'.kept ht
    exact ⟨hu, hcount'.trans hcount⟩
  grown := by
    rcases h.grown with hcount | ⟨hcount, hd⟩
    · rcases h'.grown with hcount' | ⟨hcount', hd'⟩
      · exact .inl (hcount'.trans hcount)
      · exact .inr ⟨by omega, hd'⟩
    · obtain ⟨hd', hcount'⟩ := h'.kept hd
      exact .inr ⟨by omega, hd'⟩

section

variable {arch : Arch} {gpt : GptEsp} {s : Store}

theorem growth_insert_BootOrder (hs : PreviousCanonical s) (value : List UInt8) :
    Growth s (s.insert "BootOrder" value) := by
  have hat (name : String) (n : UInt16) (hn : parseBootVarName name = some n) :
      DescribedAt (s.insert "BootOrder" value) name ↔ DescribedAt s name := by
    rw [DescribedAt, optionAt_insert_ne (ne_BootOrder hn), DescribedAt]
  have hdesc : Described (s.insert "BootOrder" value) = Described s := by
    ext n
    rw [mem_described_iff, mem_described_iff]
    exact exists_congr fun name => and_congr_right fun hn => hat name n hn
  refine ⟨fun name n hleast hn hd => ?_, fun hd => ?_, .inl (bootCount_insert_BootOrder value)⟩
  · rw [hdesc] at hleast
    exact hs name n hleast hn ((hat name n hn).mp hd)
  · rw [hdesc]
    exact ⟨hd, bootCount_insert_BootOrder value⟩

theorem describedAt_insert_self (s : Store) (n : UInt16) :
    DescribedAt (s.insert (bootVarName n) (diskOption arch gpt)) (bootVarName n) :=
  ⟨writtenOption arch gpt, by rw [optionAt_insert, parseLoadOption_diskOption], rfl⟩

theorem describedAt_insert_ne {n : UInt16} {name : String} (h : name ≠ bootVarName n) :
    DescribedAt (s.insert (bootVarName n) (diskOption arch gpt)) name ↔ DescribedAt s name := by
  rw [DescribedAt, optionAt_insert_ne h, DescribedAt]

theorem growth_replaced (hs : PreviousCanonical s) {n : UInt16} (hleast : IsLeast (Described s) n) :
    Growth s (s.insert (bootVarName n) (diskOption arch gpt)) := by
  obtain ⟨name, hname, hat⟩ := mem_described_iff.mp hleast.1
  have heq := hs name n hleast hname hat
  subst heq
  have hmem : bootVarName n ∈ s := by
    obtain ⟨opt, hopt, _⟩ := hat
    exact mem_of_optionAt hopt
  have hdesc : Described (s.insert (bootVarName n) (diskOption arch gpt)) = Described s := by
    ext m
    rw [mem_described_iff, mem_described_iff]
    refine exists_congr fun other => and_congr_right fun _ => ?_
    by_cases ho : other = bootVarName n
    · rw [ho]
      exact ⟨fun _ => hat, fun _ => describedAt_insert_self s n⟩
    · exact describedAt_insert_ne ho
  refine ⟨fun other m hl hm hd => ?_, fun hd => ?_, .inl (bootCount_insert_mem _ hmem)⟩
  · rw [hdesc] at hl
    by_cases ho : other = bootVarName n
    · have hmn : m = n := isLeast_unique hl hleast
      rw [ho, hmn]
    · exact hs other m hl hm ((describedAt_insert_ne ho).mp hd)
  · rw [hdesc]
    exact ⟨hd, bootCount_insert_mem _ hmem⟩

theorem growth_created {n : UInt16} (hnone : ∀ m, m ∉ Described s) (hfree : ¬InUse s n) :
    Growth s (s.insert (bootVarName n) (diskOption arch gpt)) := by
  have hnew : bootVarName n ∉ s := fun h => hfree ⟨bootVarName n, h, parseBootVarName_bootVarName n⟩
  have hself : n ∈ Described (s.insert (bootVarName n) (diskOption arch gpt)) :=
    mem_described_iff.mpr ⟨bootVarName n, parseBootVarName_bootVarName n, describedAt_insert_self s n⟩
  refine ⟨fun other m _ hm hd => ?_, fun ⟨m, hm⟩ => absurd hm (hnone m), .inr ⟨?_, n, hself⟩⟩
  · by_cases ho : other = bootVarName n
    · rw [ho, parseBootVarName_bootVarName, Option.some.injEq] at hm
      rw [ho, hm]
    · exact absurd (mem_described_iff.mpr ⟨other, hm, (describedAt_insert_ne ho).mp hd⟩) (hnone m)
  · rw [bootCount_insert_new _ hnew, parseBootVarName_bootVarName]
    rfl

theorem growth_withEntry (hs : PreviousCanonical s) (d : Decision arch gpt s) (writes : List Write) :
    Growth s ((World.mk s writes).withEntry arch gpt d.number d.outcome).store := by
  have hsel := Decision.selected d
  rw [World.withEntry]
  generalize d.number = n, d.outcome = outcome at hsel
  cases hsel with
  | reused _ => exact Growth.refl hs
  | replaced _ hleast => exact growth_replaced hs hleast
  | created _ hd hleast => exact growth_created hd hleast.1

theorem growth_of_ended (hs : PreviousCanonical s) {faults : Faults} {r : Except EfiBootError BootEntry} {w' : World}
    (h : Ended faults arch gpt ⟨s, []⟩ r w') : Growth s w'.store := by
  cases h with
  | listRefused _ _ => exact Growth.refl hs
  | readRefused _ _ _ => exact Growth.refl hs
  | badOrder _ => exact Growth.refl hs
  | noFree _ _ _ => exact Growth.refl hs
  | entryRefused _ _ _ _ => exact Growth.refl hs
  | orderRefused d _ _ _ => exact growth_withEntry hs d []
  | done d =>
      have hentry := growth_withEntry hs d []
      rw [World.withOrder]
      split
      · exact hentry
      · exact hentry.trans (growth_insert_BootOrder hentry.canonical _)

structure Redeploy where
  gpt : GptEsp
  plan : Nat → Choice

def redeploys (arch : Arch) (s : Store) (runs : List Redeploy) : Store :=
  runs.foldl (fun t run => (ensureRun ⟨true, true⟩ arch run.gpt run.plan t).final.store) s

theorem growth_redeploys (hs : PreviousCanonical s) (runs : List Redeploy) : Growth s (redeploys arch s runs) := by
  induction runs generalizing s with
  | nil => exact Growth.refl hs
  | cons run runs ih =>
      have hstep := growth_of_ended hs (ensureRun_ended ⟨true, true⟩ arch run.gpt run.plan s)
      exact hstep.trans (ih hstep.canonical)

/-- A run from `s` wrote its option over the one variable that it read as its
previous entry, and wrote no other boot variable. -/
structure Overwrites (arch : Arch) (gpt : GptEsp) (s : Store) (n : UInt16) (w' : World) : Prop where
  previous : IsLeast (Described s) n
  read : DescribedAt s (bootVarName n)
  only : ∀ name, parseBootVarName name = some n → DescribedAt s name → name = bootVarName n
  writes : w'.writes.filter (fun x => (parseBootVarName x.name).isSome) = [⟨bootVarName n, true⟩]
  stored : w'.store.lookup (bootVarName n) = some (diskOption arch gpt)

/-- Writing the order touches no boot variable. -/
theorem withOrder_bootVars (w : World) (previous order : List UInt16) :
    (w.withOrder previous order).writes.filter (fun x => (parseBootVarName x.name).isSome) =
        w.writes.filter (fun x => (parseBootVarName x.name).isSome) ∧
      ∀ n, (w.withOrder previous order).store.lookup (bootVarName n) = w.store.lookup (bootVarName n) := by
  rw [World.withOrder]
  split
  · exact ⟨rfl, fun _ => rfl⟩
  · refine ⟨?_, fun n => AList.lookup_insert_ne (bootVarName_ne_BootOrder n)⟩
    dsimp only
    rw [List.filter_append, List.filter_singleton, parseBootVarName_BootOrder]
    exact List.append_nil _

/-- A run that reports a replaced entry wrote over the variable it was read from. -/
theorem replaced_of_ended (hs : PreviousCanonical s) {faults : Faults} {e : BootEntry} {w' : World}
    (h : Ended faults arch gpt ⟨s, []⟩ (.ok e) w') (he : e.outcome = .replaced) :
    Overwrites arch gpt s e.number w' := by
  cases h with
  | done d =>
      have houtcome : d.outcome = .replaced := he
      have hsel := Decision.selected d
      rw [houtcome] at hsel
      cases hsel with
      | replaced _ hleast =>
          obtain ⟨name, hname, hat⟩ := mem_described_iff.mp hleast.1
          have heq := hs name d.number hleast hname hat
          rw [heq] at hat
          obtain ⟨hwrites, hstored⟩ :=
            withOrder_bootVars ((World.mk s []).withEntry arch gpt d.number d.outcome) d.previous d.order
          have hentry : (World.mk s []).withEntry arch gpt d.number d.outcome =
              ⟨s.insert (bootVarName d.number) (diskOption arch gpt), [⟨bootVarName d.number, true⟩]⟩ := by
            rw [World.withEntry, houtcome, if_neg (by simp)]
            rfl
          refine ⟨hleast, hat, fun other hother hd => hs other d.number hleast hother hd, hwrites.trans ?_,
            (hstored d.number).trans ?_⟩
          · rw [hentry, List.filter_singleton, parseBootVarName_bootVarName]
            rfl
          · rw [hentry]
            exact AList.lookup_insert _

/-- Redeploys add at most one boot variable, and none when there was an entry of
ours, as long as that entry has its uppercase name. A run that reports a replaced
entry wrote over the very variable it was read from. -/
theorem redeploys_bounded (arch : Arch) {s : Store} (hs : PreviousCanonical s) (runs : List Redeploy) :
    bootCount (redeploys arch s runs) ≤ bootCount s + 1 ∧
      ((Described s).Nonempty → bootCount (redeploys arch s runs) ≤ bootCount s) ∧
      ∀ gpt plan e, (ensureRun ⟨true, true⟩ arch gpt plan (redeploys arch s runs)).value = .ok e → e.outcome = .replaced →
        Overwrites arch gpt (redeploys arch s runs) e.number
          (ensureRun ⟨true, true⟩ arch gpt plan (redeploys arch s runs)).final := by
  have hgrowth : Growth s (redeploys arch s runs) := growth_redeploys hs runs
  refine ⟨?_, fun hd => (hgrowth.kept hd).2.le, fun gpt plan e he ho => ?_⟩
  · rcases hgrowth.grown with h | ⟨h, _⟩ <;> omega
  · have hended := ensureRun_ended ⟨true, true⟩ arch gpt plan (redeploys arch s runs)
    rw [he] at hended
    exact replaced_of_ended hgrowth.canonical hended ho

theorem redeploys_bounded_pxeStore :
    bootCount (redeploys .x86_64 pxeStore [⟨sampleEsp, calm⟩, ⟨{ sampleEsp with number := 2 }, calm⟩]) ≤ 2 :=
  (redeploys_bounded .x86_64 (s := pxeStore) (previousCanonical_of_canonical (by decide))
    [⟨sampleEsp, calm⟩, ⟨{ sampleEsp with number := 2 }, calm⟩]).1

/-- An entry of ours for another disk, under a lowercase name. -/
def lowerStore : Store :=
  List.toAList [⟨"Boot001a", diskOption .x86_64 { sampleEsp with number := 2 }⟩]

theorem not_bounded_lowerStore :
    ¬((Described lowerStore).Nonempty →
      bootCount (redeploys .x86_64 lowerStore [⟨sampleEsp, calm⟩]) ≤ bootCount lowerStore) := by
  intro h
  have hours : (Described lowerStore).Nonempty := by
    refine ⟨0x1a, writtenOption .x86_64 { sampleEsp with number := 2 }, ⟨"Boot001a", by decide, ?_⟩, rfl⟩
    exact parseLoadOption_diskOption .x86_64 { sampleEsp with number := 2 }
  have hgrows : ¬bootCount (redeploys .x86_64 lowerStore [⟨sampleEsp, calm⟩]) ≤ bootCount lowerStore := by
    decide +kernel
  exact hgrows (h hours)

end

end Beskar7Inspector.BootGrowth
