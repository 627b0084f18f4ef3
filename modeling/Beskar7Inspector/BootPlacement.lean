import Beskar7Inspector.BootOptions

namespace Beskar7Inspector.BootPlacement

open Lib.Os Deploy Esp DevicePath BootOrder Efiboot VarStore BootOptions

/-- After a run the firmware comes to the new disk on its own, right after the
network entries that led the order. -/
structure BootsDisk (s s' : Store) (e : BootEntry) : Prop where
  autoBoots : autoBoots s' e.number = true
  order : (s'.lookup "BootOrder").bind parseBootOrder = some e.bootOrder
  placed : ∃ previous rest, readOrder s = some previous ∧
    e.bootOrder.filter (BootOptions.autoBoots s') =
      ((previous.filter (· ≠ e.number)).filter (BootOptions.autoBoots s')).takeWhile (netBoots s') ++ e.number :: rest

def ReusesBootCategory (arch : Arch) (gpt : GptEsp) (s : Store) : Prop :=
  ∀ n opt, IsLeast (Starting arch gpt s) n → optionAt s (bootVarName n) = some opt →
    opt.attributes &&& LOAD_OPTION_CATEGORY = 0

section

variable {arch : Arch} {gpt : GptEsp} {s : Store}

theorem isAutoBootable_of_startsLoader {opt : LoadOption} (hstarts : startsLoader gpt arch.espLoaderPath opt = true)
    (hcat : opt.attributes &&& LOAD_OPTION_CATEGORY = 0) : opt.isAutoBootable = true := by
  rw [startsLoader, Bool.and_eq_true, Bool.and_eq_true] at hstarts
  rw [LoadOption.isAutoBootable, hstarts.1.1, hcat]
  rfl

theorem autoBoots_of_decision (hs : Canonical s) (hcat : ReusesBootCategory arch gpt s) (d : Decision arch gpt s)
    (writes : List Write) :
    autoBoots ((World.mk s writes).withEntry arch gpt d.number d.outcome).store d.number = true := by
  by_cases ho : d.outcome = .reused
  · have hsel := Decision.selected d
    rw [ho] at hsel
    cases hsel with
    | reused hleast =>
        obtain ⟨opt, hopt, hstarts⟩ := hleast.1
        rw [hs.holds_iff] at hopt
        have hboot := isAutoBootable_of_startsLoader hstarts (hcat d.number opt hleast hopt)
        rw [World.withEntry, if_pos ho, autoBoots, hopt]
        exact hboot
  · rw [autoBoots, optionAt_withEntry_self ho]
    exact isAutoBootable_writtenOption arch gpt

theorem bootsDisk_of_decision (hs : Canonical s) (hcat : ReusesBootCategory arch gpt s) (d : Decision arch gpt s)
    (writes : List Write) :
    BootsDisk s (((World.mk s writes).withEntry arch gpt d.number d.outcome).withOrder d.previous d.order).store
      d.entry := by
  have hauto := autoBoots_of_decision hs hcat d writes
  generalize hw : (World.mk s writes).withEntry arch gpt d.number d.outcome = w at hauto
  have hread : readOrder w.store = some d.previous := by
    rw [← hw, readOrder_withEntry]
    exact d.read
  have hopt (m : UInt16) : optionAt (w.withOrder d.previous d.order).store (bootVarName m) =
      optionAt w.store (bootVarName m) := optionAt_withOrder _ _ (bootVarName_ne_BootOrder m)
  have hold (m : UInt16) (hm : m ≠ d.number) : optionAt w.store (bootVarName m) = optionAt s (bootVarName m) := by
    rw [← hw]
    exact optionAt_withEntry d.outcome (fun h => hm (bootVarName_injective h))
  have hauto' : autoBoots (w.withOrder d.previous d.order).store = autoBoots w.store := by
    funext m
    rw [autoBoots, hopt, autoBoots]
  have hnet' : netBoots (w.withOrder d.previous d.order).store = netBoots w.store := by
    funext m
    rw [netBoots, hopt, netBoots]
  have horder : d.order = placeAfterNetwork d.previous d.number (autoBoots w.store) (netBoots w.store) := by
    rw [hs.decision_order]
    refine placeAfterNetwork_congr rfl fun m hm => ?_
    rw [autoBoots, autoBoots, netBoots, netBoots, hold m hm]
    exact ⟨rfl, rfl⟩
  refine ⟨?_, ?_, ?_⟩
  · rw [hauto']
    exact hauto
  · refine lookup_BootOrder_withOrder hread ?_
    rw [horder]
    exact placeAfterNetwork_ne_nil _
  · obtain ⟨rest, hrest⟩ := filter_bootable_placeAfterNetwork (netBoots w.store) d.previous hauto (fun _ _ => rfl)
    refine ⟨d.previous, rest, d.read, ?_⟩
    rw [hauto', hnet', Decision.entry, horder]
    exact hrest

/-- A run that succeeds leaves a disk the firmware boots on its own exactly when
the option it would reuse, the lowest active one that starts the loader, is of
the BOOT category. -/
theorem ensureRun_bootsDisk_iff (arch : Arch) (gpt : GptEsp) (plan : Nat → Choice) {s : Store} (hs : Canonical s)
    (heven : ∀ raw, s.lookup "BootOrder" = some raw → raw.length % 2 = 0) :
    (∀ e, (ensureRun ⟨false, false⟩ arch gpt plan s).value = .ok e →
      BootsDisk s (ensureRun ⟨false, false⟩ arch gpt plan s).final.store e) ↔ ReusesBootCategory arch gpt s := by
  have hended := ensureRun_ended ⟨false, false⟩ arch gpt plan s
  generalize (ensureRun ⟨false, false⟩ arch gpt plan s).value = r at *
  generalize (ensureRun ⟨false, false⟩ arch gpt plan s).final = w' at *
  constructor
  · intro h n opt hleast hopt
    have hread : readOrder s ≠ none := by
      rw [readOrder]
      cases hl : s.lookup "BootOrder" with
      | none => simp
      | some raw => simp [parseBootOrder, heven raw hl]
    obtain ⟨d, rfl, rfl⟩ := done_of_faultless hended hread (.reused hleast)
    obtain ⟨hnum, hout⟩ := (Decision.selected d).unique (.reused hleast)
    have hboots := (h d.entry rfl).autoBoots
    rw [World.withEntry, if_pos hout, autoBoots, optionAt_withOrder _ _ (bootVarName_ne_BootOrder _)] at hboots
    change (optionAt s (bootVarName d.number)).any _ = true at hboots
    rw [hnum, hopt, Option.any_some, LoadOption.isAutoBootable, Bool.and_eq_true] at hboots
    exact beq_iff_eq.mp hboots.2
  · intro hcat e he
    subst he
    cases hended with
    | done d => exact bootsDisk_of_decision hs hcat d []

end

section

theorem ensureRun_bootsDisk_pxeStore :
    (ensureRun ⟨false, false⟩ .x86_64 sampleEsp calm pxeStore).value = .ok ⟨1, .created, [0], [0, 1]⟩ ∧
      BootsDisk pxeStore (ensureRun ⟨false, false⟩ .x86_64 sampleEsp calm pxeStore).final.store
        ⟨1, .created, [0], [0, 1]⟩ := by
  have hvalue : (ensureRun ⟨false, false⟩ .x86_64 sampleEsp calm pxeStore).value = .ok ⟨1, .created, [0], [0, 1]⟩ := by
    rfl
  refine ⟨hvalue, (ensureRun_bootsDisk_iff .x86_64 sampleEsp calm (s := pxeStore) (by decide) ?_).mpr ?_ _ hvalue⟩
  · intro raw hraw
    cases hraw
    rfl
  · rintro n opt ⟨⟨opt', ⟨name, hname, hopt'⟩, hstarts⟩, _⟩ _
    have hmem : name ∈ ["BootOrder", "Boot0000"] := AList.mem_keys.mp (mem_of_optionAt hopt')
    simp only [List.mem_cons, List.not_mem_nil, or_false] at hmem
    rcases hmem with rfl | rfl
    · cases hname
    · have hpxe : optionAt pxeStore "Boot0000" = parseLoadOption pxeOption := rfl
      rw [hpxe] at hopt'
      have hnot : (parseLoadOption pxeOption).any (startsLoader sampleEsp Arch.x86_64.espLoaderPath) = false := by
        decide
      rw [hopt', Option.any_some, hstarts] at hnot
      cases hnot

/-- The firmware has an option of ours that was moved to the APP category. -/
def appStore : Store :=
  List.toAList [⟨"Boot0001", encodeLoadOption 0x101 "beskar7" (hdFileDevicePath sampleEsp Arch.x86_64.espLoaderPath)⟩]

theorem not_bootsDisk_appStore :
    ¬ ∀ e, (ensureRun ⟨false, false⟩ .x86_64 sampleEsp calm appStore).value = .ok e →
      BootsDisk appStore (ensureRun ⟨false, false⟩ .x86_64 sampleEsp calm appStore).final.store e := by
  intro h
  have hvalue : (ensureRun ⟨false, false⟩ .x86_64 sampleEsp calm appStore).value = .ok ⟨1, .reused, [], [1]⟩ := by
    decide +kernel
  have hboots := (h _ hvalue).autoBoots
  revert hboots
  decide +kernel

end

end Beskar7Inspector.BootPlacement
