import Beskar7Inspector.VarStore
import Mathlib.Order.Bounds.Defs

namespace Beskar7Inspector.BootOptions

open Lib.Text Lib.Hexadecimal Lib.Os Deploy Esp DevicePath BootOrder Efiboot VarStore

theorem hexDigitValue_hexUpper {d : Nat} (h : d < 16) : hexDigitValue (hexUpper d) = some d := by
  have hall : ∀ d : Fin 16, hexDigitValue (hexUpper d) = some d.val := by decide
  exact hall ⟨d, h⟩

theorem parseBootVarName_bootVarName (n : UInt16) : parseBootVarName (bootVarName n) = some n := by
  have hn := n.toNat_lt
  have hstrip : Lib.Text.stripPrefix "Boot" (bootVarName n) = some (String.ofList [hexUpper (n.toNat / 4096),
      hexUpper (n.toNat / 256 % 16), hexUpper (n.toNat / 16 % 16), hexUpper (n.toNat % 16)]) := by
    simp [Lib.Text.stripPrefix, bootVarName]
  rw [parseBootVarName, hstrip]
  simp only [Option.bind_eq_bind, Option.bind_some, String.toList_ofList, hexNumber]
  rw [hexDigitValue_hexUpper (by omega), hexDigitValue_hexUpper (by omega), hexDigitValue_hexUpper (by omega),
    hexDigitValue_hexUpper (by omega)]
  simp only [Option.bind_some]
  have hval : n.toNat / 4096 * 4096 + n.toNat / 256 % 16 * 256 + n.toNat / 16 % 16 * 16 + n.toNat % 16 = n.toNat := by
    omega
  rw [hval, UInt16.ofNat_toNat]

theorem bootVarName_injective {m n : UInt16} (h : bootVarName m = bootVarName n) : m = n := by
  have hm := parseBootVarName_bootVarName m
  rw [h, parseBootVarName_bootVarName] at hm
  exact (Option.some.inj hm).symm

theorem parseBootVarName_BootOrder : parseBootVarName "BootOrder" = none := by decide

theorem ne_BootOrder {name : String} {n : UInt16} (h : parseBootVarName name = some n) : name ≠ "BootOrder" := by
  rintro rfl
  cases h

theorem bootVarName_ne_BootOrder (n : UInt16) : bootVarName n ≠ "BootOrder" :=
  ne_BootOrder (parseBootVarName_bootVarName n)

/-- What the variable `name` parses as. -/
def optionAt (s : Store) (name : String) : Option LoadOption := (s.lookup name).bind parseLoadOption

/-- Some variable with the number `n`, in either hex case, parses as `opt`. -/
def Holds (s : Store) (n : UInt16) (opt : LoadOption) : Prop :=
  ∃ name, parseBootVarName name = some n ∧ optionAt s name = some opt

/-- Some variable has the number `n`, whatever it holds. -/
def InUse (s : Store) (n : UInt16) : Prop := ∃ name ∈ s, parseBootVarName name = some n

/-- Every boot variable has the uppercase name of its number. -/
def Canonical (s : Store) : Prop := ∀ name ∈ s, ∀ n, parseBootVarName name = some n → name = bootVarName n

instance (s : Store) : Decidable (Canonical s) :=
  decidable_of_iff (∀ name ∈ s.keys, (parseBootVarName name).all (fun n => name == bootVarName n) = true) (by
    simp only [Option.all_eq_true, beq_iff_eq]
    rfl)

theorem mem_of_optionAt {s : Store} {name : String} {opt : LoadOption} (h : optionAt s name = some opt) : name ∈ s := by
  obtain ⟨v, hv, _⟩ := Option.bind_eq_some_iff.mp h
  exact AList.lookup_isSome.mp (by rw [hv]; rfl)

section

variable {s : Store} {names : List String}

theorem mem_sortedEntries (hn : names.Perm s.keys) {n : UInt16} {opt : LoadOption} :
    (n, opt) ∈ sortedEntries s names ↔ Holds s n opt := by
  rw [sortedEntries, (List.perm_insertionSort _ _).mem_iff, namedEntries, List.mem_filterMap]
  constructor
  · rintro ⟨name, _, h⟩
    simp only [Option.bind_eq_bind, Option.bind_eq_some_iff, Option.some.injEq, Prod.mk.injEq] at h
    obtain ⟨m, hm, o, ⟨v, hv, ho⟩, rfl, rfl⟩ := h
    exact ⟨name, hm, by rw [optionAt, hv, Option.bind_some, ho]⟩
  · rintro ⟨name, hname, ho⟩
    refine ⟨name, hn.mem_iff.mpr (AList.mem_keys.mp (mem_of_optionAt ho)), ?_⟩
    rw [optionAt] at ho
    simp [hname, ho]

theorem mem_usedNumbers (hn : names.Perm s.keys) {n : UInt16} :
    n ∈ (usedNumbers names).insertionSort (· ≤ ·) ↔ InUse s n := by
  rw [(List.perm_insertionSort _ _).mem_iff, usedNumbers, List.mem_filterMap]
  exact exists_congr fun name => and_congr_left fun _ => hn.mem_iff.trans AList.mem_keys.symm

theorem min?_numbers_eq_some_iff {entries : List (UInt16 × LoadOption)} {p : LoadOption → Bool} {n : UInt16} :
    ((entries.filter (fun e => p e.2)).map Prod.fst).min? = some n ↔
      IsLeast {m | ∃ opt, (m, opt) ∈ entries ∧ p opt = true} n := by
  have hmem : ∀ m, m ∈ (entries.filter (fun e => p e.2)).map Prod.fst ↔ ∃ opt, (m, opt) ∈ entries ∧ p opt = true := by
    simp
  rw [List.min?_eq_some_iff]
  simp only [hmem]
  rfl

theorem firstFree_spec (used : List UInt16) (count n : Nat) (h : n + count = UInt16.size) :
    match firstFree used count n with
    | some m => m ∉ used ∧ ∀ k : UInt16, n ≤ k.toNat → k.toNat < m.toNat → k ∈ used
    | none => ∀ k : UInt16, n ≤ k.toNat → k ∈ used := by
  induction count generalizing n with
  | zero =>
      intro k hk
      have := k.toNat_lt
      simp only [UInt16.size] at h
      omega
  | succ count ih =>
      have hsize : n < UInt16.size := by omega
      have hn : (UInt16.ofNat n).toNat = n := UInt16.toNat_ofNat_of_lt hsize
      rw [firstFree]
      by_cases hfree : UInt16.ofNat n ∉ used
      · rw [if_pos hfree]
        exact ⟨hfree, fun k hk hlt => absurd hlt (by omega)⟩
      · rw [if_neg hfree]
        have hused (k : UInt16) (hk : k.toNat = n) : k ∈ used := by
          rw [← hn] at hk
          rw [UInt16.toNat_inj.mp hk]
          exact not_not.mp hfree
        have hrest := ih (n + 1) (by omega)
        split at hrest
        · obtain ⟨hm, hbelow⟩ := hrest
          refine ⟨hm, fun k hk hlt => ?_⟩
          rcases Nat.lt_or_ge n k.toNat with hlt' | hge
          · exact hbelow k hlt' hlt
          · exact hused k (by omega)
        · intro k hk
          rcases Nat.lt_or_ge n k.toNat with hlt' | hge
          · exact hrest k hlt'
          · exact hused k (by omega)

theorem freeBootNumber_some {used : List UInt16} {n : UInt16} (h : freeBootNumber used = some n) :
    IsLeast {m | m ∉ used} n := by
  have hspec := firstFree_spec used UInt16.size 0 (Nat.zero_add _)
  rw [freeBootNumber] at h
  rw [h] at hspec
  refine ⟨hspec.1, fun m hm => ?_⟩
  by_contra hlt
  exact hm (hspec.2 m (Nat.zero_le _) (UInt16.lt_iff_toNat_lt.mp (UInt16.not_le.mp hlt)))

end

/-- The numbers of the options that start the partition's loader. -/
def Starting (arch : Arch) (gpt : GptEsp) (s : Store) : Set UInt16 :=
  {n | ∃ opt, Holds s n opt ∧ startsLoader gpt arch.espLoaderPath opt = true}

/-- The numbers of the options described `beskar7`. -/
def Described (s : Store) : Set UInt16 := {n | ∃ opt, Holds s n opt ∧ opt.description = DESCRIPTION}

/-- What the choice comes to, in terms of the store alone. -/
inductive Selected (arch : Arch) (gpt : GptEsp) (s : Store) : UInt16 → Outcome → Prop
  | reused {n : UInt16} (h : IsLeast (Starting arch gpt s) n) : Selected arch gpt s n .reused
  | replaced {n : UInt16} (hs : ∀ m, m ∉ Starting arch gpt s) (h : IsLeast (Described s) n) :
      Selected arch gpt s n .replaced
  | created {n : UInt16} (hs : ∀ m, m ∉ Starting arch gpt s) (hd : ∀ m, m ∉ Described s)
      (h : IsLeast {m | ¬InUse s m} n) : Selected arch gpt s n .created

theorem isLeast_unique {S : Set UInt16} {a b : UInt16} (ha : IsLeast S a) (hb : IsLeast S b) : a = b :=
  UInt16.le_antisymm (ha.2 hb.1) (hb.2 ha.1)

theorem Selected.unique {arch : Arch} {gpt : GptEsp} {s : Store} {m n : UInt16} {a b : Outcome}
    (hm : Selected arch gpt s m a) (hn : Selected arch gpt s n b) : m = n ∧ a = b := by
  cases hm with
  | reused hm => cases hn with
    | reused hn => exact ⟨isLeast_unique hm hn, rfl⟩
    | replaced hs => exact absurd hm.1 (hs m)
    | created hs => exact absurd hm.1 (hs m)
  | replaced hs hm => cases hn with
    | reused hn => exact absurd hn.1 (hs n)
    | replaced _ hn => exact ⟨isLeast_unique hm hn, rfl⟩
    | created _ hd => exact absurd hm.1 (hd m)
  | created hs hd hm => cases hn with
    | reused hn => exact absurd hn.1 (hs n)
    | replaced _ hn => exact absurd hn.1 (hd n)
    | created _ _ hn => exact ⟨isLeast_unique hm hn, rfl⟩

section

variable {arch : Arch} {gpt : GptEsp} {s : Store} {names : List String}

theorem pickExisting_eq_some_iff (hn : names.Perm s.keys) {n : UInt16} :
    pickExisting (sortedEntries s names) gpt arch.espLoaderPath = some n ↔ IsLeast (Starting arch gpt s) n := by
  rw [pickExisting, min?_numbers_eq_some_iff]
  simp only [mem_sortedEntries hn]
  rfl

theorem previousEntry_eq_some_iff (hn : names.Perm s.keys) {n : UInt16} :
    previousEntry (sortedEntries s names) = some n ↔ IsLeast (Described s) n := by
  rw [previousEntry, min?_numbers_eq_some_iff (p := fun opt => opt.description == DESCRIPTION)]
  simp only [mem_sortedEntries hn, beq_iff_eq]
  rfl

theorem pickExisting_eq_none (hn : names.Perm s.keys)
    (h : pickExisting (sortedEntries s names) gpt arch.espLoaderPath = none) (n : UInt16) :
    n ∉ Starting arch gpt s := by
  rintro ⟨opt, hopt, hstarts⟩
  rw [pickExisting, List.min?_eq_none_iff, List.map_eq_nil_iff, List.filter_eq_nil_iff] at h
  exact h (n, opt) ((mem_sortedEntries hn).mpr hopt) hstarts

theorem previousEntry_eq_none (hn : names.Perm s.keys) (h : previousEntry (sortedEntries s names) = none)
    (n : UInt16) : n ∉ Described s := by
  rintro ⟨opt, hopt, hdesc⟩
  rw [previousEntry, List.min?_eq_none_iff, List.map_eq_nil_iff, List.filter_eq_nil_iff] at h
  exact h (n, opt) ((mem_sortedEntries hn).mpr hopt) (beq_iff_eq.mpr hdesc)

theorem selected_of_choose (hn : names.Perm s.keys) {n : UInt16} {outcome : Outcome}
    (h : choose arch gpt (sortedEntries s names) ((usedNumbers names).insertionSort (· ≤ ·)) = some (n, outcome)) :
    Selected arch gpt s n outcome := by
  rw [choose] at h
  cases hp : pickExisting (sortedEntries s names) gpt arch.espLoaderPath with
  | some m =>
      simp only [hp, Option.some.injEq, Prod.mk.injEq] at h
      obtain ⟨rfl, rfl⟩ := h
      exact .reused ((pickExisting_eq_some_iff hn).mp hp)
  | none =>
      have hs := pickExisting_eq_none hn hp
      cases hv : previousEntry (sortedEntries s names) with
      | some m =>
          simp only [hp, hv, Option.some.injEq, Prod.mk.injEq] at h
          obtain ⟨rfl, rfl⟩ := h
          exact .replaced hs ((previousEntry_eq_some_iff hn).mp hv)
      | none =>
          simp only [hp, hv, Option.map_eq_some_iff, Prod.mk.injEq] at h
          obtain ⟨m, hf, rfl, rfl⟩ := h
          have hfree := freeBootNumber_some hf
          simp only [mem_usedNumbers hn] at hfree
          exact .created hs (previousEntry_eq_none hn hv) hfree

theorem not_selected_of_choose (hn : names.Perm s.keys)
    (h : choose arch gpt (sortedEntries s names) ((usedNumbers names).insertionSort (· ≤ ·)) = none)
    (n : UInt16) (outcome : Outcome) : ¬Selected arch gpt s n outcome := by
  rw [choose] at h
  cases hp : pickExisting (sortedEntries s names) gpt arch.espLoaderPath with
  | some m => simp [hp] at h
  | none => cases hv : previousEntry (sortedEntries s names) with
    | some m => simp [hp, hv] at h
    | none =>
        simp only [hp, hv, Option.map_eq_none_iff] at h
        intro hsel
        cases hsel with
        | reused hl => exact pickExisting_eq_none hn hp n hl.1
        | replaced _ hl => exact previousEntry_eq_none hn hv n hl.1
        | created _ _ hl =>
            have hspec := firstFree_spec ((usedNumbers names).insertionSort (· ≤ ·)) UInt16.size 0 (Nat.zero_add _)
            rw [freeBootNumber] at h
            rw [h] at hspec
            exact hl.1 ((mem_usedNumbers hn).mp (hspec n (Nat.zero_le _)))

end

/-- The option written for a disk, as the firmware parses it. -/
def writtenOption (arch : Arch) (gpt : GptEsp) : LoadOption :=
  ⟨LOAD_OPTION_ACTIVE, DESCRIPTION, hdFileDevicePath gpt arch.espLoaderPath⟩

section

variable (arch : Arch) (gpt : GptEsp)

theorem ucs2Nul_espLoaderPath_length : (ucs2Nul arch.espLoaderPath).length < 100 := by
  cases arch <;> decide

theorem hdFileDevicePath_length : (hdFileDevicePath gpt arch.espLoaderPath).length < 65536 := by
  have hloader := ucs2Nul_espLoaderPath_length arch
  simp only [hdFileDevicePath_eq, encodeNode, List.length_append, hdData_length, Lib.LittleEndian.encode_length,
    List.length_cons, List.length_nil]
  omega

theorem parseLoadOption_diskOption : parseLoadOption (diskOption arch gpt) = some (writtenOption arch gpt) := by
  have hdesc : Char.ofNat 0 ∉ DESCRIPTION.toList := by decide
  have h := parseLoadOption_encodeLoadOption LOAD_OPTION_ACTIVE hdesc (hdFileDevicePath_length arch gpt) []
  rwa [List.append_nil] at h

theorem startsLoader_writtenOption : startsLoader gpt arch.espLoaderPath (writtenOption arch gpt) = true := by
  have hlen : 4 + (ucs2Nul arch.espLoaderPath).length < 65536 := by
    have := ucs2Nul_espLoaderPath_length arch
    omega
  have hnul : Char.ofNat 0 ∉ arch.espLoaderPath.toList := by
    cases arch <;> decide
  have hhd := hd_hdFileDevicePath LOAD_OPTION_ACTIVE DESCRIPTION gpt hlen
  have hpath := loaderPath_hdFileDevicePath LOAD_OPTION_ACTIVE DESCRIPTION gpt hnul hlen
  have hsame : eqIgnoreAsciiCase (normalizePath [arch.espLoaderPath.toList]) arch.espLoaderPath = true := by
    cases arch <;> decide
  rw [startsLoader, writtenOption, hhd, hpath]
  simp [HdNode.is, LoadOption.isActive, hsame, LOAD_OPTION_ACTIVE]

theorem isAutoBootable_writtenOption : (writtenOption arch gpt).isAutoBootable = true := by
  have hbits : (LOAD_OPTION_ACTIVE &&& LOAD_OPTION_ACTIVE != 0 && LOAD_OPTION_ACTIVE &&& LOAD_OPTION_CATEGORY == 0) = true := by
    decide
  exact hbits

end

section

variable {s : Store}

theorem optionAt_insert (name : String) (value : List UInt8) :
    optionAt (s.insert name value) name = parseLoadOption value := by
  rw [optionAt, AList.lookup_insert, Option.bind_some]

theorem optionAt_insert_ne {name other : String} (h : other ≠ name) (value : List UInt8) :
    optionAt (s.insert name value) other = optionAt s other := by
  rw [optionAt, AList.lookup_insert_ne h, optionAt]

theorem Canonical.insert (hs : Canonical s) {name : String} (hname : ∀ n, parseBootVarName name = some n → name = bootVarName n)
    (value : List UInt8) : Canonical (s.insert name value) := by
  intro other hother n hn
  rcases (AList.mem_insert _).mp hother with rfl | h
  · exact hname n hn
  · exact hs other h n hn

theorem canonical_bootVarName (n m : UInt16) (h : parseBootVarName (bootVarName n) = some m) :
    bootVarName n = bootVarName m := by
  rw [parseBootVarName_bootVarName, Option.some.injEq] at h
  rw [h]

theorem Canonical.holds_iff (hs : Canonical s) {n : UInt16} {opt : LoadOption} :
    Holds s n opt ↔ optionAt s (bootVarName n) = some opt := by
  constructor
  · rintro ⟨name, hname, hopt⟩
    rwa [← hs name (mem_of_optionAt hopt) n hname]
  · exact fun h => ⟨bootVarName n, parseBootVarName_bootVarName n, h⟩

/-- In a canonical store each number stands for one variable. -/
theorem Canonical.optionOf (hs : Canonical s) {names : List String} (hn : names.Perm s.keys) (n : UInt16) :
    optionOf (sortedEntries s names) n = optionAt s (bootVarName n) := by
  rw [Efiboot.optionOf]
  cases hf : (sortedEntries s names).find? (fun e => e.1 == n) with
  | some e =>
      obtain ⟨m, opt⟩ := e
      have hm : m = n := by simpa using List.find?_some hf
      have hholds := (mem_sortedEntries hn).mp (List.mem_of_find?_eq_some hf)
      rw [hm, hs.holds_iff] at hholds
      rw [hholds]
      rfl
  | none =>
      cases hopt : optionAt s (bootVarName n) with
      | none => rfl
      | some opt =>
          have hmem := (mem_sortedEntries hn).mpr (hs.holds_iff.mpr hopt)
          have := List.find?_eq_none.mp hf _ hmem
          simp at this

def autoBoots (s : Store) (n : UInt16) : Bool := (optionAt s (bootVarName n)).any LoadOption.isAutoBootable

def netBoots (s : Store) (n : UInt16) : Bool := (optionAt s (bootVarName n)).any (fun opt => isNetwork opt.devicePath)

theorem Canonical.decision_order (hs : Canonical s) {arch : Arch} {gpt : GptEsp} (d : Decision arch gpt s) :
    d.order = placeAfterNetwork d.previous d.number (autoBoots s) (netBoots s) := by
  simp only [Decision.order, place, hs.optionOf d.listed]
  rfl

theorem Decision.selected {arch : Arch} {gpt : GptEsp} (d : Decision arch gpt s) :
    Selected arch gpt s d.number d.outcome :=
  selected_of_choose d.listed d.chosen

/-- Whatever order the variables are listed in, the same is decided. -/
theorem Canonical.decision_unique (hs : Canonical s) {arch : Arch} {gpt : GptEsp} (d d' : Decision arch gpt s) :
    d.number = d'.number ∧ d.outcome = d'.outcome ∧ d.previous = d'.previous ∧ d.order = d'.order := by
  obtain ⟨hnum, hout⟩ := (Decision.selected d).unique (Decision.selected d')
  have hprev : d.previous = d'.previous := by
    have h := d.read
    rw [d'.read] at h
    exact (Option.some.inj h).symm
  refine ⟨hnum, hout, hprev, ?_⟩
  rw [hs.decision_order, hs.decision_order, hnum, hprev]

variable {arch : Arch} {gpt : GptEsp} {w : World}

theorem optionAt_withOrder (previous order : List UInt16) {name : String} (h : name ≠ "BootOrder") :
    optionAt (w.withOrder previous order).store name = optionAt w.store name := by
  rw [World.withOrder]
  split
  · rfl
  · exact optionAt_insert_ne h _

theorem optionAt_withEntry {n : UInt16} (outcome : Outcome) {name : String} (h : name ≠ bootVarName n) :
    optionAt (w.withEntry arch gpt n outcome).store name = optionAt w.store name := by
  rw [World.withEntry]
  split
  · rfl
  · exact optionAt_insert_ne h _

theorem optionAt_withEntry_self {n : UInt16} {outcome : Outcome} (h : outcome ≠ .reused) :
    optionAt (w.withEntry arch gpt n outcome).store (bootVarName n) = some (writtenOption arch gpt) := by
  rw [World.withEntry, if_neg h, optionAt_insert, parseLoadOption_diskOption]

theorem lookup_BootOrder_withEntry (n : UInt16) (outcome : Outcome) :
    (w.withEntry arch gpt n outcome).store.lookup "BootOrder" = w.store.lookup "BootOrder" := by
  rw [World.withEntry]
  split
  · rfl
  · exact AList.lookup_insert_ne (bootVarName_ne_BootOrder n).symm

theorem lookup_BootOrder_withOrder {previous order : List UInt16} (hprev : readOrder w.store = some previous)
    (hne : order ≠ []) :
    ((w.withOrder previous order).store.lookup "BootOrder").bind parseBootOrder = some order := by
  rw [World.withOrder]
  split
  · rename_i heq
    rw [readOrder] at hprev
    cases hl : w.store.lookup "BootOrder" with
    | none =>
        rw [hl] at hprev
        exact absurd (heq.trans (Option.some.inj hprev).symm) hne
    | some raw =>
        rw [hl] at hprev
        rw [Option.bind_some, heq]
        exact hprev
  · rw [AList.lookup_insert, Option.bind_some, parseBootOrder_encodeBootOrder]

theorem readOrder_withEntry (n : UInt16) (outcome : Outcome) :
    readOrder (w.withEntry arch gpt n outcome).store = readOrder w.store := by
  rw [readOrder, lookup_BootOrder_withEntry, readOrder]

theorem done_of_faultless {r : Except EfiBootError BootEntry} {w' : World} (h : Ended ⟨false, false⟩ arch gpt w r w')
    (hread : readOrder w.store ≠ none) {n : UInt16} {outcome : Outcome} (hsel : Selected arch gpt w.store n outcome) :
    ∃ d : Decision arch gpt w.store,
      r = .ok d.entry ∧ w' = (w.withEntry arch gpt d.number d.outcome).withOrder d.previous d.order := by
  cases h with
  | listRefused _ hf => cases hf
  | readRefused _ _ hf => cases hf
  | badOrder hb => exact absurd hb hread
  | noFree names hn hc => exact absurd hsel (not_selected_of_choose hn hc n outcome)
  | entryRefused _ _ _ hf => cases hf
  | orderRefused _ _ _ hf => cases hf
  | done d => exact ⟨d, rfl, rfl⟩

end

/-! A small store. -/

/-- The ESP at sectors 2048 to 4095. -/
def sampleEsp : GptEsp where
  number := 1
  uniqueGuid := ⟨[0x10, 0x11, 0x12, 0x13, 0x14, 0x15, 0x16, 0x17, 0x18, 0x19, 0x1a, 0x1b, 0x1c, 0x1d, 0x1e, 0x1f], rfl⟩
  firstLba := 2048
  lastLba := 4095

/-- An active option that boots over the network: one MAC node. -/
def pxeOption : List UInt8 :=
  encodeLoadOption 1 "PXE" (encodeNode ⟨DP_MESSAGING, 11, [0x52, 0x54, 0, 0, 0, 1]⟩ ++ [DP_END, DP_END_ENTIRE, 4, 0])

def pxeStore : Store := List.toAList [⟨"BootOrder", encodeBootOrder [0]⟩, ⟨"Boot0000", pxeOption⟩]

def calm : Nat → Choice := fun _ => ⟨none, []⟩

end Beskar7Inspector.BootOptions
