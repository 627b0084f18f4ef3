import Beskar7Inspector.Client
import Beskar7Inspector.Lib.Decimal
import Beskar7Inspector.SmbiosTable
import Mathlib.Data.Nat.Bitwise

namespace Beskar7Inspector.MemoryReport

open Lib.Text Lib.Decimal Lib.Utf8 Smbios

def typeMemoryDevice : UInt8 := 17

def offSize : Nat := 0x0C

def offDeviceLocator : Nat := 0x10

def offMemoryType : Nat := 0x12

def offSpeed : Nat := 0x15

def offExtendedSize : Nat := 0x1C

def sizeEmpty : UInt16 := 0

def sizeUnknown : UInt16 := 0xFFFF

/-- The size is in the extended field. -/
def sizeUseExtended : UInt16 := 0x7FFF

/-- Set when the size is in KB, clear when it is in MB. -/
def sizeUnitKbBit : UInt16 := 0x8000

def speedUnknown : UInt16 := 0xFFFF

def mibPerGib : UInt64 := 1024

def formatCapacity (mib : UInt64) : String :=
  if mib ≠ 0 ∧ mib % mibPerGib = 0 then Nat.repr (mib / mibPerGib).toNat ++ "GiB"
  else Nat.repr mib.toNat ++ "MiB"

/-- The capacity of a slot; none when it is empty or its size is not known. -/
def capacity (s : Structure) : Option String :=
  match s.word offSize with
  | none => none
  | some size =>
      if size = sizeEmpty ∨ size = sizeUnknown then none
      else
        let mib :=
          if size = sizeUseExtended then (s.dword offExtendedSize).map UInt32.toUInt64
          else if size &&& sizeUnitKbBit ≠ 0 then some ((size &&& ~~~sizeUnitKbBit).toUInt64 / 1024)
          else some size.toUInt64
        mib.map formatCapacity

def memoryType (code : Option UInt8) : String :=
  match code with
  | some 0x12 => "DDR"
  | some 0x13 => "DDR2"
  | some 0x14 => "DDR2 FB-DIMM"
  | some 0x18 => "DDR3"
  | some 0x1A => "DDR4"
  | some 0x1B => "LPDDR"
  | some 0x1C => "LPDDR2"
  | some 0x1D => "LPDDR3"
  | some 0x1E => "LPDDR4"
  | some 0x22 => "DDR5"
  | some 0x23 => "LPDDR5"
  | _ => "Unknown"

def speed (mts : Option UInt16) : String :=
  match mts with
  | none => ""
  | some v => if v = 0 ∨ v = speedUnknown then "" else Nat.repr v.toNat ++ "MHz"

def cleaned (value : Option String) : String := (value.map trim).getD ""

def decode (s : Structure) : Option Client.MemoryModule :=
  (capacity s).map (fun capacity => {
    id := cleaned (s.string offDeviceLocator)
    memType := memoryType (s.byte offMemoryType)
    capacity := capacity
    speed := speed (s.word offSpeed)
  })

def collect (structures : List Structure) : List Client.MemoryModule :=
  (structures.filter (fun s => s.headerType = typeMemoryDevice)).filterMap decode

/-- The size a memory device reports, in KiB; none where there is no size to
report. -/
def reportedKib (s : Structure) : Option Nat :=
  match s.word offSize with
  | none => none
  | some size =>
      if size = 0 ∨ size = 0xFFFF then none
      else if size = 0x7FFF then (s.dword offExtendedSize).map (fun mb => mb.toNat * 1024)
      else if 0x8000 ≤ size.toNat then some (size.toNat - 0x8000)
      else some (size.toNat * 1024)

/-- The size that a capacity text names, in KiB. -/
def Denotes (text : String) (kib : Nat) : Prop :=
  ∃ n, (text = Nat.repr n ++ "GiB" ∧ kib = n * 1024 * 1024) ∨ (text = Nat.repr n ++ "MiB" ∧ kib = n * 1024)

theorem repr_append_inj {m n : Nat} {unit unit' : String} (hlen : unit.toList.length = unit'.toList.length)
    (h : Nat.repr m ++ unit = Nat.repr n ++ unit') : m = n ∧ unit = unit' := by
  have hlist := congrArg String.toList h
  rw [String.toList_append, String.toList_append] at hlist
  obtain ⟨hrepr, hunit⟩ := List.append_inj' hlist hlen
  rw [Nat.toList_repr, Nat.toList_repr] at hrepr
  have hvalue := congrArg digitsValue hrepr
  rw [digitsValue_toDigits, digitsValue_toDigits] at hvalue
  exact ⟨hvalue, String.toList_inj.mp hunit⟩

theorem Denotes.unique {text : String} {a b : Nat} (ha : Denotes text a) (hb : Denotes text b) : a = b := by
  obtain ⟨m, ⟨rfl, rfl⟩ | ⟨rfl, rfl⟩⟩ := ha
  · obtain ⟨n, ⟨h, rfl⟩ | ⟨h, -⟩⟩ := hb
    · rw [(repr_append_inj rfl h).1]
    · have hunit : "GiB" = "MiB" := (repr_append_inj (by rfl) h).2
      exact absurd hunit (by decide)
  · obtain ⟨n, ⟨h, -⟩ | ⟨h, rfl⟩⟩ := hb
    · have hunit : "MiB" = "GiB" := (repr_append_inj (by rfl) h).2
      exact absurd hunit (by decide)
    · rw [(repr_append_inj rfl h).1]

theorem formatCapacity_denotes (mib : UInt64) : Denotes (formatCapacity mib) (mib.toNat * 1024) := by
  rw [formatCapacity]
  split
  · rename_i h
    have hmod : mib.toNat % 1024 = 0 := by
      have := congrArg UInt64.toNat h.2
      rwa [UInt64.toNat_mod] at this
    refine ⟨(mib / mibPerGib).toNat, .inl ⟨rfl, ?_⟩⟩
    rw [UInt64.toNat_div]
    change mib.toNat * 1024 = mib.toNat / 1024 * 1024 * 1024
    omega
  · exact ⟨mib.toNat, .inr ⟨rfl, rfl⟩⟩

theorem kbBit_iff (size : UInt16) : size &&& sizeUnitKbBit ≠ 0 ↔ 0x8000 ≤ size.toNat := by
  have hlt := size.toNat_lt
  have hbit : (size &&& sizeUnitKbBit).toNat = (size.toNat.testBit 15).toNat * 2 ^ 15 :=
    (UInt16.toNat_and size sizeUnitKbBit).trans (Nat.and_two_pow size.toNat 15)
  rw [Nat.testBit_eq_decide_div_mod_eq] at hbit
  rw [ne_eq, ← UInt16.toNat_inj, hbit]
  by_cases hhigh : size.toNat / 2 ^ 15 % 2 = 1
  · simp only [hhigh, decide_true, Bool.toNat_true]
    exact iff_of_true (by decide) (by omega)
  · simp only [hhigh, decide_false, Bool.toNat_false]
    exact iff_of_false (by decide) (by omega)

theorem toNat_withoutKbBit {size : UInt16} (h : 0x8000 ≤ size.toNat) :
    (size &&& ~~~sizeUnitKbBit).toNat = size.toNat - 0x8000 := by
  have hlt := size.toNat_lt
  have hmask : (size &&& ~~~sizeUnitKbBit).toNat = size.toNat % 2 ^ 15 :=
    (UInt16.toNat_and size (~~~sizeUnitKbBit)).trans (Nat.and_two_pow_sub_one_eq_mod size.toNat 15)
  omega

/-- What is shown is the reported size in whole MiB, the rest of a size in KB
cut off. -/
theorem capacity_eq (s : Structure) :
    capacity s = (reportedKib s).map (fun kib => formatCapacity (UInt64.ofNat (kib / 1024))) := by
  rw [capacity, reportedKib]
  cases s.word offSize with
  | none => rfl
  | some size =>
      have hlt := size.toNat_lt
      simp only
      by_cases hnone : size = 0 ∨ size = 0xFFFF
      · rw [if_pos hnone]
        exact if_pos hnone
      · rw [if_neg hnone]
        refine (if_neg hnone).trans ?_
        by_cases hext : size = 0x7FFF
        · have hext' : size = sizeUseExtended := hext
          rw [if_pos hext, if_pos hext', Option.map_map, Option.map_map]
          congr 1
          funext mb
          have hmb : UInt64.ofNat (mb.toNat * 1024 / 1024) = mb.toUInt64 := by
            apply UInt64.toNat_inj.mp
            have := mb.toNat_lt
            rw [Nat.mul_div_cancel _ (by omega), UInt64.toNat_ofNat', UInt32.toNat_toUInt64]
            omega
          exact congrArg formatCapacity hmb.symm
        · have hext' : ¬ size = sizeUseExtended := hext
          rw [if_neg hext, if_neg hext']
          by_cases hkb : 0x8000 ≤ size.toNat
          · have hvalue : (size &&& ~~~sizeUnitKbBit).toUInt64 / 1024 = UInt64.ofNat ((size.toNat - 0x8000) / 1024) := by
              apply UInt64.toNat_inj.mp
              rw [UInt64.toNat_div, UInt16.toNat_toUInt64, toNat_withoutKbBit hkb, UInt64.toNat_ofNat']
              change (size.toNat - 0x8000) / 1024 = _
              omega
            rw [if_pos ((kbBit_iff size).mpr hkb), if_pos hkb, hvalue]
            rfl
          · have hvalue : size.toUInt64 = UInt64.ofNat (size.toNat * 1024 / 1024) := by
              apply UInt64.toNat_inj.mp
              rw [Nat.mul_div_cancel _ (by omega), UInt64.toNat_ofNat', UInt16.toNat_toUInt64]
              omega
            rw [if_neg (fun h => hkb ((kbBit_iff size).mp h)), if_neg hkb, hvalue]
            rfl

theorem reportedKib_eq_some {s : Structure} {kib : Nat} (h : reportedKib s = some kib) :
    ∃ size, s.word offSize = some size ∧ size ≠ 0xFFFF ∧
      ((∃ mb : UInt32, kib = mb.toNat * 1024) ∨ (0x8000 ≤ size.toNat ∧ kib = size.toNat - 0x8000) ∨
        kib = size.toNat * 1024) := by
  rw [reportedKib] at h
  cases hsize : s.word offSize with
  | none => simp [hsize] at h
  | some size =>
      simp only [hsize] at h
      by_cases hnone : size = 0 ∨ size = 0xFFFF
      · rw [if_pos hnone] at h
        cases h
      · rw [if_neg hnone] at h
        refine ⟨size, rfl, fun hff => hnone (.inr hff), ?_⟩
        by_cases hext : size = 0x7FFF
        · rw [if_pos hext] at h
          obtain ⟨mb, -, hmb⟩ := Option.map_eq_some_iff.mp h
          exact .inl ⟨mb, hmb.symm⟩
        · rw [if_neg hext] at h
          by_cases hkb : 0x8000 ≤ size.toNat
          · rw [if_pos hkb, Option.some.injEq] at h
            exact .inr (.inl ⟨hkb, h.symm⟩)
          · rw [if_neg hkb, Option.some.injEq] at h
            exact .inr (.inr h.symm)

theorem reportedKib_lt {s : Structure} {kib : Nat} (h : reportedKib s = some kib) : kib / 1024 < 2 ^ 64 := by
  obtain ⟨size, -, -, ⟨mb, hkib⟩ | ⟨-, hkib⟩ | hkib⟩ := reportedKib_eq_some h
  · have := mb.toNat_lt
    omega
  · have := size.toNat_lt
    omega
  · have := size.toNat_lt
    omega

/-- A device that reports its size in KB reports whole MiB. -/
def WholeMib (s : Structure) : Prop :=
  ∀ size, s.headerType = typeMemoryDevice → s.word offSize = some size → 0x8000 ≤ size.toNat → size ≠ 0xFFFF →
    (size.toNat - 0x8000) % 1024 = 0

theorem reportedKib_of_kb {s : Structure} {size : UInt16} (hsize : s.word offSize = some size)
    (hkb : 0x8000 ≤ size.toNat) (hff : size ≠ 0xFFFF) : reportedKib s = some (size.toNat - 0x8000) := by
  have hext : size ≠ 0x7FFF := by
    intro hext
    rw [hext] at hkb
    exact absurd hkb (by decide)
  have hzero : size ≠ 0 := by
    intro hzero
    rw [hzero] at hkb
    exact absurd hkb (by decide)
  rw [reportedKib, hsize]
  simp [hzero, hff, hext, hkb]

theorem wholeMib_iff {s : Structure} (htype : s.headerType = typeMemoryDevice) :
    WholeMib s ↔ ∀ kib, reportedKib s = some kib → kib % 1024 = 0 := by
  constructor
  · intro h kib hkib
    obtain ⟨size, hsize, hff, ⟨mb, hvalue⟩ | ⟨hkb, hvalue⟩ | hvalue⟩ := reportedKib_eq_some hkib
    · rw [hvalue]
      exact Nat.mul_mod_left ..
    · rw [hvalue]
      exact h size htype hsize hkb hff
    · rw [hvalue]
      exact Nat.mul_mod_left ..
  · intro h size _ hsize hkb hff
    exact h _ (reportedKib_of_kb hsize hkb hff)

theorem denotes_capacity_iff {s : Structure} {kib : Nat} (h : reportedKib s = some kib) :
    Denotes (formatCapacity (UInt64.ofNat (kib / 1024))) kib ↔ kib % 1024 = 0 := by
  have hlt := reportedKib_lt h
  have hdenotes := formatCapacity_denotes (UInt64.ofNat (kib / 1024))
  rw [UInt64.toNat_ofNat', Nat.mod_eq_of_lt hlt] at hdenotes
  constructor
  · intro hexact
    have := hdenotes.unique hexact
    omega
  · intro hwhole
    rwa [show kib / 1024 * 1024 = kib by omega] at hdenotes

/-- A device with a size to report. -/
def Reportable (s : Structure) : Bool := s.headerType = typeMemoryDevice && (reportedKib s).isSome

/-- The report's capacities name the reported sizes, one by one and so in sum. -/
def Exact (structures : List Structure) : Prop :=
  List.Forall₂ (fun s module => ∃ kib, reportedKib s = some kib ∧ Denotes module.capacity kib)
    (structures.filter Reportable) (collect structures)

theorem decode_eq (s : Structure) : decode s = (reportedKib s).map (fun kib => {
    id := cleaned (s.string offDeviceLocator)
    memType := memoryType (s.byte offMemoryType)
    capacity := formatCapacity (UInt64.ofNat (kib / 1024))
    speed := speed (s.word offSpeed) }) := by
  rw [decode, capacity_eq, Option.map_map]
  rfl

theorem collect_cons (s : Structure) (structures : List Structure) :
    collect (s :: structures) =
      if s.headerType = typeMemoryDevice then (decode s).toList ++ collect structures else collect structures := by
  rw [collect, List.filter_cons]
  by_cases htype : s.headerType = typeMemoryDevice
  · rw [if_pos (by simpa using htype), if_pos htype, List.filterMap_cons]
    cases decode s <;> rfl
  · rw [if_neg (by simpa using htype), if_neg htype]
    rfl

/-- One entry for each device with a size, in the order of the table. -/
theorem collect_entries (structures : List Structure) :
    List.Forall₂ (fun s module => decode s = some module) (structures.filter Reportable) (collect structures) := by
  induction structures with
  | nil => exact .nil
  | cons s structures ih =>
      rw [collect_cons, List.filter_cons, Reportable]
      by_cases htype : s.headerType = typeMemoryDevice
      · rw [if_pos htype]
        cases hkib : reportedKib s with
        | none =>
            rw [decode_eq, hkib]
            simpa using ih
        | some kib =>
            have hdecode : decode s = some _ := (decode_eq s).trans (by rw [hkib]; rfl)
            simp only [htype, Option.isSome_some, decide_true, Bool.and_self, if_true]
            rw [hdecode]
            exact .cons hdecode ih
      · rw [if_neg htype]
        simpa [htype] using ih

theorem forall₂_iff_forall {α β : Type} {R P : α → β → Prop} {Q : α → Prop} {as : List α} {bs : List β}
    (h : List.Forall₂ R as bs) (hiff : ∀ a ∈ as, ∀ b, R a b → (P a b ↔ Q a)) :
    List.Forall₂ P as bs ↔ ∀ a ∈ as, Q a := by
  induction h with
  | nil => simp
  | cons hab _ ih =>
      rw [List.forall_mem_cons] at hiff
      rw [List.forall₂_cons, List.forall_mem_cons, hiff.1 _ hab, ih hiff.2]

theorem exact_iff (structures : List Structure) : Exact structures ↔ ∀ s ∈ structures, WholeMib s := by
  rw [Exact, forall₂_iff_forall (Q := WholeMib) (collect_entries structures)]
  · constructor
    · intro h s hs size htype hsize hkb hff
      apply h s ?_ size htype hsize hkb hff
      rw [List.mem_filter]
      refine ⟨hs, ?_⟩
      rw [Reportable, reportedKib_of_kb hsize hkb hff]
      simpa using htype
    · intro h s hs
      exact h s (List.mem_of_mem_filter hs)
  · intro s hs module hdecode
    have htype : s.headerType = typeMemoryDevice := by
      have := (List.mem_filter.mp hs).2
      rw [Reportable, Bool.and_eq_true] at this
      simpa using this.1
    rw [decode_eq] at hdecode
    obtain ⟨kib, hkib, rfl⟩ := Option.map_eq_some_iff.mp hdecode
    simp only [wholeMib_iff htype, hkib, Option.some.injEq, exists_eq_left', forall_eq', denotes_capacity_iff hkib]

/-- Capacities that are exact add up to what is installed. -/
theorem sum_of_exact {structures : List Structure} (h : Exact structures) {kibs : List Nat}
    (hkibs : List.Forall₂ Denotes ((collect structures).map Client.MemoryModule.capacity) kibs) :
    kibs.sum = ((structures.filter Reportable).filterMap reportedKib).sum := by
  have hlists : ∀ {ss : List Structure} {modules : List Client.MemoryModule} {kibs : List Nat},
      List.Forall₂ (fun s module => ∃ kib, reportedKib s = some kib ∧ Denotes module.capacity kib) ss modules →
        List.Forall₂ Denotes (modules.map Client.MemoryModule.capacity) kibs → kibs = ss.filterMap reportedKib := by
    intro ss modules kibs hexact
    induction hexact generalizing kibs with
    | nil =>
        intro hdenotes
        cases hdenotes
        rfl
    | cons hone _ ih =>
        intro hdenotes
        obtain ⟨kib, hkib, hcapacity⟩ := hone
        rw [List.map_cons] at hdenotes
        cases hdenotes with
        | cons hfirst hrest => rw [List.filterMap_cons_some hkib, ← ih hrest, hfirst.unique hcapacity]
  rw [hlists h hkibs]

/-- The report names every device that has a size once and in order, and it
names the sizes exactly where no size in KB is cut off. -/
theorem collect_exact_iff (structures : List Structure) :
    List.Forall₂ (fun s module => decode s = some module) (structures.filter Reportable) (collect structures) ∧
      (Exact structures ↔ ∀ s ∈ structures, WholeMib s) ∧
      ∀ kibs, (∀ s ∈ structures, WholeMib s) →
        List.Forall₂ Denotes ((collect structures).map Client.MemoryModule.capacity) kibs →
          kibs.sum = ((structures.filter Reportable).filterMap reportedKib).sum := by
  refine ⟨collect_entries structures, exact_iff structures, ?_⟩
  intro kibs hwhole
  exact sum_of_exact ((exact_iff structures).mpr hwhole)

/-- A module of 512 KB, as firmware reports it. -/
def halfMib : List UInt8 :=
  encodeStructure 17 0x1100 ([0, 0, 0, 0, 0, 0, 0, 0, 0x00, 0x82] ++ List.replicate 18 0) [] ++
    encodeStructure 127 0x7f00 [] []

theorem not_exact_halfMib :
    ¬ ∀ raw structures, parseTable raw = some (.ok structures) → Exact structures := by
  intro h
  have hparse : ∃ s, parseTable halfMib = some (.ok s) ∧
      ∃ m ∈ s, m.headerType = typeMemoryDevice ∧ m.word offSize = some 0x8200 := by
    refine ⟨_, rfl, ?_⟩
    decide +kernel
  obtain ⟨s, hs, m, hm, htype, hsize⟩ := hparse
  have hwhole := (exact_iff s).mp (h _ s hs) m hm 0x8200 htype hsize (by decide) (by decide)
  exact absurd hwhole (by decide)

end Beskar7Inspector.MemoryReport
