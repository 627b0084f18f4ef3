import Beskar7Inspector.Probe

namespace Beskar7Inspector.Inventory

open Lib.Text Lib.LittleEndian Lib.Slices Smbios SmbiosTable SysTree Client MemoryReport Probe

/-- A structure as firmware lays it out, of whatever type and length, but not the end of the table. -/
abbrev Item : Type := { e : Encodable // e.headerType ≠ typeEndOfTable }

def endOfTable : Encodable where
  headerType := typeEndOfTable
  handle := 0x7f00
  formatted := []
  strings := []
  fits := Nat.zero_le _
  plain := List.forall_mem_nil _

/-- The table of a host, and whatever stands behind it. -/
def table (items : List Item) (tail : List UInt8) : List UInt8 :=
  (items.map Subtype.val ++ [endOfTable]).flatMap SmbiosTable.Encodable.encode ++ tail

/-! What a structure says, by the offsets from its start that the standard gives. -/

/-- The number in `n` bytes, if the structure is long enough. -/
def field (n : Nat) (e : Encodable) (offset : Nat) : Option Nat :=
  if offset + n ≤ 4 + e.formatted.length then some (decode (window e.formatted (offset - 4) n)) else none

/-- The text whose number stands there, without blanks around it; empty where there is none. -/
def textAt (e : Encodable) (offset : Nat) : String :=
  match field 1 e offset with
  | some (k + 1) => ((e.strings[k]?).map trim).getD ""
  | _ => ""

/-- A word that is neither zero nor the mark of an unknown value. -/
def known (value : Option Nat) : Option Nat := value.filter (fun n => n ≠ 0 ∧ n ≠ 0xFFFF)

/-- A count: a byte, or the word that stands for it from 255 on; none if the field is not there. -/
def countAt (e : Encodable) (byteOff wordOff : Nat) : Nat :=
  match field 1 e byteOff with
  | none => 0
  | some n => if n = 0xFF then (field 2 e wordOff).getD 0 else n

/-- A central processor in a socket that is not marked as empty. -/
def IsPackage (e : Encodable) : Prop :=
  e.headerType = 4 ∧ field 1 e 0x05 = some 3 ∧ ∀ status, field 1 e 0x18 = some status → status.testBit 6 = true

instance (e : Encodable) : Decidable (IsPackage e) :=
  decidable_of_iff (e.headerType = 4 ∧ field 1 e 0x05 = some 3 ∧ (field 1 e 0x18).all (·.testBit 6) = true)
    (and_congr_right' (and_congr_right' (by cases field 1 e 0x18 <;> simp)))

/-- The size of a module in KiB, which a slot has when it is not empty and its size
is known: in MB, in KB, or in MB in a field of its own. -/
def kibAt (e : Encodable) : Option Nat :=
  (known (field 2 e 0x0C)).bind fun n =>
    if n = 0x7FFF then (field 4 e 0x1C).map (· * 1024)
    else if n < 0x8000 then some (n * 1024)
    else some (n - 0x8000)

/-- The kinds of memory that have a name, by their codes. -/
def moduleTypes : List (Nat × String) :=
  [(0x12, "DDR"), (0x13, "DDR2"), (0x14, "DDR2 FB-DIMM"), (0x18, "DDR3"), (0x1A, "DDR4"), (0x1B, "LPDDR"), (0x1C, "LPDDR2"),
    (0x1D, "LPDDR3"), (0x1E, "LPDDR4"), (0x22, "DDR5"), (0x23, "LPDDR5")]

/-- The entry of a package says what its structure does. -/
structure CpuSays {Ip : Type} (formats : Formats Ip) (e : Encodable) (c : Cpu) : Prop where
  id : c.id = textAt e 0x04
  vendor : c.vendor = textAt e 0x07
  model : c.model = textAt e 0x10
  cores : c.cores.toNat = countAt e 0x23 0x2A
  threads : c.threads.toNat = countAt e 0x25 0x2E
  frequency : c.frequency = ((known (field 2 e 0x16)).map fun n => formats.ghz (.ofNat n)).getD ""

/-- The entry of a module says what its structure does, with a size in KB cut off to whole MiB. -/
structure ModuleSays (e : Encodable) (m : MemoryModule) : Prop where
  id : m.id = textAt e 0x10
  memType : m.memType = (((field 1 e 0x12).bind fun n => moduleTypes.lookup n).getD "Unknown")
  capacity : ∃ kib, kibAt e = some kib ∧ Denotes m.capacity (kib / 1024 * 1024)
  speed : m.speed = ((known (field 2 e 0x15)).map fun n => Nat.repr n ++ "MHz").getD ""

/-! The accessors on a structure that was read are its fields. -/

section

variable {e : Encodable} {offset : Nat}

theorem slice_decoded (n : Nat) (h : 4 ≤ offset) : slice e.decoded.data offset (offset + n) =
    if offset + n ≤ 4 + e.formatted.length then some (window e.formatted (offset - 4) n) else none := by
  have hlen : e.decoded.data.length = 4 + e.formatted.length := by
    rw [Encodable.decoded, List.length_append]
    rfl
  have hdrop : e.decoded.data.drop offset = e.formatted.drop (offset - 4) := by
    obtain ⟨i, rfl⟩ := Nat.exists_eq_add_of_le h
    rw [Encodable.decoded, Nat.add_sub_cancel_left]
    exact List.drop_drop.symm
  by_cases hfits : offset + n ≤ 4 + e.formatted.length
  · rw [if_pos hfits, slice_window (hlen ▸ hfits), window, hdrop]
    rfl
  · rw [if_neg hfits, slice, if_neg]
    omega

theorem field_lt {n k : Nat} (h : field n e offset = some k) (hoffset : 4 ≤ offset) : k < 256 ^ n := by
  rw [field] at h
  split at h
  · cases h
    have hlt := decode_lt (window e.formatted (offset - 4) n)
    rwa [window_length (by omega)] at hlt
  · cases h

theorem word_decoded (h : 4 ≤ offset) : e.decoded.word offset = (field 2 e offset).map UInt16.ofNat := by
  rw [Structure.word, slice_decoded 2 h, field]
  split <;> rfl

theorem dword_decoded (h : 4 ≤ offset) : e.decoded.dword offset = (field 4 e offset).map UInt32.ofNat := by
  rw [Structure.dword, slice_decoded 4 h, field]
  split <;> rfl

theorem byte_decoded (h : 4 ≤ offset) : e.decoded.byte offset = (field 1 e offset).map UInt8.ofNat := by
  obtain ⟨i, rfl⟩ := Nat.exists_eq_add_of_le h
  rw [(fieldsAsEncoded e).byte i, field, Nat.add_sub_cancel_left]
  by_cases hi : i < e.formatted.length
  · have hwindow : window e.formatted i 1 = [e.formatted[i]] := by
      rw [window, List.drop_eq_getElem_cons hi]
      rfl
    rw [if_pos (by omega), hwindow, List.getElem?_eq_getElem hi]
    simp [Lib.LittleEndian.decode]
  · rw [if_neg (by omega), List.getElem?_eq_none (Nat.le_of_not_lt hi)]
    rfl

theorem toNat_byte {k : Nat} (h : field 1 e offset = some k) (hoffset : 4 ≤ offset) : (UInt8.ofNat k).toNat = k :=
  UInt8.toNat_ofNat_of_lt' (field_lt h hoffset)

theorem toNat_word {k : Nat} (h : field 2 e offset = some k) (hoffset : 4 ≤ offset) : (UInt16.ofNat k).toNat = k :=
  UInt16.toNat_ofNat_of_lt' (field_lt h hoffset)

theorem toNat_dword {k : Nat} (h : field 4 e offset = some k) (hoffset : 4 ≤ offset) : (UInt32.ofNat k).toNat = k :=
  UInt32.toNat_ofNat_of_lt' (field_lt h hoffset)

theorem byte_eq_iff {k n : Nat} (h : field 1 e offset = some k) (hoffset : 4 ≤ offset) (hn : n < 256) :
    UInt8.ofNat k = UInt8.ofNat n ↔ k = n := by
  rw [← UInt8.toNat_inj, toNat_byte h hoffset, UInt8.toNat_ofNat_of_lt' hn]

theorem word_eq_iff {k n : Nat} (h : field 2 e offset = some k) (hoffset : 4 ≤ offset) (hn : n < 65536) :
    UInt16.ofNat k = UInt16.ofNat n ↔ k = n := by
  rw [← UInt16.toNat_inj, toNat_word h hoffset, UInt16.toNat_ofNat_of_lt' hn]

theorem cleaned_string (h : 4 ≤ offset) : cleaned (e.decoded.string offset) = textAt e offset := by
  rw [Structure.string, byte_decoded h, textAt]
  cases hk : field 1 e offset with
  | none => rfl
  | some k =>
      have hbyte := toNat_byte hk h
      cases k with
      | zero => rfl
      | succ k =>
          have hne : UInt8.ofNat (k + 1) ≠ 0 := by
            intro hzero
            rw [hzero] at hbyte
            cases hbyte
          have hprev : (UInt8.ofNat (k + 1) - 1).toNat = k := by
            rw [UInt8.toNat_sub_of_le _ _ (by rw [UInt8.le_iff_toNat_le, hbyte]; exact Nat.le_add_left 1 k), hbyte]
            rfl
          rw [Option.map_some, Option.bind_some, Structure.stringByNumber, if_neg hne, hprev]
          rfl

theorem count_decoded {byteOff wordOff : Nat} (hb : 4 ≤ byteOff) (hw : 4 ≤ wordOff) :
    (count e.decoded byteOff wordOff).toNat = countAt e byteOff wordOff := by
  rw [count, byte_decoded hb, countAt]
  cases hk : field 1 e byteOff with
  | none => rfl
  | some k =>
      have hmark : UInt8.ofNat k = countUseExtended ↔ k = 0xFF := byte_eq_iff hk hb (by decide)
      rw [Option.map_some]
      dsimp only
      by_cases hext : k = 0xFF
      · rw [if_pos (hmark.mpr hext), if_pos hext, word_decoded hw]
        cases hn : field 2 e wordOff with
        | none => rfl
        | some n =>
            rw [Option.map_some, Option.map_some, Option.getD_some, Option.getD_some, UInt16.toNat_toUInt32]
            exact toNat_word hn hw
      · rw [if_neg (fun heq => hext (hmark.mp heq)), if_neg hext, UInt8.toNat_toUInt32]
        exact toNat_byte hk hb

theorem known_eq_none {k : Nat} (h : k = 0 ∨ k = 0xFFFF) : known (some k) = none := by
  obtain rfl | rfl := h <;> rfl

theorem known_eq_some {k : Nat} (h : ¬ (k = 0 ∨ k = 0xFFFF)) : known (some k) = some k :=
  Option.filter_eq_some_iff.mpr ⟨rfl, decide_eq_true (not_or.mp h)⟩

/-- A word is shown if and only if it is known. -/
theorem shown_decoded (h : 4 ≤ offset) (render : Nat → String) {show_ : UInt16 → String}
    (hshow : ∀ n, n < 65536 → show_ (.ofNat n) = render n) :
    (match e.decoded.word offset with
      | none => ""
      | some v => if v = 0 ∨ v = 0xFFFF then "" else show_ v) = ((known (field 2 e offset)).map render).getD "" := by
  rw [word_decoded h]
  cases hk : field 2 e offset with
  | none => rfl
  | some k =>
      have hzero : UInt16.ofNat k = 0 ↔ k = 0 := word_eq_iff hk h (by decide)
      have hmark : UInt16.ofNat k = 0xFFFF ↔ k = 0xFFFF := word_eq_iff hk h (by decide)
      rw [Option.map_some]
      dsimp only
      by_cases hnone : k = 0 ∨ k = 0xFFFF
      · rw [if_pos (hnone.imp hzero.mpr hmark.mpr), known_eq_none hnone]
        rfl
      · rw [if_neg (fun heq => hnone (heq.imp hzero.mp hmark.mp)), known_eq_some hnone]
        exact hshow k (field_lt hk h)

theorem cpuSays_decodeCpu {Ip : Type} (formats : Formats Ip) (e : Encodable) :
    CpuSays formats e (decodeCpu formats e.decoded) where
  id := cleaned_string (by decide)
  vendor := cleaned_string (by decide)
  model := cleaned_string (by decide)
  cores := count_decoded (by decide) (by decide)
  threads := count_decoded (by decide) (by decide)
  frequency := shown_decoded (by decide) (fun n => formats.ghz (.ofNat n)) fun _ _ => rfl

theorem populated_iff (status : UInt8) : status &&& statusPopulated ≠ 0 ↔ status.toNat.testBit 6 = true := by
  have hbit : (status &&& statusPopulated).toNat = (status.toNat.testBit 6).toNat * 2 ^ 6 :=
    (UInt8.toNat_and status statusPopulated).trans (Nat.and_two_pow status.toNat 6)
  rw [ne_eq, ← UInt8.toNat_inj, hbit]
  cases status.toNat.testBit 6 <;> simp

theorem isPackage_iff (e : Encodable) :
    IsPackage e ↔ e.headerType = typeProcessor ∧ isCentralPopulated e.decoded = true := by
  refine and_congr_right fun _ => ?_
  rw [isCentralPopulated, byte_decoded (by decide), byte_decoded (by decide)]
  have hkind : (field 1 e offProcessorType).map UInt8.ofNat ≠ some processorTypeCentral ↔ field 1 e 0x05 ≠ some 3 := by
    change _ ↔ field 1 e offProcessorType ≠ some 3
    cases hk : field 1 e offProcessorType with
    | none => simp
    | some k =>
        have hcentral : UInt8.ofNat k = processorTypeCentral ↔ k = 3 := byte_eq_iff hk (by decide) (by decide)
        simpa using not_congr hcentral
  by_cases hcentral : field 1 e 0x05 = some 3
  · rw [if_neg (fun h => hkind.mp h hcentral)]
    change _ ∧ (∀ status, field 1 e offStatus = some status → _) ↔ _
    cases hs : field 1 e offStatus with
    | none => simp [hcentral]
    | some status =>
        have hpopulated := populated_iff (UInt8.ofNat status)
        rw [toNat_byte hs (by decide)] at hpopulated
        simp only [hcentral, Option.some.injEq, forall_eq', true_and, Option.map_some, decide_eq_true_eq, hpopulated]
  · rw [if_pos (hkind.mpr hcentral)]
    simp [hcentral]

theorem kibAt_eq (e : Encodable) : reportedKib e.decoded = kibAt e := by
  rw [reportedKib, kibAt, word_decoded (by decide), dword_decoded (by decide)]
  change _ = (known (field 2 e offSize)).bind fun n => if n = 0x7FFF then (field 4 e offExtendedSize).map (· * 1024)
    else if n < 0x8000 then some (n * 1024) else some (n - 0x8000)
  cases hk : field 2 e offSize with
  | none => rfl
  | some k =>
      have hvalue := toNat_word hk (by decide)
      have hzero : UInt16.ofNat k = 0 ↔ k = 0 := word_eq_iff hk (by decide) (by decide)
      have hmark : UInt16.ofNat k = 0xFFFF ↔ k = 0xFFFF := word_eq_iff hk (by decide) (by decide)
      have hext : UInt16.ofNat k = 0x7FFF ↔ k = 0x7FFF := word_eq_iff hk (by decide) (by decide)
      simp only [Option.map_some, hvalue]
      by_cases hnone : k = 0 ∨ k = 0xFFFF
      · rw [if_pos (hnone.imp hzero.mpr hmark.mpr), known_eq_none hnone]
        rfl
      · rw [if_neg (fun heq => hnone (heq.imp hzero.mp hmark.mp)), known_eq_some hnone, Option.bind_some]
        by_cases hextended : k = 0x7FFF
        · rw [if_pos (hext.mpr hextended), if_pos hextended, Option.map_map]
          cases hmb : field 4 e offExtendedSize with
          | none => rw [Option.map_none, Option.map_none]
          | some mb => rw [Option.map_some, Option.map_some, Function.comp_apply, toNat_dword hmb (by decide)]
        · rw [if_neg (fun heq => hextended (hext.mp heq)), if_neg hextended]
          by_cases hkb : 0x8000 ≤ k
          · rw [if_pos hkb, if_neg (Nat.not_lt.mpr hkb)]
          · rw [if_neg hkb, if_pos (Nat.lt_of_not_le hkb)]

theorem memoryType_eq (code : UInt8) : memoryType (some code) = (moduleTypes.lookup code.toNat).getD "Unknown" := by
  have hall : ∀ n : Fin 256, memoryType (some (.ofNat n)) = (moduleTypes.lookup n.val).getD "Unknown" := by decide +kernel
  have hcode := hall ⟨code.toNat, code.toNat_lt⟩
  rwa [UInt8.ofNat_toNat] at hcode

theorem moduleSays_decode {m : MemoryModule} (h : MemoryReport.decode e.decoded = some m) : ModuleSays e m := by
  rw [decode_eq, kibAt_eq] at h
  obtain ⟨kib, hkib, rfl⟩ := Option.map_eq_some_iff.mp h
  refine ⟨cleaned_string (by decide), ?_, ⟨kib, hkib, ?_⟩, shown_decoded (by decide) (fun n => Nat.repr n ++ "MHz") ?_⟩
  · rw [byte_decoded (by decide)]
    change _ = ((field 1 e offMemoryType).bind fun n => moduleTypes.lookup n).getD "Unknown"
    cases hk : field 1 e offMemoryType with
    | none => rfl
    | some k =>
        rw [Option.map_some, memoryType_eq, toNat_byte hk (by decide)]
        rfl
  · have hlt := reportedKib_lt ((kibAt_eq e).trans hkib)
    have hdenotes := formatCapacity_denotes (UInt64.ofNat (kib / 1024))
    rwa [UInt64.toNat_ofNat', Nat.mod_eq_of_lt hlt] at hdenotes
  · intro n hn
    rw [UInt16.toNat_ofNat_of_lt' hn]

end

/-- The structures of a table, as they are read. -/
def structures (items : List Item) : List Structure := items.map (fun e => e.1.decoded) ++ [endOfTable.decoded]

theorem structures_cons (e : Item) (items : List Item) : structures (e :: items) = e.1.decoded :: structures items := rfl

theorem parseTable_table (items : List Item) (tail : List UInt8) :
    parseTable (table items tail) = some (.ok (structures items)) := by
  have hthrough : throughEnd (items.map Subtype.val ++ [endOfTable]) = items.map Subtype.val ++ [endOfTable] := by
    induction items with
    | nil => rfl
    | cons e items ih => rw [List.map_cons, List.cons_append, throughEnd, if_neg e.2, ih]
  rw [table, parseTable_encoded (.inr ⟨endOfTable, by simp, rfl⟩), hthrough, List.map_append, List.map_map]
  rfl

/-- The structures of a type that ends no table are those of the items. -/
theorem findType_structures {headerType : UInt8} (h : typeEndOfTable ≠ headerType) (items : List Item) :
    findType (structures items) headerType =
      (items.find? fun e => e.1.headerType = headerType).map fun e => e.1.decoded := by
  induction items with
  | nil =>
      have hother : decide (endOfTable.decoded.headerType = headerType) = false := decide_eq_false h
      rw [structures, List.map_nil, List.nil_append, findType, List.find?_cons, hother]
      rfl
  | cons e items ih =>
      rw [structures_cons, findType, List.find?_cons, List.find?_cons]
      by_cases htype : e.1.headerType = headerType
      · rw [decide_eq_true (show e.1.decoded.headerType = headerType from htype), decide_eq_true htype]
        rfl
      · rw [decide_eq_false (show ¬ e.1.decoded.headerType = headerType from htype), decide_eq_false htype]
        exact ih

theorem says_collectCpus {Ip : Type} (formats : Formats Ip) (items : List Item) :
    List.Forall₂ (CpuSays formats) ((items.map Subtype.val).filter fun e => IsPackage e)
      (collectCpus formats (structures items)) := by
  induction items with
  | nil => exact .nil
  | cons e items ih =>
      have hpackage := isPackage_iff e.1
      have hcons : collectCpus formats (structures (e :: items)) =
          if IsPackage e.1 then decodeCpu formats e.1.decoded :: collectCpus formats (structures items)
          else collectCpus formats (structures items) := by
        rw [structures_cons, collectCpus, List.filter_cons]
        by_cases htype : e.1.decoded.headerType = typeProcessor
        · rw [if_pos (decide_eq_true htype), List.filter_cons]
          by_cases hinstalled : isCentralPopulated e.1.decoded = true
          · rw [if_pos hinstalled, if_pos (hpackage.mpr ⟨htype, hinstalled⟩)]
            rfl
          · rw [if_neg hinstalled, if_neg (fun h => hinstalled (hpackage.mp h).2)]
            rfl
        · rw [if_neg (fun h => htype (of_decide_eq_true h)), if_neg (fun h => htype (hpackage.mp h).1)]
          rfl
      rw [hcons, List.map_cons, List.filter_cons]
      by_cases h : IsPackage e.1
      · rw [if_pos h, if_pos (decide_eq_true h)]
        exact .cons (cpuSays_decodeCpu formats e.1) ih
      · rw [if_neg h, if_neg (fun hd => h (of_decide_eq_true hd))]
        exact ih

/-- A slot with a module in it, of a size that is known. -/
def IsModule (e : Encodable) : Prop := e.headerType = 17 ∧ (kibAt e).isSome = true

instance (e : Encodable) : Decidable (IsModule e) := inferInstanceAs (Decidable (_ ∧ _))

theorem says_collect (items : List Item) :
    List.Forall₂ ModuleSays ((items.map Subtype.val).filter fun e => IsModule e)
      (MemoryReport.collect (structures items)) := by
  induction items with
  | nil => exact .nil
  | cons e items ih =>
      rw [structures_cons, collect_cons, List.map_cons, List.filter_cons]
      by_cases htype : e.1.headerType = typeMemoryDevice
      · rw [if_pos (show e.1.decoded.headerType = typeMemoryDevice from htype)]
        cases hm : MemoryReport.decode e.1.decoded with
        | none =>
            rw [decode_eq, kibAt_eq, Option.map_eq_none_iff] at hm
            have hnot : ¬ IsModule e.1 := by
              intro hmodule
              have hsome := hmodule.2
              rw [hm] at hsome
              cases hsome
            rw [if_neg (fun hd => hnot (of_decide_eq_true hd))]
            exact ih
        | some m =>
            have hkib : (kibAt e.1).isSome = true := by
              obtain ⟨kib, hkib, -⟩ := (moduleSays_decode hm).capacity
              rw [hkib]
              rfl
            have hmodule : IsModule e.1 := ⟨htype, hkib⟩
            rw [if_pos (decide_eq_true hmodule)]
            exact .cons (moduleSays_decode hm) ih
      · rw [if_neg (show ¬ e.1.decoded.headerType = typeMemoryDevice from htype),
          if_neg (fun hd => htype (of_decide_eq_true hd : IsModule e.1).1)]
        exact ih

theorem names_collectNics {Ip : Type} [LinearOrder Ip] (formats : Formats Ip) (interfaces : Interfaces Ip) :
    (collectNics formats interfaces).map Nic.name = (((interfaces.net.readDir []).getD []).insertionSort (· ≤ ·)).filter
      fun name => interfaces.net.pathExists [name, "device"] := by
  rw [collectNics]
  induction ((interfaces.net.readDir []).getD []).insertionSort (· ≤ ·) with
  | nil => rfl
  | cons name names ih =>
      rw [List.filterMap_cons, List.filter_cons, decodeNic]
      cases interfaces.net.pathExists [name, "device"] with
      | true => exact congrArg (name :: ·) ih
      | false => exact ih

/-- The text at `offset` of the first structure of a type. -/
def firstText (items : List Item) (headerType : UInt8) (offset : Nat) : String :=
  ((items.find? fun e => e.1.headerType = headerType).map fun e => textAt e.1 offset).getD ""

theorem cleaned_firstText {headerType : UInt8} (h : typeEndOfTable ≠ headerType) {offset : Nat} (hoffset : 4 ≤ offset)
    (items : List Item) :
    cleaned ((findType (structures items) headerType).bind (·.string offset)) = firstText items headerType offset := by
  rw [findType_structures h, firstText]
  cases items.find? fun e => e.1.headerType = headerType with
  | none => rfl
  | some e => exact cleaned_string hoffset

/-- A report says of a host what its tables do, and names its interfaces. -/
structure Describes {Ip : Type} (formats : Formats Ip) (items : List Item) (efiPresent : Bool)
    (interfaces : Interfaces Ip) (r : InspectionReport) : Prop where
  manufacturer : r.manufacturer = firstText items 1 0x04
  model : r.model = firstText items 1 0x05
  serialNumber : r.serialNumber = firstText items 1 0x07
  firmwareVersion : r.firmwareVersion = firstText items 0 0x05
  bootMode : r.bootModeDetected = if efiPresent then "UEFI" else "Legacy"
  cpus : List.Forall₂ (CpuSays formats) ((items.map Subtype.val).filter fun e => IsPackage e) r.cpus
  memory : List.Forall₂ ModuleSays ((items.map Subtype.val).filter fun e => IsModule e) r.memory
  nics : (r.nics.map Nic.name).Perm
    (((interfaces.net.readDir []).getD []).filter fun name => interfaces.net.pathExists [name, "device"])
  sorted : (r.nics.map Nic.name).Pairwise (· ≤ ·)

/-- From the tables of the firmware to the report: whatever structures are laid out
in whatever order, it says of the host, of each package in a socket and of each module
of a known size what they do, and names each interface with a device. -/
theorem report_describes_host {Ip : Type} [LinearOrder Ip] (formats : Formats Ip) (items : List Item)
    (tail : List UInt8) (efiPresent : Bool) (block : SysDir) (interfaces : Interfaces Ip) :
    Describes formats items efiPresent interfaces
      (collect formats ⟨some (table items tail), efiPresent, block, interfaces⟩) := by
  have hreport : collect formats ⟨some (table items tail), efiPresent, block, interfaces⟩ = assemble formats
      (structures items) efiPresent (DiskReport.collectFrom block) (collectNics formats interfaces) := by
    rw [Probe.collect]
    dsimp only
    rw [Option.bind_some, parseTable_table]
  have hsorted := List.pairwise_insertionSort (· ≤ ·) ((interfaces.net.readDir []).getD [])
  rw [hreport]
  constructor
  · exact cleaned_firstText (by decide) (by decide) items
  · exact cleaned_firstText (by decide) (by decide) items
  · exact cleaned_firstText (by decide) (by decide) items
  · exact cleaned_firstText (by decide) (by decide) items
  · rfl
  · exact says_collectCpus formats items
  · exact says_collect items
  · change (List.map Nic.name (collectNics formats interfaces)).Perm _
    rw [names_collectNics]
    exact (List.perm_insertionSort _ _).filter _
  · change (List.map Nic.name (collectNics formats interfaces)).Pairwise _
    rw [names_collectNics]
    exact hsorted.filter _

end Beskar7Inspector.Inventory
