import Beskar7Inspector.Gpt
import Mathlib.Data.Set.List

namespace Beskar7Inspector.GptEntries

open Lib.LittleEndian Lib.Os Lib.Slices Esp Gpt

theorem u32At_eq {bytes : List UInt8} {o : Nat} (h : o + 4 ≤ bytes.length) :
    u32At bytes o = some (UInt32.ofNat (decode (window bytes o 4))) := by
  rw [u32At, slice_window h]
  rfl

theorem u64At_eq {bytes : List UInt8} {o : Nat} (h : o + 8 ≤ bytes.length) :
    u64At bytes o = some (UInt64.ofNat (decode (window bytes o 8))) := by
  rw [u64At, slice_window h]
  rfl

theorem guidAt_eq {bytes : List UInt8} {o : Nat} (h : o + 16 ≤ bytes.length) :
    guidAt bytes o = some ⟨window bytes o 16, window_length h⟩ := by
  rw [guidAt, slice_window h, Option.bind_some, dif_pos (window_length h)]

theorem decode_window_lt (bytes : List UInt8) (o n : Nat) : decode (window bytes o n) < 256 ^ n := by
  have hlen : (window bytes o n).length ≤ n := List.length_take_le ..
  exact Nat.lt_of_lt_of_le (decode_lt _) (Nat.pow_le_pow_right (by omega) hlen)

theorem toNat_u32 (bytes : List UInt8) (o : Nat) :
    (UInt32.ofNat (decode (window bytes o 4))).toNat = decode (window bytes o 4) :=
  UInt32.toNat_ofNat_of_lt' (decode_window_lt bytes o 4)

theorem toNat_u64 (bytes : List UInt8) (o : Nat) :
    (UInt64.ofNat (decode (window bytes o 8))).toNat = decode (window bytes o 8) :=
  UInt64.toNat_ofNat_of_lt' (decode_window_lt bytes o 8)

/-! What a disk says, by offset. -/

def tableLba (disk : List UInt8) (b : Nat) : Nat := decode (window disk (b + 72) 8)

def tableCount (disk : List UInt8) (b : Nat) : Nat := decode (window disk (b + 80) 4)

def entrySize (disk : List UInt8) (b : Nat) : Nat := decode (window disk (b + 84) 4)

def HeaderReadable (disk : List UInt8) (b : Nat) : Prop := b + GPT_HEADER_LEN ≤ disk.length

def Signed (disk : List UInt8) (b : Nat) : Prop := window disk b 8 = GPT_SIGNATURE

/-- The header's table is one the reader takes. -/
structure Admissible (disk : List UInt8) (b : Nat) : Prop where
  lba : 2 ≤ tableLba disk b
  count : 1 ≤ tableCount disk b ∧ tableCount disk b ≤ 1024
  size : 128 ≤ entrySize disk b ∧ entrySize disk b ≤ 1024 ∧ entrySize disk b % 8 = 0
  offset : tableLba disk b * b < UInt64.size

def TableOnDisk (disk : List UInt8) (b : Nat) : Prop :=
  tableLba disk b * b + tableCount disk b * entrySize disk b ≤ disk.length

/-- Entry `k` of the table is used and says what `e` does. -/
structure Stored (disk : List UInt8) (b k : Nat) (e : GptEntry) : Prop where
  typeGuid : e.typeGuid.bytes = window disk (tableLba disk b * b + k * entrySize disk b) 16
  used : e.typeGuid.bytes ≠ List.replicate 16 0
  number : e.part.number.toNat = k + 1
  uniqueGuid : e.part.uniqueGuid.bytes = window disk (tableLba disk b * b + k * entrySize disk b + 16) 16
  firstLba : e.part.firstLba.toNat = decode (window disk (tableLba disk b * b + k * entrySize disk b + 32) 8)
  lastLba : e.part.lastLba.toNat = decode (window disk (tableLba disk b * b + k * entrySize disk b + 40) 8)

theorem readExact_seek_ok {dev : Cursor} {offset : UInt64} {n : Nat} (h : offset.toNat + n ≤ dev.bytes.length) :
    (dev.seek offset).readExact n =
      .ok (window dev.bytes offset.toNat n, { dev with pos := offset + UInt64.ofNat n }) := by
  rw [Cursor.readExact, if_neg]
  · rfl
  · simp only [Cursor.seek, List.length_drop]
    omega

theorem readExact_seek_error {dev : Cursor} {offset : UInt64} {n : Nat} (hn : 0 < n)
    (h : dev.bytes.length < offset.toNat + n) :
    (dev.seek offset).readExact n = .error (.other "failed to fill whole buffer") := by
  rw [Cursor.readExact, if_pos]
  simp only [Cursor.seek, List.length_drop]
  omega

theorem parseGptHeader_noGpt {header : List UInt8} {disk : String} (h : window header 0 8 ≠ GPT_SIGNATURE) :
    parseGptHeader header disk = some (.error (.noGpt disk)) := by
  rw [parseGptHeader]
  by_cases hlen : header.length < GPT_HEADER_LEN
  · rw [if_pos hlen]
  · have hsig : slice header 0 8 = some (window header 0 8) :=
      slice_window (a := 0) (n := 8) (by simp only [GPT_HEADER_LEN] at hlen; omega)
    rw [if_neg hlen, hsig]
    exact if_pos h

theorem parseGptHeader_eq {header : List UInt8} {disk : String} (hlen : header.length = GPT_HEADER_LEN)
    (h : window header 0 8 = GPT_SIGNATURE) :
    parseGptHeader header disk =
      if 2 ≤ tableLba header 0 ∧ (1 ≤ tableCount header 0 ∧ tableCount header 0 ≤ 1024) ∧
          128 ≤ entrySize header 0 ∧ entrySize header 0 ≤ 1024 ∧ entrySize header 0 % 8 = 0 then
        some (.ok ⟨UInt64.ofNat (tableLba header 0), UInt32.ofNat (tableCount header 0),
          UInt32.ofNat (entrySize header 0)⟩)
      else some (.error (.badGpt disk)) := by
  have hsig : slice header 0 8 = some GPT_SIGNATURE := h ▸ slice_window (a := 0) (n := 8) (by rw [hlen]; decide)
  have hlba : u64At header 72 = some (UInt64.ofNat (decode (window header 72 8))) := u64At_eq (by rw [hlen]; decide)
  have hcount : u32At header 80 = some (UInt32.ofNat (decode (window header 80 4))) := u32At_eq (by rw [hlen]; decide)
  have hsize : u32At header 84 = some (UInt32.ofNat (decode (window header 84 4))) := u32At_eq (by rw [hlen]; decide)
  have hlbaNat := toNat_u64 header 72
  have hcountNat := toNat_u32 header 80
  have hsizeNat := toNat_u32 header 84
  rw [parseGptHeader, if_neg (by rw [hlen]; decide), hsig]
  dsimp only
  rw [if_neg (by simp), hlba, hcount, hsize]
  dsimp only
  simp only [tableLba, tableCount, entrySize, Nat.zero_add]
  generalize UInt64.ofNat (decode (window header 72 8)) = lba at hlbaNat ⊢
  generalize UInt32.ofNat (decode (window header 80 4)) = count at hcountNat ⊢
  generalize UInt32.ofNat (decode (window header 84 4)) = size at hsizeNat ⊢
  rw [← hlbaNat, ← hcountNat, ← hsizeNat]
  have hmod : (size % 8).toNat = size.toNat % 8 := UInt32.toNat_mod size 8
  simp only [MAX_GPT_ENTRIES, UInt64.lt_iff_toNat_lt, UInt32.lt_iff_toNat_lt, UInt32.le_iff_toNat_le, ne_eq,
    ← UInt32.toNat_inj, hmod]
  by_cases hok : 2 ≤ lba.toNat ∧ (1 ≤ count.toNat ∧ count.toNat ≤ 1024) ∧
      128 ≤ size.toNat ∧ size.toNat ≤ 1024 ∧ size.toNat % 8 = 0
  · rw [if_pos hok, if_neg]
    simp
    omega
  · rw [if_neg hok, if_pos]
    simp
    omega

/-- The header of a disk is read as the disk's own fields. -/
theorem header_fields (disk : List UInt8) (b : Nat) :
    window (window disk b GPT_HEADER_LEN) 0 8 = window disk b 8 ∧
      tableLba (window disk b GPT_HEADER_LEN) 0 = tableLba disk b ∧
      tableCount (window disk b GPT_HEADER_LEN) 0 = tableCount disk b ∧
      entrySize (window disk b GPT_HEADER_LEN) 0 = entrySize disk b := by
  simp only [tableLba, tableCount, entrySize, GPT_HEADER_LEN]
  refine ⟨?_, ?_, ?_, ?_⟩
  · exact window_window disk (by omega)
  · rw [window_window disk (by omega)]
  · rw [window_window disk (by omega)]
  · rw [window_window disk (by omega)]

/-! One entry of a table: what comes after its fields is not looked at. -/

structure Slot where
  typeGuid : Guid
  uniqueGuid : Guid
  firstLba : UInt64
  lastLba : UInt64
  rest : List UInt8
  deriving DecidableEq

namespace Slot

def bytes (slot : Slot) : List UInt8 :=
  slot.typeGuid.bytes ++ (slot.uniqueGuid.bytes ++ (encode 8 slot.firstLba.toNat ++
    (encode 8 slot.lastLba.toNat ++ slot.rest)))

def isUsed (slot : Slot) : Bool := slot.typeGuid.bytes != List.replicate 16 0

def entry (slot : Slot) (number : Nat) : GptEntry :=
  ⟨slot.typeGuid, ⟨UInt32.ofNat number, slot.uniqueGuid, slot.firstLba, slot.lastLba⟩⟩

theorem bytes_length (slot : Slot) : slot.bytes.length = 48 + slot.rest.length := by
  simp only [bytes, List.length_append, encode_length, slot.typeGuid.size, slot.uniqueGuid.size]
  omega

theorem isUsed_iff {slot : Slot} : slot.isUsed = true ↔ slot.typeGuid.bytes ≠ List.replicate 16 0 := bne_iff_ne

theorem window_typeGuid (slot : Slot) : window slot.bytes 0 16 = slot.typeGuid.bytes := by
  have hfront : ([] : List UInt8).length = 0 := rfl
  exact window_of_eq (slot.uniqueGuid.bytes ++ (encode 8 slot.firstLba.toNat ++
    (encode 8 slot.lastLba.toNat ++ slot.rest))) rfl hfront slot.typeGuid.size

theorem window_uniqueGuid (slot : Slot) : window slot.bytes 16 16 = slot.uniqueGuid.bytes :=
  window_of_eq _ rfl slot.typeGuid.size slot.uniqueGuid.size

theorem window_firstLba (slot : Slot) : window slot.bytes 32 8 = encode 8 slot.firstLba.toNat := by
  apply window_of_eq (encode 8 slot.lastLba.toNat ++ slot.rest) _ _ (encode_length 8 _)
  · exact slot.typeGuid.bytes ++ slot.uniqueGuid.bytes
  · simp only [bytes, List.append_assoc]
  · rw [List.length_append, slot.typeGuid.size, slot.uniqueGuid.size]

theorem window_lastLba (slot : Slot) : window slot.bytes 40 8 = encode 8 slot.lastLba.toNat := by
  apply window_of_eq slot.rest _ _ (encode_length 8 _)
  · exact slot.typeGuid.bytes ++ (slot.uniqueGuid.bytes ++ encode 8 slot.firstLba.toNat)
  · simp only [bytes, List.append_assoc]
  · rw [List.length_append, List.length_append, slot.typeGuid.size, slot.uniqueGuid.size, encode_length]

theorem decode_firstLba (slot : Slot) : decode (window slot.bytes 32 8) = slot.firstLba.toNat := by
  rw [window_firstLba, decode_encode slot.firstLba.toNat_lt]

theorem decode_lastLba (slot : Slot) : decode (window slot.bytes 40 8) = slot.lastLba.toNat := by
  rw [window_lastLba, decode_encode slot.lastLba.toNat_lt]

end Slot

/-- Every byte string that is long enough is an entry. -/
theorem exists_slot {bytes : List UInt8} (h : 48 ≤ bytes.length) : ∃ slot : Slot, slot.bytes = bytes := by
  have hfirst := toNat_u64 bytes 32
  have hlast := toNat_u64 bytes 40
  exists ⟨⟨window bytes 0 16, window_length (by omega)⟩, ⟨window bytes 16 16, window_length (by omega)⟩,
    UInt64.ofNat (decode (window bytes 32 8)), UInt64.ofNat (decode (window bytes 40 8)), bytes.drop 48⟩
  simp only [Slot.bytes, hfirst, hlast]
  rw [encode_decode (window_length (by omega)), encode_decode (window_length (by omega))]
  have hstep : ∀ a n, window bytes a n ++ bytes.drop (a + n) = bytes.drop a := by
    intro a n
    rw [window, ← List.drop_drop, List.take_append_drop]
  rw [hstep 40 8, hstep 32 8, hstep 16 16, hstep 0 16, List.drop_zero]

theorem gptEntry_bytes (slot : Slot) (number : Nat) :
    gptEntry slot.bytes (UInt32.ofNat number) = some (slot.entry number) := by
  have hlen := slot.bytes_length
  have htype : guidAt slot.bytes 0 = some slot.typeGuid := by
    rw [guidAt_eq (by omega)]
    simp only [slot.window_typeGuid]
  have hunique : guidAt slot.bytes 16 = some slot.uniqueGuid := by
    rw [guidAt_eq (by omega)]
    simp only [slot.window_uniqueGuid]
  have hfirst : u64At slot.bytes 32 = some slot.firstLba := by
    rw [u64At_eq (by omega), slot.decode_firstLba, UInt64.ofNat_toNat]
  have hlast : u64At slot.bytes 40 = some slot.lastLba := by
    rw [u64At_eq (by omega), slot.decode_lastLba, UInt64.ofNat_toNat]
  rw [gptEntry, htype, hunique, hfirst, hlast]
  rfl

/-- The used ones of a table's entries, the first of which is number `n`. -/
def usedFrom (n : Nat) : List Slot → List GptEntry
  | [] => []
  | slot :: slots => if slot.isUsed then slot.entry n :: usedFrom (n + 1) slots else usedFrom (n + 1) slots

theorem usedEntries_bytes (slots : List Slot) (n : Nat) :
    usedEntries ((slots.map Slot.bytes).zipIdx n) = some (usedFrom n slots) := by
  induction slots generalizing n with
  | nil => rfl
  | cons slot slots ih =>
      have htype : slice slot.bytes 0 16 = some slot.typeGuid.bytes := by
        have hslice : slice slot.bytes 0 (0 + 16) = _ := slice_window (by rw [slot.bytes_length]; omega)
        rwa [slot.window_typeGuid] at hslice
      rw [List.map_cons, List.zipIdx_cons, usedEntries, htype, usedFrom]
      dsimp only
      rw [gptEntry_bytes, ih]
      by_cases hused : slot.isUsed = true
      · rw [if_pos (Slot.isUsed_iff.mp hused), if_pos hused]
        rfl
      · rw [if_neg (fun h => hused (Slot.isUsed_iff.mpr h)), if_neg hused]

theorem mem_usedFrom {e : GptEntry} {slots : List Slot} {n : Nat} :
    e ∈ usedFrom n slots ↔ ∃ (k : Nat) (slot : Slot), slots[k]? = some slot ∧ slot.isUsed = true ∧ e = slot.entry (n + k) := by
  induction slots generalizing n with
  | nil => simp [usedFrom]
  | cons slot slots ih =>
      have hmem : e ∈ usedFrom n (slot :: slots) ↔
          (slot.isUsed = true ∧ e = slot.entry n) ∨ e ∈ usedFrom (n + 1) slots := by
        rw [usedFrom]
        by_cases hused : slot.isUsed = true
        · simp [hused]
        · simp [hused]
      rw [hmem, ih]
      constructor
      · rintro (⟨hused, rfl⟩ | ⟨k, slot', hget, hused, rfl⟩)
        · exact ⟨0, slot, rfl, hused, rfl⟩
        · exact ⟨k + 1, slot', by simpa using hget, hused, by rw [Nat.add_right_comm, Nat.add_assoc]⟩
      · rintro ⟨k, slot', hget, hused, rfl⟩
        cases k with
        | zero =>
            cases hget
            exact Or.inl ⟨hused, rfl⟩
        | succ k =>
            exact Or.inr ⟨k, slot', by simpa using hget, hused, by rw [Nat.add_right_comm, Nat.add_assoc]⟩

theorem usedFrom_spare {spare : List Slot} (h : ∀ slot ∈ spare, slot.isUsed = false) (n : Nat) :
    usedFrom n spare = [] := by
  induction spare generalizing n with
  | nil => rfl
  | cons slot spare ih =>
      rw [List.forall_mem_cons] at h
      rw [usedFrom, if_neg (by simp [h.1]), ih h.2]

theorem usedFrom_append {spare : List Slot} (h : ∀ slot ∈ spare, slot.isUsed = false) (slots : List Slot) (n : Nat) :
    usedFrom n (slots ++ spare) = usedFrom n slots := by
  induction slots generalizing n with
  | nil => exact usedFrom_spare h n
  | cons slot slots ih => rw [List.cons_append, usedFrom, usedFrom, ih]

/-- The numbers of a table that they fit into ascend. -/
theorem usedFrom_ascending {slots : List Slot} {n : Nat} (h : n + slots.length ≤ UInt32.size) :
    (usedFrom n slots).Pairwise (fun a b => a.part.number < b.part.number) := by
  induction slots generalizing n with
  | nil => exact List.Pairwise.nil
  | cons slot slots ih =>
      rw [List.length_cons] at h
      rw [usedFrom]
      by_cases hused : slot.isUsed = true
      · rw [if_pos hused]
        apply List.Pairwise.cons _ (ih (by omega))
        intro e he
        obtain ⟨k, slot', hget, -, rfl⟩ := mem_usedFrom.mp he
        have hk := (List.getElem?_eq_some_iff.mp hget).1
        simp only [Slot.entry]
        rw [UInt32.lt_iff_toNat_lt, UInt32.toNat_ofNat_of_lt' (by omega), UInt32.toNat_ofNat_of_lt' (by omega)]
        omega
      · rw [if_neg hused]
        exact ih (by omega)

/-- A table of whole entries is the bytes of as many slots. -/
theorem exists_slots {table : List UInt8} {count size : Nat} (hsize : 48 ≤ size) (h : table.length = count * size) :
    ∃ slots : List Slot, slots.length = count ∧ chunksExact size table = slots.map Slot.bytes ∧
      ∀ k slot, slots[k]? = some slot → slot.bytes = window table (k * size) size := by
  have hslot : ∀ chunk ∈ chunksExact size table, chunk ∈ Set.range Slot.bytes := by
    rw [chunksExact_window (by omega) h]
    intro chunk hchunk
    obtain ⟨k, hk, rfl⟩ := List.mem_map.mp hchunk
    have hend := Nat.mul_le_mul_left size (Nat.succ_le_of_lt (List.mem_range.mp hk))
    rw [Nat.mul_succ, Nat.mul_comm size count, ← h] at hend
    exact exists_slot (by rw [window_length hend]; exact hsize)
  have hrange : chunksExact size table ∈ Set.range (List.map Slot.bytes) := by
    rw [Set.range_list_map]
    exact hslot
  obtain ⟨slots, hslots⟩ := hrange
  have hwindows := hslots.trans (chunksExact_window (by omega) h)
  have hlen := congrArg List.length hwindows
  rw [List.length_map, List.length_map, List.length_range] at hlen
  refine ⟨slots, hlen, hslots.symm, ?_⟩
  intro k slot hget
  have hk : k < count := hlen ▸ (List.getElem?_eq_some_iff.mp hget).1
  have hat := congrArg (fun chunks => chunks[k]?) hwindows
  rw [List.getElem?_map, hget, List.getElem?_map, List.getElem?_range hk] at hat
  rw [Option.some.inj hat, Nat.mul_comm]

section Reading

variable {bytes : List UInt8} (pos : UInt64) {b : UInt64} (disk : String)

theorem readGptEntries_unreadable (h : ¬HeaderReadable bytes b.toNat) :
    readGptEntries ⟨bytes, pos⟩ b disk = some (.error (.readGpt disk (.other "failed to fill whole buffer"))) := by
  rw [HeaderReadable, Nat.not_le] at h
  rw [readGptEntries, readExact_seek_error (by decide) h]

theorem readGptEntries_unsigned (hread : HeaderReadable bytes b.toNat) (h : ¬Signed bytes b.toNat) :
    readGptEntries ⟨bytes, pos⟩ b disk = some (.error (.noGpt disk)) := by
  have hsig : window (window bytes b.toNat GPT_HEADER_LEN) 0 8 ≠ GPT_SIGNATURE := by
    rw [(header_fields bytes b.toNat).1]
    exact h
  rw [readGptEntries, readExact_seek_ok hread]
  dsimp only
  rw [parseGptHeader_noGpt hsig]

theorem toNat_offset {lba : Nat} (h : lba * b.toNat < UInt64.size) (hlba : (UInt64.ofNat lba).toNat = lba) :
    (UInt64.ofNat lba * b).toNat = lba * b.toNat := by
  rw [UInt64.toNat_mul, hlba]
  exact Nat.mod_eq_of_lt h

/-- Once the header is read, it is the table that is read. -/
theorem readGptEntries_signed (hread : HeaderReadable bytes b.toNat) (hsigned : Signed bytes b.toNat) :
    (¬Admissible bytes b.toNat → readGptEntries ⟨bytes, pos⟩ b disk = some (.error (.badGpt disk))) ∧
      (Admissible bytes b.toNat → ¬TableOnDisk bytes b.toNat →
        readGptEntries ⟨bytes, pos⟩ b disk = some (.error (.readGpt disk (.other "failed to fill whole buffer")))) ∧
      (Admissible bytes b.toNat → TableOnDisk bytes b.toNat →
        readGptEntries ⟨bytes, pos⟩ b disk =
          (gptEntries (window bytes (tableLba bytes b.toNat * b.toNat)
            (tableCount bytes b.toNat * entrySize bytes b.toNat)) (entrySize bytes b.toNat)).map .ok) := by
  obtain ⟨hsig, hlba, hcount, hsize⟩ := header_fields bytes b.toNat
  have hparse : parseGptHeader (window bytes b.toNat GPT_HEADER_LEN) disk = _ :=
    parseGptHeader_eq (window_length hread) (hsig.trans hsigned)
  rw [hlba, hcount, hsize] at hparse
  have hlbaNat : (UInt64.ofNat (tableLba bytes b.toNat)).toNat = tableLba bytes b.toNat := toNat_u64 bytes _
  have hcountNat : (UInt32.ofNat (tableCount bytes b.toNat)).toNat = tableCount bytes b.toNat := toNat_u32 bytes _
  have hsizeNat : (UInt32.ofNat (entrySize bytes b.toNat)).toNat = entrySize bytes b.toNat := toNat_u32 bytes _
  rw [readGptEntries, readExact_seek_ok hread]
  dsimp only
  rw [hparse]
  refine ⟨?_, ?_, ?_⟩
  · intro hbad
    by_cases hfields : 2 ≤ tableLba bytes b.toNat ∧ (1 ≤ tableCount bytes b.toNat ∧ tableCount bytes b.toNat ≤ 1024) ∧
        128 ≤ entrySize bytes b.toNat ∧ entrySize bytes b.toNat ≤ 1024 ∧ entrySize bytes b.toNat % 8 = 0
    · have hoffset : UInt64.size ≤ tableLba bytes b.toNat * b.toNat := by
        apply Nat.le_of_not_lt
        intro hlt
        exact hbad ⟨hfields.1, hfields.2.1, hfields.2.2, hlt⟩
      rw [if_pos hfields]
      dsimp only
      rw [hlbaNat, if_pos hoffset]
    · rw [if_neg hfields]
  · intro hok hshort
    rw [if_pos ⟨hok.lba, hok.count, hok.size⟩]
    dsimp only
    have hpos : 0 < tableCount bytes b.toNat * entrySize bytes b.toNat :=
      Nat.mul_pos hok.count.1 (by have := hok.size.1; omega)
    rw [TableOnDisk, Nat.not_le] at hshort
    rw [hlbaNat, hcountNat, hsizeNat, if_neg (Nat.not_le.mpr hok.offset), readExact_seek_error hpos]
    rwa [toNat_offset hok.offset hlbaNat]
  · intro hok hon
    rw [if_pos ⟨hok.lba, hok.count, hok.size⟩]
    dsimp only
    have hoffset := toNat_offset hok.offset hlbaNat
    rw [hlbaNat, hcountNat, hsizeNat, if_neg (Nat.not_le.mpr hok.offset), readExact_seek_ok, hoffset]
    rwa [hoffset]

end Reading

/-- A slot says what the disk stores where it was read. -/
theorem stored_iff {bytes : List UInt8} {b k : Nat} {slot : Slot} {e : GptEntry} (hk : k + 1 < UInt32.size)
    (hslot : slot.bytes = window bytes (tableLba bytes b * b + k * entrySize bytes b) (entrySize bytes b)) :
    Stored bytes b k e ↔ slot.isUsed = true ∧ e = slot.entry (1 + k) := by
  have hsize : 48 ≤ entrySize bytes b := by
    have hlen := congrArg List.length hslot
    have htake : (window bytes (tableLba bytes b * b + k * entrySize bytes b) (entrySize bytes b)).length ≤
      entrySize bytes b := List.length_take_le ..
    rw [slot.bytes_length] at hlen
    omega
  have hfield : ∀ a n, a + n ≤ 48 → window slot.bytes a n =
      window bytes (tableLba bytes b * b + k * entrySize bytes b + a) n := by
    intro a n han
    rw [hslot, window_window bytes (by omega)]
  have hnumber : (UInt32.ofNat (1 + k)).toNat = k + 1 := by
    rw [UInt32.toNat_ofNat_of_lt' (by omega), Nat.add_comm]
  have htype := hfield 0 16 (by omega)
  have hunique := hfield 16 16 (by omega)
  have hfirst := hfield 32 8 (by omega)
  have hlast := hfield 40 8 (by omega)
  rw [slot.window_typeGuid, Nat.add_zero] at htype
  rw [slot.window_uniqueGuid] at hunique
  have hfirst' := slot.decode_firstLba
  have hlast' := slot.decode_lastLba
  rw [hfirst] at hfirst'
  rw [hlast] at hlast'
  constructor
  · intro h
    obtain ⟨⟨typeGuid, htypeSize⟩, number, ⟨uniqueGuid, huniqueSize⟩, firstLba, lastLba⟩ := e
    have hused := h.used
    have h1 := h.typeGuid.trans htype.symm
    have h2 := UInt32.toNat_inj.mp (h.number.trans hnumber.symm)
    have h3 := h.uniqueGuid.trans hunique.symm
    have h4 := UInt64.toNat_inj.mp (h.firstLba.trans hfirst')
    have h5 := UInt64.toNat_inj.mp (h.lastLba.trans hlast')
    dsimp only at hused h1 h2 h3 h4 h5
    subst h1 h2 h3 h4 h5
    exact ⟨Slot.isUsed_iff.mpr hused, rfl⟩
  · rintro ⟨hused, rfl⟩
    exact ⟨htype, Slot.isUsed_iff.mp hused, hnumber, hunique, hfirst'.symm, hlast'.symm⟩

theorem readGptEntries_stored {bytes : List UInt8} (pos : UInt64) {b : UInt64} (disk : String)
    (hread : HeaderReadable bytes b.toNat) (hsigned : Signed bytes b.toNat) (hok : Admissible bytes b.toNat)
    (hon : TableOnDisk bytes b.toNat) :
    ∃ entries, readGptEntries ⟨bytes, pos⟩ b disk = some (.ok entries) ∧
      entries.Pairwise (fun e f => e.part.number < f.part.number) ∧
      ∀ e, e ∈ entries ↔ ∃ k, k < tableCount bytes b.toNat ∧ Stored bytes b.toNat k e := by
  have hsize := hok.size.1
  have hcount := hok.count.2
  obtain ⟨slots, hlen, hchunks, hslots⟩ := exists_slots (by omega) (window_length hon)
  exists usedFrom 1 slots
  refine ⟨?_, ?_, ?_⟩
  · rw [(readGptEntries_signed pos disk hread hsigned).2.2 hok hon, gptEntries, if_neg (by omega), hchunks,
      usedEntries_bytes]
    rfl
  · have hfit : 1 + slots.length ≤ UInt32.size := by
      rw [UInt32.size]
      omega
    exact usedFrom_ascending hfit
  · intro e
    rw [mem_usedFrom]
    constructor
    · rintro ⟨k, slot, hget, hused, heq⟩
      have hk : k < slots.length := (List.getElem?_eq_some_iff.mp hget).1
      have hend := Nat.mul_le_mul_right (entrySize bytes b.toNat) (Nat.succ_le_of_lt (hlen ▸ hk))
      rw [Nat.succ_mul] at hend
      have hslot := hslots k slot hget
      rw [window_window bytes hend] at hslot
      exact ⟨k, hlen ▸ hk, (stored_iff (by rw [UInt32.size]; omega) hslot).mpr ⟨hused, heq⟩⟩
    · rintro ⟨k, hk, hstored⟩
      have hget : slots[k]? = some slots[k] := List.getElem?_eq_getElem (hlen ▸ hk)
      have hend := Nat.mul_le_mul_right (entrySize bytes b.toNat) (Nat.succ_le_of_lt hk)
      rw [Nat.succ_mul] at hend
      have hslot := hslots k _ hget
      rw [window_window bytes hend] at hslot
      exact ⟨k, _, hget, (stored_iff (by rw [UInt32.size]; omega) hslot).mp hstored⟩

/-- The ESPs of a disk come in the order the lookup among them relies on. -/
theorem readEspEntries_ascending {bytes : List UInt8} {pos b : UInt64} {disk : String} {esps : List GptEsp}
    (h : readEspEntries ⟨bytes, pos⟩ b disk = some (.ok esps)) :
    esps.Pairwise (fun e f => e.number < f.number) := by
  have hstored : ∃ entries, readGptEntries ⟨bytes, pos⟩ b disk = some (.ok entries) ∧
      entries.Pairwise (fun e f => e.part.number < f.part.number) := by
    by_cases hread : HeaderReadable bytes b.toNat
    · by_cases hsigned : Signed bytes b.toNat
      · obtain ⟨hbad, hshort, -⟩ := readGptEntries_signed pos disk hread hsigned
        by_cases hok : Admissible bytes b.toNat
        · by_cases hon : TableOnDisk bytes b.toNat
          · obtain ⟨entries, heq, hasc, -⟩ := readGptEntries_stored pos disk hread hsigned hok hon
            exact ⟨entries, heq, hasc⟩
          · rw [readEspEntries, hshort hok hon] at h
            cases h
        · rw [readEspEntries, hbad hok] at h
          cases h
      · rw [readEspEntries, readGptEntries_unsigned pos disk hread hsigned] at h
        cases h
    · rw [readEspEntries, readGptEntries_unreadable pos disk hread] at h
      cases h
  obtain ⟨entries, heq, hasc⟩ := hstored
  rw [readEspEntries, heq] at h
  cases h
  exact (hasc.filter _).map _ (fun _ _ hlt => hlt)

/-- A disk with a GPT at block one and its table at block `lba`. The bytes
around the fields that are read are arbitrary. -/
structure GptImage (b : UInt64) where
  slots : List Slot
  size : Nat
  lba : Nat
  front : List UInt8
  reserved : List UInt8
  gap : List UInt8
  back : List UInt8
  front_length : front.length = b.toNat
  reserved_length : reserved.length = 64
  gap_length : b.toNat + 88 + gap.length = lba * b.toNat
  slots_size : ∀ slot ∈ slots, slot.bytes.length = size
  lba_ge : 2 ≤ lba
  count : 1 ≤ slots.length ∧ slots.length ≤ 1024
  size_range : 128 ≤ size ∧ size ≤ 1024 ∧ size % 8 = 0
  offset : lba * b.toNat < UInt64.size

namespace GptImage

variable {b : UInt64}

def table (image : GptImage b) : List UInt8 := image.slots.flatMap Slot.bytes

def disk (image : GptImage b) : List UInt8 :=
  image.front ++ (GPT_SIGNATURE ++ (image.reserved ++ (encode 8 image.lba ++ (encode 4 image.slots.length ++
    (encode 4 image.size ++ (image.gap ++ (image.table ++ image.back)))))))

theorem signature_length : GPT_SIGNATURE.length = 8 := rfl

theorem table_length (image : GptImage b) : image.table.length = image.slots.length * image.size := by
  have hsize := image.slots_size
  rw [table]
  generalize image.slots = slots at hsize ⊢
  induction slots with
  | nil => simp
  | cons slot slots ih =>
      rw [List.forall_mem_cons] at hsize
      rw [List.flatMap_cons, List.length_append, hsize.1, ih hsize.2, List.length_cons, Nat.succ_mul, Nat.add_comm]

theorem chunksExact_table (image : GptImage b) : chunksExact image.size image.table = image.slots.map Slot.bytes := by
  have hsize := image.slots_size
  have hpos := image.size_range.1
  rw [table]
  generalize image.slots = slots at hsize ⊢
  induction slots with
  | nil => exact chunksExact_short (by simp; omega)
  | cons slot slots ih =>
      rw [List.forall_mem_cons] at hsize
      rw [List.flatMap_cons, chunksExact_append (by omega) hsize.1, ih hsize.2, List.map_cons]

theorem signed (image : GptImage b) : Signed image.disk b.toNat :=
  window_of_eq _ rfl image.front_length rfl

theorem lba_lt (image : GptImage b) : image.lba < 256 ^ 8 := by
  have h1 := image.gap_length
  have h2 := image.offset
  have hpos : 0 < b.toNat := by
    apply Nat.pos_of_ne_zero
    intro h0
    rw [h0, Nat.mul_zero] at h1
    omega
  exact Nat.lt_of_le_of_lt (Nat.le_mul_of_pos_right image.lba hpos) h2

theorem tableLba_disk (image : GptImage b) : tableLba image.disk b.toNat = image.lba := by
  have hwindow : window image.disk (b.toNat + 72) 8 = encode 8 image.lba := by
    apply window_of_eq (encode 4 image.slots.length ++ (encode 4 image.size ++ (image.gap ++ (image.table ++ image.back))))
      _ _ (encode_length 8 _)
    · exact image.front ++ (GPT_SIGNATURE ++ image.reserved)
    · simp only [disk, List.append_assoc]
    · simp only [List.length_append, image.front_length, image.reserved_length, signature_length]
  rw [tableLba, hwindow, decode_encode image.lba_lt]

theorem tableCount_disk (image : GptImage b) : tableCount image.disk b.toNat = image.slots.length := by
  have hwindow : window image.disk (b.toNat + 80) 4 = encode 4 image.slots.length := by
    apply window_of_eq (encode 4 image.size ++ (image.gap ++ (image.table ++ image.back))) _ _ (encode_length 4 _)
    · exact image.front ++ (GPT_SIGNATURE ++ (image.reserved ++ encode 8 image.lba))
    · simp only [disk, List.append_assoc]
    · simp only [List.length_append, image.front_length, image.reserved_length, signature_length,
        encode_length]
  have hcount := image.count.2
  rw [tableCount, hwindow, decode_encode (by omega)]

theorem entrySize_disk (image : GptImage b) : entrySize image.disk b.toNat = image.size := by
  have hwindow : window image.disk (b.toNat + 84) 4 = encode 4 image.size := by
    apply window_of_eq (image.gap ++ (image.table ++ image.back)) _ _ (encode_length 4 _)
    · exact image.front ++ (GPT_SIGNATURE ++ (image.reserved ++ (encode 8 image.lba ++ encode 4 image.slots.length)))
    · simp only [disk, List.append_assoc]
    · simp only [List.length_append, image.front_length, image.reserved_length, signature_length,
        encode_length]
  have hsize := image.size_range.2.1
  rw [entrySize, hwindow, decode_encode (by omega)]

theorem window_table (image : GptImage b) :
    window image.disk (image.lba * b.toNat) (image.slots.length * image.size) = image.table := by
  apply window_of_eq image.back _ _ image.table_length
  · exact image.front ++ (GPT_SIGNATURE ++ (image.reserved ++ (encode 8 image.lba ++ (encode 4 image.slots.length ++
      (encode 4 image.size ++ image.gap)))))
  · simp only [disk, List.append_assoc]
  · rw [← image.gap_length]
    simp only [List.length_append, image.front_length, image.reserved_length, signature_length,
      encode_length]
    omega

theorem disk_length (image : GptImage b) :
    image.disk.length = image.lba * b.toNat + image.slots.length * image.size + image.back.length := by
  rw [← image.gap_length, ← image.table_length]
  simp only [disk, List.length_append, image.front_length, image.reserved_length, signature_length, encode_length]
  omega

theorem headerReadable (image : GptImage b) : HeaderReadable image.disk b.toNat := by
  have hgap := image.gap_length
  have htable := Nat.mul_le_mul image.count.1 image.size_range.1
  rw [HeaderReadable, image.disk_length, GPT_HEADER_LEN]
  omega

theorem admissible (image : GptImage b) : Admissible image.disk b.toNat where
  lba := by rw [image.tableLba_disk]; exact image.lba_ge
  count := by rw [image.tableCount_disk]; exact image.count
  size := by rw [image.entrySize_disk]; exact image.size_range
  offset := by rw [image.tableLba_disk]; exact image.offset

theorem tableOnDisk (image : GptImage b) : TableOnDisk image.disk b.toNat := by
  rw [TableOnDisk, image.tableLba_disk, image.tableCount_disk, image.entrySize_disk, image.disk_length]
  omega

/-- Wherever a table may lie on real blocks there is a disk with it. -/
theorem exists_image (hb : 512 ≤ b.toNat) {slots : List Slot} {size lba : Nat}
    (hslots : ∀ slot ∈ slots, slot.bytes.length = size) (hcount : 1 ≤ slots.length ∧ slots.length ≤ 1024)
    (hsize : 128 ≤ size ∧ size ≤ 1024 ∧ size % 8 = 0) (hlba : 2 ≤ lba) (hoffset : lba * b.toNat < UInt64.size) :
    ∃ image : GptImage b, image.slots = slots ∧ image.size = size ∧ image.lba = lba := by
  have hroom := Nat.mul_le_mul_right b.toNat hlba
  exact ⟨{
    slots := slots
    size := size
    lba := lba
    front := List.replicate b.toNat 0
    reserved := List.replicate 64 0
    gap := List.replicate (lba * b.toNat - (b.toNat + 88)) 0
    back := []
    front_length := List.length_replicate
    reserved_length := List.length_replicate
    gap_length := by rw [List.length_replicate]; omega
    slots_size := hslots
    lba_ge := hlba
    count := hcount
    size_range := hsize
    offset := hoffset }, rfl, rfl, rfl⟩

end GptImage

/-- The reader takes a disk apart exactly as its header says, or stops at the
first thing that is wrong with it. -/
theorem readGptEntries_exact (pos b : UInt64) (disk : String) :
    (∀ bytes : List UInt8,
      (¬HeaderReadable bytes b.toNat →
        ∃ source, readGptEntries ⟨bytes, pos⟩ b disk = some (.error (.readGpt disk source))) ∧
      (HeaderReadable bytes b.toNat → ¬Signed bytes b.toNat →
        readGptEntries ⟨bytes, pos⟩ b disk = some (.error (.noGpt disk))) ∧
      (HeaderReadable bytes b.toNat → Signed bytes b.toNat → ¬Admissible bytes b.toNat →
        readGptEntries ⟨bytes, pos⟩ b disk = some (.error (.badGpt disk))) ∧
      (HeaderReadable bytes b.toNat → Signed bytes b.toNat → Admissible bytes b.toNat → ¬TableOnDisk bytes b.toNat →
        ∃ source, readGptEntries ⟨bytes, pos⟩ b disk = some (.error (.readGpt disk source))) ∧
      (HeaderReadable bytes b.toNat → Signed bytes b.toNat → Admissible bytes b.toNat → TableOnDisk bytes b.toNat →
        ∃ entries, readGptEntries ⟨bytes, pos⟩ b disk = some (.ok entries) ∧
          entries.Pairwise (fun e f => e.part.number < f.part.number) ∧
          ∀ e, e ∈ entries ↔ ∃ k, k < tableCount bytes b.toNat ∧ Stored bytes b.toNat k e)) ∧
    ∀ (image : GptImage b) (slots spare : List Slot), image.slots = slots ++ spare →
      (∀ slot ∈ spare, slot.isUsed = false) →
      readGptEntries ⟨image.disk, pos⟩ b disk = some (.ok (usedFrom 1 slots)) := by
  constructor
  · intro bytes
    refine ⟨?_, ?_, ?_, ?_, ?_⟩
    · intro h
      exact ⟨_, readGptEntries_unreadable pos disk h⟩
    · exact readGptEntries_unsigned pos disk
    · intro hread hsigned
      exact (readGptEntries_signed pos disk hread hsigned).1
    · intro hread hsigned hok hshort
      exact ⟨_, (readGptEntries_signed pos disk hread hsigned).2.1 hok hshort⟩
    · exact readGptEntries_stored pos disk
  · intro image slots spare hslots hspare
    have hsize := image.size_range.1
    rw [(readGptEntries_signed pos disk image.headerReadable image.signed).2.2 image.admissible image.tableOnDisk,
      image.tableLba_disk, image.tableCount_disk, image.entrySize_disk, image.window_table, gptEntries,
      if_neg (by omega), image.chunksExact_table, usedEntries_bytes, hslots, usedFrom_append hspare]
    rfl

end Beskar7Inspector.GptEntries
