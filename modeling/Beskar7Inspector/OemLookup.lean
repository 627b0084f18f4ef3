import Beskar7Inspector.DiskNodes
import Beskar7Inspector.PartitionLookup

namespace Beskar7Inspector.OemLookup

open Lib.LittleEndian Lib.Os Lib.Text Lib.Utf8 Lib.Slices Lib.Reader SysTree DiskSelection Oem PartitionLookup DiskNodes

/-- The bytes of a partition hold an ext superblock with this label. -/
structure Labelled (bytes : List UInt8) (label : String) : Prop where
  reaches : EXT_LABEL_OFFSET + EXT_LABEL_LEN ≤ bytes.length
  magic : window bytes EXT_MAGIC_OFFSET 2 = [0x53, 0xEF]
  name : (window bytes EXT_LABEL_OFFSET EXT_LABEL_LEN).takeWhile (· ≠ 0) = utf8 label
  nonempty : label ≠ ""

theorem magic_iff {buf : List UInt8} (h : EXT_LABEL_OFFSET + EXT_LABEL_LEN ≤ buf.length) :
    UInt16.ofNat (decode (window buf EXT_MAGIC_OFFSET 2)) = EXT_MAGIC ↔ window buf EXT_MAGIC_OFFSET 2 = [0x53, 0xEF] := by
  have hlen : (window buf EXT_MAGIC_OFFSET 2).length = 2 := by
    refine window_length ?_
    simp only [EXT_MAGIC_OFFSET, EXT_LABEL_OFFSET, EXT_SB_OFFSET, EXT_LABEL_LEN] at h ⊢
    omega
  have hlt := decode_lt (window buf EXT_MAGIC_OFFSET 2)
  rw [hlen] at hlt
  constructor
  · intro hmagic
    have hnat := congrArg UInt16.toNat hmagic
    rw [UInt16.toNat_ofNat_of_lt' hlt] at hnat
    rw [← encode_decode hlen, hnat]
    rfl
  · intro hwindow
    rw [hwindow]
    rfl

theorem extLabel_eq_some_iff {buf : List UInt8} {label : String} :
    extLabel buf = some label ↔ Labelled buf label := by
  rw [extLabel]
  by_cases hlen : EXT_LABEL_OFFSET + EXT_LABEL_LEN ≤ buf.length
  · rw [if_neg (Nat.not_lt.mpr hlen)]
    by_cases hmagic : UInt16.ofNat (decode (window buf EXT_MAGIC_OFFSET 2)) = EXT_MAGIC
    · rw [if_neg (not_not.mpr hmagic)]
      dsimp only
      rw [Option.filter_eq_some_iff, fromUtf8_eq_some_iff, decide_eq_true_eq]
      exact ⟨fun h => ⟨hlen, (magic_iff hlen).mp hmagic, h.1, h.2⟩, fun h => ⟨h.name, h.nonempty⟩⟩
    · rw [if_pos hmagic]
      refine iff_of_false nofun ?_
      exact fun h => hmagic ((magic_iff hlen).mpr h.magic)
  · rw [if_pos (Nat.not_le.mp hlen)]
    exact iff_of_false nofun fun h => hlen h.reaches

/-- The front of a partition that is read is enough of it. -/
theorem labelled_take {bytes : List UInt8} {label : String} :
    Labelled (bytes.take SUPERBLOCK_READ_BYTES) label ↔ Labelled bytes label := by
  have hwindow (a n : Nat) (h : a + n ≤ SUPERBLOCK_READ_BYTES) :
      window (bytes.take SUPERBLOCK_READ_BYTES) a n = window bytes a n := by
    have hinner := window_window bytes (o := 0) h
    rwa [Nat.zero_add] at hinner
  have hmagic := hwindow EXT_MAGIC_OFFSET 2 (by decide)
  have hname := hwindow EXT_LABEL_OFFSET EXT_LABEL_LEN (by decide)
  have hlen : EXT_LABEL_OFFSET + EXT_LABEL_LEN ≤ (bytes.take SUPERBLOCK_READ_BYTES).length ↔
      EXT_LABEL_OFFSET + EXT_LABEL_LEN ≤ bytes.length := by
    rw [List.length_take, le_min_iff]
    exact and_iff_right (by decide)
  constructor
  · rintro ⟨h1, h2, h3, h4⟩
    exact ⟨hlen.mp h1, hmagic ▸ h2, hname ▸ h3, h4⟩
  · rintro ⟨h1, h2, h3, h4⟩
    exact ⟨hlen.mpr h1, hmagic.symm ▸ h2, hname.symm ▸ h3, h4⟩

/-- The front of a partition as it is formatted with a label. What stands around
the two fields, and after the label's NUL, is arbitrary. -/
structure Superblock where
  label : String
  front : List UInt8
  between : List UInt8
  padding : List UInt8
  rest : List UInt8
  front_length : front.length = EXT_MAGIC_OFFSET
  between_length : between.length = EXT_LABEL_OFFSET - EXT_MAGIC_OFFSET - 2
  field_length : (utf8 label).length + padding.length = EXT_LABEL_LEN
  nonempty : label ≠ ""
  no_nul : ∀ b ∈ utf8 label, b ≠ 0
  ended : ∀ b, padding.head? = some b → b = 0

namespace Superblock

def bytes (sb : Superblock) : List UInt8 :=
  sb.front ++ ([0x53, 0xEF] ++ (sb.between ++ ((utf8 sb.label ++ sb.padding) ++ sb.rest)))

theorem takeWhile_field (sb : Superblock) : (utf8 sb.label ++ sb.padding).takeWhile (· ≠ 0) = utf8 sb.label := by
  have hpadding : sb.padding.takeWhile (· ≠ 0) = [] := by
    cases h : sb.padding with
    | nil => rfl
    | cons b padding =>
        have hb : b = 0 := sb.ended b (by rw [h]; rfl)
        rw [hb]
        rfl
  rw [List.takeWhile_append_of_pos fun b hb => decide_eq_true (sb.no_nul b hb), hpadding, List.append_nil]

theorem labelled (sb : Superblock) : Labelled sb.bytes sb.label where
  reaches := by
    have h1 := sb.front_length
    have h2 := sb.between_length
    have h3 := sb.field_length
    simp only [bytes, List.length_append, List.length_cons, List.length_nil]
    simp only [EXT_MAGIC_OFFSET, EXT_LABEL_OFFSET, EXT_LABEL_LEN, EXT_SB_OFFSET] at h1 h2 h3 ⊢
    omega
  magic := window_of_eq _ rfl sb.front_length rfl
  name := by
    have hwindow : window sb.bytes EXT_LABEL_OFFSET EXT_LABEL_LEN = utf8 sb.label ++ sb.padding := by
      apply window_of_eq sb.rest
      · rw [bytes, ← List.append_assoc, ← List.append_assoc]
      · rw [List.length_append, List.length_append, sb.front_length, sb.between_length]
        rfl
      · rw [List.length_append, sb.field_length]
    rw [hwindow, sb.takeWhile_field]
  nonempty := sb.nonempty

end Superblock

/-- The node of a partition leads to bytes with this label. -/
def Carries (host : Host) (part label : String) : Prop :=
  ∃ node, host.openRead ("/dev/" ++ part) = .ok node ∧ Labelled node.bytes label

/-- No read from the node of a partition fails. -/
def Readable (host : Host) (part : String) : Prop :=
  ∀ node, host.openRead ("/dev/" ++ part) = .ok node → ∀ e, .fails e ∉ node.reads 0

theorem carries_of_label {host : Host} {part label : String} (h : readExtLabelOfDevice host part = some label) :
    Carries host part label := by
  rw [readExtLabelOfDevice] at h
  cases hopen : host.openRead ("/dev/" ++ part) with
  | error e =>
      rw [hopen] at h
      cases h
  | ok node =>
      rw [hopen] at h
      dsimp only at h
      cases hread : readUpTo (node.reads 0) node.bytes SUPERBLOCK_READ_BYTES with
      | error e =>
          rw [hread] at h
          cases h
      | ok buf =>
          rw [hread] at h
          have hlabel := extLabel_eq_some_iff.mp h
          rw [readUpTo_ok hread] at hlabel
          exact ⟨node, hopen, labelled_take.mp hlabel⟩

theorem label_of_carries {host : Host} {part label : String} (hread : Readable host part)
    (h : Carries host part label) : readExtLabelOfDevice host part = some label := by
  obtain ⟨node, hopen, hlabelled⟩ := h
  rw [readExtLabelOfDevice, hopen]
  dsimp only
  rw [readUpTo_of_sound (hread node hopen)]
  exact extLabel_eq_some_iff.mpr (labelled_take.mpr hlabelled)

/-- What is read from a partition is a label that it carries, and a label that it
carries is read unless a read fails. -/
theorem readExtLabelOfDevice_superblock {host : Host} {part : String} {node : OpenNode} (sb : Superblock)
    (hopen : host.openRead ("/dev/" ++ part) = .ok node) (hbytes : node.bytes = sb.bytes) :
    (∀ label, readExtLabelOfDevice host part = some label → label = sb.label) ∧
      ((∀ e, .fails e ∉ node.reads 0) → readExtLabelOfDevice host part = some sb.label) := by
  have hlabelled : Labelled node.bytes sb.label := hbytes.symm ▸ sb.labelled
  constructor
  · intro label hlabel
    obtain ⟨node', hopen', hlabelled'⟩ := carries_of_label hlabel
    cases hopen.symm.trans hopen'
    exact Option.some.inj ((extLabel_eq_some_iff.mpr hlabelled').symm.trans (extLabel_eq_some_iff.mpr hlabelled))
  · intro hreads
    refine label_of_carries ?_ ⟨node, hopen, hlabelled⟩
    intro node' hopen'
    cases hopen.symm.trans hopen'
    exact hreads

/-- The partition that is found carries the label on the disk, whatever pieces it
is read in, and is the first of the target's that does and whose reads succeed; none
of these is missed. A superblock written with a label is read as having just that one. -/
theorem findOemPartition_labelled (host : Host) (target : TargetDisk) :
    (∀ p, findOemPartition host target = .ok p →
      IsPartitionOf host.block target.kname p.kname ∧ Carries host p.kname OEM_LABEL ∧
      p.devNumber = (host.block.readTrimmed [target.kname, p.kname, "dev"]).getD "" ∧
      ∀ other, IsPartitionOf host.block target.kname other → Readable host other → Carries host other OEM_LABEL →
        p.kname ≤ other) ∧
    (∀ e, findOemPartition host target = .error e → ∀ part, IsPartitionOf host.block target.kname part →
      Readable host part → ¬Carries host part OEM_LABEL) ∧
    ∀ (sb : Superblock) part node, host.openRead ("/dev/" ++ part) = .ok node → node.bytes = sb.bytes →
      (∀ label, readExtLabelOfDevice host part = some label → label = sb.label) ∧
        ((∀ e, .fails e ∉ node.reads 0) → readExtLabelOfDevice host part = some sb.label) := by
  have houtcome : OemOutcome host.block target.kname (readExtLabelOfDevice host) (findOemPartition host target) :=
    findOemIn_outcome _
  refine ⟨fun p hp => ?_, fun e he part hpart hread hcarries => ?_, fun sb part node hopen hbytes => ?_⟩
  · rw [hp] at houtcome
    obtain ⟨hpart, hlabel, hdev, hfirst⟩ := houtcome
    refine ⟨hpart, carries_of_label hlabel, hdev, fun other hother hread hcarries => ?_⟩
    exact hfirst other hother (label_of_carries hread hcarries)
  · rw [he] at houtcome
    exact houtcome part hpart (label_of_carries hread hcarries)
  · exact readExtLabelOfDevice_superblock sb hopen hbytes

end Beskar7Inspector.OemLookup
