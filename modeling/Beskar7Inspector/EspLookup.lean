import Beskar7Inspector.DiskNodes
import Beskar7Inspector.PartitionLookup

namespace Beskar7Inspector.EspLookup

open Lib.Os Lib.Text Lib.Slices Lib.Reader SysTree DiskSelection Deploy Oem Esp Gpt GptEntries PartitionLookup DiskNodes

/-- Some read from the node fails. -/
def Failing (node : OpenNode) : Prop := ∃ k e, .fails e ∈ node.reads k

/-- The disk has a table that can be read. -/
structure HasTable (bytes : List UInt8) (b : Nat) : Prop where
  readable : HeaderReadable bytes b
  signed : Signed bytes b
  admissible : Admissible bytes b
  onDisk : TableOnDisk bytes b

/-- An entry of the table, by its position. -/
def InTable (bytes : List UInt8) (b : Nat) (e : GptEntry) : Prop :=
  ∃ k, k < tableCount bytes b ∧ Stored bytes b k e

theorem readExact_seek (dev : Cursor) (offset : UInt64) (n : Nat) (events : List ReadEvent) :
    readExact events (dev.bytes.drop offset.toNat) n = ((dev.seek offset).readExact n).map Prod.fst ∨
      ∃ e, .fails e ∈ events ∧ readExact events (dev.bytes.drop offset.toNat) n = .error e := by
  refine (readExact_or events (dev.bytes.drop offset.toNat) n).imp_left fun h => h.trans ?_
  rw [Cursor.readExact]
  change _ = Except.map Prod.fst (if (dev.bytes.drop offset.toNat).length < n then _ else _)
  by_cases hlen : (dev.bytes.drop offset.toNat).length < n
  · rw [if_pos hlen, if_pos hlen]
    rfl
  · rw [if_neg hlen, if_neg hlen]
    rfl

/-- Through a node the table is read as from the bytes, or a read fails. -/
theorem readGptEntries_or (node : OpenNode) (b : UInt64) (disk : String) :
    DiskNodes.readGptEntries node b disk = Gpt.readGptEntries ⟨node.bytes, 0⟩ b disk ∨
      Failing node ∧ ∃ e, DiskNodes.readGptEntries node b disk = some (.error (.readGpt disk e)) := by
  rw [DiskNodes.readGptEntries, Gpt.readGptEntries]
  obtain hheader | ⟨e, he, hheader⟩ := readExact_seek ⟨node.bytes, 0⟩ b GPT_HEADER_LEN (node.reads 0)
  · rw [hheader]
    cases hcursor : (Cursor.seek ⟨node.bytes, 0⟩ b).readExact GPT_HEADER_LEN with
    | error e => exact .inl rfl
    | ok read =>
        have hbytes : read.2.bytes = node.bytes := by
          rw [Cursor.readExact] at hcursor
          split at hcursor
          · cases hcursor
          · cases hcursor
            rfl
        rw [Except.map]
        dsimp only
        cases parseGptHeader read.1 disk with
        | none => exact .inl rfl
        | some parsed =>
            cases parsed with
            | error e => exact .inl rfl
            | ok layout =>
                dsimp only
                by_cases hoffset : UInt64.size ≤ layout.entriesLba.toNat * b.toNat
                · rw [if_pos hoffset, if_pos hoffset]
                  exact .inl rfl
                · rw [if_neg hoffset, if_neg hoffset]
                  obtain htable | ⟨e, he, htable⟩ := readExact_seek read.2 (layout.entriesLba * b)
                    (layout.count.toNat * layout.entrySize.toNat) (node.reads 1)
                  · rw [hbytes] at htable
                    rw [htable]
                    refine .inl ?_
                    cases (read.2.seek (layout.entriesLba * b)).readExact
                      (layout.count.toNat * layout.entrySize.toNat) <;> rfl
                  · rw [hbytes] at htable
                    rw [htable]
                    exact .inr ⟨⟨1, e, he⟩, e, rfl⟩
  · rw [hheader]
    exact .inr ⟨⟨0, e, he⟩, e, rfl⟩

/-- What reading the table of a disk through its node answers. -/
def TableAnswer (node : OpenNode) (b : Nat) (disk : String) : Except EspError (List GptEntry) → Prop
  | .ok entries => HasTable node.bytes b ∧ entries.Pairwise (fun e f => e.part.number < f.part.number) ∧
      ∀ e, e ∈ entries ↔ InTable node.bytes b e
  | .error e => (∃ source, e = .readGpt disk source) ∧
        (Failing node ∨ ¬HeaderReadable node.bytes b ∨ ¬TableOnDisk node.bytes b) ∨
      e = .noGpt disk ∧ ¬Signed node.bytes b ∨ e = .badGpt disk ∧ ¬Admissible node.bytes b

theorem readGptEntries_answer (node : OpenNode) (b : UInt64) (disk : String) :
    ∃ r, DiskNodes.readGptEntries node b disk = some r ∧ TableAnswer node b.toNat disk r := by
  obtain hbytes | ⟨hfails, e, he⟩ := readGptEntries_or node b disk
  · rw [hbytes]
    by_cases hread : HeaderReadable node.bytes b.toNat
    · by_cases hsigned : Signed node.bytes b.toNat
      · obtain ⟨hbad, hshort, -⟩ := readGptEntries_signed 0 disk hread hsigned
        by_cases hok : Admissible node.bytes b.toNat
        · by_cases hon : TableOnDisk node.bytes b.toNat
          · obtain ⟨entries, heq, hasc, hmem⟩ := readGptEntries_stored 0 disk hread hsigned hok hon
            exact ⟨_, heq, ⟨hread, hsigned, hok, hon⟩, hasc, hmem⟩
          · exact ⟨_, hshort hok hon, .inl ⟨⟨_, rfl⟩, .inr (.inr hon)⟩⟩
        · exact ⟨_, hbad hok, .inr (.inr ⟨rfl, hok⟩)⟩
      · exact ⟨_, readGptEntries_unsigned 0 disk hread hsigned, .inr (.inl ⟨rfl, hsigned⟩)⟩
    · exact ⟨_, readGptEntries_unreadable 0 disk hread, .inl ⟨⟨_, rfl⟩, .inr (.inl hread)⟩⟩
  · exact ⟨_, he, .inl ⟨⟨e, rfl⟩, .inl hfails⟩⟩

/-- A table that is there is read, unless a read fails. -/
theorem readGptEntries_read {node : OpenNode} {b : UInt64} (disk : String) (hfails : ¬Failing node)
    (htable : HasTable node.bytes b.toNat) :
    ∃ entries, DiskNodes.readGptEntries node b disk = some (.ok entries) ∧
      TableAnswer node b.toNat disk (.ok entries) := by
  obtain ⟨r, hr, hanswer⟩ := readGptEntries_answer node b disk
  cases r with
  | ok entries => exact ⟨entries, hr, hanswer⟩
  | error e =>
      obtain ⟨-, hwhy⟩ | ⟨-, hwhy⟩ | ⟨-, hwhy⟩ := hanswer
      · obtain hwhy | hwhy | hwhy := hwhy
        · exact absurd hwhy hfails
        · exact absurd htable.readable hwhy
        · exact absurd htable.onDisk hwhy
      · exact absurd htable.signed hwhy
      · exact absurd htable.admissible hwhy

/-- A partition that the kernel exposes under this number. -/
def Exposed (block : SysDir) (disk : String) (n : UInt32) (part : String) : Prop :=
  IsPartitionOf block disk part ∧ partitionNumber block disk part = some n

/-- The partition of the lowest-numbered entry that is exposed, the first in name
order where several have its number. -/
def FirstExposed (block : SysDir) (disk : String) (entries : List GptEsp) : Except EspError EspPartition → Prop
  | .ok p => p.gpt ∈ entries ∧ Exposed block disk p.gpt.number p.kname ∧
      p.devNumber = (block.readTrimmed [disk, p.kname, "dev"]).getD "" ∧
      (∀ part, Exposed block disk p.gpt.number part → p.kname ≤ part) ∧
      ∀ gpt ∈ entries, ∀ part, Exposed block disk gpt.number part → p.gpt.number ≤ gpt.number
  | .error e => e = .notFound disk ∧ ∀ gpt ∈ entries, ∀ part, ¬Exposed block disk gpt.number part

theorem findEspIn_first {block : SysDir} {disk : String} {entries : List GptEsp}
    (hasc : entries.Pairwise (fun a b => a.number < b.number)) :
    FirstExposed block disk entries (findEspIn block disk entries) := by
  induction entries with
  | nil => exact ⟨rfl, fun _ h => absurd h List.not_mem_nil⟩
  | cons gpt rest ih =>
      rw [List.pairwise_cons] at hasc
      rw [findEspIn]
      cases hf : (targetPartitions block disk).find? (fun part => partitionNumber block disk part == some gpt.number) with
      | some part =>
          obtain ⟨hpart, hnumber, hleast⟩ := find?_targetPartitions hf
          refine ⟨List.mem_cons_self, ⟨hpart, beq_iff_eq.mp hnumber⟩, rfl, ?_, ?_⟩
          · intro other hother
            exact hleast other hother.1 (beq_iff_eq.mpr hother.2)
          · intro other hother _ _
            rcases List.mem_cons.mp hother with rfl | hother
            · exact UInt32.le_refl _
            · exact UInt32.le_of_lt (hasc.1 other hother)
      | none =>
          have hnone : ∀ part, ¬Exposed block disk gpt.number part := by
            intro part hpart
            have hother := List.find?_eq_none.mp hf part (mem_targetPartitions.mpr hpart.1)
            exact hother (beq_iff_eq.mpr hpart.2)
          have hrest := ih hasc.2
          dsimp only
          revert hrest
          cases findEspIn block disk rest with
          | ok p =>
              rintro ⟨hgpt, hexposed, hdev, hname, hleast⟩
              refine ⟨List.mem_cons_of_mem _ hgpt, hexposed, hdev, hname, ?_⟩
              intro other hother part hpart
              rcases List.mem_cons.mp hother with rfl | hother
              · exact absurd hpart (hnone part)
              · exact hleast other hother part hpart
          | error e =>
              rintro ⟨he, hall⟩
              exact ⟨he, List.forall_mem_cons.mpr ⟨hnone, hall⟩⟩

section Locating

variable (host : Host) (target : TargetDisk)

/-- The node that the target's path leads to is the target. -/
def Verified (node : OpenNode) : Prop :=
  host.openRead target.devPath = .ok node ∧ target.devNumber ≠ "" ∧
    ∃ info, node.metadata = .ok info ∧ info.blockDevice = true ∧ majorMinor info.rdev = target.devNumber

def blockSize : Nat := (logicalBlockSize host.block target.kname).toNat

/-- An entry of the target's table that has the type of an ESP. -/
def EspInTable (node : OpenNode) (gpt : GptEsp) : Prop :=
  ∃ e, InTable node.bytes (blockSize host target) e ∧ e.typeGuid = ESP_TYPE_GUID ∧ e.part = gpt

/-- The ESP of the disk, on which every field of it is stored. -/
structure Located (node : OpenNode) (p : EspPartition) : Prop where
  table : HasTable node.bytes (blockSize host target)
  stored : EspInTable host target node p.gpt
  exposed : Exposed host.block target.kname p.gpt.number p.kname
  devNumber : p.devNumber = (host.block.readTrimmed [target.kname, p.kname, "dev"]).getD ""
  name : ∀ part, Exposed host.block target.kname p.gpt.number part → p.kname ≤ part
  first : ∀ gpt, EspInTable host target node gpt → ∀ part, Exposed host.block target.kname gpt.number part →
    p.gpt.number ≤ gpt.number

/-- What the lookup of the target's ESP answers. -/
def EspAnswer : Except EspError EspPartition → Prop
  | .ok p => ∃ node, Verified host target node ∧ Located host target node p
  | .error (.device _) => ∀ node, ¬Verified host target node
  | .error (.readGpt _ _) => ∃ node, Verified host target node ∧ (Failing node ∨
      ¬HeaderReadable node.bytes (blockSize host target) ∨ ¬TableOnDisk node.bytes (blockSize host target))
  | .error (.noGpt _) => ∃ node, Verified host target node ∧ ¬Signed node.bytes (blockSize host target)
  | .error (.badGpt _) => ∃ node, Verified host target node ∧ ¬Admissible node.bytes (blockSize host target)
  | .error (.notFound _) => ∃ node, Verified host target node ∧ HasTable node.bytes (blockSize host target) ∧
      ∀ gpt, EspInTable host target node gpt → ∀ part, ¬Exposed host.block target.kname gpt.number part

variable {host target} {node : OpenNode}

theorem mem_espEntries {entries : List GptEntry}
    (hmem : ∀ e, e ∈ entries ↔ InTable node.bytes (blockSize host target) e) {gpt : GptEsp} :
    gpt ∈ espEntries entries ↔ EspInTable host target node gpt := by
  rw [espEntries, List.mem_map]
  constructor
  · rintro ⟨e, he, hpart⟩
    obtain ⟨he, htype⟩ := List.mem_filter.mp he
    exact ⟨e, (hmem e).mp he, beq_iff_eq.mp htype, hpart⟩
  · rintro ⟨e, he, htype, hpart⟩
    exact ⟨e, List.mem_filter.mpr ⟨(hmem e).mpr he, beq_iff_eq.mpr htype⟩, hpart⟩

/-- Among the entries of a table the lookup finds the ESP, or there is none exposed. -/
theorem findEspIn_located {entries : List GptEntry}
    (h : TableAnswer node (blockSize host target) target.kname (.ok entries)) :
    (∃ p, findEspIn host.block target.kname (espEntries entries) = .ok p ∧ Located host target node p) ∨
      findEspIn host.block target.kname (espEntries entries) = .error (.notFound target.kname) ∧
        ∀ gpt, EspInTable host target node gpt → ∀ part, ¬Exposed host.block target.kname gpt.number part := by
  obtain ⟨htable, hasc, hmem⟩ := h
  have hfirst : FirstExposed host.block target.kname (espEntries entries) _ :=
    findEspIn_first ((hasc.filter _).map _ (fun _ _ hlt => hlt))
  revert hfirst
  cases findEspIn host.block target.kname (espEntries entries) with
  | ok p =>
      rintro ⟨hgpt, hexposed, hdev, hname, hleast⟩
      refine .inl ⟨p, rfl, htable, (mem_espEntries hmem).mp hgpt, hexposed, hdev, hname, ?_⟩
      intro gpt hstored
      exact hleast gpt ((mem_espEntries hmem).mpr hstored)
  | error e =>
      rintro ⟨rfl, hnone⟩
      refine .inr ⟨rfl, ?_⟩
      intro gpt hstored
      exact hnone gpt ((mem_espEntries hmem).mpr hstored)

theorem espAnswer_entries (hverified : Verified host target node) {entries : List GptEntry}
    (h : TableAnswer node (blockSize host target) target.kname (.ok entries)) :
    EspAnswer host target (findEspIn host.block target.kname (espEntries entries)) := by
  obtain ⟨p, hp, hlocated⟩ | ⟨hnone, hunexposed⟩ := findEspIn_located h
  · rw [hp]
    exact ⟨node, hverified, hlocated⟩
  · rw [hnone]
    exact ⟨node, hverified, h.1, hunexposed⟩

theorem espAnswer_error (hverified : Verified host target node) {e : EspError}
    (h : TableAnswer node (blockSize host target) target.kname (.error e)) : EspAnswer host target (.error e) := by
  obtain ⟨⟨source, rfl⟩, hwhy⟩ | ⟨rfl, hwhy⟩ | ⟨rfl, hwhy⟩ := h
  · exact ⟨node, hverified, hwhy⟩
  · exact ⟨node, hverified, hwhy⟩
  · exact ⟨node, hverified, hwhy⟩

theorem findEspPartition_verified (hverified : Verified host target node) :
    findEspPartition host target =
      (DiskNodes.readGptEntries node (logicalBlockSize host.block target.kname) target.kname).map fun r =>
        (r.map espEntries).bind (findEspIn host.block target.kname) := by
  obtain ⟨hopen, hnode⟩ := hverified
  rw [findEspPartition, hopen]
  dsimp only
  rw [verifyNodeIdentity_ok_iff.mpr hnode]
  dsimp only
  rw [DiskNodes.readEspEntries, Option.map_map]
  rfl

theorem findEspPartition_unverified (h : ∀ node, ¬Verified host target node) :
    ∃ e, findEspPartition host target = some (.error (.device e)) := by
  rw [findEspPartition]
  cases hopen : host.openRead target.devPath with
  | error source => exact ⟨_, rfl⟩
  | ok node =>
      dsimp only
      cases hverify : verifyNodeIdentity node.metadata target.devPath target.devNumber with
      | error e => exact ⟨e, rfl⟩
      | ok u => exact absurd ⟨hopen, verifyNodeIdentity_ok_iff.mp hverify⟩ (h node)

end Locating

/-- The lookup always answers, with the ESP of the disk or with what there is not,
whatever pieces the table is read in. A disk that has an ESP is found to have one
unless a read fails. -/
theorem findEspPartition_located (host : Host) (target : TargetDisk) :
    (∃ r, findEspPartition host target = some r ∧ EspAnswer host target r) ∧
    ∀ node, Verified host target node → ¬Failing node → HasTable node.bytes (blockSize host target) →
      ∀ gpt part, EspInTable host target node gpt → Exposed host.block target.kname gpt.number part →
        ∃ p, findEspPartition host target = some (.ok p) ∧ Located host target node p := by
  constructor
  · by_cases h : ∃ node, Verified host target node
    · obtain ⟨node, hverified⟩ := h
      rw [findEspPartition_verified hverified]
      obtain ⟨r, hr, hanswer⟩ := readGptEntries_answer node (logicalBlockSize host.block target.kname) target.kname
      rw [hr]
      cases r with
      | ok entries => exact ⟨_, rfl, espAnswer_entries hverified hanswer⟩
      | error e => exact ⟨_, rfl, espAnswer_error hverified hanswer⟩
    · rw [not_exists] at h
      obtain ⟨e, he⟩ := findEspPartition_unverified h
      exact ⟨_, he, h⟩
  · intro node hverified hfails htable gpt part hstored hexposed
    rw [findEspPartition_verified hverified]
    obtain ⟨entries, hr, hanswer⟩ := readGptEntries_read target.kname hfails htable
    rw [hr]
    obtain ⟨p, hp, hlocated⟩ | ⟨-, hunexposed⟩ := findEspIn_located hanswer
    · exact ⟨p, congrArg some hp, hlocated⟩
    · exact absurd hexposed (hunexposed gpt hstored part)

section Others

/-- A disk of the machine other than the target, and neither a virtual device nor an optical drive. -/
structure IsOtherDisk (host : Host) (target : TargetDisk) (kname : String) : Prop where
  listed : kname ∈ (host.block.readDir []).getD []
  other : kname ≠ target.kname
  physical : ∀ p ∈ SKIPPED, stripPrefix p kname = none

/-- A table with an entry of this GUID is stored where the disk's node leads. -/
def Holds (host : Host) (kname : String) (guid : Guid) (node : OpenNode) : Prop :=
  host.openRead ("/dev/" ++ kname) = .ok node ∧ HasTable node.bytes (logicalBlockSize host.block kname).toNat ∧
    ∃ e, InTable node.bytes (logicalBlockSize host.block kname).toNat e ∧ e.part.uniqueGuid = guid

variable {host : Host} {kname : String} {guid : Guid}

theorem holds_of_readGptOf {entries : List GptEntry}
    (h : readGptOf host kname (logicalBlockSize host.block kname) = some entries) :
    ∃ node, host.openRead ("/dev/" ++ kname) = .ok node ∧
      TableAnswer node (logicalBlockSize host.block kname).toNat kname (.ok entries) := by
  rw [readGptOf] at h
  cases hopen : host.openRead ("/dev/" ++ kname) with
  | error e =>
      rw [hopen] at h
      cases h
  | ok node =>
      rw [hopen] at h
      obtain ⟨r, hr, hanswer⟩ := readGptEntries_answer node (logicalBlockSize host.block kname) kname
      dsimp only at h
      rw [hr] at h
      cases r with
      | error e => cases h
      | ok read =>
          cases h
          exact ⟨node, rfl, hanswer⟩

theorem readGptOf_of_table {node : OpenNode} (hopen : host.openRead ("/dev/" ++ kname) = .ok node)
    (hfails : ¬Failing node) (htable : HasTable node.bytes (logicalBlockSize host.block kname).toNat) :
    ∃ entries, readGptOf host kname (logicalBlockSize host.block kname) = some entries ∧
      TableAnswer node (logicalBlockSize host.block kname).toNat kname (.ok entries) := by
  obtain ⟨entries, hr, hanswer⟩ := readGptEntries_read kname hfails htable
  refine ⟨entries, ?_, hanswer⟩
  rw [readGptOf, hopen]
  dsimp only
  rw [hr]
  rfl

theorem mem_otherDisksWithGuid {target : TargetDisk} :
    kname ∈ otherDisksWithGuid host target guid ↔ IsOtherDisk host target kname ∧
      ∃ entries, readGptOf host kname (logicalBlockSize host.block kname) = some entries ∧
        ∃ e ∈ entries, e.part.uniqueGuid = guid := by
  simp only [otherDisksWithGuid, otherDisksWithGuidIn, List.mem_insertionSort, List.mem_filter, Bool.and_eq_true,
    decide_eq_true_eq, Option.any_eq_true, List.any_eq_true, beq_iff_eq, Option.isNone_iff_eq_none]
  constructor
  · rintro ⟨hlisted, ⟨hother, hphysical⟩, hentries⟩
    exact ⟨⟨hlisted, hother, hphysical⟩, hentries⟩
  · rintro ⟨⟨hlisted, hother, hphysical⟩, hentries⟩
    exact ⟨hlisted, ⟨hother, hphysical⟩, hentries⟩

end Others

/-- The disks that are named beside the target, in name order, are other disks that
do hold an entry of the GUID, and none that holds one is missed but for a failed read. -/
theorem otherDisksWithGuid_holding (host : Host) (target : TargetDisk) (guid : Guid) :
    (otherDisksWithGuid host target guid).Pairwise (· ≤ ·) ∧
    (∀ kname ∈ otherDisksWithGuid host target guid,
      IsOtherDisk host target kname ∧ ∃ node, Holds host kname guid node) ∧
    ∀ kname node, IsOtherDisk host target kname → Holds host kname guid node → ¬Failing node →
      kname ∈ otherDisksWithGuid host target guid := by
  refine ⟨List.pairwise_insertionSort (· ≤ ·) _, ?_, ?_⟩
  · intro kname hkname
    obtain ⟨hother, entries, hentries, e, he, hguid⟩ := mem_otherDisksWithGuid.mp hkname
    obtain ⟨node, hopen, htable, -, hmem⟩ := holds_of_readGptOf hentries
    exact ⟨hother, node, hopen, htable, e, (hmem e).mp he, hguid⟩
  · rintro kname node hother ⟨hopen, htable, e, he, hguid⟩ hfails
    obtain ⟨entries, hentries, -, -, hmem⟩ := readGptOf_of_table hopen hfails htable
    exact mem_otherDisksWithGuid.mpr ⟨hother, entries, hentries, e, (hmem e).mpr he, hguid⟩

end Beskar7Inspector.EspLookup
