import Beskar7Inspector.GptEntries
import Beskar7Inspector.Lib.Reader
import Beskar7Inspector.Lib.Utf8

namespace Beskar7Inspector.DiskNodes

open Lib.LittleEndian Lib.Os Lib.Text Lib.Utf8 Lib.Slices Lib.Reader SysTree DiskSelection Deploy Oem Esp Gpt

/-- A node opened for reading: what `fstat` says of it, the bytes behind it, and
how each of the reads from it goes. A seek that fails is the first event of the
read after it. -/
structure OpenNode where
  metadata : Except IoError FileMeta
  bytes : List UInt8
  reads : Nat → List ReadEvent

/-- The sysfs tree of the disks, and where the paths under `/dev` lead. -/
structure Host where
  block : SysDir
  openRead : String → Except IoError OpenNode

def EXT_SB_OFFSET : Nat := 1024
def EXT_MAGIC_OFFSET : Nat := EXT_SB_OFFSET + 0x38
def EXT_MAGIC : UInt16 := 0xEF53
def EXT_LABEL_OFFSET : Nat := EXT_SB_OFFSET + 0x78
def EXT_LABEL_LEN : Nat := 16
def SUPERBLOCK_READ_BYTES : Nat := 2048

def extLabel (buf : List UInt8) : Option String :=
  if buf.length < EXT_LABEL_OFFSET + EXT_LABEL_LEN then none
  else if UInt16.ofNat (decode (window buf EXT_MAGIC_OFFSET 2)) ≠ EXT_MAGIC then none
  else
    let raw := window buf EXT_LABEL_OFFSET EXT_LABEL_LEN
    (fromUtf8 (raw.takeWhile (· ≠ 0))).filter (· ≠ "")

def readExtLabelOfDevice (host : Host) (part : String) : Option String :=
  match host.openRead ("/dev/" ++ part) with
  | .error _ => none
  | .ok node => match readUpTo (node.reads 0) node.bytes SUPERBLOCK_READ_BYTES with
      | .error _ => none
      | .ok buf => extLabel buf

def findOemPartition (host : Host) (target : TargetDisk) : Except OemError OemPartition :=
  findOemIn host.block target.kname (readExtLabelOfDevice host)

def DEFAULT_BLOCK_SIZE : UInt64 := 512

/-- A disk's logical block size, if sysfs has a plausible one. -/
def logicalBlockSize (block : SysDir) (kname : String) : UInt64 :=
  (((block.readTrimmed [kname, "queue", "logical_block_size"]).bind parseU64).filter
    fun n => DEFAULT_BLOCK_SIZE ≤ n ∧ n &&& (n - 1) = 0).getD DEFAULT_BLOCK_SIZE

/-- The table of a disk through an open node. `none` is an index out of range. -/
def readGptEntries (node : OpenNode) (blockSize : UInt64) (disk : String) : Option (Except EspError (List GptEntry)) :=
  match readExact (node.reads 0) (node.bytes.drop blockSize.toNat) GPT_HEADER_LEN with
  | .error source => some (.error (.readGpt disk source))
  | .ok header => match parseGptHeader header disk with
      | none => none
      | some (.error e) => some (.error e)
      | some (.ok layout) =>
          if UInt64.size ≤ layout.entriesLba.toNat * blockSize.toNat then some (.error (.badGpt disk))
          else
            let offset := layout.entriesLba * blockSize
            match readExact (node.reads 1) (node.bytes.drop offset.toNat)
                (layout.count.toNat * layout.entrySize.toNat) with
            | .error source => some (.error (.readGpt disk source))
            | .ok entries => (gptEntries entries layout.entrySize.toNat).map .ok

def readEspEntries (node : OpenNode) (blockSize : UInt64) (disk : String) : Option (Except EspError (List GptEsp)) :=
  (readGptEntries node blockSize disk).map (fun r => r.map espEntries)

def findEspPartition (host : Host) (target : TargetDisk) : Option (Except EspError EspPartition) :=
  match host.openRead target.devPath with
  | .error source => some (.error (.device (.openTarget target.devPath source)))
  | .ok node => match verifyNodeIdentity node.metadata target.devPath target.devNumber with
      | .error e => some (.error (.device e))
      | .ok () =>
          (readEspEntries node (logicalBlockSize host.block target.kname) target.kname).map fun r =>
            r.bind (findEspIn host.block target.kname)

/-- Devices that are no disks of their own, and optical drives. -/
def SKIPPED : List String := ["loop", "ram", "zram", "dm-", "md", "sr"]

def otherDisksWithGuidIn (block : SysDir) (target : String) (guid : Guid)
    (readGpt : String → UInt64 → Option (List GptEntry)) : List String :=
  (((block.readDir []).getD []).filter fun k =>
    decide (k ≠ target ∧ ∀ p ∈ SKIPPED, (stripPrefix p k).isNone) &&
      (readGpt k (logicalBlockSize block k)).any fun entries =>
        entries.any fun e => e.part.uniqueGuid == guid).insertionSort (· ≤ ·)

/-- The table of a disk as a diagnostic reads it: whatever goes wrong, there is none. -/
def readGptOf (host : Host) (kname : String) (blockSize : UInt64) : Option (List GptEntry) :=
  match host.openRead ("/dev/" ++ kname) with
  | .error _ => none
  | .ok node => (readGptEntries node blockSize kname).bind Except.toOption

def otherDisksWithGuid (host : Host) (target : TargetDisk) (guid : Guid) : List String :=
  otherDisksWithGuidIn host.block target.kname guid (readGptOf host)

end Beskar7Inspector.DiskNodes
