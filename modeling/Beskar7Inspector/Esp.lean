import Beskar7Inspector.Deploy
import Beskar7Inspector.Oem

namespace Beskar7Inspector.Esp

open Lib.Os Lib.Text SysTree Deploy Oem

structure Guid where
  bytes : List UInt8
  size : bytes.length = 16
  deriving DecidableEq

/-- One GPT entry carrying the ESP type GUID. -/
structure GptEsp where
  number : UInt32
  uniqueGuid : Guid
  firstLba : UInt64
  lastLba : UInt64
  deriving DecidableEq

def saturatingSub (a b : UInt64) : UInt64 := if a < b then 0 else a - b

def saturatingAdd (a b : UInt64) : UInt64 :=
  if a.toNat + b.toNat < UInt64.size then a + b else 0xffffffffffffffff

def GptEsp.sizeLba (gpt : GptEsp) : UInt64 := saturatingAdd (saturatingSub gpt.lastLba gpt.firstLba) 1

structure EspPartition where
  kname : String
  devNumber : String
  gpt : GptEsp
  deriving DecidableEq

def EspPartition.devPath (p : EspPartition) : String := "/dev/" ++ p.kname

inductive EspError
  | device (source : DeployError)
  | readGpt (disk : String) (source : IoError)
  | noGpt (disk : String)
  | badGpt (disk : String)
  | notFound (disk : String)
  deriving DecidableEq

/-- The image simply has no ESP. -/
def EspError.isAbsent : EspError → Bool
  | .noGpt _ => true
  | .notFound _ => true
  | _ => false

/-- The number in a partition's `partition` attribute. -/
def partitionNumber (block : SysDir) (disk part : String) : Option UInt32 :=
  (block.readTrimmed [disk, part, "partition"]).bind parseU32

/-- The partition of the first of the entries, in GPT order, that the kernel exposes. -/
def findEspIn (block : SysDir) (disk : String) : List GptEsp → Except EspError EspPartition
  | [] => .error (.notFound disk)
  | gpt :: rest =>
      match (targetPartitions block disk).find? (fun part => partitionNumber block disk part == some gpt.number) with
      | some part => .ok ⟨part, (block.readTrimmed [disk, part, "dev"]).getD "", gpt⟩
      | none => findEspIn block disk rest

end Beskar7Inspector.Esp
