import Beskar7Inspector.SysTree
import Mathlib.Data.List.Sort

namespace Beskar7Inspector.Oem

open SysTree

def OEM_LABEL : String := "COS_OEM"

structure OemPartition where
  kname : String
  devNumber : String
  deriving DecidableEq, Repr

def OemPartition.devPath (p : OemPartition) : String := "/dev/" ++ p.kname

inductive OemError
  | noPartitions (disk : String)
  | notFound (disk : String)
  deriving DecidableEq, Repr

/-- The subdirectories of the disk that carry a `partition` attribute, in name order. -/
def targetPartitions (block : SysDir) (disk : String) : List String :=
  (((block.readDir [disk]).getD []).filter (fun name => block.pathExists [disk, name, "partition"])).insertionSort (· ≤ ·)

def findOemIn (block : SysDir) (disk : String) (labelOf : String → Option String) : Except OemError OemPartition :=
  let parts := targetPartitions block disk
  if parts.isEmpty then .error (.noPartitions disk)
  else match parts.find? (fun part => labelOf part == some OEM_LABEL) with
    | some part => .ok ⟨part, (block.readTrimmed [disk, part, "dev"]).getD ""⟩
    | none => .error (.notFound disk)

end Beskar7Inspector.Oem
