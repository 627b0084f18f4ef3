import Beskar7Inspector.Lib.ProcTable
import Beskar7Inspector.SelfClobber

namespace Beskar7Inspector.SystemDisks

open Lib.Text Lib.ProcTable Lib.DepthFirst SysTree DiskSelection SelfClobber

/-- What the selection reads: the trees of sysfs, the two tables of `/proc`, and where
the paths under `/dev` lead. -/
structure Host where
  block : SysDir
  classBlock : SysDir
  mounts : Option String
  swaps : Option String
  canonicalize : String → Option String

/-- The last component of a path, if it is a name. -/
def fileName (path : String) : Option String :=
  ((splitChar '/' path).filter (fun part => part ≠ "" ∧ part ≠ ".")).getLast?.filter (· ≠ "..")

def resolvePinToKname (host : Host) (pin : String) : Except DiskError String := do
  let kname ←
    if '/' ∈ pin.toList then
      match (host.canonicalize pin).bind fileName with
      | some kname => .ok kname
      | none => .error (.pinNotFound pin)
    else .ok pin
  if kname = "" then .error (.pinNotFound pin) else .ok kname

/-- The first word of a line, if it is a path under `/dev`. -/
def devSource (line : String) : Option String := (firstWord line).filter (fun src => (stripPrefix "/dev/" src).isSome)

def mountSources (mounts : String) : List String := (lines mounts).filterMap devSource

/-- The first line of the table is its header. -/
def swapSources (swaps : String) : List String := ((lines swaps).drop 1).filterMap devSource

/-- The name of the device a source leads to; of the source as it is, when it leads nowhere. -/
def liveDevLeaf (host : Host) (source : String) : Option String :=
  (match host.canonicalize source with
    | some canonical => fileName canonical
    | none => fileName source).filter (· ≠ "")

def ramdiskBackingKnames (host : Host) : Finset String :=
  let sources := (host.mounts.map mountSources).getD [] ++ (host.swaps.map swapSources).getD []
  backingWholeDisks (sources.filterMap (liveDevLeaf host)) host.block

def select (host : Host) (pin : Option String) (minBytes : UInt64) : Except DiskError TargetDisk := do
  let resolved ← match pin with
    | some p => (resolvePinToKname host p).map some
    | none => .ok none
  selectCore host.block host.classBlock resolved minBytes (ramdiskBackingKnames host)

section

variable {host : Host}

end

end Beskar7Inspector.SystemDisks
