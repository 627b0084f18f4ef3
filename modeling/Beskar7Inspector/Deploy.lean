import Beskar7Inspector.DiskSelection
import Beskar7Inspector.Image

namespace Beskar7Inspector.Deploy

open Lib.Os Image

inductive Part
  | oem
  | esp
  deriving DecidableEq, Repr

inductive Arch
  | x86_64
  | aarch64
  deriving DecidableEq, Repr

def Arch.espLoaderPath : Arch → String
  | .x86_64 => "\\EFI\\BOOT\\BOOTX64.EFI"
  | .aarch64 => "\\EFI\\BOOT\\BOOTAA64.EFI"

inductive DeployError
  | openTarget (path : String) (source : IoError)
  | notABlockDevice (path : String)
  | stat (path : String) (source : IoError)
  | noDeviceNumber (path : String)
  | deviceIdentityMismatch (path expected found : String)
  | image (source : ImageError)
  | sync (source : IoError)
  | reread (path : String) (source : Errno)
  | mountpoint (part : Part) (path : String) (source : IoError)
  | badDeviceNumber (dev : String)
  | makeNode (part : Part) (dev : String) (source : Errno)
  | mount (part : Part) (dev : String) (source : Errno)
  | configWrite (source : IoError)
  | providerIdWrite (source : IoError)
  | espLoaderMissing (path : String)
  | espLoaderCheck (path : String) (source : IoError)
  | espWrite (step : String) (source : IoError)
  | unmount (part : Part) (path : String) (source : Errno)
  | reboot (source : Errno)
  deriving DecidableEq, Repr

inductive StartupNsh
  | written (replaced : Bool)
  | leftInPlace (path : String)
  | notWritten (cause : String)
  deriving DecidableEq, Repr

structure EspPrepared where
  marker : String
  startupNsh : StartupNsh
  deriving DecidableEq, Repr

def major (dev : UInt64) : UInt64 :=
  ((dev >>> 32) &&& (0xfffff000 : UInt64)) ||| ((dev >>> 8) &&& (0xfff : UInt64))

def minor (dev : UInt64) : UInt64 :=
  ((dev >>> 12) &&& (0xffffff00 : UInt64)) ||| (dev &&& (0xff : UInt64))

def makedev (maj min : UInt64) : UInt64 :=
  ((maj &&& (0xfffff000 : UInt64)) <<< 32) ||| ((maj &&& (0xfff : UInt64)) <<< 8) |||
    ((min &&& (0xffffff00 : UInt64)) <<< 12) ||| (min &&& (0xff : UInt64))

/-- A `"major:minor"` text as a device number. -/
def parseDevNumber (s : String) : Option UInt64 := do
  let (maj, min) ← Lib.Text.splitOnce ':' s
  let maj ← Lib.Text.parseU64 maj
  let min ← Lib.Text.parseU64 min
  pure (makedev maj min)

def majorMinor (rdev : UInt64) : String :=
  Nat.repr (major rdev).toNat ++ ":" ++ Nat.repr (minor rdev).toNat

def rdevMatches (rdev : UInt64) (expected : String) : Except String Unit :=
  if majorMinor rdev = expected then .ok () else .error (majorMinor rdev)

structure FileMeta where
  blockDevice : Bool
  rdev : UInt64

/-- The identity check of an opened node, given what reading its metadata answers. -/
def verifyNodeIdentity (metadata : Except IoError FileMeta) (path expectedDev : String) :
    Except DeployError Unit :=
  if expectedDev = "" then .error (.noDeviceNumber path)
  else match metadata with
    | .error source => .error (.stat path source)
    | .ok info =>
        if !info.blockDevice then .error (.notABlockDevice path)
        else match rdevMatches info.rdev expectedDev with
          | .ok () => .ok ()
          | .error found => .error (.deviceIdentityMismatch path expectedDev found)

theorem verifyNodeIdentity_ok_iff {metadata : Except IoError FileMeta} {path expectedDev : String} :
    verifyNodeIdentity metadata path expectedDev = .ok () ↔
      expectedDev ≠ "" ∧ ∃ info, metadata = .ok info ∧ info.blockDevice = true ∧ majorMinor info.rdev = expectedDev := by
  unfold verifyNodeIdentity
  by_cases hne : expectedDev = ""
  · simp [hne]
  · cases metadata with
    | error source => simp [hne]
    | ok info =>
        cases hb : info.blockDevice with
        | false => simp [hne, hb]
        | true => by_cases hm : majorMinor info.rdev = expectedDev <;> simp [hne, hb, hm, rdevMatches]

def effectiveMaxBytes (buildMax diskCapacity : UInt64) : UInt64 :=
  if diskCapacity = 0 then buildMax else min buildMax diskCapacity

theorem effectiveMaxBytes_le_capacity (buildMax : UInt64) {diskCapacity : UInt64} (h : diskCapacity ≠ 0) :
    (effectiveMaxBytes buildMax diskCapacity).toNat ≤ diskCapacity.toNat := by
  rw [effectiveMaxBytes, if_neg h]
  change (if buildMax ≤ diskCapacity then buildMax else diskCapacity).toNat ≤ _
  split
  · rename_i hle
    exact UInt64.le_iff_toNat_le.mp hle
  · exact le_rfl

example : majorMinor (makedev 259 65536) = "259:65536" := by decide

end Beskar7Inspector.Deploy
