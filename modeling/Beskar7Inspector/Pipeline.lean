import Beskar7Inspector.Client
import Beskar7Inspector.Cmdline
import Beskar7Inspector.Efiboot
import Beskar7Inspector.Lib.Recorder
import Beskar7Inspector.Oem

namespace Beskar7Inspector.Pipeline

open Lib.Program Lib.Os Net Cmdline Client DiskSelection Deploy Image Esp Efiboot Oem

def pollInterval : Nat := 5

def defaultPollBudget : Nat := 30 * 60

inductive RunError
  | mount (target : String) (source : Errno)
  | cmdline (source : CmdlineError)
  | net (source : NetError)
  | disk (source : DiskError)
  | client (source : ClientError)
  | bootstrapTimeout
  | bootstrapAborted (source : ClientError)
  | esp (source : EspError)
  | oem (source : OemError)
  | deploy (source : DeployError)

/-- How a run ends well: a dry run after its report, or the host rebooting. -/
inductive RunEnd
  | enrolled
  | rebooting

def MS_NOSUID : Nat := 2
def MS_NODEV : Nat := 4
def MS_NOEXEC : Nat := 8

structure MountSpec where
  source : String
  target : String
  fstype : String
  flags : Nat

def mountSpecs : List MountSpec :=
  let hardened := MS_NODEV + MS_NOSUID + MS_NOEXEC
  let devOk := MS_NOSUID + MS_NOEXEC
  [⟨"proc", "/proc", "proc", hardened⟩, ⟨"sysfs", "/sys", "sysfs", hardened⟩, ⟨"devtmpfs", "/dev", "devtmpfs", devOk⟩,
    ⟨"tmpfs", "/run", "tmpfs", devOk⟩, ⟨"tmpfs", "/tmp", "tmpfs", hardened⟩]

/-- The steps of a run, as calls on the world. A reboot that succeeds has no
answer the run could go on with. -/
inductive Step : Type → Type
  | mount (spec : MountSpec) : Step (Except Errno Unit)
  | lockMemory : Step (Except Errno Unit)
  | fromProcCmdline : Step (Except CmdlineError BootParams)
  | loadDrivers (bootif : Option String) : Step Unit
  | bringUpNetwork (params : BootParams) : Step (Except NetError NetConfig)
  | writeResolvConf (dns : List Ipv4Addr) : Step (Except IoError Unit)
  | collect : Step InspectionReport
  | select (pin : Option String) (minBytes : UInt64) : Step (Except DiskError TargetDisk)
  | newClient (params : BootParams) : Step (Except ClientError Unit)
  | submitReport (report : InspectionReport) : Step (Except ClientError Unit)
  | provisionFailed (reason : String) : Step (Except ClientError Unit)
  | fetchBootstrap : Step (Except ClientError (List UInt8))
  | sleep (seconds : Nat) : Step Unit
  | writeImage (target : TargetDisk) (url digest : String) (buildMax : UInt64) : Step (Except DeployError Nat)
  | rereadPartitionTable (target : TargetDisk) : Step (Except DeployError Unit)
  | efiPresent : Step Bool
  | findEspPartition (target : TargetDisk) : Step (Except EspError EspPartition)
  | otherDisksWithGuid (target : TargetDisk) (guid : Guid) : Step (List String)
  | prepareEsp (esp : EspPartition) : Step (Except DeployError EspPrepared)
  | ensureDiskBootEntry (esp : EspPartition) : Step (Except EfiBootError BootEntry)
  | findOemPartition (target : TargetDisk) : Step (Except OemError OemPartition)
  | injectOemConfig (oem : OemPartition) (userData : List UInt8) (providerId : String) : Step (Except DeployError Unit)
  | provisioned : Step (Except ClientError Unit)
  | reboot : Step (Option Errno)

abbrev Pipe := Try Step RunError

def mountOne (spec : MountSpec) : Pipe Unit := do
  let r ← always (.mount spec)
  match r with
  | .ok () => pure ()
  | .error source => if source = EBUSY then pure () else throw (.mount spec.target source)

def mountAll : List MountSpec → Pipe Unit
  | [] => pure ()
  | spec :: specs => do
      mountOne spec
      mountAll specs

def mountPseudoFilesystems : Pipe Unit := mountAll mountSpecs

def pollBudgetIterations (timeout : Option UInt64) : Nat :=
  let budget := (timeout.map UInt64.toNat).getD defaultPollBudget
  max 1 (min (budget / pollInterval) (2 ^ 32 - 1))

inductive PollVerdict
  | notReady
  | abort
  deriving DecidableEq, Repr

/-- Whether a failed bootstrap fetch means to wait or to stop. -/
def classifyPoll : ClientError → PollVerdict
  | .http status =>
      if status = 401 ∨ status = 403 then .abort
      else if status = 404 then .notReady
      else if 500 ≤ status ∧ status < 600 then .notReady
      else .abort
  | .bootstrapTooLarge => .abort
  | .retriesExhausted _ => .notReady
  | .transport _ => .notReady
  | .body => .notReady
  | _ => .abort

/-- At most the given number of attempts, with a sleep between two of them. -/
def pollBootstrap : Nat → Pipe (List UInt8)
  | 0 => throw .bootstrapTimeout
  | left + 1 => do
      let r ← always .fetchBootstrap
      match r with
      | .ok data => pure data
      | .error e => match classifyPoll e with
          | .abort => throw (.bootstrapAborted e)
          | .notReady => do
              if 0 < left then always (.sleep pollInterval)
              pollBootstrap left

def diskErrorReason : DiskError → String
  | .noEligibleDisk => "no eligible target disk"
  | .pinNotFound _ => "pinned target disk not found"
  | .pinNotBlockDevice _ => "pinned target disk is not a block device"
  | .pinNotWholeDisk _ => "pinned target disk is a partition"
  | .pinIneligible _ _ => "pinned target disk is ineligible"

def deployErrorReason : DeployError → String
  | .image (.digestMismatch _ _) => "image digest mismatch"
  | .image .invalidDigestFormat => "invalid image digest"
  | .image .unsupportedScheme => "unsupported image URL scheme"
  | .image (.tooLarge _) => "image too large"
  | .image (.http _) | .image (.transport _) | .image (.read _) => "image fetch failed"
  | .image (.write _) | .sync _ => "whole-disk write failed"
  | .openTarget _ _ | .notABlockDevice _ | .stat _ _ | .noDeviceNumber _ | .deviceIdentityMismatch _ _ _
  | .badDeviceNumber _ => "target disk error"
  | .reread _ _ => "partition re-read failed"
  | .mountpoint part _ _ | .makeNode part _ _ | .mount part _ _ | .unmount part _ _ => match part with
      | .esp => "ESP loader check failed"
      | .oem => "COS_OEM inject failed"
  | .espLoaderMissing _ | .espLoaderCheck _ _ => "ESP loader check failed"
  | .espWrite _ _ => "ESP write failed"
  | .configWrite _ | .providerIdWrite _ => "COS_OEM inject failed"
  | .reboot _ => "deploy failed"

def provisionFailureReason : RunError → String
  | .disk d => diskErrorReason d
  | .deploy d => deployErrorReason d
  | .esp (.device d) => deployErrorReason d
  | .esp _ => "ESP GPT read failed"
  | .oem _ => "COS_OEM partition not found"
  | _ => "deploy failed"

/-- Best effort: the failure is what is handed back, whatever the callback does. -/
def reportProvisionFailure (e : RunError) : Pipe RunError := do
  let _ ← always (.provisionFailed (provisionFailureReason e))
  pure e

def requireTarget (target : Except DiskError TargetDisk) : Pipe TargetDisk :=
  match target with
  | .ok t => pure t
  | .error e => do
      let e ← reportProvisionFailure (.disk e)
      throw e

/-- A boot entry that could not be registered does not stop the deploy. -/
def registerBootEntry (esp : EspPartition) : Pipe Unit := do
  let _ ← attempt (.prepareEsp esp) .deploy
  let _ ← always (.ensureDiskBootEntry esp)
  pure ()

def espBootEntryStep (target : TargetDisk) : Pipe Unit := do
  let efi ← always .efiPresent
  if !efi then pure ()
  else do
    let found ← always (.findEspPartition target)
    match found with
    | .ok esp => do
        let _ ← always (.otherDisksWithGuid target esp.gpt.uniqueGuid)
        registerBootEntry esp
    | .error e => if e.isAbsent then pure () else throw (.esp e)

def runDeploySteps (target : TargetDisk) (params : BootParams) (userData : List UInt8) : Pipe Unit := do
  let _ ← attempt (.writeImage target params.target params.targetDigest defaultMaxImageBytes) .deploy
  attempt (.rereadPartitionTable target) .deploy
  espBootEntryStep target
  let oem ← attempt (.findOemPartition target) .oem
  attempt (.injectOemConfig oem userData params.providerId) .deploy

def setUp (dryRun : Bool) : Pipe BootParams := do
  if !dryRun then
    mountPseudoFilesystems
    let _ ← always .lockMemory
  let params ← attempt .fromProcCmdline .cmdline
  if !dryRun then
    always (.loadDrivers params.bootif)
    let net ← attempt (.bringUpNetwork params) .net
    let _ ← always (.writeResolvConf net.dns)
  pure params

def provision (params : BootParams) (target : Except DiskError TargetDisk) : Pipe RunEnd := do
  let target ← requireTarget target
  let userData ← pollBootstrap (pollBudgetIterations params.timeout)
  let deployed ← outcome (runDeploySteps target params userData)
  match deployed with
  | .error e => do
      let e ← reportProvisionFailure e
      throw e
  | .ok () => do
      attempt .provisioned .client
      let r ← always .reboot
      match r with
      | none => pure .rebooting
      | some source => throw (.deploy (.reboot source))

def run (dryRun : Bool) : Pipe RunEnd := do
  let params ← setUp dryRun
  let report ← always .collect
  let target ← always (.select params.disk 0)
  attempt (.newClient params) .client
  attempt (.submitReport report) .client
  if dryRun then pure .enrolled else provision params target

end Beskar7Inspector.Pipeline
