import Beskar7Inspector.Lib.Program

namespace Beskar7Inspector.Client

open Lib.Program

def MAX_ATTEMPTS : Nat := 5

/-- The first backoff and its cap, in milliseconds. -/
def BACKOFF_BASE : Nat := 500
def BACKOFF_CAP : Nat := 8000

def MAX_BOOTSTRAP_BYTES : Nat := 4 * 1024 * 1024

structure Cpu where
  id : String
  vendor : String
  model : String
  cores : UInt32
  threads : UInt32
  frequency : String

structure MemoryModule where
  id : String
  memType : String
  capacity : String
  speed : String

structure Disk where
  name : String
  model : String
  sizeGb : UInt64
  diskType : String
  serialNumber : String

structure Nic where
  name : String
  macAddress : String
  driver : String
  speed : String
  ipAddresses : List String

structure InspectionReport where
  manufacturer : String
  model : String
  serialNumber : String
  cpus : List Cpu
  memory : List MemoryModule
  disks : List Disk
  nics : List Nic
  bootModeDetected : String
  firmwareVersion : String

inductive ClientError
  | caDecode
  | caEmpty
  | caInvalid
  | http (status : Nat)
  | transport (kind : String)
  | body
  | bootstrapTooLarge
  | serialize
  | retriesExhausted (last : ClientError)

/-- A response, whose body may break off while it is read. -/
structure Response where
  status : Nat
  body : List UInt8
  broken : Bool

/-- What a request comes to; a failed transport has a short label. -/
inductive HttpAnswer
  | response (resp : Response)
  | failed (kind : String)

inductive Attempt (α : Type)
  | done (value : α)
  | retry (e : ClientError)
  | fatal (e : ClientError)

inductive Verdict
  | retry (e : ClientError)
  | fatal (e : ClientError)

def Verdict.intoAttempt {α : Type} : Verdict → Attempt α
  | .retry e => .retry e
  | .fatal e => .fatal e

def isTransient (status : Nat) : Bool := status == 408 || status == 429 || (500 ≤ status && status ≤ 599)

def classifyStatus : HttpAnswer → Except Verdict Response
  | .response resp =>
      if 200 ≤ resp.status ∧ resp.status < 300 then .ok resp
      else if isTransient resp.status then .error (.retry (.http resp.status))
      else .error (.fatal (.http resp.status))
  | .failed kind => .error (.retry (.transport kind))

/-- Read up to one byte past the limit. -/
def readCapped (resp : Response) (limit : Nat) : Except ClientError (List UInt8) :=
  let buf := resp.body.take (limit + 1)
  if resp.broken ∧ buf.length ≤ limit then .error .body
  else if limit < buf.length then .error .bootstrapTooLarge
  else .ok buf

/-- The base doubled for each attempt before this one, capped. -/
def backoff (attempt : Nat) : Nat :=
  let factor := if attempt < 64 then 2 ^ attempt else 2 ^ 64 - 1
  min (BACKOFF_BASE * min factor (2 ^ 32 - 1)) BACKOFF_CAP

/-- The attempts from number `n` on, with an error of an earlier one. -/
def retryFrom {Op : Type → Type} {α : Type} (sleep : Nat → Try Op ClientError Unit)
    (attempt : Try Op ClientError (Attempt α)) (n : Nat) (last : Option ClientError) : Nat → Try Op ClientError α
  | 0 => throw (.retriesExhausted (last.getD .body))
  | left + 1 => do
      let a ← attempt
      match a with
      | .done value => pure value
      | .fatal e => throw e
      | .retry e => do
          if 0 < left then sleep (backoff n)
          retryFrom sleep attempt (n + 1) (some e) left

def runWithRetries {Op : Type → Type} {α : Type} (maxAttempts : Nat) (sleep : Nat → Try Op ClientError Unit)
    (attempt : Try Op ClientError (Attempt α)) : Try Op ClientError α :=
  retryFrom sleep attempt 0 none maxAttempts

/-- One GET of the bootstrap data, and a wait of some milliseconds. -/
inductive HttpOp : Type → Type
  | getBootstrap : HttpOp HttpAnswer
  | sleep (millis : Nat) : HttpOp Unit

def attemptOf (answer : HttpAnswer) : Attempt (List UInt8) :=
  match classifyStatus answer with
  | .ok resp => match readCapped resp MAX_BOOTSTRAP_BYTES with
      | .ok bytes => .done bytes
      | .error .bootstrapTooLarge => .fatal .bootstrapTooLarge
      | .error e => .retry e
  | .error verdict => verdict.intoAttempt

def fetchBootstrap : Try HttpOp ClientError (List UInt8) :=
  runWithRetries MAX_ATTEMPTS (fun millis => always (.sleep millis)) do
    let answer ← always .getBootstrap
    pure (attemptOf answer)

end Beskar7Inspector.Client
