import Beskar7Inspector.Lib.Interp
import Beskar7Inspector.PipelineTrace
import Beskar7Inspector.ReportJson

namespace Beskar7Inspector.Callbacks

open Lib.Text Lib.Program Lib.Recorder Lib.Interp Cmdline Client ReportJson DiskSelection Pipeline PipelineTrace

inductive Method
  | get
  | post
  deriving DecidableEq

structure Request where
  method : Method
  url : String
  authorization : String
  contentType : Option String
  body : List UInt8

structure CallbackClient where
  inspectionUrl : String
  bootstrapUrl : String
  provisionedUrl : String
  provisionFailedUrl : String
  token : String

def callbackUrl (route api ns host : String) : String :=
  trimEndMatches (· == '/') api ++ "/api/v1/" ++ route ++ "/" ++ ns ++ "/" ++ host

def inspectionUrl := callbackUrl "inspection"
def bootstrapUrl := callbackUrl "bootstrap"
def provisionedUrl := callbackUrl "provisioned"
def provisionFailedUrl := callbackUrl "provision-failed"

namespace CallbackClient

/-- The client's addresses; the TLS set-up that may fail is a step of the run. -/
def new (params : BootParams) : CallbackClient where
  inspectionUrl := Callbacks.inspectionUrl params.api params.namespace_ params.host
  bootstrapUrl := Callbacks.bootstrapUrl params.api params.namespace_ params.host
  provisionedUrl := Callbacks.provisionedUrl params.api params.namespace_ params.host
  provisionFailedUrl := Callbacks.provisionFailedUrl params.api params.namespace_ params.host
  token := params.token

def bearer (c : CallbackClient) : String := "Bearer " ++ c.token

def post (c : CallbackClient) (url : String) (body : List UInt8) : Request :=
  ⟨.post, url, c.bearer, some "application/json", body⟩

/-- Without a body there is no request. -/
def reportRequest (c : CallbackClient) (toVec : ToVec) (report : InspectionReport) : Except ClientError Request :=
  (reportBody toVec report).map (c.post c.inspectionUrl)

def bootstrapRequest (c : CallbackClient) : Request := ⟨.get, c.bootstrapUrl, c.bearer, none, []⟩

def provisionedRequest (c : CallbackClient) : Request := c.post c.provisionedUrl PROVISIONED_BODY

def failedRequest (c : CallbackClient) (toVec : ToVec) (reason : String) : Except ClientError Request :=
  (provisionFailedBody toVec reason).map (c.post c.provisionFailedUrl)

end CallbackClient

/-- A request, and a wait of some milliseconds. -/
inductive CallbackOp : Type → Type
  | send (req : Request) : CallbackOp HttpAnswer
  | sleep (millis : Nat) : CallbackOp Unit

abbrev Wire (β : Type) : Type := Step β ⊕ CallbackOp β

abbrev Wired := Try Wire RunError

def postAttempt (answer : HttpAnswer) : Attempt Unit :=
  match classifyStatus answer with
  | .ok _ => .done ()
  | .error verdict => verdict.intoAttempt

/-- One request, made again while its answers are transient. -/
def sendWithRetries {α : Type} (req : Request) (verdict : HttpAnswer → Attempt α) : Try Wire ClientError α :=
  runWithRetries MAX_ATTEMPTS (fun millis => always (.inr (.sleep millis))) do
    let answer ← always (.inr (.send req))
    pure (verdict answer)

/-- A POST whose body may not be there. -/
def sendPost (req : Except ClientError Request) : Try Wire ClientError Unit :=
  match req with
  | .ok req => sendWithRetries req postAttempt
  | .error e => throw e

namespace CallbackClient

variable (toVec : ToVec) (c : CallbackClient)

def submitReport (report : InspectionReport) : Try Wire ClientError Unit := sendPost (c.reportRequest toVec report)

def fetchBootstrap : Try Wire ClientError (List UInt8) := sendWithRetries c.bootstrapRequest attemptOf

def provisioned : Try Wire ClientError Unit := sendPost (.ok c.provisionedRequest)

def provisionFailed (reason : String) : Try Wire ClientError Unit := sendPost (c.failedRequest toVec reason)

/-- How the steps of a run are made once there is a client. -/
def perform : Handler Step Wire
  | _, .submitReport report => (submitReport toVec c report).run
  | _, .provisionFailed reason => (provisionFailed toVec c reason).run
  | _, .fetchBootstrap => c.fetchBootstrap.run
  | _, .provisioned => c.provisioned.run
  | _, .sleep seconds => .call (.inr (.sleep (seconds * 1000))) .ret
  | _, step => .call (.inl step) .ret

end CallbackClient

def direct : Handler Step Wire := fun step => .call (.inl step) .ret

/-- What a run does once it has a client. -/
def converse (dryRun : Bool) (params : BootParams) (report : InspectionReport)
    (target : Except DiskError TargetDisk) : Pipe RunEnd := do
  attempt (.submitReport report) .client
  if dryRun then pure .enrolled else provision params target

theorem run_eq (dryRun : Bool) : run dryRun = (do
    let params ← setUp dryRun
    let report ← always .collect
    let target ← always (.select params.disk 0)
    attempt (.newClient params) .client
    converse dryRun params report target) := rfl

/-- A run down to its requests. -/
def runOver (toVec : ToVec) (dryRun : Bool) : Wired RunEnd := do
  let params ← interpTry direct (setUp dryRun)
  let report ← always (.inl .collect)
  let target ← always (.inl (.select params.disk 0))
  attempt (.inl (.newClient params)) .client
  interpTry ((CallbackClient.new params).perform toVec) (converse dryRun params report target)

end Beskar7Inspector.Callbacks
