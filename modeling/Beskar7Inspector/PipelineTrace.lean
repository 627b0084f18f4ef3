import Beskar7Inspector.Pipeline

namespace Beskar7Inspector.PipelineTrace

open Lib.Program Lib.Recorder Lib.Os Net Cmdline Client DiskSelection Deploy Esp Efiboot Oem Pipeline

inductive Event
  | mount (spec : MountSpec) (r : Except Errno Unit)
  | lockMemory (r : Except Errno Unit)
  | fromProcCmdline (r : Except CmdlineError BootParams)
  | loadDrivers (bootif : Option String)
  | bringUpNetwork (params : BootParams) (r : Except NetError NetConfig)
  | writeResolvConf (dns : List Ipv4Addr) (r : Except IoError Unit)
  | collect (report : InspectionReport)
  | select (pin : Option String) (minBytes : UInt64) (r : Except DiskError TargetDisk)
  | newClient (params : BootParams) (r : Except ClientError Unit)
  | submitReport (report : InspectionReport) (r : Except ClientError Unit)
  | provisionFailed (reason : String) (r : Except ClientError Unit)
  | fetchBootstrap (r : Except ClientError (List UInt8))
  | sleep (seconds : Nat)
  | writeImage (target : TargetDisk) (url digest : String) (buildMax : UInt64) (r : Except DeployError Nat)
  | rereadPartitionTable (target : TargetDisk) (r : Except DeployError Unit)
  | efiPresent (r : Bool)
  | findEspPartition (target : TargetDisk) (r : Except EspError EspPartition)
  | otherDisksWithGuid (target : TargetDisk) (guid : Guid) (r : List String)
  | prepareEsp (esp : EspPartition) (r : Except DeployError EspPrepared)
  | ensureDiskBootEntry (esp : EspPartition) (r : Except EfiBootError BootEntry)
  | findOemPartition (target : TargetDisk) (r : Except OemError OemPartition)
  | injectOemConfig (oem : OemPartition) (userData : List UInt8) (providerId : String) (r : Except DeployError Unit)
  | provisioned (r : Except ClientError Unit)
  | reboot (r : Option Errno)

def event : ∀ {β : Type}, Step β → β → Event
  | _, .mount spec, r => .mount spec r
  | _, .lockMemory, r => .lockMemory r
  | _, .fromProcCmdline, r => .fromProcCmdline r
  | _, .loadDrivers bootif, _ => .loadDrivers bootif
  | _, .bringUpNetwork params, r => .bringUpNetwork params r
  | _, .writeResolvConf dns, r => .writeResolvConf dns r
  | _, .collect, r => .collect r
  | _, .select pin minBytes, r => .select pin minBytes r
  | _, .newClient params, r => .newClient params r
  | _, .submitReport report, r => .submitReport report r
  | _, .provisionFailed reason, r => .provisionFailed reason r
  | _, .fetchBootstrap, r => .fetchBootstrap r
  | _, .sleep seconds, _ => .sleep seconds
  | _, .writeImage target url digest buildMax, r => .writeImage target url digest buildMax r
  | _, .rereadPartitionTable target, r => .rereadPartitionTable target r
  | _, .efiPresent, r => .efiPresent r
  | _, .findEspPartition target, r => .findEspPartition target r
  | _, .otherDisksWithGuid target guid, r => .otherDisksWithGuid target guid r
  | _, .prepareEsp esp, r => .prepareEsp esp r
  | _, .ensureDiskBootEntry esp, r => .ensureDiskBootEntry esp r
  | _, .findOemPartition target, r => .findOemPartition target r
  | _, .injectOemConfig oem userData providerId, r => .injectOemConfig oem userData providerId r
  | _, .provisioned, r => .provisioned r
  | _, .reboot, r => .reboot r

/-- The steps before the hardware is looked at, and that of looking. -/
def Event.isSetUp : Event → Bool
  | .mount _ _ | .lockMemory _ | .fromProcCmdline _ | .loadDrivers _ | .bringUpNetwork _ _ | .writeResolvConf _ _
  | .collect _ => true
  | _ => false

/-- A poll that brought nothing, or the sleep after it. -/
def Event.isWait : Event → Bool
  | .fetchBootstrap (.error _) | .sleep _ => true
  | _ => false

/-- A deploy step that failed. An absent ESP is none, nor is a boot entry that
was not registered. -/
def Event.isFailedDeployStep : Event → Bool
  | .writeImage _ _ _ _ (.error _) => true
  | .rereadPartitionTable _ (.error _) => true
  | .findEspPartition _ (.error e) => !e.isAbsent
  | .prepareEsp _ (.error _) => true
  | .findOemPartition _ (.error _) => true
  | .injectOemConfig _ _ _ (.error _) => true
  | _ => false

@[simp] def Event.isProvisionFailed : Event → Bool
  | .provisionFailed _ _ => true
  | _ => false

@[simp] def Event.isAcceptedReport : Event → Bool
  | .submitReport _ (.ok _) => true
  | _ => false

@[simp] def Event.isFailedSelection : Event → Bool
  | .select _ _ (.error _) => true
  | _ => false

@[simp] def Event.isSuccess : Event → Bool
  | .provisioned _ | .reboot _ => true
  | _ => false

inductive EspTrace (target : TargetDisk) : Except RunError Unit → List Event → Prop
  | legacy : EspTrace target (.ok ()) [.efiPresent false]
  | absent {e : EspError} (h : e.isAbsent = true) :
      EspTrace target (.ok ()) [.efiPresent true, .findEspPartition target (.error e)]
  | unreadable {e : EspError} (h : e.isAbsent = false) :
      EspTrace target (.error (.esp e)) [.efiPresent true, .findEspPartition target (.error e)]
  | unprepared (esp : EspPartition) (others : List String) (e : DeployError) :
      EspTrace target (.error (.deploy e)) [.efiPresent true, .findEspPartition target (.ok esp),
        .otherDisksWithGuid target esp.gpt.uniqueGuid others, .prepareEsp esp (.error e)]
  | registered (esp : EspPartition) (others : List String) (prepared : EspPrepared)
      (r : Except EfiBootError BootEntry) :
      EspTrace target (.ok ()) [.efiPresent true, .findEspPartition target (.ok esp),
        .otherDisksWithGuid target esp.gpt.uniqueGuid others, .prepareEsp esp (.ok prepared), .ensureDiskBootEntry esp r]

/-- The image is on the disk and the kernel sees its partitions. -/
def imaged (target : TargetDisk) (url digest : String) (buildMax : UInt64) (n : Nat) : List Event :=
  [.writeImage target url digest buildMax (.ok n), .rereadPartitionTable target (.ok ())]

inductive DeployTrace (target : TargetDisk) (data : List UInt8) : Except RunError Unit → List Event → Prop
  | notWritten (url digest : String) (buildMax : UInt64) (e : DeployError) :
      DeployTrace target data (.error (.deploy e)) [.writeImage target url digest buildMax (.error e)]
  | notReread (url digest : String) (buildMax : UInt64) (n : Nat) (e : DeployError) :
      DeployTrace target data (.error (.deploy e))
        [.writeImage target url digest buildMax (.ok n), .rereadPartitionTable target (.error e)]
  | espFailed (url digest : String) (buildMax : UInt64) (n : Nat) {e : RunError} {esp : List Event}
      (h : EspTrace target (.error e) esp) :
      DeployTrace target data (.error e) (imaged target url digest buildMax n ++ esp)
  | oemMissing (url digest : String) (buildMax : UInt64) (n : Nat) {esp : List Event} (h : EspTrace target (.ok ()) esp)
      (e : OemError) :
      DeployTrace target data (.error (.oem e))
        (imaged target url digest buildMax n ++ esp ++ [.findOemPartition target (.error e)])
  | injected (url digest : String) (buildMax : UInt64) (n : Nat) {esp : List Event} (h : EspTrace target (.ok ()) esp)
      (oem : OemPartition) (providerId : String) (r : Except DeployError Unit) :
      DeployTrace target data (r.mapError .deploy)
        (imaged target url digest buildMax n ++ esp ++
          [.findOemPartition target (.ok oem), .injectOemConfig oem data providerId r])

inductive ProvisionTrace (selected : Except DiskError TargetDisk) : Except RunError RunEnd → List Event → Prop
  | noTarget {e : DiskError} (h : selected = .error e) (r : Except ClientError Unit) :
      ProvisionTrace selected (.error (.disk e)) [.provisionFailed (provisionFailureReason (.disk e)) r]
  | noBootstrap {target : TargetDisk} (h : selected = .ok target) {waits : List Event}
      (hw : ∀ x ∈ waits, x.isWait = true) {e : RunError} (he : e = .bootstrapTimeout ∨ ∃ c, e = .bootstrapAborted c) :
      ProvisionTrace selected (.error e) waits
  | failed {target : TargetDisk} (h : selected = .ok target) {waits : List Event} (hw : ∀ x ∈ waits, x.isWait = true)
      (data : List UInt8) {e : RunError} {steps : List Event} (hs : DeployTrace target data (.error e) steps)
      (r : Except ClientError Unit) :
      ProvisionTrace selected (.error e)
        (waits ++ .fetchBootstrap (.ok data) :: (steps ++ [.provisionFailed (provisionFailureReason e) r]))
  | notAccepted {target : TargetDisk} (h : selected = .ok target) {waits : List Event}
      (hw : ∀ x ∈ waits, x.isWait = true) (data : List UInt8) {steps : List Event}
      (hs : DeployTrace target data (.ok ()) steps) (e : ClientError) :
      ProvisionTrace selected (.error (.client e))
        (waits ++ .fetchBootstrap (.ok data) :: (steps ++ [.provisioned (.error e)]))
  | rebooted {target : TargetDisk} (h : selected = .ok target) {waits : List Event}
      (hw : ∀ x ∈ waits, x.isWait = true) (data : List UInt8) {steps : List Event}
      (hs : DeployTrace target data (.ok ()) steps) (r : Option Errno) :
      ProvisionTrace selected (match r with | none => .ok .rebooting | some e => .error (.deploy (.reboot e)))
        (waits ++ .fetchBootstrap (.ok data) :: (steps ++ [.provisioned (.ok ()), .reboot r]))

inductive RunTrace (dryRun : Bool) : Except RunError RunEnd → List Event → Prop
  | notSetUp {setup : List Event} (hs : ∀ x ∈ setup, x.isSetUp = true) {e : RunError} :
      RunTrace dryRun (.error e) setup
  | noClient {setup : List Event} (hs : ∀ x ∈ setup, x.isSetUp = true) (pin : Option String)
      (selected : Except DiskError TargetDisk) (params : BootParams) (e : ClientError) :
      RunTrace dryRun (.error (.client e)) (setup ++ [.select pin 0 selected, .newClient params (.error e)])
  | refused {setup : List Event} (hs : ∀ x ∈ setup, x.isSetUp = true) (pin : Option String)
      (selected : Except DiskError TargetDisk) (params : BootParams) (report : InspectionReport) (e : ClientError) :
      RunTrace dryRun (.error (.client e))
        (setup ++ [.select pin 0 selected, .newClient params (.ok ()), .submitReport report (.error e)])
  | enrolled (hd : dryRun = true) {setup : List Event} (hs : ∀ x ∈ setup, x.isSetUp = true) (pin : Option String)
      (selected : Except DiskError TargetDisk) (params : BootParams) (report : InspectionReport) :
      RunTrace dryRun (.ok .enrolled)
        (setup ++ [.select pin 0 selected, .newClient params (.ok ()), .submitReport report (.ok ())])
  | provisioned (hd : dryRun = false) {setup : List Event} (hs : ∀ x ∈ setup, x.isSetUp = true) (pin : Option String)
      {selected : Except DiskError TargetDisk} (params : BootParams) (report : InspectionReport)
      {r : Except RunError RunEnd} {trace : List Event} (hp : ProvisionTrace selected r trace) :
      RunTrace dryRun r
        (setup ++ [.select pin 0 selected, .newClient params (.ok ()), .submitReport report (.ok ())] ++ trace)

/-- Steps of the set-up only, however they end. -/
abbrev SetsUp {α : Type} (p : Pipe α) : Prop := Yields event p (fun _ trace => ∀ x ∈ trace, x.isSetUp = true)

theorem SetsUp.bind {α β : Type} {x : Pipe α} {f : α → Pipe β} (hx : SetsUp x) (hf : ∀ a, SetsUp (f a)) :
    SetsUp (x >>= f) :=
  Yields.bind hx (fun _ _ h => h) fun a _ h => (hf a).mono fun _ _ h' => List.forall_mem_append.mpr ⟨h, h'⟩

theorem setsUp_mountOne (spec : MountSpec) : SetsUp (mountOne spec) := by
  refine SetsUp.bind (Yields.always (by simp [event, Event.isSetUp])) fun r => ?_
  cases r with
  | ok u => exact Yields.pure (by simp)
  | error e =>
      dsimp only
      split
      · exact Yields.pure (by simp)
      · exact Yields.throw (by simp)

theorem setsUp_mountAll (specs : List MountSpec) : SetsUp (mountAll specs) := by
  induction specs with
  | nil => exact Yields.pure (by simp)
  | cons spec specs ih => exact (setsUp_mountOne spec).bind fun _ => ih

theorem setsUp_setUp (dryRun : Bool) : SetsUp (setUp dryRun) := by
  have hparams : SetsUp (attempt .fromProcCmdline .cmdline : Pipe BootParams) :=
    Yields.attempt (by simp [event, Event.isSetUp])
  have hlock : SetsUp (always .lockMemory : Pipe (Except Errno Unit)) := Yields.always (by simp [event, Event.isSetUp])
  have hdrivers (bootif : Option String) : SetsUp (always (.loadDrivers bootif) : Pipe Unit) :=
    Yields.always (by simp [event, Event.isSetUp])
  have hnet (params : BootParams) : SetsUp (attempt (.bringUpNetwork params) .net : Pipe NetConfig) :=
    Yields.attempt (by simp [event, Event.isSetUp])
  have hdns (dns : List Ipv4Addr) : SetsUp (always (.writeResolvConf dns) : Pipe (Except IoError Unit)) :=
    Yields.always (by simp [event, Event.isSetUp])
  cases dryRun with
  | true => exact hparams.bind fun _ => Yields.pure (by simp)
  | false =>
      refine (setsUp_mountAll mountSpecs).bind fun _ => hlock.bind fun _ => hparams.bind fun params => ?_
      exact (hdrivers params.bootif).bind fun _ => (hnet params).bind fun net => (hdns net.dns).bind fun _ =>
        Yields.pure (by simp)

/-- How the polls end: with the data behind nothing but waits, or for want of it. -/
def Polled : Except RunError (List UInt8) → List Event → Prop
  | .ok data, trace => ∃ waits, (∀ x ∈ waits, x.isWait = true) ∧ trace = waits ++ [.fetchBootstrap (.ok data)]
  | .error e, trace => (e = .bootstrapTimeout ∨ ∃ c, e = .bootstrapAborted c) ∧ ∀ x ∈ trace, x.isWait = true

theorem Polled.prepend {r : Except RunError (List UInt8)} {trace : List Event} (h : Polled r trace)
    (waits : List Event) (hw : ∀ x ∈ waits, x.isWait = true) : Polled r (waits ++ trace) := by
  cases r with
  | ok data =>
      obtain ⟨more, hmore, rfl⟩ := h
      exact ⟨waits ++ more, List.forall_mem_append.mpr ⟨hw, hmore⟩, (List.append_assoc _ _ _).symm⟩
  | error e => exact ⟨h.1, List.forall_mem_append.mpr ⟨hw, h.2⟩⟩

theorem yields_pollBootstrap (left : Nat) : Yields event (pollBootstrap left) Polled := by
  induction left with
  | zero => exact Yields.throw ⟨.inl rfl, by simp⟩
  | succ left ih =>
      rw [pollBootstrap]
      refine Yields.always_bind fun r => ?_
      cases r with
      | ok data => exact Yields.pure ⟨[], by simp, rfl⟩
      | error c =>
          have hc : ∀ x ∈ [Event.fetchBootstrap (.error c)], x.isWait = true := by simp [Event.isWait]
          dsimp only
          cases classifyPoll c with
          | abort => exact Yields.throw ⟨.inr ⟨c, rfl⟩, hc⟩
          | notReady =>
              dsimp only
              split
              · exact Yields.always_bind fun _ => ih.mono fun _ _ h =>
                  h.prepend [.fetchBootstrap (.error c), .sleep pollInterval] (by simp [Event.isWait])
              · exact ih.mono fun _ _ h => h.prepend _ hc

theorem yields_espBootEntryStep (target : TargetDisk) : Yields event (espBootEntryStep target) (EspTrace target) := by
  refine Yields.always_bind fun efi => ?_
  cases efi with
  | false => exact Yields.pure .legacy
  | true =>
      refine Yields.always_bind fun found => ?_
      cases found with
      | ok esp =>
          refine Yields.always_bind fun others => ?_
          refine Yields.attempt_bind (fun e => .unprepared esp others e) fun prepared => ?_
          exact Yields.always_bind fun r => Yields.pure (.registered esp others prepared r)
      | error e =>
          dsimp only
          split
          · exact Yields.pure (.absent ‹_›)
          · exact Yields.throw (.unreadable (Bool.eq_false_iff.mpr ‹_›))

theorem yields_runDeploySteps (target : TargetDisk) (params : BootParams) (userData : List UInt8) :
    Yields event (runDeploySteps target params userData) (DeployTrace target userData) := by
  refine Yields.attempt_bind (fun e => .notWritten _ _ _ e) fun n => ?_
  refine Yields.attempt_bind (fun e => .notReread _ _ _ n e) fun _ => ?_
  refine Yields.bind (yields_espBootEntryStep target) (fun e _ h => .espFailed _ _ _ n h) fun _ esp h => ?_
  refine Yields.attempt_bind (fun e => .oemMissing _ _ _ n h e) fun oem => ?_
  exact Yields.attempt fun r => .injected _ _ _ n h oem params.providerId r

theorem yields_requireTarget (selected : Except DiskError TargetDisk) :
    Yields event (requireTarget selected) (fun r trace =>
      (∃ target, selected = .ok target ∧ r = .ok target ∧ trace = []) ∨
        ∃ e a, selected = .error e ∧ r = .error (.disk e) ∧
          trace = [Event.provisionFailed (provisionFailureReason (.disk e)) a]) := by
  cases selected with
  | ok target => exact Yields.pure (.inl ⟨target, rfl, rfl, rfl⟩)
  | error e => exact Yields.always_bind fun a => Yields.throw (.inr ⟨e, a, rfl, rfl, rfl⟩)

theorem yields_provision (params : BootParams) (selected : Except DiskError TargetDisk) :
    Yields event (provision params selected) (ProvisionTrace selected) := by
  refine Yields.bind (yields_requireTarget selected) ?_ ?_
  · rintro _ _ (⟨_, _, hr, _⟩ | ⟨e, a, hsel, hr, rfl⟩) <;> cases hr
    exact .noTarget hsel a
  rintro target _ (⟨_, hsel, hr, rfl⟩ | ⟨_, _, _, hr, _⟩) <;> cases hr
  refine Yields.bind (yields_pollBootstrap (pollBudgetIterations params.timeout)) ?_ ?_
  · rintro e trace ⟨he, hw⟩
    exact .noBootstrap hsel hw he
  rintro data _ ⟨waits, hw, rfl⟩
  refine Yields.outcome_bind (yields_runDeploySteps target params data) fun d steps hs => ?_
  have happend (rest : List Event) : [] ++ (waits ++ [Event.fetchBootstrap (.ok data)] ++ (steps ++ rest)) =
      waits ++ .fetchBootstrap (.ok data) :: (steps ++ rest) := by simp
  cases d with
  | error e => exact Yields.always_bind fun a => Yields.throw (happend _ ▸ .failed hsel hw data hs a)
  | ok _ =>
      refine Yields.attempt_bind (fun e => happend _ ▸ .notAccepted hsel hw data hs e) fun _ => ?_
      refine Yields.always_bind fun a => ?_
      cases a with
      | none => exact Yields.pure (happend _ ▸ .rebooted hsel hw data hs none)
      | some e => exact Yields.throw (happend _ ▸ .rebooted hsel hw data hs (some e))

theorem yields_run (dryRun : Bool) : Yields event (run dryRun) (RunTrace dryRun) := by
  refine Yields.bind (setsUp_setUp dryRun) (fun e _ hs => .notSetUp hs) fun params setup hs => ?_
  refine Yields.always_bind fun report => Yields.always_bind fun selected => ?_
  have hs' : ∀ x ∈ setup ++ [Event.collect report], x.isSetUp = true :=
    List.forall_mem_append.mpr ⟨hs, by simp [Event.isSetUp]⟩
  have happend (rest : List Event) : setup ++ Event.collect report :: rest = setup ++ [.collect report] ++ rest := by
    simp
  refine Yields.attempt_bind (fun e => ?_) fun _ => Yields.attempt_bind (fun e => ?_) fun _ => ?_
  · exact happend _ ▸ .noClient hs' params.disk selected params e
  · exact happend _ ▸ .refused hs' params.disk selected params report e
  · cases dryRun with
    | true => exact Yields.pure (happend _ ▸ .enrolled rfl hs' params.disk selected params report)
    | false =>
        refine (yields_provision params selected).mono fun r trace hp => happend _ ▸ ?_
        have := RunTrace.provisioned rfl hs' params.disk params report hp
        rwa [List.append_assoc] at this

end Beskar7Inspector.PipelineTrace
