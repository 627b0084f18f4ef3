import Beskar7Inspector.PipelineTrace

namespace Beskar7Inspector.PipelineGates

open Lib.Program Lib.Recorder Cmdline Client DiskSelection Deploy Esp Efiboot Oem Pipeline PipelineTrace

inductive Gate
  | ready
  | imaged
  | bootable
  | injected
  | accepted

/-- The answers that open a gate, in order: an accepted report and the
bootstrap data, then each step of the deploy, then the accepted callback. -/
inductive Passed (target : TargetDisk) (data : List UInt8) : Gate → List Event → Prop
  | ready (pin : Option String) (minBytes : UInt64) (report : InspectionReport) :
      Passed target data .ready [.select pin minBytes (.ok target), .submitReport report (.ok ()),
        .fetchBootstrap (.ok data)]
  | imaged {l : List Event} (h : Passed target data .ready l) (url digest : String) (buildMax : UInt64) (n : Nat) :
      Passed target data .imaged (l ++ PipelineTrace.imaged target url digest buildMax n)
  | bootable {l esp : List Event} (h : Passed target data .imaged l) (he : EspTrace target (.ok ()) esp) :
      Passed target data .bootable (l ++ esp)
  | injected {l : List Event} (h : Passed target data .bootable l) (oem : OemPartition) (providerId : String) :
      Passed target data .injected (l ++ [.findOemPartition target (.ok oem), .injectOemConfig oem data providerId (.ok ())])
  | accepted {l : List Event} (h : Passed target data .injected l) :
      Passed target data .accepted (l ++ [.provisioned (.ok ())])

/-- The history has the answers that open the gate, in order, and those of `more` after them. -/
def Open (target : TargetDisk) (data : List UInt8) (gate : Gate) (more history : List Event) : Prop :=
  ∃ l, Passed target data gate l ∧ (l ++ more).Sublist history

/-- What must have happened before a step that changes the host or reports its end. -/
def Allowed (history : List Event) : Event → Prop
  | .writeImage target _ _ _ _ => ∃ data, Open target data .ready [] history
  | .prepareEsp esp _ => ∃ target data,
      Open target data .imaged [.efiPresent true, .findEspPartition target (.ok esp)] history
  | .ensureDiskBootEntry esp _ => ∃ target data prepared, Open target data .imaged
      [.efiPresent true, .findEspPartition target (.ok esp), .prepareEsp esp (.ok prepared)] history
  | .injectOemConfig oem data _ _ => ∃ target, Open target data .bootable [.findOemPartition target (.ok oem)] history
  | .provisioned _ => ∃ target data, Open target data .injected [] history
  | .reboot _ => ∃ target data, Open target data .accepted [] history
  | .provisionFailed _ _ => history.any Event.isAcceptedReport = true ∧
      (history.any Event.isFailedSelection = true ∨ history.any Event.isFailedDeployStep = true)
  | _ => True

/-- However the boot entry step ends, the search for the `COS_OEM` partition
comes next, and the inject where it finds one. -/
def Follows : Event → List Event → Prop
  | .ensureDiskBootEntry _ _, post => ∃ target found rest, post = .findOemPartition target found :: rest ∧
      ∀ oem, found = .ok oem → ∃ data providerId r more, rest = .injectOemConfig oem data providerId r :: more
  | _, _ => True

structure GateOrdering (dryRun : Bool) (value : Except RunError RunEnd) (log : List Event) : Prop where
  gated : SafeAfter Allowed [] log
  harmless : FollowedBy Follows log
  reportedOnce : log.countP Event.isProvisionFailed ≤ 1
  reportedIff : dryRun = false → (log.any Event.isProvisionFailed = true ↔ log.any Event.isAcceptedReport = true ∧
    (log.any Event.isFailedSelection = true ∨ log.any Event.isFailedDeployStep = true))
  neverDry : dryRun = true → log.any Event.isProvisionFailed = false
  neverBoth : log.any Event.isProvisionFailed = true → log.any Event.isSuccess = false
  neverWaiting : value = .error .bootstrapTimeout ∨ (∃ c, value = .error (.bootstrapAborted c)) →
    log.any Event.isProvisionFailed = false

/-- An event of the set-up or of the polls. -/
structure Quiet (e : Event) : Prop where
  allowed : ∀ history, Allowed history e
  follows : ∀ post, Follows e post
  provisionFailed : e.isProvisionFailed = false
  acceptedReport : e.isAcceptedReport = false
  failedSelection : e.isFailedSelection = false
  failedDeployStep : e.isFailedDeployStep = false
  success : e.isSuccess = false

theorem quiet_of_isSetUp {e : Event} (h : e.isSetUp = true) : Quiet e := by
  cases e <;> first | exact ⟨fun _ => trivial, fun _ => trivial, rfl, rfl, rfl, rfl, rfl⟩ | cases h

theorem quiet_of_isWait {e : Event} (h : e.isWait = true) : Quiet e := by
  cases e with
  | sleep seconds => exact ⟨fun _ => trivial, fun _ => trivial, rfl, rfl, rfl, rfl, rfl⟩
  | fetchBootstrap r =>
      cases r with
      | ok data => cases h
      | error e => exact ⟨fun _ => trivial, fun _ => trivial, rfl, rfl, rfl, rfl, rfl⟩
  | _ => cases h

section Gated

variable {target : TargetDisk} {data : List UInt8} {history : List Event}

theorem Open.snoc {gate : Gate} {more : List Event} (h : Open target data gate more history) (e : Event) :
    Open target data gate (more ++ [e]) (history ++ [e]) := by
  obtain ⟨l, hl, hsub⟩ := h
  exact ⟨l, hl, by rw [← List.append_assoc]; exact hsub.append (List.Sublist.refl _)⟩

theorem Open.skip {gate : Gate} {more : List Event} (h : Open target data gate more history) (e : Event) :
    Open target data gate more (history ++ [e]) := by
  obtain ⟨l, hl, hsub⟩ := h
  exact ⟨l, hl, hsub.trans (List.sublist_append_left _ _)⟩

theorem safeAfter_espTrace {r : Except RunError Unit} {esp : List Event} (h : EspTrace target r esp)
    (ho : Open target data .imaged [] history) : SafeAfter Allowed history esp := by
  cases h with
  | legacy | absent | unreadable => simp [Allowed]
  | unprepared esp others e =>
      have hesp := ((ho.snoc (.efiPresent true)).snoc (.findEspPartition target (.ok esp))).skip
        (.otherDisksWithGuid target esp.gpt.uniqueGuid others)
      simp only [safeAfter_cons, safeAfter_nil, Allowed, true_and, and_true]
      exact ⟨target, data, hesp⟩
  | registered esp others prepared r =>
      have hesp := ((ho.snoc (.efiPresent true)).snoc (.findEspPartition target (.ok esp))).skip
        (.otherDisksWithGuid target esp.gpt.uniqueGuid others)
      simp only [safeAfter_cons, safeAfter_nil, Allowed, true_and, and_true]
      exact ⟨⟨target, data, hesp⟩, target, data, prepared, hesp.snoc _⟩

theorem Open.imaged (h : Open target data .ready [] history) (url digest : String) (buildMax : UInt64) (n : Nat) :
    Open target data .imaged [] (history ++ imaged target url digest buildMax n) := by
  obtain ⟨l, hl, hsub⟩ := h
  rw [List.append_nil] at hsub
  exact ⟨_, hl.imaged url digest buildMax n, by simpa using hsub⟩

theorem Open.bootable (h : Open target data .imaged [] history) {esp : List Event}
    (he : EspTrace target (.ok ()) esp) : Open target data .bootable [] (history ++ esp) := by
  obtain ⟨l, hl, hsub⟩ := h
  rw [List.append_nil] at hsub
  exact ⟨_, hl.bootable he, by simpa using hsub⟩

theorem Open.injected (h : Open target data .bootable [] history) (oem : OemPartition) (providerId : String) :
    Open target data .injected []
      (history ++ [.findOemPartition target (.ok oem), .injectOemConfig oem data providerId (.ok ())]) := by
  obtain ⟨l, hl, hsub⟩ := h
  rw [List.append_nil] at hsub
  exact ⟨_, hl.injected oem providerId, by simpa using hsub⟩

theorem Open.accepted (h : Open target data .injected [] history) :
    Open target data .accepted [] (history ++ [.provisioned (.ok ())]) := by
  obtain ⟨l, hl, hsub⟩ := h
  rw [List.append_nil] at hsub
  exact ⟨_, hl.accepted, by simpa using hsub⟩

theorem safeAfter_imaged (h : Open target data .ready [] history) (url digest : String) (buildMax : UInt64) (n : Nat) :
    SafeAfter Allowed history (imaged target url digest buildMax n) := by
  simp only [PipelineTrace.imaged, safeAfter_cons, safeAfter_nil, Allowed, and_true]
  exact ⟨data, h⟩

theorem safeAfter_deployTrace {r : Except RunError Unit} {steps : List Event} (h : DeployTrace target data r steps)
    (ho : Open target data .ready [] history) : SafeAfter Allowed history steps := by
  cases h with
  | notWritten url digest buildMax e =>
      simp only [safeAfter_cons, safeAfter_nil, Allowed, and_true]
      exact ⟨data, ho⟩
  | notReread url digest buildMax n e =>
      simp only [safeAfter_cons, safeAfter_nil, Allowed, and_true]
      exact ⟨data, ho⟩
  | espFailed url digest buildMax n he =>
      have hi := ho.imaged url digest buildMax n
      exact safeAfter_append.mpr ⟨safeAfter_imaged ho url digest buildMax n, safeAfter_espTrace he hi⟩
  | oemMissing url digest buildMax n he e =>
      have hi := ho.imaged url digest buildMax n
      refine safeAfter_append.mpr ⟨safeAfter_append.mpr ⟨safeAfter_imaged ho url digest buildMax n, ?_⟩, ?_⟩
      · exact safeAfter_espTrace he hi
      · simp [Allowed]
  | injected url digest buildMax n he oem providerId r =>
      have hi := ho.imaged url digest buildMax n
      refine safeAfter_append.mpr ⟨safeAfter_append.mpr ⟨safeAfter_imaged ho url digest buildMax n, ?_⟩, ?_⟩
      · exact safeAfter_espTrace he hi
      · have hb := (hi.bootable he).snoc (.findOemPartition target (.ok oem))
        simp only [safeAfter_cons, safeAfter_nil, Allowed, and_true, true_and]
        exact ⟨target, by simpa only [List.append_assoc, List.nil_append] using hb⟩

/-- Steps that ended well open the gate of the success callback. -/
theorem open_deployTrace {steps : List Event} (h : DeployTrace target data (.ok ()) steps)
    (ho : Open target data .ready [] history) : Open target data .injected [] (history ++ steps) := by
  generalize hr : Except.ok () = r at h
  cases h with
  | notWritten | notReread | espFailed | oemMissing => cases hr
  | injected url digest buildMax n he oem providerId r =>
      cases r with
      | error e => cases hr
      | ok _ =>
          rw [← List.append_assoc, ← List.append_assoc]
          exact ((ho.imaged url digest buildMax n).bootable he).injected oem providerId

end Gated

section Verdicts

variable {target : TargetDisk} {data : List UInt8}

/-- Whatever the boot entry step answered, the steps behind it go on. -/
theorem followedBy_deployTrace {r : Except RunError Unit} {steps rest : List Event}
    (h : DeployTrace target data r steps) (hrest : FollowedBy Follows rest) : FollowedBy Follows (steps ++ rest) := by
  cases h with
  | notWritten | notReread => simpa [Follows] using hrest
  | espFailed url digest buildMax n he => cases he <;> simpa [imaged, Follows] using hrest
  | oemMissing url digest buildMax n he e => cases he <;> simpa [imaged, Follows] using hrest
  | injected url digest buildMax n he oem providerId r => cases he <;> simpa [imaged, Follows] using hrest

/-- Events that say nothing about the end of a run. -/
structure Silent (l : List Event) : Prop where
  provisionFailed : l.any Event.isProvisionFailed = false
  acceptedReport : l.any Event.isAcceptedReport = false
  failedSelection : l.any Event.isFailedSelection = false
  success : l.any Event.isSuccess = false

theorem countP_eq_zero_of_any {α : Type} {l : List α} {p : α → Bool} (h : l.any p = false) : l.countP p = 0 :=
  List.countP_eq_zero.mpr (List.any_eq_false.mp h)

theorem any_of_quiet {l : List Event} (h : ∀ e ∈ l, Quiet e) : Silent l ∧ l.any Event.isFailedDeployStep = false := by
  refine ⟨⟨?_, ?_, ?_, ?_⟩, ?_⟩ <;> refine List.any_eq_false.mpr fun e he => Bool.eq_false_iff.mp ?_
  · exact (h e he).provisionFailed
  · exact (h e he).acceptedReport
  · exact (h e he).failedSelection
  · exact (h e he).success
  · exact (h e he).failedDeployStep

theorem silent_deployTrace {r : Except RunError Unit} {steps : List Event} (h : DeployTrace target data r steps) :
    Silent steps := by
  cases h with
  | notWritten | notReread => constructor <;> simp
  | espFailed url digest buildMax n he => cases he <;> constructor <;> simp [imaged]
  | oemMissing url digest buildMax n he e => cases he <;> constructor <;> simp [imaged]
  | injected url digest buildMax n he oem providerId r => cases he <;> constructor <;> simp [imaged]

theorem not_waiting_of_deployTrace {e : RunError} {steps : List Event} (h : DeployTrace target data (.error e) steps) :
    e ≠ .bootstrapTimeout ∧ ∀ c, e ≠ .bootstrapAborted c := by
  generalize hr : Except.error e = r at h
  cases h with
  | notWritten | notReread | oemMissing => cases hr; simp
  | espFailed url digest buildMax n he => cases hr; cases he <;> simp
  | injected url digest buildMax n he oem providerId r =>
      cases r with
      | ok _ => cases hr
      | error e => cases hr; simp

theorem any_isFailedDeployStep {r : Except RunError Unit} {steps : List Event} (h : DeployTrace target data r steps) :
    steps.any Event.isFailedDeployStep = true ↔ ∃ e, r = .error e := by
  cases h with
  | notWritten | notReread => simp [Event.isFailedDeployStep]
  | espFailed url digest buildMax n he =>
      generalize hr : Except.error _ = r at he
      cases he <;> cases hr <;> simp_all [imaged, Event.isFailedDeployStep]
  | oemMissing url digest buildMax n he e => simp [Event.isFailedDeployStep]
  | injected url digest buildMax n he oem providerId r =>
      generalize hr : Except.ok () = r' at he
      cases r <;> cases he <;> cases hr <;> simp_all [imaged, Event.isFailedDeployStep]

/-- The history of a run whose report was accepted. -/
def reported (setup : List Event) (pin : Option String) (selected : Except DiskError TargetDisk) (params : BootParams)
    (report : InspectionReport) : List Event :=
  setup ++ [.select pin 0 selected, .newClient params (.ok ()), .submitReport report (.ok ())]

variable {setup : List Event} {pin : Option String} {selected : Except DiskError TargetDisk} {params : BootParams}
  {report : InspectionReport} {r : Except RunError RunEnd} {trace : List Event}

theorem open_reported (waits : List Event) :
    Open target data .ready [] (reported setup pin (.ok target) params report ++ waits ++ [.fetchBootstrap (.ok data)]) := by
  refine ⟨_, .ready pin 0 report, ?_⟩
  have hreport : [Event.select pin 0 (.ok target), .submitReport report (.ok ())].Sublist
      (reported setup pin (.ok target) params report) :=
    List.Sublist.trans (.cons_cons _ (.cons _ (.cons_cons _ .slnil))) (List.sublist_append_right setup _)
  exact (hreport.trans (List.sublist_append_left _ waits)).append (List.Sublist.refl [Event.fetchBootstrap (.ok data)])

theorem safeAfter_provisionTrace (h : ProvisionTrace selected r trace) :
    SafeAfter Allowed (reported setup pin selected params report) trace := by
  have hwaits {waits history : List Event} (hw : ∀ x ∈ waits, x.isWait = true) : SafeAfter Allowed history waits :=
    safeAfter_of_forall fun e he => (quiet_of_isWait (hw e he)).allowed
  cases h with
  | noTarget hsel r => simp [hsel, Allowed, reported]
  | noBootstrap hsel hw he => exact hwaits hw
  | failed hsel hw data hs r =>
      subst hsel
      refine safeAfter_append.mpr ⟨hwaits hw, safeAfter_cons.mpr ⟨trivial, safeAfter_append.mpr ?_⟩⟩
      refine ⟨safeAfter_deployTrace hs (open_reported _), ?_⟩
      have hfailed := (any_isFailedDeployStep hs).mpr ⟨_, rfl⟩
      simp [Allowed, reported, hfailed]
  | notAccepted hsel hw data hs e =>
      subst hsel
      refine safeAfter_append.mpr ⟨hwaits hw, safeAfter_cons.mpr ⟨trivial, safeAfter_append.mpr ?_⟩⟩
      refine ⟨safeAfter_deployTrace hs (open_reported _), ?_⟩
      simp only [safeAfter_cons, safeAfter_nil, Allowed, and_true]
      exact ⟨_, data, open_deployTrace hs (open_reported _)⟩
  | rebooted hsel hw data hs r =>
      subst hsel
      refine safeAfter_append.mpr ⟨hwaits hw, safeAfter_cons.mpr ⟨trivial, safeAfter_append.mpr ?_⟩⟩
      refine ⟨safeAfter_deployTrace hs (open_reported _), ?_⟩
      simp only [safeAfter_cons, safeAfter_nil, Allowed, and_true]
      exact ⟨⟨_, data, open_deployTrace hs (open_reported _)⟩, _, data,
        (open_deployTrace hs (open_reported _)).accepted⟩

theorem followedBy_provisionTrace (h : ProvisionTrace selected r trace) : FollowedBy Follows trace := by
  have hwaits {waits : List Event} (hw : ∀ x ∈ waits, x.isWait = true) : ∀ e ∈ waits, ∀ l, Follows e l :=
    fun e he => (quiet_of_isWait (hw e he)).follows
  cases h with
  | noTarget hsel r => simp [Follows]
  | noBootstrap hsel hw he => simpa using (followedBy_append (b := []) (hwaits hw)).mpr followedBy_nil
  | failed hsel hw data hs r =>
      exact (followedBy_append (hwaits hw)).mpr
        (followedBy_cons.mpr ⟨trivial, followedBy_deployTrace hs (by simp [Follows])⟩)
  | notAccepted hsel hw data hs e =>
      exact (followedBy_append (hwaits hw)).mpr
        (followedBy_cons.mpr ⟨trivial, followedBy_deployTrace hs (by simp [Follows])⟩)
  | rebooted hsel hw data hs r =>
      exact (followedBy_append (hwaits hw)).mpr
        (followedBy_cons.mpr ⟨trivial, followedBy_deployTrace hs (by simp [Follows])⟩)

/-- What the second phase reports, and when. -/
structure Reports (selected : Except DiskError TargetDisk) (r : Except RunError RunEnd) (trace : List Event) : Prop where
  once : trace.countP Event.isProvisionFailed ≤ 1
  acceptedReport : trace.any Event.isAcceptedReport = false
  failedSelection : trace.any Event.isFailedSelection = false
  failed : trace.any Event.isProvisionFailed = true ↔
    (∃ e, selected = .error e) ∨ trace.any Event.isFailedDeployStep = true
  notBoth : trace.any Event.isProvisionFailed = true → trace.any Event.isSuccess = false
  notWaiting : r = .error .bootstrapTimeout ∨ (∃ c, r = .error (.bootstrapAborted c)) →
    trace.any Event.isProvisionFailed = false

theorem reports_deployed {waits steps tail : List Event} (hw : ∀ x ∈ waits, x.isWait = true)
    (hs : DeployTrace target data (.ok ()) steps) (ht : tail.any Event.isProvisionFailed = false ∧
      tail.any Event.isAcceptedReport = false ∧ tail.any Event.isFailedSelection = false ∧
      tail.any Event.isFailedDeployStep = false) :
    Reports (.ok target) r (waits ++ .fetchBootstrap (.ok data) :: (steps ++ tail)) := by
  obtain ⟨hq, hf⟩ := any_of_quiet fun x hx => quiet_of_isWait (hw x hx)
  have hd := silent_deployTrace hs
  have hn : steps.any Event.isFailedDeployStep = false := by
    rw [Bool.eq_false_iff, Ne, any_isFailedDeployStep hs]
    simp
  have hnone : (waits ++ .fetchBootstrap (.ok data) :: (steps ++ tail)).any Event.isProvisionFailed = false := by
    simp [List.any_append, hq.provisionFailed, hd.provisionFailed, ht.1]
  refine ⟨?_, ?_, ?_, ?_, ?_, fun _ => hnone⟩
  · rw [countP_eq_zero_of_any hnone]
    exact Nat.zero_le 1
  · simp [hq.acceptedReport, hd.acceptedReport, ht.2.1]
  · simp [hq.failedSelection, hd.failedSelection, ht.2.2.1]
  · rw [hnone]
    simp [hf, hn, ht.2.2.2, Event.isFailedDeployStep]
  · rw [hnone]
    simp

theorem reports_provisionTrace (h : ProvisionTrace selected r trace) : Reports selected r trace := by
  cases h with
  | noTarget hsel r =>
      exact ⟨by simp, by simp, by simp, by simp [hsel], by simp, by simp⟩
  | @noBootstrap target hsel waits hw e he =>
      obtain ⟨hs, hf⟩ := any_of_quiet fun x hx => quiet_of_isWait (hw x hx)
      exact ⟨by simp [countP_eq_zero_of_any hs.provisionFailed], hs.acceptedReport, hs.failedSelection,
        by simp [hs.provisionFailed, hf, hsel], by simp [hs.provisionFailed], fun _ => hs.provisionFailed⟩
  | @failed target hsel waits hw data e steps hs a =>
      obtain ⟨hq, hf⟩ := any_of_quiet fun x hx => quiet_of_isWait (hw x hx)
      have hd := silent_deployTrace hs
      have he := (any_isFailedDeployStep hs).mpr ⟨e, rfl⟩
      refine ⟨?_, ?_, ?_, ?_, ?_, ?_⟩
      · simp [countP_eq_zero_of_any hq.provisionFailed, countP_eq_zero_of_any hd.provisionFailed]
      · simp [hq.acceptedReport, hd.acceptedReport]
      · simp [hq.failedSelection, hd.failedSelection]
      · simp [he]
      · simp [hq.success, hd.success]
      · rintro (h | ⟨c, h⟩) <;> cases h
        · exact absurd rfl (not_waiting_of_deployTrace hs).1
        · exact absurd rfl ((not_waiting_of_deployTrace hs).2 c)
  | notAccepted hsel hw data hs e => exact hsel ▸ reports_deployed hw hs (by simp [Event.isFailedDeployStep])
  | rebooted hsel hw data hs r => exact hsel ▸ reports_deployed hw hs (by simp [Event.isFailedDeployStep])

theorem ordering_setUp (dryRun : Bool) (hs : ∀ x ∈ setup, x.isSetUp = true) (htrace : trace.any Event.isProvisionFailed = false)
    (hreport : dryRun = true ∨ trace.any Event.isAcceptedReport = false) (hgated : SafeAfter Allowed setup trace)
    (hfollows : FollowedBy Follows trace) : GateOrdering dryRun r (setup ++ trace) := by
  have hquiet : ∀ x ∈ setup, Quiet x := fun x hx => quiet_of_isSetUp (hs x hx)
  obtain ⟨hsilent, _⟩ := any_of_quiet hquiet
  have hnone : (setup ++ trace).any Event.isProvisionFailed = false := by
    simp [List.any_append, hsilent.provisionFailed, htrace]
  refine ⟨?_, ?_, ?_, ?_, fun _ => hnone, ?_, fun _ => hnone⟩
  · exact safeAfter_append.mpr ⟨safeAfter_of_forall fun x hx => (hquiet x hx).allowed, hgated⟩
  · exact (followedBy_append fun x hx => (hquiet x hx).follows).mpr hfollows
  · rw [countP_eq_zero_of_any hnone]
    exact Nat.zero_le 1
  · rintro rfl
    rw [hnone, List.any_append, hsilent.acceptedReport, hreport.resolve_left Bool.false_ne_true]
    simp
  · rw [hnone]
    simp

theorem ordering_provisioned (hs : ∀ x ∈ setup, x.isSetUp = true) (h : ProvisionTrace selected r trace) :
    GateOrdering false r (reported setup pin selected params report ++ trace) := by
  have hquiet : ∀ x ∈ setup, Quiet x := fun x hx => quiet_of_isSetUp (hs x hx)
  obtain ⟨hsilent, hfailed⟩ := any_of_quiet hquiet
  have hr := reports_provisionTrace h
  have hpf : (reported setup pin selected params report ++ trace).any Event.isProvisionFailed =
      trace.any Event.isProvisionFailed := by
    simp [reported, List.any_append, hsilent.provisionFailed]
  refine ⟨safeAfter_append.mpr ⟨?_, safeAfter_provisionTrace h⟩, ?_, ?_, fun _ => ?_, by simp, ?_, ?_⟩
  · refine safeAfter_append.mpr ⟨safeAfter_of_forall fun x hx => (hquiet x hx).allowed, ?_⟩
    simp [Allowed]
  · rw [reported, List.append_assoc, followedBy_append fun x hx => (hquiet x hx).follows]
    simpa [Follows] using followedBy_provisionTrace h
  · rw [List.countP_append]
    have : (reported setup pin selected params report).countP Event.isProvisionFailed = 0 := by
      simp [reported, countP_eq_zero_of_any hsilent.provisionFailed]
    rw [this, Nat.zero_add]
    exact hr.once
  · rw [hpf, hr.failed]
    cases selected <;>
      simp [reported, List.any_append, hsilent.failedSelection, hfailed, hr.failedSelection, Event.isFailedDeployStep]
  · rw [hpf]
    intro hp
    simp [reported, List.any_append, hsilent.success, hr.notBoth hp]
  · rw [hpf]
    exact hr.notWaiting

theorem ordering_runTrace {dryRun : Bool} (h : RunTrace dryRun r trace) : GateOrdering dryRun r trace := by
  cases h with
  | notSetUp hs =>
      rw [← List.append_nil trace]
      exact ordering_setUp dryRun hs (by simp) (by simp) safeAfter_nil followedBy_nil
  | noClient hs pin selected params e =>
      exact ordering_setUp dryRun hs (by simp) (by simp) (by simp [Allowed]) (by simp [Follows])
  | refused hs pin selected params report e =>
      exact ordering_setUp dryRun hs (by simp) (by simp) (by simp [Allowed]) (by simp [Follows])
  | enrolled hd hs pin selected params report =>
      exact ordering_setUp dryRun hs (by simp) (.inl hd) (by simp [Allowed]) (by simp [Follows])
  | provisioned hd hs pin params report hp =>
      subst hd
      exact ordering_provisioned hs hp

end Verdicts

/-- The gates of a run hold whatever each of its steps answers, in every order
of answers the world can give. -/
theorem run_gateOrdering (dryRun : Bool) (plan : Nat → Answers Step) :
    let ending := (run dryRun).run.run (logged event anyone) plan ((), [])
    GateOrdering dryRun ending.value ending.final.2 :=
  ordering_runTrace (Does.run (yields_run dryRun) plan).2

end Beskar7Inspector.PipelineGates
