import Beskar7Inspector.BootstrapPolls
import Beskar7Inspector.Callbacks

namespace Beskar7Inspector.Conversation

open Lib.Text Lib.Program Lib.Recorder Lib.Threads Lib.Interp Net Cmdline Client DiskSelection Deploy Esp Oem Pipeline
open PipelineTrace ReportJson Callbacks

inductive WireEvent
  | step (e : Event)
  | sent (req : Request) (answer : HttpAnswer)
  | slept (millis : Nat)

def wireEvent : ∀ {β : Type}, Wire β → β → WireEvent
  | _, .inl s, b => .step (event s b)
  | _, .inr (.send req), answer => .sent req answer
  | _, .inr (.sleep millis), _ => .slept millis

/-- One request as it is seen on the wire, from repetition `n` on and `left`
times at the most: made again after a transient answer and after no other. -/
inductive Series {α : Type} (req : Request) (verdict : HttpAnswer → Attempt α) :
    Nat → Nat → Except ClientError α → List WireEvent → Prop
  | done {n left : Nat} {answer : HttpAnswer} {a : α} (h : verdict answer = .done a) :
      Series req verdict n (left + 1) (.ok a) [.sent req answer]
  | fatal {n left : Nat} {answer : HttpAnswer} {e : ClientError} (h : verdict answer = .fatal e) :
      Series req verdict n (left + 1) (.error e) [.sent req answer]
  | exhausted {n : Nat} {answer : HttpAnswer} {e : ClientError} (h : verdict answer = .retry e) :
      Series req verdict n 1 (.error (.retriesExhausted e)) [.sent req answer]
  | again {n left : Nat} {answer : HttpAnswer} {e : ClientError} (h : verdict answer = .retry e)
      {r : Except ClientError α} {trace : List WireEvent} (hrest : Series req verdict (n + 1) (left + 1) r trace) :
      Series req verdict n (left + 2) r (.sent req answer :: .slept (backoff n) :: trace)

/-- A POST on the wire. Where its body could not be written nothing is sent. -/
def Posted : Except ClientError Request → Except ClientError Unit → List WireEvent → Prop
  | .ok req, r, trace => Series req postAttempt 0 MAX_ATTEMPTS r trace
  | .error e, r, trace => r = .error e ∧ trace = []

abbrev Fetched (req : Request) : Except ClientError (List UInt8) → List WireEvent → Prop :=
  Series req attemptOf 0 MAX_ATTEMPTS

/-- Fetches that brought nothing, and the waits after them. -/
inductive Waiting (c : CallbackClient) : List WireEvent → Prop
  | nil : Waiting c []
  | fetched {e : ClientError} {trace rest : List WireEvent} (h : Fetched c.bootstrapRequest (.error e) trace)
      (hrest : Waiting c rest) : Waiting c (trace ++ rest)
  | slept (seconds : Nat) {rest : List WireEvent} (hrest : Waiting c rest) :
      Waiting c (.slept (seconds * 1000) :: rest)

/-- All that is said to the controller in one run, with its answers and the waits. -/
inductive Dialogue (toVec : ToVec) (c : CallbackClient) (report : InspectionReport) (dryRun : Bool) : List WireEvent → Prop
  | refused {e : ClientError} {first : List WireEvent} (h : Posted (c.reportRequest toVec report) (.error e) first) :
      Dialogue toVec c report dryRun first
  | enrolled (hd : dryRun = true) {first : List WireEvent} (h : Posted (c.reportRequest toVec report) (.ok ()) first) :
      Dialogue toVec c report dryRun first
  | noTarget (hd : dryRun = false) {first : List WireEvent} (h : Posted (c.reportRequest toVec report) (.ok ()) first)
      (e : DiskError) {r : Except ClientError Unit} {last : List WireEvent}
      (hlast : Posted (c.failedRequest toVec (provisionFailureReason (.disk e))) r last) :
      Dialogue toVec c report dryRun (first ++ last)
  | noBootstrap (hd : dryRun = false) {first waits : List WireEvent}
      (h : Posted (c.reportRequest toVec report) (.ok ()) first) (hw : Waiting c waits) :
      Dialogue toVec c report dryRun (first ++ waits)
  | failed (hd : dryRun = false) {first waits got last : List WireEvent}
      (h : Posted (c.reportRequest toVec report) (.ok ()) first) (hw : Waiting c waits) {data : List UInt8}
      (hgot : Fetched c.bootstrapRequest (.ok data) got) (e : RunError) {r : Except ClientError Unit}
      (hlast : Posted (c.failedRequest toVec (provisionFailureReason e)) r last) :
      Dialogue toVec c report dryRun (first ++ (waits ++ (got ++ last)))
  | provisioned (hd : dryRun = false) {first waits got last : List WireEvent}
      (h : Posted (c.reportRequest toVec report) (.ok ()) first) (hw : Waiting c waits) {data : List UInt8}
      (hgot : Fetched c.bootstrapRequest (.ok data) got) {r : Except ClientError Unit}
      (hlast : Posted (.ok c.provisionedRequest) r last) :
      Dialogue toVec c report dryRun (first ++ (waits ++ (got ++ last)))

/-- A request for this host: the bearer is its token, and the address is that of one of
the four callbacks below the API's, with the namespace and the name of the host. -/
structure Addressed (params : BootParams) (req : Request) : Prop where
  authorization : req.authorization = "Bearer " ++ params.token
  url : ∃ route, req.url = trimEndMatches (· == '/') params.api ++ "/api/v1/" ++ route ++ "/" ++ params.namespace_ ++ "/" ++
      params.host ∧
    (req.method = .get ∧ route = "bootstrap" ∨
      req.method = .post ∧ req.contentType = some "application/json" ∧
        (route = "inspection" ∨ route = "provisioned" ∨ route = "provision-failed"))

theorem Series.sent {α : Type} {req : Request} {verdict : HttpAnswer → Attempt α} {n left : Nat}
    {r : Except ClientError α} {trace : List WireEvent} (h : Series req verdict n left r trace) {req' : Request}
    {answer : HttpAnswer} (hsent : .sent req' answer ∈ trace) : req' = req := by
  induction h with
  | done | fatal | exhausted =>
      cases List.mem_singleton.mp hsent
      rfl
  | again _ _ ih =>
      rcases List.mem_cons.mp hsent with heq | hsent
      · cases heq
        rfl
      rcases List.mem_cons.mp hsent with heq | hsent
      · cases heq
      · exact ih hsent

theorem Posted.sent {req : Except ClientError Request} {r : Except ClientError Unit} {trace : List WireEvent}
    (h : Posted req r trace) {req' : Request} {answer : HttpAnswer} (hsent : .sent req' answer ∈ trace) :
    req = .ok req' := by
  cases req with
  | ok req => exact congrArg Except.ok (Series.sent h hsent).symm
  | error e =>
      obtain ⟨_, rfl⟩ := h
      cases hsent

theorem Waiting.sent {c : CallbackClient} {trace : List WireEvent} (h : Waiting c trace) {req : Request}
    {answer : HttpAnswer} (hsent : .sent req answer ∈ trace) : req = c.bootstrapRequest := by
  induction h with
  | nil => cases hsent
  | fetched hfetched _ ih =>
      rcases List.mem_append.mp hsent with hsent | hsent
      · exact Series.sent hfetched hsent
      · exact ih hsent
  | slept _ _ ih =>
      rcases List.mem_cons.mp hsent with heq | hsent
      · cases heq
      · exact ih hsent

section

variable {toVec : ToVec} {params : BootParams} {req : Request} {answer : HttpAnswer}

theorem addressed_report {report : InspectionReport}
    (h : (CallbackClient.new params).reportRequest toVec report = .ok req) : Addressed params req := by
  rw [CallbackClient.reportRequest] at h
  cases hbody : reportBody toVec report with
  | error e =>
      rw [hbody] at h
      cases h
  | ok body =>
      rw [hbody] at h
      cases h
      exact ⟨rfl, "inspection", rfl, .inr ⟨rfl, rfl, .inl rfl⟩⟩

theorem addressed_failed {reason : String}
    (h : (CallbackClient.new params).failedRequest toVec reason = .ok req) : Addressed params req := by
  rw [CallbackClient.failedRequest] at h
  cases hbody : provisionFailedBody toVec reason with
  | error e =>
      rw [hbody] at h
      cases h
  | ok body =>
      rw [hbody] at h
      cases h
      exact ⟨rfl, "provision-failed", rfl, .inr ⟨rfl, rfl, .inr (.inr rfl)⟩⟩

theorem addressed_bootstrap : Addressed params (CallbackClient.new params).bootstrapRequest :=
  ⟨rfl, "bootstrap", rfl, .inl ⟨rfl, rfl⟩⟩

theorem addressed_provisioned : Addressed params (CallbackClient.new params).provisionedRequest :=
  ⟨rfl, "provisioned", rfl, .inr ⟨rfl, rfl, .inr (.inl rfl)⟩⟩

theorem Dialogue.addressed {report : InspectionReport} {dryRun : Bool} {trace : List WireEvent}
    (h : Dialogue toVec (CallbackClient.new params) report dryRun trace) (hsent : .sent req answer ∈ trace) :
    Addressed params req := by
  have hfetched {data : Except ClientError (List UInt8)} {got : List WireEvent}
      (hgot : Fetched (CallbackClient.new params).bootstrapRequest data got) (hin : .sent req answer ∈ got) :
      Addressed params req := hgot.sent hin ▸ addressed_bootstrap
  have hwaited {waits : List WireEvent} (hw : Waiting (CallbackClient.new params) waits)
      (hin : .sent req answer ∈ waits) : Addressed params req := hw.sent hin ▸ addressed_bootstrap
  cases h with
  | refused h => exact addressed_report (h.sent hsent)
  | enrolled _ h => exact addressed_report (h.sent hsent)
  | noTarget _ h _ hlast =>
      rcases List.mem_append.mp hsent with hsent | hsent
      · exact addressed_report (h.sent hsent)
      · exact addressed_failed (hlast.sent hsent)
  | noBootstrap _ h hw =>
      rcases List.mem_append.mp hsent with hsent | hsent
      · exact addressed_report (h.sent hsent)
      · exact hwaited hw hsent
  | failed _ h hw hgot _ hlast =>
      simp only [List.mem_append] at hsent
      rcases hsent with hsent | hsent | hsent | hsent
      · exact addressed_report (h.sent hsent)
      · exact hwaited hw hsent
      · exact hfetched hgot hsent
      · exact addressed_failed (hlast.sent hsent)
  | provisioned _ h hw hgot hlast =>
      simp only [List.mem_append] at hsent
      rcases hsent with hsent | hsent | hsent | hsent
      · exact addressed_report (h.sent hsent)
      · exact hwaited hw hsent
      · exact hfetched hgot hsent
      · cases hlast.sent hsent
        exact addressed_provisioned

end

@[simp] def WireEvent.isSpoken : WireEvent → Bool
  | .step _ => false
  | _ => true

def spoken (trace : List WireEvent) : List WireEvent := trace.filter WireEvent.isSpoken

theorem spoken_append (a b : List WireEvent) : spoken (a ++ b) = spoken a ++ spoken b := List.filter_append ..

theorem spoken_steps (steps : List Event) : spoken (steps.map .step) = [] := by
  rw [spoken, List.filter_eq_nil_iff]
  intro e he
  obtain ⟨s, _, rfl⟩ := List.mem_map.mp he
  simp

theorem yields_retryFrom {α : Type} (req : Request) (verdict : HttpAnswer → Attempt α) (left : Nat) :
    ∀ (n : Nat) (earlier : Option ClientError), Yields wireEvent
      (retryFrom (fun millis => always (.inr (.sleep millis))) (do
        let answer ← always (.inr (.send req))
        pure (verdict answer)) n earlier (left + 1))
      (Series req verdict n (left + 1)) := by
  induction left with
  | zero =>
      intro n earlier
      rw [retryFrom]
      refine Yields.bind (P := fun r trace => ∃ answer, r = .ok (verdict answer) ∧ trace = [.sent req answer])
        (Yields.always_bind fun answer => Yields.pure ⟨answer, rfl, rfl⟩) (by simp) ?_
      rintro _ _ ⟨answer, ⟨⟩, rfl⟩
      cases hverdict : verdict answer with
      | done a => exact Yields.pure (.done hverdict)
      | fatal e => exact Yields.throw (.fatal hverdict)
      | retry e => exact Yields.throw (.exhausted hverdict)
  | succ left ih =>
      intro n earlier
      rw [retryFrom]
      refine Yields.bind (P := fun r trace => ∃ answer, r = .ok (verdict answer) ∧ trace = [.sent req answer])
        (Yields.always_bind fun answer => Yields.pure ⟨answer, rfl, rfl⟩) (by simp) ?_
      rintro _ _ ⟨answer, ⟨⟩, rfl⟩
      cases hverdict : verdict answer with
      | done a => exact Yields.pure (.done hverdict)
      | fatal e => exact Yields.throw (.fatal hverdict)
      | retry e =>
          dsimp only
          rw [if_pos (Nat.succ_pos left)]
          exact Yields.always_bind fun _ => (ih (n + 1) (some e)).mono fun r trace h => .again hverdict h

theorem yields_sendWithRetries {α : Type} (req : Request) (verdict : HttpAnswer → Attempt α) :
    Yields wireEvent (sendWithRetries req verdict) (Series req verdict 0 MAX_ATTEMPTS) :=
  yields_retryFrom req verdict 4 0 none

theorem yields_sendPost (req : Except ClientError Request) : Yields wireEvent (sendPost req) (Posted req) := by
  cases req with
  | ok req => exact yields_sendWithRetries req postAttempt
  | error e => exact Yields.throw ⟨rfl, rfl⟩

/-- What a step of the run is on the wire. -/
def Tells (toVec : ToVec) (c : CallbackClient) : Event → List WireEvent → Prop
  | .submitReport report r => Posted (c.reportRequest toVec report) r
  | .provisionFailed reason r => Posted (c.failedRequest toVec reason) r
  | .fetchBootstrap r => Fetched c.bootstrapRequest r
  | .provisioned r => Posted (.ok c.provisionedRequest) r
  | .sleep seconds => fun trace => trace = [.slept (seconds * 1000)]
  | e => fun trace => trace = [.step e]

def Told (toVec : ToVec) (c : CallbackClient) : List Event → List WireEvent → Prop
  | [], trace => trace = []
  | e :: es, trace => ∃ below rest, trace = below ++ rest ∧ Tells toVec c e below ∧ Told toVec c es rest

theorem tells_perform (toVec : ToVec) (c : CallbackClient) {β : Type} (o : Step β) (b : β) {below : List WireEvent}
    (h : Runs wireEvent (c.perform toVec o) below b) : Tells toVec c (event o b) below := by
  cases o with
  | submitReport report => exact h.of_yields (yields_sendPost _)
  | provisionFailed reason => exact h.of_yields (yields_sendPost _)
  | fetchBootstrap => exact h.of_yields (yields_sendWithRetries _ _)
  | provisioned => exact h.of_yields (yields_sendPost (.ok c.provisionedRequest))
  | _ =>
      obtain _ | ⟨answers, h⟩ := h
      cases h
      rfl

theorem told_of_refines {toVec : ToVec} {c : CallbackClient} {trace : List Event} {trace' : List WireEvent}
    (h : Refines event wireEvent (c.perform toVec) trace trace') : Told toVec c trace trace' := by
  induction h with
  | nil => rfl
  | call o b hbelow _ ih => exact ⟨_, _, rfl, tells_perform toVec c o b hbelow, ih⟩

theorem told_append {toVec : ToVec} {c : CallbackClient} {a b : List Event} {trace : List WireEvent} :
    Told toVec c (a ++ b) trace ↔ ∃ first second, trace = first ++ second ∧ Told toVec c a first ∧ Told toVec c b second := by
  induction a generalizing trace with
  | nil => exact ⟨fun h => ⟨[], trace, rfl, rfl, h⟩, by rintro ⟨_, second, rfl, rfl, h⟩; exact h⟩
  | cons e a ih =>
      constructor
      · rintro ⟨below, _, rfl, he, hrest⟩
        obtain ⟨first, second, rfl, ha, hb⟩ := ih.mp hrest
        exact ⟨below ++ first, second, (List.append_assoc _ _ _).symm, ⟨below, first, rfl, he, ha⟩, hb⟩
      · rintro ⟨_, second, rfl, ⟨below, first, rfl, he, ha⟩, hb⟩
        exact ⟨below, first ++ second, List.append_assoc _ _ _, he, ih.mpr ⟨first, second, rfl, ha, hb⟩⟩

theorem Series.spoken {α : Type} {req : Request} {verdict : HttpAnswer → Attempt α} {n left : Nat}
    {r : Except ClientError α} {trace : List WireEvent} (h : Series req verdict n left r trace) :
    ∀ e ∈ trace, e.isSpoken = true := by
  induction h with
  | done | fatal | exhausted => simp
  | again _ _ ih =>
      intro e he
      rcases List.mem_cons.mp he with rfl | he
      · rfl
      rcases List.mem_cons.mp he with rfl | he
      · rfl
      · exact ih e he

theorem Posted.spoken {req : Except ClientError Request} {r : Except ClientError Unit} {trace : List WireEvent}
    (h : Posted req r trace) : ∀ e ∈ trace, e.isSpoken = true := by
  cases req with
  | ok req => exact Series.spoken h
  | error e =>
      obtain ⟨_, rfl⟩ := h
      simp

theorem Waiting.spoken {c : CallbackClient} {trace : List WireEvent} (h : Waiting c trace) :
    ∀ e ∈ trace, e.isSpoken = true := by
  induction h with
  | nil => simp
  | fetched h _ ih => exact List.forall_mem_append.mpr ⟨h.spoken, ih⟩
  | slept seconds _ ih => exact List.forall_mem_cons.mpr ⟨rfl, ih⟩

/-- The series that gave a value ends with the answer the value comes from. -/
theorem Series.getLast {α : Type} {req : Request} {verdict : HttpAnswer → Attempt α} {n left : Nat}
    {r : Except ClientError α} {trace : List WireEvent} (h : Series req verdict n left r trace) {a : α}
    (ha : r = .ok a) : ∃ answer, trace.getLast? = some (.sent req answer) ∧ verdict answer = .done a := by
  induction h with
  | done h =>
      cases ha
      exact ⟨_, rfl, h⟩
  | fatal | exhausted => cases ha
  | again _ _ ih =>
      obtain ⟨answer, hlast, hverdict⟩ := ih ha
      exact ⟨answer, by rw [List.getLast?_cons, List.getLast?_cons, hlast]; rfl, hverdict⟩

theorem Posted.getLast {req : Request} {r : Except ClientError Unit} {trace : List WireEvent}
    (h : Posted (.ok req) r trace) (hr : r = .ok ()) :
    ∃ answer, trace.getLast? = some (.sent req answer) ∧ postAttempt answer = .done () :=
  Series.getLast h hr

/-- A response of success with all of a body that is not too long. -/
def Served (data : List UInt8) (answer : HttpAnswer) : Prop :=
  ∃ resp, answer = .response resp ∧ 200 ≤ resp.status ∧ resp.status < 300 ∧ resp.body = data ∧ resp.broken = false ∧
    data.length ≤ MAX_BOOTSTRAP_BYTES

def Accepted (answer : HttpAnswer) : Prop :=
  ∃ resp, answer = .response resp ∧ 200 ≤ resp.status ∧ resp.status < 300

theorem classifyStatus_ok {answer : HttpAnswer} {resp : Response} (h : classifyStatus answer = .ok resp) :
    answer = .response resp ∧ 200 ≤ resp.status ∧ resp.status < 300 := by
  cases answer with
  | failed kind => cases h
  | response resp' =>
      rw [classifyStatus] at h
      split at h
      · cases h
        exact ⟨rfl, ‹_›⟩
      · split at h <;> cases h

theorem intoAttempt_ne_done {α : Type} (verdict : Verdict) (a : α) : verdict.intoAttempt ≠ .done a := by
  cases verdict <;> simp [Verdict.intoAttempt]

theorem accepted_of_done {answer : HttpAnswer} (h : postAttempt answer = .done ()) : Accepted answer := by
  rw [postAttempt] at h
  cases hstatus : classifyStatus answer with
  | ok resp => exact ⟨resp, classifyStatus_ok hstatus⟩
  | error verdict =>
      rw [hstatus] at h
      exact absurd h (intoAttempt_ne_done _ _)

theorem served_of_done {answer : HttpAnswer} {data : List UInt8} (h : attemptOf answer = .done data) :
    Served data answer := by
  rw [attemptOf] at h
  cases hstatus : classifyStatus answer with
  | error verdict =>
      rw [hstatus] at h
      exact absurd h (intoAttempt_ne_done _ _)
  | ok resp =>
      obtain ⟨rfl, hlow, hhigh⟩ := classifyStatus_ok hstatus
      rw [hstatus] at h
      dsimp only at h
      split at h
      · rename_i bytes hread
        cases h
        rw [BootstrapPolls.readCapped_eq] at hread
        split at hread
        · cases hread
        · split at hread
          · cases hread
          · rename_i hlen hbroken
            cases hread
            exact ⟨resp, rfl, hlow, hhigh, rfl, Bool.eq_false_iff.mpr hbroken, Nat.le_of_not_lt hlen⟩
      · cases h
      · cases h

/-- What must have been heard last before a step that depends on it. -/
def Heard (c : CallbackClient) (history : List WireEvent) : WireEvent → Prop
  | .step (.writeImage _ _ _ _ _) =>
      ∃ data answer, (spoken history).getLast? = some (.sent c.bootstrapRequest answer) ∧ Served data answer
  | .step (.injectOemConfig _ data _ _) =>
      ∃ answer, (spoken history).getLast? = some (.sent c.bootstrapRequest answer) ∧ Served data answer
  | .step (.reboot _) =>
      ∃ answer, (spoken history).getLast? = some (.sent c.provisionedRequest answer) ∧ Accepted answer
  | _ => True

variable {toVec : ToVec} {c : CallbackClient} {history : List WireEvent}

theorem safeAfter_spoken {trace : List WireEvent} (h : ∀ e ∈ trace, e.isSpoken = true) :
    SafeAfter (Heard c) history trace := by
  refine safeAfter_of_forall fun e he l => ?_
  have := h e he
  cases e with
  | step e => cases this
  | sent req answer => trivial
  | slept millis => trivial

/-- Nothing is said while the host works alone, so all its steps are as safe as
they would be at once. -/
theorem safeAfter_steps {steps : List Event}
    (h : ∀ e ∈ steps, ∀ history', spoken history' = spoken history → Heard c history' (.step e)) :
    SafeAfter (Heard c) history (steps.map .step) := by
  intro pre e post heq
  obtain ⟨before, rest, rfl, rfl, hrest⟩ := List.map_eq_append_iff.mp heq
  obtain ⟨e, after, rfl, rfl, rfl⟩ := List.map_eq_cons_iff.mp hrest
  refine h e (List.mem_append_right _ List.mem_cons_self) _ ?_
  rw [spoken_append, spoken_steps, List.append_nil]

/-- A step of the deploy, with `data` as what it injects. -/
def Deploys (data : List UInt8) : Event → Prop
  | .writeImage _ _ _ _ _ | .rereadPartitionTable _ _ | .efiPresent _ | .findEspPartition _ _
  | .otherDisksWithGuid _ _ _ | .prepareEsp _ _ | .ensureDiskBootEntry _ _ | .findOemPartition _ _ => True
  | .injectOemConfig _ data' _ _ => data' = data
  | _ => False

theorem deploys_esp {target : TargetDisk} {r : Except RunError Unit} {steps : List Event} (h : EspTrace target r steps)
    (data : List UInt8) : ∀ e ∈ steps, Deploys data e := by
  cases h <;> simp [Deploys]

theorem deploys_steps {target : TargetDisk} {data : List UInt8} {r : Except RunError Unit} {steps : List Event}
    (h : DeployTrace target data r steps) : ∀ e ∈ steps, Deploys data e := by
  cases h with
  | notWritten => simp [Deploys]
  | notReread => simp [Deploys]
  | espFailed url digest buildMax n h =>
      exact List.forall_mem_append.mpr ⟨by simp [imaged, Deploys], deploys_esp h data⟩
  | oemMissing url digest buildMax n h e =>
      refine List.forall_mem_append.mpr ⟨List.forall_mem_append.mpr ⟨?_, deploys_esp h data⟩, ?_⟩ <;>
        simp [imaged, Deploys]
  | injected url digest buildMax n h oem providerId r =>
      refine List.forall_mem_append.mpr ⟨List.forall_mem_append.mpr ⟨?_, deploys_esp h data⟩, ?_⟩ <;>
        simp [imaged, Deploys]

theorem tells_of_deploys {data : List UInt8} {e : Event} (h : Deploys data e) {below : List WireEvent}
    (he : Tells toVec c e below) : below = [.step e] := by
  cases e <;> first | exact he | cases h

theorem told_steps {data : List UInt8} {steps : List Event} (hsteps : ∀ e ∈ steps, Deploys data e)
    {trace : List WireEvent} (h : Told toVec c steps trace) : trace = steps.map .step := by
  induction steps generalizing trace with
  | nil => exact h
  | cons e steps ih =>
      obtain ⟨below, rest, rfl, he, hrest⟩ := h
      rw [List.forall_mem_cons] at hsteps
      rw [ih hsteps.2 hrest, tells_of_deploys hsteps.1 he]
      rfl

theorem told_waits {waits : List Event} (hw : ∀ e ∈ waits, e.isWait = true) {trace : List WireEvent}
    (h : Told toVec c waits trace) : Waiting c trace := by
  induction waits generalizing trace with
  | nil => exact h ▸ .nil
  | cons e waits ih =>
      obtain ⟨below, rest, rfl, he, hrest⟩ := h
      rw [List.forall_mem_cons] at hw
      have hwait := hw.1
      cases e with
      | fetchBootstrap r =>
          cases r with
          | ok data => cases hwait
          | error e => exact .fetched he (ih hw.2 hrest)
      | sleep seconds =>
          obtain rfl : below = [.slept (seconds * 1000)] := he
          exact .slept seconds (ih hw.2 hrest)
      | _ => cases hwait

/-- What is known of the wire once there is a client: what was said, and that
each step which depends on an answer came right after it. -/
def Speaks (toVec : ToVec) (c : CallbackClient) (report : InspectionReport) (dryRun : Bool) (trace : List WireEvent) : Prop :=
  Dialogue toVec c report dryRun (spoken trace) ∧ ∀ history, SafeAfter (Heard c) history trace

theorem spoken_self {trace : List WireEvent} (h : ∀ e ∈ trace, e.isSpoken = true) : spoken trace = trace :=
  List.filter_eq_self.mpr h

theorem getLast?_spoken_append {a b : List WireEvent} {req : Request} {answer : HttpAnswer}
    (h : b.getLast? = some (.sent req answer)) (hb : ∀ e ∈ b, e.isSpoken = true) :
    (spoken (a ++ b)).getLast? = some (.sent req answer) := by
  rw [spoken_append, spoken_self hb, List.getLast?_append, h]
  rfl

theorem heard_deploys {data : List UInt8} {got : List WireEvent} (hgot : Fetched c.bootstrapRequest (.ok data) got)
    {e : Event} (he : Deploys data e) {history' : List WireEvent}
    (hsame : spoken history' = spoken (history ++ got)) : Heard c history' (.step e) := by
  obtain ⟨answer, hlast, hdone⟩ := hgot.getLast rfl
  have hheard : (spoken history').getLast? = some (.sent c.bootstrapRequest answer) := by
    rw [hsame]
    exact getLast?_spoken_append hlast hgot.spoken
  have hserved := served_of_done hdone
  cases e with
  | writeImage => exact ⟨data, answer, hheard, hserved⟩
  | injectOemConfig oem data' providerId r =>
      obtain rfl : data' = data := he
      exact ⟨answer, hheard, hserved⟩
  | reboot => cases he
  | _ => trivial

/-- What is on the wire from the report to the end of the deploy, and then `tail`. -/
theorem wire_deployed {data : List UInt8} {first waits got tail : List WireEvent} {steps : List Event}
    (hfirst : ∀ e ∈ first, e.isSpoken = true) (hw : Waiting c waits)
    (hgot : Fetched c.bootstrapRequest (.ok data) got) (hs : ∀ e ∈ steps, Deploys data e)
    (htail : ∀ history, SafeAfter (Heard c) history tail) :
    spoken (first ++ (waits ++ (got ++ (steps.map .step ++ tail)))) = first ++ (waits ++ (got ++ spoken tail)) ∧
      ∀ history, SafeAfter (Heard c) history (first ++ (waits ++ (got ++ (steps.map .step ++ tail)))) := by
  constructor
  · simp only [spoken_append, spoken_self hfirst, spoken_self hw.spoken, spoken_self hgot.spoken, spoken_steps,
      List.nil_append]
  · intro history
    simp only [safeAfter_append]
    refine ⟨safeAfter_spoken hfirst, safeAfter_spoken hw.spoken, safeAfter_spoken hgot.spoken, ?_, htail _⟩
    exact safeAfter_steps fun e he history' hsame => heard_deploys hgot (hs e he) hsame

theorem told_singleton {e : Event} {trace : List WireEvent} (h : Told toVec c [e] trace) : Tells toVec c e trace := by
  obtain ⟨below, _, rfl, he, rfl⟩ := h
  rwa [List.append_nil]

/-- The parts of the wire in a run that got its data and deployed. -/
theorem told_deployed {waits steps last : List Event} (hw : ∀ e ∈ waits, e.isWait = true) {data : List UInt8}
    (hs : ∀ e ∈ steps, Deploys data e) {trace : List WireEvent}
    (h : Told toVec c (waits ++ .fetchBootstrap (.ok data) :: (steps ++ last)) trace) :
    ∃ ws got tail, trace = ws ++ (got ++ (steps.map .step ++ tail)) ∧ Waiting c ws ∧
      Fetched c.bootstrapRequest (.ok data) got ∧ Told toVec c last tail := by
  obtain ⟨ws, _, rfl, hws, got, _, rfl, hgot, hrest⟩ := told_append.mp h
  obtain ⟨wire, tail, rfl, hsteps, htail⟩ := told_append.mp hrest
  exact ⟨ws, got, tail, by rw [told_steps hs hsteps], told_waits hw hws, hgot, htail⟩

theorem speaks_provision {dryRun : Bool} (hd : dryRun = false) {report : InspectionReport} {first : List WireEvent}
    (hfirst : Posted (c.reportRequest toVec report) (.ok ()) first) {selected : Except DiskError TargetDisk}
    {r : Except RunError RunEnd} {trace : List Event} (h : ProvisionTrace selected r trace)
    {rest : List WireEvent} (htold : Told toVec c trace rest) : Speaks toVec c report dryRun (first ++ rest) := by
  cases h with
  | @noTarget e _ r =>
      have hlast : Posted (c.failedRequest toVec (provisionFailureReason (.disk e))) r rest := told_singleton htold
      have hspoken : ∀ x ∈ first ++ rest, x.isSpoken = true :=
        List.forall_mem_append.mpr ⟨hfirst.spoken, hlast.spoken⟩
      refine ⟨?_, fun _ => safeAfter_spoken hspoken⟩
      rw [spoken_self hspoken]
      exact .noTarget hd hfirst e hlast
  | noBootstrap _ hw _ =>
      have hwaits := told_waits hw htold
      have hspoken : ∀ x ∈ first ++ rest, x.isSpoken = true :=
        List.forall_mem_append.mpr ⟨hfirst.spoken, hwaits.spoken⟩
      refine ⟨?_, fun _ => safeAfter_spoken hspoken⟩
      rw [spoken_self hspoken]
      exact .noBootstrap hd hfirst hwaits
  | @failed _ _ _ hw data e steps hs r =>
      obtain ⟨ws, got, tail, rfl, hws, hgot, htail⟩ := told_deployed hw (deploys_steps hs) htold
      have hlast : Posted (c.failedRequest toVec (provisionFailureReason e)) r tail := told_singleton htail
      obtain ⟨hspoken, hsafe⟩ := wire_deployed hfirst.spoken hws hgot (deploys_steps hs)
        fun _ => safeAfter_spoken hlast.spoken
      rw [spoken_self hlast.spoken] at hspoken
      exact ⟨hspoken ▸ .failed hd hfirst hws hgot e hlast, hsafe⟩
  | @notAccepted _ _ _ hw data steps hs e =>
      obtain ⟨ws, got, tail, rfl, hws, hgot, htail⟩ := told_deployed hw (deploys_steps hs) htold
      have hlast : Posted (.ok c.provisionedRequest) (.error e) tail := told_singleton htail
      obtain ⟨hspoken, hsafe⟩ := wire_deployed hfirst.spoken hws hgot (deploys_steps hs)
        fun _ => safeAfter_spoken hlast.spoken
      rw [spoken_self hlast.spoken] at hspoken
      exact ⟨hspoken ▸ .provisioned hd hfirst hws hgot hlast, hsafe⟩
  | @rebooted _ _ _ hw data steps hs r =>
      obtain ⟨ws, got, tail, rfl, hws, hgot, closing, _, rfl, hclosing, hreboot⟩ :=
        told_deployed hw (deploys_steps hs) htold
      have hlast : Posted (.ok c.provisionedRequest) (.ok ()) closing := hclosing
      obtain rfl : _ = [WireEvent.step (.reboot r)] := told_singleton hreboot
      obtain ⟨answer, hanswer, hdone⟩ := hlast.getLast rfl
      -- the reboot comes right after the callback that was accepted
      have htail (history : List WireEvent) : SafeAfter (Heard c) history (closing ++ [.step (.reboot r)]) := by
        refine safeAfter_append.mpr ⟨safeAfter_spoken hlast.spoken, ?_⟩
        rw [safeAfter_cons]
        exact ⟨⟨answer, getLast?_spoken_append hanswer hlast.spoken, accepted_of_done hdone⟩, safeAfter_nil⟩
      obtain ⟨hspoken, hsafe⟩ := wire_deployed hfirst.spoken hws hgot (deploys_steps hs) htail
      have hend : spoken (closing ++ [.step (.reboot r)]) = closing := by
        rw [spoken_append, spoken_self hlast.spoken]
        exact List.append_nil closing
      rw [hend] at hspoken
      exact ⟨hspoken ▸ .provisioned hd hfirst hws hgot hlast, hsafe⟩

/-- What a run does once it has a client. -/
def Converses (dryRun : Bool) (report : InspectionReport) (selected : Except DiskError TargetDisk)
    (r : Except RunError RunEnd) (trace : List Event) : Prop :=
  (∃ e, trace = [.submitReport report (.error e)]) ∨
    (dryRun = true ∧ trace = [.submitReport report (.ok ())]) ∨
      dryRun = false ∧ ∃ rest, trace = .submitReport report (.ok ()) :: rest ∧ ProvisionTrace selected r rest

theorem yields_converse (dryRun : Bool) (params : BootParams) (report : InspectionReport)
    (selected : Except DiskError TargetDisk) :
    Yields event (converse dryRun params report selected) (Converses dryRun report selected) := by
  refine Yields.attempt_bind (fun e => .inl ⟨e, rfl⟩) fun _ => ?_
  cases dryRun with
  | true => exact Yields.pure (.inr (.inl ⟨rfl, rfl⟩))
  | false => exact (yields_provision params selected).mono fun r trace h => .inr (.inr ⟨rfl, trace, rfl, h⟩)

theorem speaks_converse {dryRun : Bool} {report : InspectionReport} {selected : Except DiskError TargetDisk}
    {r : Except RunError RunEnd} {trace : List Event} (h : Converses dryRun report selected r trace)
    {wire : List WireEvent} (htold : Told toVec c trace wire) : Speaks toVec c report dryRun wire := by
  rcases h with ⟨e, rfl⟩ | ⟨hd, rfl⟩ | ⟨hd, rest, rfl, h⟩
  · have hfirst : Posted (c.reportRequest toVec report) (.error e) wire := told_singleton htold
    refine ⟨?_, fun _ => safeAfter_spoken hfirst.spoken⟩
    rw [spoken_self hfirst.spoken]
    exact .refused hfirst
  · have hfirst : Posted (c.reportRequest toVec report) (.ok ()) wire := told_singleton htold
    refine ⟨?_, fun _ => safeAfter_spoken hfirst.spoken⟩
    rw [spoken_self hfirst.spoken]
    exact .enrolled hd hfirst
  · obtain ⟨first, below, rfl, hfirst, hrest⟩ := htold
    exact speaks_provision hd hfirst h hrest

/-- The parameters of the run are those of the kernel's cmdline. -/
theorem yields_setUp_params (dryRun : Bool) : Yields event (setUp dryRun)
    (fun r trace => ∀ params, r = .ok params → .fromProcCmdline (.ok params) ∈ trace) := by
  have hskip {α : Type} {p : Pipe α} {f : α → Pipe BootParams} (hp : SetsUp p)
      (hf : ∀ a, Yields event (f a) (fun r trace => ∀ params, r = .ok params → .fromProcCmdline (.ok params) ∈ trace)) :
      Yields event (p >>= f) (fun r trace => ∀ params, r = .ok params → .fromProcCmdline (.ok params) ∈ trace) :=
    Yields.bind hp (fun _ _ _ params h => by cases h) fun a first _ => (hf a).mono fun r trace h params hr =>
      List.mem_append_right first (h params hr)
  cases dryRun with
  | true =>
      refine Yields.attempt_bind (fun e params h => by cases h) fun params => Yields.pure ?_
      intro params' h
      cases h
      exact List.mem_cons_self
  | false =>
      refine hskip (setsUp_mountAll mountSpecs) fun _ => ?_
      refine hskip (p := always .lockMemory) (Yields.always (by simp [event, Event.isSetUp])) fun _ => ?_
      refine Yields.attempt_bind (fun e params h => by cases h) fun params => ?_
      refine Yields.always_bind fun _ => Yields.attempt_bind (fun e params h => by cases h) fun net => ?_
      refine Yields.always_bind fun _ => Yields.pure ?_
      intro params' h
      cases h
      exact List.mem_cons_self

theorem refines_direct {steps : List Event} {trace : List WireEvent}
    (h : Refines event wireEvent direct steps trace) : trace = steps.map .step := by
  induction h with
  | nil => rfl
  | call o b hbelow _ ih =>
      obtain _ | ⟨answers, hbelow⟩ := hbelow
      cases hbelow
      rw [ih]
      rfl

def noReport : InspectionReport := ⟨"", "", "", [], [], [], [], "", ""⟩

/-- Some answer to every step: failures, wherever a step can fail. -/
def anyAnswer : Answers Step := fun o => match o with
  | .mount _ => .error Lib.Os.EBUSY
  | .lockMemory => .error Lib.Os.EBUSY
  | .fromProcCmdline => .error .invalidTimeout
  | .loadDrivers _ => ()
  | .bringUpNetwork _ => .error .noInterface
  | .writeResolvConf _ => .ok ()
  | .collect => noReport
  | .select _ _ => .error .noEligibleDisk
  | .newClient _ => .error .body
  | .submitReport _ => .error .body
  | .provisionFailed _ => .error .body
  | .fetchBootstrap => .error .body
  | .sleep _ => ()
  | .writeImage _ _ _ _ => .error (.espLoaderMissing "")
  | .rereadPartitionTable _ => .error (.espLoaderMissing "")
  | .efiPresent => false
  | .findEspPartition _ => .error (.notFound "")
  | .otherDisksWithGuid _ _ => []
  | .prepareEsp _ => .error (.espLoaderMissing "")
  | .ensureDiskBootEntry _ => .error .noFreeEntry
  | .findOemPartition _ => .error (.notFound "")
  | .injectOemConfig _ _ _ => .ok ()
  | .provisioned => .error .body
  | .reboot => none

/-- The steps up to the client, which say nothing to the controller. -/
def Prepares : Event → Prop
  | .select _ _ _ | .newClient _ _ => True
  | e => e.isSetUp = true

theorem prepares_of_isSetUp {e : Event} (h : e.isSetUp = true) : Prepares e := by
  cases e <;> trivial

/-- A run that ends before it has a client, or one that talks through it. -/
def RunOver (toVec : ToVec) (dryRun : Bool) (trace : List WireEvent) : Prop :=
  (∃ steps : List Event, trace = steps.map .step ∧ ∀ e ∈ steps, Prepares e) ∨
    ∃ (steps : List Event) (params : BootParams) (report : InspectionReport) (rest : List WireEvent),
      trace = steps.map .step ++ .step (.newClient params (.ok ())) :: rest ∧
      (∀ e ∈ steps, Prepares e) ∧ .fromProcCmdline (.ok params) ∈ steps ∧ .collect report ∈ steps ∧
      Speaks toVec (CallbackClient.new params) report dryRun rest ∧
      ∀ req answer, .sent req answer ∈ rest → Addressed params req

theorem yields_runOver (toVec : ToVec) (dryRun : Bool) : Yields wireEvent (runOver toVec dryRun) (fun _ trace => RunOver toVec dryRun trace) := by
  refine Yields.bind (Yields.interp anyAnswer (Yields.and (setsUp_setUp dryRun) (yields_setUp_params dryRun))) ?_ ?_
  · rintro e trace ⟨steps, ⟨hs, _⟩, hrefines⟩
    exact .inl ⟨steps, refines_direct hrefines, fun s h => prepares_of_isSetUp (hs s h)⟩
  rintro params trace ⟨steps, ⟨hs, hparams⟩, hrefines⟩
  obtain rfl := refines_direct hrefines
  refine Yields.always_bind fun report => Yields.always_bind fun selected => ?_
  have hprepares : ∀ e ∈ steps ++ [.collect report, .select params.disk 0 selected], Prepares e := by
    refine List.forall_mem_append.mpr ⟨fun e he => prepares_of_isSetUp (hs e he), ?_⟩
    simp [Prepares, Event.isSetUp]
  refine Yields.attempt_bind (fun e => .inl ?_) fun _ => ?_
  · refine ⟨steps ++ [.collect report, .select params.disk 0 selected, .newClient params (.error e)], ?_, ?_⟩
    · rw [List.map_append]
      rfl
    · refine List.forall_mem_append.mpr ⟨fun e he => prepares_of_isSetUp (hs e he), ?_⟩
      simp [Prepares, Event.isSetUp]
  · refine (Yields.interp anyAnswer (yields_converse dryRun params report selected)).mono ?_
    rintro r rest ⟨upper, hconverses, hrefines⟩
    have hspeaks := speaks_converse hconverses (told_of_refines hrefines)
    refine .inr ⟨_, params, report, rest, ?_, hprepares, ?_, ?_, hspeaks, ?_⟩
    · rw [List.map_append, List.append_assoc]
      rfl
    · exact List.mem_append_left _ (hparams params rfl)
    · simp
    · exact fun req answer hsent => hspeaks.1.addressed (List.mem_filter.mpr ⟨hsent, rfl⟩)

/-- Whatever the world answers, nothing is said before the client of the
cmdline's parameters is there, and then one of the dialogues, every request of it
to that host's addresses and with its token; the image is
written and the data injected only right after a fetch that brought the data,
and the host reboots only right after its success was accepted. -/
theorem runOver_dialogue (toVec : ToVec) (dryRun : Bool) (plan : Nat → Answers Wire) :
    RunOver toVec dryRun ((runOver toVec dryRun).run.run (logged wireEvent anyone) plan ((), [])).final.2 :=
  ((yields_runOver toVec dryRun).run plan).2

end Beskar7Inspector.Conversation
