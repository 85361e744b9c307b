import KubeSwift.Program.Loops
import KubeSwift.Sandbox.Artifacts

/-! # A sandbox and its launcher (`internal/controller/swiftsandbox`)

One sandbox, cold or checked out from a pool, and the pods it may run in. Claiming a slot is one operation. What is not
modelled (kernels, secrets, registries, export Jobs) is answered by the surroundings. -/

namespace KubeSwift.Workload
open Program

/-! ## Objects -/

inductive Phase
  | unset | pending | materializing | running | exporting | completed | failed
  deriving DecidableEq, Repr

def isTerminal (p : Phase) : Bool := p = .completed || p = .failed

inductive Reason
  | guestRunning | checkedOut
  | deadlineExceeded | livenessProbeFailed | kernelUnsupported | secretUnavailable
  | completed | workloadFailed | guestFailed
  | intentMismatch | rootfsMaterializeFailed | outputCollectionFailed | exportFailed
  | slotLost | slotEnded | execFailed | artifactMissing
  | artifact (text : String)
  | refused (text : String)
  deriving DecidableEq, Repr

def Reason.text : Reason → String
  | .guestRunning => "GuestRunning"
  | .checkedOut => "CheckedOut"
  | .deadlineExceeded => "DeadlineExceeded"
  | .livenessProbeFailed => "LivenessProbeFailed"
  | .kernelUnsupported => "KernelUnsupported"
  | .secretUnavailable => "SecretUnavailable"
  | .completed => "Completed"
  | .workloadFailed => "WorkloadFailed"
  | .guestFailed => "GuestFailed"
  | .intentMismatch => "IntentMismatch"
  | .rootfsMaterializeFailed => "RootfsMaterializeFailed"
  | .outputCollectionFailed => "OutputCollectionFailed"
  | .exportFailed => "ExportFailed"
  | .slotLost => "SlotLost"
  | .slotEnded => "SlotEnded"
  | .execFailed => "ExecFailed"
  | .artifactMissing => "ArtifactMissing"
  | .artifact text | .refused text => text

inductive OutputState
  | pending | collecting | packaged | uploading | exported | failed | skipped
  deriving DecidableEq, Repr

def outputTerminal (s : OutputState) : Bool := s = .exported || s = .failed || s = .skipped

structure OutputStatus where
  name : String
  state : OutputState
  reason : String
  deriving DecidableEq

def markOutputs (outputs : List OutputStatus) (state : OutputState) (reason : String) : List OutputStatus :=
  outputs.map fun o => if outputTerminal o.state then o else { o with state := state, reason := reason }

structure OutputsCondition where
  exported : Bool
  reason : String
  lastTransitionTime : Nat
  deriving DecidableEq

structure Status where
  phase : Phase := .unset
  reason : Option Reason := none
  podRef : String := ""
  startedAt : Option Nat := none
  terminalAt : Option Nat := none
  exitCode : Option Int := none
  workloadReady : Option Bool := none
  outputsExported : Option OutputsCondition := none
  artifacts : List ArtifactStatus := []
  outputs : List OutputStatus := []

structure SwiftSandbox where
  name : String
  uid : String
  pooled : Bool
  timeout : Option Nat
  ttl : Option Nat
  artifacts : List Artifact
  outputs : List String
  creationTimestamp : Nat
  deleting : Bool
  terminationFinalizer : Bool
  outputsFinalizer : Bool
  gpuFinalizer : Bool
  resourceVersion : Nat
  status : Status

variable (sb : SwiftSandbox)

def launcherPodName : String := if sb.status.podRef ≠ "" then sb.status.podRef else sb.name

inductive PodPhase
  | pending | running | succeeded | failed
  deriving DecidableEq, Repr

inductive Container
  | waiting | running | terminated (exitCode : Int)
  deriving DecidableEq

structure OutputReport where
  name : String
  packaged : Bool
  reason : String
  deriving DecidableEq

inductive OutputsAnnotation
  | absent | unreadable
  | reports (all : List OutputReport)

inductive ExecStatus
  | absent | running | complete | failed
  deriving DecidableEq

structure Delivery where
  name : String
  skipped : Option String
  cacheHit : Bool

structure Report where
  phase : PodPhase := .pending
  launcher : Container := .waiting
  ready : Bool := false
  exitCode : String := ""
  livenessFailed : Bool := false
  kernelError : Bool := false
  secretError : Bool := false
  intentError : Bool := false
  materializeFailed : Bool := false
  artifactInitFailure : Option String := none
  deliveries : List Delivery := []
  outputs : OutputsAnnotation := .absent
  execStatusID : String := ""
  execStatus : ExecStatus := .absent
  execStatusDetail : String := ""

inductive ExecArgs
  | unreadable | artifactsUnreadable
  | sent (artifacts : List ArtifactArg)

structure Pod where
  controller : String
  deleting : Bool
  execActionID : String
  execActionArgs : ExecArgs
  report : Report

def Pod.ended (pod : Pod) : Bool := pod.report.phase = .succeeded || pod.report.phase = .failed

structure FetchContainer where
  artifact : String
  exitCode : Option Int
  message : String
  skipped : Option String

structure FetchPod where
  controller : String
  phase : PodPhase
  containers : List FetchContainer
  message : String
  reason : String

structure Dispatch where
  id : String
  artifacts : List ArtifactArg
  deriving DecidableEq

structure World where
  sb : SwiftSandbox
  pods : String → Option Pod
  fetch : Option FetchPod
  now : Nat
  dispatches : List Dispatch

inductive Err
  | notFound | alreadyExists | conflict | other
  deriving DecidableEq, Repr

inductive Gate
  | namespaceTerminating | outputs | launcherRBAC | identity | nativeGPU | scratchDisk | kernel | podMetadata
  | probes | env | secretFiles | artifacts | secretEnv | egress | pullSecret | policies | image | destinations
  | intent | networkPolicy | gpuRelease

inductive Verdict
  | pass | record | stop | hold
  | wait (reason : String)
  | refuse (reason : String)

def Gate.admits : Gate → Verdict → Bool
  | _, .pass => true
  | .namespaceTerminating, .stop => true
  | .nativeGPU, .record | .nativeGPU, .hold | .scratchDisk, .record | .scratchDisk, .hold => true
  | .gpuRelease, .record | .gpuRelease, .stop => true
  | .identity, .wait _ | .kernel, .wait _ | .secretEnv, .wait _ | .intent, .wait _ | .networkPolicy, .wait _ => true
  | .egress, .wait _ | .egress, .refuse _ | .image, .wait _ | .image, .refuse _ => true
  | .outputs, .refuse _ | .podMetadata, .refuse _ | .probes, .refuse _ | .env, .refuse _ | .secretFiles, .refuse _ => true
  | .artifacts, .refuse _ | .pullSecret, .refuse _ | .destinations, .refuse _ => true
  | _, _ => false

inductive Question
  | warmPossible | mountable | slotIdentity | workloadReady | workloadGate | outputsCleaned | announced
  | withdrawReadiness | graceOver | releaseGPU

inductive Export
  | same | uploading | exported
  | failed (reason : String)

inductive Op
  | getSandbox
  | clock
  | getPod (name : String)
  | deletePod (name : String)
  | createPod
  | updateStatus (resourceVersion : Nat) (status : Status)
  | patchFinalizers (resourceVersion : Nat) (termination outputs gpu : Bool)
  | deleteSandbox
  | claimSlot (artifacts : List ArtifactArg)
  | dispatch (slot id : String) (artifacts : List ArtifactArg)
  | getFetchPod
  | createFetchPod (artifacts : List String)
  | resolve
  | pushOutput (output : String)
  | gate (g : Gate)
  | ask (q : Question)

@[reducible] def Op.Res : Op → Type
  | .getSandbox => SwiftSandbox
  | .clock => Nat
  | .getPod _ => Pod
  | .deletePod _ | .createPod | .deleteSandbox | .dispatch _ _ _ | .createFetchPod _ => Unit
  | .updateStatus _ _ | .patchFinalizers _ _ _ _ => Nat
  | .claimSlot _ => Option String
  | .getFetchPod => FetchPod
  | .resolve => Artifact → Asked
  | .pushOutput _ => Export
  | .gate _ => Verdict
  | .ask _ => Bool

structure Choice where
  fault : Option Bool := none
  verdict : Verdict := .pass
  answer : Bool := true
  slot : Option String := none
  resolved : Artifact → Asked := fun _ => ⟨false, none, .pending⟩
  exported : Export := .same

def World.setPod (w : World) (name : String) (pod : Option Pod) : World :=
  { w with pods := fun n => if n = name then pod else w.pods n }

def World.setStatus (w : World) (status : Status) : World :=
  { w with sb := { w.sb with status := status, resourceVersion := w.sb.resourceVersion + 1 } }

def Pod.send (pod : Pod) (id : String) (artifacts : List ArtifactArg) : Pod :=
  { pod with execActionID := id, execActionArgs := .sent artifacts }

def World.send (w : World) (slot : String) (pod : Pod) (id : String) (artifacts : List ArtifactArg) : World :=
  { w.setPod slot (some (pod.send id artifacts)) with dispatches := w.dispatches ++ [⟨id, artifacts⟩] }

def World.claim (w : World) (slot : Option String) (artifacts : List ArtifactArg) : World × Option String :=
  match slot with
  | none => (w, none)
  | some name =>
    match w.pods name with
    | none => (w, none)
    | some pod =>
      if name = w.sb.name ∨ pod.deleting then (w, none)
      else if pod.controller = w.sb.uid ∧ (actionAttempt pod.execActionID w.sb.uid).isSome then (w, some name)
      else (w.send name { pod with controller := w.sb.uid } w.sb.uid artifacts, some name)

def World.perform (w : World) (c : Choice) : (o : Op) → Except Err (World × o.Res)
  | .getSandbox => .ok (w, w.sb)
  | .clock => .ok (w, w.now)
  | .getPod name =>
    match w.pods name with
    | some pod => .ok (w, pod)
    | none => .error .notFound
  | .deletePod name =>
    match w.pods name with
    | some pod => .ok (w.setPod name (some { pod with deleting := true }), ())
    | none => .error .notFound
  | .createPod =>
    match w.pods w.sb.name with
    | some _ => .error .alreadyExists
    | none => .ok (w.setPod w.sb.name (some ⟨w.sb.uid, false, "", .unreadable, {}⟩), ())
  | .updateStatus version status =>
    if version = w.sb.resourceVersion then .ok (w.setStatus status, version + 1) else .error .conflict
  | .patchFinalizers version termination outputs gpu =>
    if version = w.sb.resourceVersion then
      .ok ({ w with sb := { w.sb with
        terminationFinalizer := termination, outputsFinalizer := outputs, gpuFinalizer := gpu
        resourceVersion := version + 1 } }, version + 1)
    else .error .conflict
  | .deleteSandbox =>
    .ok ({ w with sb := { w.sb with deleting := true, resourceVersion := w.sb.resourceVersion + 1 } }, ())
  | .claimSlot artifacts => .ok (w.claim c.slot artifacts)
  | .dispatch slot id artifacts =>
    match w.pods slot with
    | some pod => .ok (w.send slot pod id artifacts, ())
    | none => .error .notFound
  | .getFetchPod =>
    match w.fetch with
    | some pod => .ok (w, pod)
    | none => .error .notFound
  | .createFetchPod artifacts =>
    match w.fetch with
    | some _ => .error .alreadyExists
    | none =>
      let containers := artifacts.map fun name => ⟨name, none, "", none⟩
      .ok ({ w with fetch := some ⟨w.sb.uid, .pending, containers, "", ""⟩ }, ())
  | .resolve => .ok (w, c.resolved)
  | .pushOutput _ => .ok (w, c.exported)
  | .gate g => .ok (w, if g.admits c.verdict then c.verdict else .pass)
  | .ask _ => .ok (w, c.answer)

def World.exec (c : Choice) (w : World) (o : Op) : World × Except Err o.Res :=
  match o with
  | .clock => (w, .ok w.now)
  | o => withFault w (c.fault.map fun took => (.other, took)) (w.perform c o)

def engine : Engine Unit Choice World Op Op.Res Err where
  exec _ c w o := some (w.exec c o)
  crash _ w := w

def machine : Machine Unit World Op Op.Res Err := engine.machine (fun _ _ _ _ => True) (fun _ _ => True)

theorem exec_cases {w w' : World} {o : Op} {c : Choice} {r : Except Err o.Res} (ran : w.exec c o = (w', r)) :
    (∃ a, r = .ok a ∧ w.perform c o = .ok (w', a)) ∨
    (∃ e, r = .error e ∧ (w' = w ∨ ∃ a, w.perform c o = .ok (w', a))) := by
  cases o with
  | clock =>
    cases ran
    exact .inl ⟨_, rfl, rfl⟩
  | getSandbox | getPod | deletePod | createPod | updateStatus | patchFinalizers | deleteSandbox | claimSlot | dispatch |
    getFetchPod | createFetchPod | resolve | pushOutput | gate | ask => exact withFault_cases ran

theorem exec_error {w w' : World} {o : Op} {c : Choice} {e : Err} (ran : w.exec c o = (w', .error e)) (told : e ≠ .other) :
    w' = w ∧ w.perform c o = .error e := by
  have honest : withFault w (c.fault.map fun took => (Err.other, took)) (w.perform c o) = (w', .error e) := by
    cases o with
    | clock => cases ran
    | getSandbox | getPod | deletePod | createPod | updateStatus | patchFinalizers | deleteSandbox | claimSlot | dispatch |
      getFetchPod | createFetchPod | resolve | pushOutput | gate | ask => exact ran
  cases fault : c.fault with
  | none =>
    rw [fault] at honest
    rcases withFault_none honest with ⟨a, answer, -⟩ | ⟨e', answer, same, failed⟩
    · cases answer
    · cases answer
      exact ⟨same, failed⟩
  | some took =>
    rw [fault] at honest
    cases took <;> cases outcome : w.perform c o <;> rw [outcome] at honest <;> cases honest <;> exact (told rfl).elim

abbrev Act := Prog Op Op.Res Err

def issue (o : Op) : Act o.Res := Prog.call o

def writeStatus : Act SwiftSandbox := do
  let version ← issue (.updateStatus sb.resourceVersion sb.status)
  return { sb with resourceVersion := version }

def SwiftSandbox.inPhase (phase : Phase) : SwiftSandbox :=
  { sb with status := { sb.status with phase := phase } }

def setPhase (phase : Phase) : Act SwiftSandbox := writeStatus (sb.inPhase phase)

def lastly (write : Act SwiftSandbox) : Act Unit := do
  let _ ← write
  return ()

def waitForReference : Act Unit := lastly (setPhase sb .pending)

def Status.finish (status : Status) (phase : Phase) (reason : Reason) (now : Nat) : Status :=
  { status with
    phase := phase
    reason := some reason
    terminalAt := status.terminalAt.or (some now)
    workloadReady := status.workloadReady.map fun _ => false
    outputs := if phase = .failed then markOutputs status.outputs .skipped reason.text else status.outputs }

def terminal (phase : Phase) (reason : Reason) : Act Unit := do
  let now ← issue .clock
  lastly (writeStatus { sb with status := sb.status.finish phase reason now })

def fail (reason : Reason) : Act Unit := terminal sb .failed reason

def SwiftSandbox.withArtifacts (artifacts : List ArtifactStatus) : SwiftSandbox :=
  { sb with status := { sb.status with artifacts := artifacts } }

def SwiftSandbox.withOutputs (outputs : List OutputStatus) : SwiftSandbox :=
  { sb with status := { sb.status with outputs := outputs } }

def failAfterDelete (pod : String) (reason : Reason) : Act Unit := do
  let _ ← (issue (.deletePod pod)).attempt
  fail sb reason

def expired (now : Nat) : Bool :=
  match sb.status.startedAt, sb.timeout with
  | some started, some timeout => now - started > timeout
  | _, _ => false

def parseInt32 (s : String) : Option Int :=
  let (negative, digits) := match s.toList with
    | '-' :: rest => (true, rest)
    | '+' :: rest => (false, rest)
    | all => (false, all)
  if digits.isEmpty || !digits.all Char.isDigit then none
  else
    let n : Int := digits.foldl (fun n d => 10 * n + (d.toNat - '0'.toNat)) 0
    let value := if negative then -n else n
    if -2 ^ 31 ≤ value ∧ value < 2 ^ 31 then some value else none

def artifactMissing (detail : String) : Option (List String) :=
  (cutPrefix detail "ArtifactMissing: ").map fun rest => (rest.toList.splitOnP (· = ',')).map String.ofList

def checkoutFailure (detail : String) : Reason × String :=
  match cutPrefix detail "KernelUnsupported: " with
  | some rest => (.kernelUnsupported, rest)
  | none =>
    match cutPrefix detail "SecretUnavailable: " with
    | some rest => (.secretUnavailable, rest)
    | none =>
      match cutPrefix detail "ArtifactMissing: " with
      | some rest => (.artifactMissing, rest)
      | none => (.execFailed, "checkout exec failed: " ++ detail)

def firstNonEmpty (texts : List String) : String := (texts.find? (· ≠ "")).getD ""

def contains (s part : String) : Bool := part.toList <:+: s.toList

def policyFailureReason (message : String) : Reason :=
  if contains message "ClaimMismatch: policy " then .artifact "ArtifactClaimMismatch"
  else if contains message "VerificationFailed: policy " then .artifact "ArtifactVerificationFailed"
  else .artifact "ArtifactMaterializeFailed"

def namedArtifact (message : String) : Option String :=
  match cutPrefix message "artifact " with
  | some rest => if ':' ∈ rest.toList then some (String.ofList (rest.toList.takeWhile (· ≠ ':'))) else none
  | none => none

def failArtifacts (spec : List Artifact) (statuses : List ArtifactStatus) (names : List String) (reason message : String) :
    List ArtifactStatus :=
  let names := match namedArtifact message with
    | some name => if (artifactStatus statuses name).isSome then [name] else names
    | none => names
  (names.filter fun name => !artifactOptional spec name).foldl
    (fun statuses name => setArtifactState statuses name .failed reason) statuses

def dispatchedArtifacts (slot : Pod) : List String :=
  match slot.execActionArgs with
  | .sent artifacts => artifacts.map (·.name)
  | _ => []

def artifactsMounted (slot : Pod) : SwiftSandbox :=
  sb.withArtifacts (sb.status.artifacts.map fun s =>
    if s.state = .dispatched ∧ s.name ∈ dispatchedArtifacts slot then
      { s with state := .mounted, reason := if s.reason = "Fetched" then "Fetched" else "Cached" }
    else s)

def keptArtifacts (statuses : List ArtifactStatus) (artifacts : List ArtifactArg) : List ArtifactArg :=
  artifacts.filter fun a => (artifactStatus statuses a.name).all fun s => s.state ≠ .skipped

/-- Send the workload again under the next attempt's id. The status goes first: lost, it leaves the slot as it is. -/
def redispatch (slot : Pod) (attempt : Nat) : Act Unit :=
  match slot.execActionArgs with
  | .unreadable | .artifactsUnreadable => fail sb .execFailed
  | .sent artifacts => do
    let keep := keptArtifacts sb.status.artifacts artifacts
    let sb ← setPhase (sb.withArtifacts (markDispatched (keep.map (·.name)) sb.status.artifacts)) .running
    issue (.dispatch sb.status.podRef (actionIDFor sb.uid (attempt + 1)) keep)

inductive FetchState
  | running
  | failed (message : String)
  | done (skipped : List (String × String))

def fetchable (slot : Pod) (missing : List String) : List String :=
  match slot.execActionArgs with
  | .sent artifacts =>
    (sb.artifacts.filter fun a => a.name ∈ missing ∧ ∃ arg ∈ artifacts, arg.name = a.name ∧ arg.digest ≠ "").map (·.name)
  | _ => []

def fetchOutcome (pod : FetchPod) : FetchState :=
  match pod.phase with
  | .succeeded => .done (pod.containers.filterMap fun c => c.skipped.map fun reason => (c.artifact, reason))
  | .failed =>
    match pod.containers.find? fun c => c.exitCode.any (· ≠ 0) with
    | some c => .failed ("artifact " ++ c.artifact ++ ": " ++ firstNonEmpty [c.message, "materialize failed"])
    | none => .failed ("artifact fetch pod failed: " ++ firstNonEmpty [pod.message, pod.reason])
  | .pending | .running => .running

def tolerate (expected : Err) (call : Act Unit) : Act Unit := do
  match ← call.attempt with
  | .ok () => return ()
  | .error e => if e = expected then return () else .fail e

def ensureArtifactFetch (slot : Pod) (missing : List String) : Act FetchState := do
  match ← (issue .getFetchPod).attempt with
  | .error .notFound =>
    let names := fetchable sb slot missing
    if names.isEmpty then
      return .failed ("swiftletd reported unknown artifacts missing: " ++ ",".intercalate missing)
    else
      let _ ← issue (.gate .policies)
      tolerate .alreadyExists (issue (.createFetchPod names))
      return .running
  | .error e => .fail e
  | .ok pod =>
    if pod.controller ≠ sb.uid then return .failed "the fetch pod exists and was not created for this sandbox"
    else return fetchOutcome pod

structure Sorted where
  required : List String
  wait : List String
  artifacts : List ArtifactStatus
  unknown : Bool

def artifactDeadline (a : Artifact) : Nat := sb.creationTimestamp + a.artifactFetchTimeout

def sortMissing (sb : SwiftSandbox) (attempt now : Nat) : List String → Sorted → Sorted
  | [], acc => acc
  | name :: rest, acc =>
    match specArtifact sb.artifacts name with
    | none => { acc with unknown := true }
    | some a =>
      if !a.optional then sortMissing sb attempt now rest { acc with required := acc.required ++ [name] }
      else if attempt = 1 ∧ 0 < a.artifactFetchTimeout ∧ now < artifactDeadline sb a then
        sortMissing sb attempt now rest { acc with wait := acc.wait ++ [name] }
      else
        sortMissing sb attempt now rest { acc with
          artifacts := setArtifactState acc.artifacts name .skipped
            (if a.artifactFetchTimeout = 0 then "NotOnNode" else "FetchTimeout") }

def afterFetch (fetch : List String) (skipped : List (String × String)) : SwiftSandbox :=
  let statuses := (skipped.filter fun s => artifactOptional sb.artifacts s.1).foldl
    (fun statuses s => setArtifactState statuses s.1 .skipped s.2) sb.status.artifacts
  sb.withArtifacts (statuses.map fun s =>
    if s.name ∈ fetch ∧ s.state ≠ .skipped then { s with state := .dispatched, reason := "Fetched" } else s)

def skipAll (names : List String) : SwiftSandbox :=
  sb.withArtifacts (names.foldl (fun statuses name => setArtifactState statuses name .skipped "FetchTimeout")
    sb.status.artifacts)

def markFetching (fetch : List String) : SwiftSandbox :=
  sb.withArtifacts (sb.status.artifacts.map fun s => if s.name ∈ fetch then { s with state := .fetching } else s)

def overdue (now : Nat) (sorted : Sorted) : Bool :=
  sorted.required.isEmpty &&
    (((sorted.wait.filterMap (specArtifact sb.artifacts)).map (artifactDeadline sb)).min?).all (· ≤ now)

def fetchMissing (slot : Pod) (attempt now : Nat) (sorted : Sorted) : Act Unit := do
  let fetch := sorted.required ++ sorted.wait
  match ← ensureArtifactFetch sb slot fetch with
  | .failed message =>
    let reason := policyFailureReason message
    failAfterDelete (sb.withArtifacts (failArtifacts sb.artifacts sb.status.artifacts fetch reason.text message))
      sb.status.podRef reason
  | .done skipped => redispatch (afterFetch sb fetch skipped) slot attempt
  | .running =>
    if overdue sb now sorted then redispatch (skipAll sb sorted.wait) slot attempt
    else lastly (setPhase (markFetching sb fetch) .running)

/-- What a dispatch that found artifacts missing does next; the sandbox where the caller is to fail it. -/
def artifactsMissing (slot : Pod) (attempt : Nat) (missing : List String) : Act (Option SwiftSandbox) := do
  if maxDispatchAttempts ≤ attempt then return some sb
  else
    let now ← issue .clock
    let sorted := sortMissing sb attempt now missing ⟨[], [], sb.status.artifacts, false⟩
    let sb := sb.withArtifacts sorted.artifacts
    if sorted.unknown || (!sorted.required.isEmpty && 1 < attempt) then return some sb
    else if sorted.required.isEmpty && sorted.wait.isEmpty then
      redispatch sb slot attempt
      return none
    else
      fetchMissing sb slot attempt now sorted
      return none

def refuseCheckout (detail : String) : Act Unit :=
  let (reason, message) := checkoutFailure detail
  let sb := match artifactMissing detail with
    | some missing => sb.withArtifacts (failArtifacts sb.artifacts sb.status.artifacts missing reason.text message)
    | none => sb
  failAfterDelete sb sb.status.podRef reason

def slotFailed (slot : Pod) (attempt : Nat) : Act Unit :=
  match artifactMissing slot.report.execStatusDetail with
  | none => refuseCheckout sb slot.report.execStatusDetail
  | some missing => do
    match ← artifactsMissing sb slot attempt missing with
    | none => return ()
    | some sb => refuseCheckout sb slot.report.execStatusDetail

def slotComplete (slot : Pod) : Act Unit := do
  let code := (parseInt32 slot.report.execStatusDetail).getD 0
  let sb := artifactsMounted { sb with status := { sb.status with exitCode := some code } } slot
  let _ ← (issue (.deletePod sb.status.podRef)).attempt
  if code = 0 then terminal sb .completed .completed else terminal sb .failed .workloadFailed

def syncWorkloadReady : Act SwiftSandbox := do
  let ready ← issue (.ask .workloadReady)
  let _ ← issue (.ask .workloadGate)
  return { sb with status := { sb.status with workloadReady := some ready } }

def slotRunning (slot : Pod) : Act Unit := do
  if slot.ended then fail sb .slotEnded
  else if slot.report.livenessFailed then failAfterDelete sb sb.status.podRef .livenessProbeFailed
  else
    let _ ← issue (.ask .slotIdentity)
    let sb ← syncWorkloadReady sb
    lastly (setPhase (if sb.status.workloadReady = some true then artifactsMounted sb slot else sb) .running)

def followSlot (slot : Pod) : Act Unit :=
  let id := if slot.execActionID = "" then sb.uid else slot.execActionID
  match actionAttempt id sb.uid with
  | none => slotRunning sb slot
  | some attempt =>
    if slot.report.execStatusID ≠ id then slotRunning sb slot
    else
      match slot.report.execStatus with
      | .complete => slotComplete sb slot
      | .failed => slotFailed sb slot attempt
      | .absent | .running => slotRunning sb slot

def reconcileClaimedSlot : Act Unit := do
  match ← (issue (.getPod sb.status.podRef)).attempt with
  | .error .notFound => fail sb .slotLost
  | .error e => .fail e
  | .ok slot =>
    let now ← issue .clock
    if expired sb now then failAfterDelete sb sb.status.podRef .deadlineExceeded
    else followSlot sb slot

def sandboxWorkloadExitCode (pod : Pod) : Option Int :=
  if pod.report.exitCode = "" then none else parseInt32 pod.report.exitCode

def launcherReady (pod : Pod) : Bool :=
  pod.report.phase = .running && (pod.report.ready || pod.report.launcher = .running)

def launcherExitCode (pod : Pod) : Option Int :=
  match pod.report.launcher with
  | .terminated code => some code
  | _ => none

def setOutputsCondition (status : Status) (exported : Bool) (reason : String) (now : Nat) : Status :=
  let since := match status.outputsExported with
    | some c => if c.exported = exported then c.lastTransitionTime else now
    | none => now
  { status with outputsExported := some ⟨exported, reason, since⟩ }

def outputCollectionTimeout : Nat := 30 * 60 * 10 ^ 9

def packagingOverdue (status : Status) (now : Nat) : Bool :=
  status.outputsExported.any fun c => c.reason = "Collecting" && decide (now - c.lastTransitionTime > outputCollectionTimeout)

def OutputStatus.observe (o : OutputStatus) (reports : List OutputReport) : OutputStatus :=
  match reports.reverse.find? (·.name = o.name) with
  | none => { o with state := .failed, reason := "OutputCollectionFailed" }
  | some rep =>
    if rep.packaged then { o with state := .packaged, reason := "" }
    else { o with state := .failed, reason := firstNonEmpty [rep.reason, "OutputCollectionFailed"] }

def SwiftSandbox.exporting (outputs : List OutputStatus) (reason : String) (now : Nat) : SwiftSandbox :=
  { sb with status := setOutputsCondition { sb.status with phase := .exporting, outputs := outputs } false reason now }

def collectOutputs (pod : Pod) : Act Unit :=
  let failed := sb.withOutputs (markOutputs sb.status.outputs .failed "OutputCollectionFailed")
  match pod.report.outputs with
  | .unreadable => fail failed .exportFailed
  | .absent => do
    let now ← issue .clock
    if pod.ended then fail failed .exportFailed
    else if packagingOverdue sb.status now then failAfterDelete failed sb.name .exportFailed
    else
      let outputs := sb.status.outputs.map fun o => if o.state = .pending then { o with state := .collecting } else o
      lastly (writeStatus (sb.exporting outputs "Collecting" now))
  | .reports all => do
    let now ← issue .clock
    lastly (writeStatus (sb.exporting (sb.status.outputs.map (·.observe all)) "Exporting" now))

/-- `none` where the launcher's packaging is all that is left; otherwise the sandbox. -/
def observeOutputs (pod : Pod) : Act (Option SwiftSandbox) :=
  match sandboxWorkloadExitCode pod with
  | none => return some sb
  | some code => do
    if code ≠ 0 then return some (sb.withOutputs (markOutputs sb.status.outputs .skipped "WorkloadFailed"))
    else
      collectOutputs { sb with status := { sb.status with exitCode := some 0 } } pod
      return none

def finishTerminal (pod : Pod) : Act Unit :=
  if pod.report.intentError then fail sb .intentMismatch
  else if pod.report.kernelError then fail sb .kernelUnsupported
  else if pod.report.secretError then fail sb .secretUnavailable
  else if pod.report.livenessFailed then fail sb .livenessProbeFailed
  else
    match sandboxWorkloadExitCode pod with
    | some code =>
      let sb := { sb with status := { sb.status with exitCode := some code } }
      if code = 0 then terminal sb .completed .completed else terminal sb .failed .workloadFailed
    | none =>
      let sb := { sb with status := { sb.status with exitCode := (launcherExitCode pod).or sb.status.exitCode } }
      if pod.report.phase = .failed then terminal sb .failed .guestFailed
      else if !sb.outputs.isEmpty then fail sb .outputCollectionFailed
      else terminal sb .completed .completed

def recordColdArtifacts (pod : Pod) : SwiftSandbox :=
  sb.withArtifacts (pod.report.deliveries.foldl (fun statuses d =>
    match d.skipped with
    | some reason => setArtifactState statuses d.name .skipped reason
    | none => setArtifactState statuses d.name .mounted (if d.cacheHit then "Cached" else "Fetched"))
    sb.status.artifacts)

def launcherUp (pod : Pod) (now : Nat) : Act Unit := do
  let sb := recordColdArtifacts sb pod
  let sb := { sb with status := { sb.status with
    startedAt := sb.status.startedAt.or (some now), podRef := sb.name, reason := some .guestRunning } }
  if pod.report.kernelError then failAfterDelete sb sb.name .kernelUnsupported
  else if pod.report.secretError then failAfterDelete sb sb.name .secretUnavailable
  else if pod.report.livenessFailed then failAfterDelete sb sb.name .livenessProbeFailed
  else
    let sb ← syncWorkloadReady sb
    lastly (setPhase sb .running)

def podState (pod : Pod) : Act Unit := do
  let now ← issue .clock
  if expired sb now then failAfterDelete sb sb.name .deadlineExceeded
  else if pod.ended then finishTerminal sb pod
  else if pod.report.materializeFailed then fail sb .rootfsMaterializeFailed
  else
    match pod.report.artifactInitFailure with
    | some message =>
      let reason := policyFailureReason message
      fail (sb.withArtifacts (failArtifacts sb.artifacts sb.status.artifacts [] reason.text message)) reason
    | none =>
      if launcherReady pod then launcherUp sb pod now
      else if (launcherExitCode pod).isSome then return ()
      else lastly (setPhase sb .materializing)

def reconcilePodState (pod : Pod) : Act Unit :=
  if sb.status.outputs.isEmpty then podState sb pod
  else do
    match ← observeOutputs sb pod with
    | none => return ()
    | some sb => podState sb pod

def SwiftSandbox.refusedAt (reason : String) : Gate → SwiftSandbox
  | .destinations => sb.withOutputs (markOutputs sb.status.outputs .failed reason)
  | _ => sb

def passing (next : SwiftSandbox → Act Unit) : List Gate → SwiftSandbox → Act Unit
  | [], sb => next sb
  | g :: rest, sb => do
    match ← issue (.gate g) with
    | .pass => passing next rest sb
    | .record => do
      let sb ← writeStatus sb
      passing next rest sb
    | .stop => return ()
    | .hold => lastly (writeStatus sb)
    | .wait _ => waitForReference sb
    | .refuse reason => fail (sb.refusedAt reason g) (.refused reason)

def orForeign (next : Option Pod → Act Unit) : Act Unit := do
  match ← (issue (.getPod sb.name)).attempt with
  | .error .notFound => next none
  | .error e => .fail e
  | .ok pod => if pod.controller ≠ sb.uid then waitForReference sb else next (some pod)

def createPod : Act Unit := do
  let sb ← setPhase sb .materializing
  match ← (issue .createPod).attempt with
  | .ok () => return ()
  | .error .alreadyExists => orForeign sb fun _ => return ()
  | .error e => .fail e

def withResolved (waits : Artifact → Bool) (next : SwiftSandbox → Act Unit) : Act Unit :=
  if sb.artifacts.isEmpty then next sb
  else do
    let asked ← issue .resolve
    match resolveArtifactRequests waits sb.artifacts asked with
    | .ready statuses => next (sb.withArtifacts statuses)
    | .notReady | .unavailable => waitForReference sb
    | .refused statuses => fail (sb.withArtifacts statuses) (.refused "ArtifactResolveFailed")
    | .denied statuses => fail (sb.withArtifacts statuses) (.refused "ArtifactPolicyDenied")

def createLaunch : Act Unit :=
  passing (fun sb => orForeign sb fun _ =>
    passing (fun sb => do
      let now ← issue .clock
      withResolved sb (fun a => decide (now < artifactDeadline sb a)) fun sb =>
        passing createPod [.destinations, .intent, .identity, .networkPolicy] sb)
      [.podMetadata, .probes, .env, .secretFiles, .artifacts, .secretEnv, .egress, .pullSecret, .policies, .image] sb)
    [.kernel] sb

def coldLauncher : Act Unit :=
  orForeign sb fun
    | none => createLaunch sb
    | some pod => reconcilePodState sb pod

def coldFallback : Act Unit := createLaunch { sb with status := { sb.status with podRef := sb.name } }

def checkOut : Act Unit := do
  let mountable ← issue (.ask .mountable)
  let sent := firstDispatch sb.artifacts sb.status.artifacts mountable
  match ← issue (.claimSlot sent.1) with
  | none => coldFallback sb
  | some slot =>
    let now ← issue .clock
    lastly (setPhase { sb with status := { sb.status with
      podRef := slot, startedAt := sb.status.startedAt.or (some now), reason := some .checkedOut
      artifacts := sent.2 } } .running)

def reconcilePooled : Act Unit :=
  if sb.status.podRef = sb.name then coldLauncher sb
  else if sb.status.podRef ≠ "" then reconcileClaimedSlot sb
  else do
    let possible ← issue (.ask .warmPossible)
    if possible then passing (fun sb => withResolved sb (fun _ => false) checkOut) [.artifacts, .policies] sb
    else coldFallback sb

def exportingOutputs : Bool :=
  sb.status.phase = .exporting && sb.status.outputs.all fun o => o.state ≠ .pending && o.state ≠ .collecting

def launcherStopped : Act Bool := do
  match ← (issue (.getPod (launcherPodName sb))).attempt with
  | .error .notFound => return true
  | .error e => .fail e
  | .ok pod => return pod.controller ≠ sb.uid || pod.ended

def finishOutputs : Act (Option SwiftSandbox) := do
  if !sb.outputsFinalizer then return some sb
  else
    let stopped ← launcherStopped sb
    if stopped then
      let cleaned ← issue (.ask .outputsCleaned)
      if cleaned then
        let version ← issue (.patchFinalizers sb.resourceVersion sb.terminationFinalizer false sb.gpuFinalizer)
        return some { sb with outputsFinalizer := false, resourceVersion := version }
      else return none
    else return none

def OutputStatus.advance (o : OutputStatus) : Export → OutputStatus
  | .same => o
  | .uploading => { o with state := .uploading }
  | .exported => { o with state := .exported, reason := "" }
  | .failed reason => { o with state := .failed, reason := reason }

def exportAll : List OutputStatus → Act (List OutputStatus)
  | [] => return []
  | o :: rest => do
    if outputTerminal o.state then
      let rest ← exportAll rest
      return o :: rest
    else
      let outcome ← issue (.pushOutput o.name)
      let rest ← exportAll rest
      return o.advance outcome :: rest

def finishExport : Act Unit := do
  match ← finishOutputs sb with
  | none => return ()
  | some sb =>
    let now ← issue .clock
    if sb.status.outputs.all fun o => o.state = .exported then
      terminal { sb with status := setOutputsCondition sb.status true "Exported" now } .completed .completed
    else fail { sb with status := setOutputsCondition sb.status false "ExportFailed" now } .exportFailed

def releaseGPUWhenDone (next : SwiftSandbox → Act Unit) (sb : SwiftSandbox) : Act Unit := do
  match ← issue (.gate .gpuRelease) with
  | .pass => next sb
  | .record => do
    let sb ← writeStatus sb
    next sb
  | _ => return ()

def exportPass : Act Unit := do
  let outputs ← exportAll sb.status.outputs
  let sb ← writeStatus (sb.withOutputs outputs)
  if outputs.all fun o => outputTerminal o.state then finishExport sb else return ()

def reconcileExport : Act Unit := releaseGPUWhenDone exportPass sb

def refuseOutputs (reason : String) : SwiftSandbox :=
  sb.withOutputs (sb.outputs.map fun name => ⟨name, .failed, reason⟩)

def admitOutputs : Act Unit := do
  match ← issue (.gate .outputs) with
  | .refuse reason => fail (refuseOutputs sb reason) (.refused reason)
  | .pass =>
    let version ← issue (.patchFinalizers sb.resourceVersion sb.terminationFinalizer true sb.gpuFinalizer)
    let sb := { sb with outputsFinalizer := true, resourceVersion := version }
    lastly (writeStatus (sb.withOutputs (sb.outputs.map fun name => ⟨name, .pending, ""⟩)))
  | _ => return ()

def announce : Act SwiftSandbox := do
  let announced ← issue (.ask .announced)
  if announced then return sb else writeStatus sb

def terminateLauncher : Act (Option SwiftSandbox) := do
  if !sb.terminationFinalizer then return some sb
  else
    match ← (issue (.getPod (launcherPodName sb))).attempt with
    | .error .notFound => return some (← announce sb)
    | .error e => .fail e
    | .ok pod =>
      if pod.controller ≠ sb.uid || pod.ended then return some sb
      else if !pod.deleting then
        let sb ← announce sb
        let _ ← issue (.ask .withdrawReadiness)
        tolerate .notFound (issue (.deletePod (launcherPodName sb)))
        return none
      else
        let isOver ← issue (.ask .graceOver)
        if isOver then return some sb
        else
          let _ ← announce sb
          return none

def deleteOutputs : Act (Option SwiftSandbox) := do
  if !sb.outputsFinalizer then return some sb
  else
    let cleaned ← issue (.ask .outputsCleaned)
    if cleaned then
      let version ← issue (.patchFinalizers sb.resourceVersion sb.terminationFinalizer false sb.gpuFinalizer)
      return some { sb with outputsFinalizer := false, resourceVersion := version }
    else return none

def releaseNativeGPU : Act (Option SwiftSandbox) := do
  let _ ← issue (.ask .releaseGPU)
  let version ← issue (.patchFinalizers sb.resourceVersion sb.terminationFinalizer sb.outputsFinalizer false)
  return some { sb with gpuFinalizer := false, resourceVersion := version }

def releaseGPU : Act (Option SwiftSandbox) := do
  if !sb.gpuFinalizer then return some sb
  else
    match ← (issue (.getPod (launcherPodName sb))).attempt with
    | .error .notFound => releaseNativeGPU sb
    | .error e => .fail e
    | .ok pod =>
      if pod.ended then releaseNativeGPU sb
      else if !pod.deleting && pod.controller = sb.uid then
        tolerate .notFound (issue (.deletePod (launcherPodName sb)))
        return none
      else return none

def dropTerminationFinalizer : Act Unit := do
  if sb.terminationFinalizer then
    let _ ← issue (.patchFinalizers sb.resourceVersion false sb.outputsFinalizer sb.gpuFinalizer)
    return ()
  else return ()

def handleDeletion : Act Unit := do
  match ← terminateLauncher sb with
  | none => return ()
  | some sb =>
    match ← deleteOutputs sb with
    | none => return ()
    | some sb =>
      match ← releaseGPU sb with
      | none => return ()
      | some sb => dropTerminationFinalizer sb

def handleRetention : Act Unit := do
  match sb.ttl, sb.status.terminalAt with
  | some ttl, some ended =>
    let now ← issue .clock
    if ended + ttl ≤ now then tolerate .notFound (issue .deleteSandbox) else return ()
  | _, _ => return ()

def afterTerminal : Act Unit :=
  releaseGPUWhenDone (fun sb => do
    match ← finishOutputs sb with
    | none => return ()
    | some sb => handleRetention sb) sb

def launchOrFollow : Act Unit :=
  let cold := !sb.pooled || sb.status.podRef = sb.name
  let go := passing (fun sb => if sb.pooled then reconcilePooled sb else coldLauncher sb)
  if cold then orForeign sb fun _ => go [.identity, .nativeGPU, .scratchDisk] sb
  else go [.nativeGPU, .scratchDisk] sb

def ensureTerminationFinalizer : Act SwiftSandbox := do
  if sb.terminationFinalizer then return sb
  else
    let version ← issue (.patchFinalizers sb.resourceVersion true sb.outputsFinalizer sb.gpuFinalizer)
    return { sb with terminationFinalizer := true, resourceVersion := version }

def reconcileLive : Act Unit :=
  passing (fun sb => do
    let sb ← ensureTerminationFinalizer sb
    if !sb.outputs.isEmpty && sb.status.outputs.isEmpty then admitOutputs sb
    else passing launchOrFollow [.launcherRBAC] sb) [.namespaceTerminating] sb

def reconcile : Act Unit := do
  match ← (issue .getSandbox).attempt with
  | .error .notFound => return ()
  | .error e => .fail e
  | .ok sb =>
    if sb.deleting then handleDeletion sb
    else if isTerminal sb.status.phase then afterTerminal sb
    else if exportingOutputs sb then reconcileExport sb
    else reconcileLive sb

inductive Event
  | tick (elapsed : Nat)
  | report (pod : String) (report : Report)
  | delete (pod : String)
  | vanish (pod : String)
  | fetch (pod : Option FetchPod)
  | deleteSandbox
  | edit (ttl : Option Nat)

def Pod.observe (pod : Pod) (report : Report) : Pod :=
  { pod with report := if pod.ended then { report with phase := pod.report.phase } else report }

def World.event (w : World) : Event → World
  | .tick elapsed => { w with now := w.now + elapsed }
  | .report name report => w.setPod name ((w.pods name).map fun pod => pod.observe report)
  | .delete name => w.setPod name ((w.pods name).map fun pod => { pod with deleting := true })
  | .vanish name => w.setPod name none
  | .fetch pod => { w with fetch := pod }
  | .deleteSandbox => { w with sb := { w.sb with deleting := true, resourceVersion := w.sb.resourceVersion + 1 } }
  | .edit ttl => { w with sb := { w.sb with ttl := ttl, resourceVersion := w.sb.resourceVersion + 1 } }

end KubeSwift.Workload
