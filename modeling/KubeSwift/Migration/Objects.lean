import KubeSwift.GPU.Inventory

/-! # The objects a `SwiftMigration` works on

`api/migration/v1alpha1`, what the reconciler reads of a `SwiftGuest` and a launcher pod, and its pure functions. -/

namespace KubeSwift.Migration

inductive Phase
  | unset | pending | validating | preparing | stopAndCopy | resuming
  | completed | failed | cancelled | unknown
  deriving DecidableEq, Repr, Inhabited

inductive Mode
  | unset | offline | live | auto
  deriving DecidableEq, Repr, Inhabited

inductive RunPolicy
  | running | stopped | restartOnFailure | always
  deriving DecidableEq, Repr, Inhabited

inductive FailureReason
  | none | cancelled | podTerminated | sourcePodReplaced | timeout | other | eligibilityMismatch
  | dstScheduleFailed | dstNeverReady | receiveDisconnect | rpcError | imageTagMismatch | dstPodConflict
  | migrationIdentityNotReady | sourceSidecarNotReady
  deriving DecidableEq, Repr, Inhabited

inductive Verb
  | none | receive | send | cancel | cancelSend | other
  deriving DecidableEq, Repr, Inhabited

inductive Report
  | none | receiveReady | running | sending | complete | failed | rejected | other
  deriving DecidableEq, Repr, Inhabited

inductive CancelResult
  | none | notActive | failed | other
  deriving DecidableEq, Repr, Inhabited

/-- An action's id: `<migration>:recv:<n>`, `:send:<n>`, `:cancel:0` or `:cancel-send:0`. A name has no colon, so the
parts can be read back. -/
inductive ActionID
  | absent | recv (mig : String) (attempt : Nat) | send (mig : String) (attempt : Nat)
  | cancel (mig : String) | cancelSend (mig : String) | other (text : String)
  deriving DecidableEq, Repr, Inhabited

inductive PodPhase
  | unset | pending | running | succeeded | failed
  deriving DecidableEq, Repr, Inhabited

structure OwnerRef where
  name : String
  uid : String
  deriving DecidableEq, Repr, Inhabited

structure Pod where
  uid : String
  controller : Option OwnerRef
  guestLabel : String
  migrationRole : String
  migrationName : String
  nodeName : String
  hostname : String
  deleting : Bool
  phase : PodPhase
  ready : Bool
  podIP : String
  initFailure : Option (String × Int × String)
  launcherReady : Bool
  phase2Ack : Bool
  launcherFeatures : List String
  guestIP : String
  action : Verb
  actionID : ActionID
  status : Report
  statusID : ActionID
  statusDetail : String
  cancelResult : CancelResult
  cancelResultID : ActionID
  cancelResultDetail : String
  cancelIssuedAt : Bool
  deriving DecidableEq, Repr, Inhabited

structure PodRef where
  name : String
  uid : String
  deriving DecidableEq, Repr, Inhabited

structure GPUStatus where
  devices : List String
  partitionID : Int
  numaNodes : List Int
  hypervisor : String
  nodeName : String
  deriving DecidableEq, Repr, Inhabited

structure SwiftGuest where
  uid : String
  inProgress : String
  migrationEnabled : Bool
  runPolicy : RunPolicy
  nodeName : String
  gpuProfileRef : Option String
  gpuResourceClaim : Bool
  sriovInterface : Bool
  statusNodeName : String
  podRef : Option PodRef
  gpu : Option GPUStatus
  guestRunning : Bool
  primaryIP : String
  deriving DecidableEq, Repr, Inhabited

structure Conditions where
  podRefSwapped : Bool
  cancelIgnored : Bool
  destinationRunning : Bool
  deriving DecidableEq, Repr, Inhabited

/-- A time on record; `now` is a reading of the clock on its way to the record. -/
inductive Timestamp
  | unset | now | at (time : Nat)
  deriving DecidableEq, Repr, Inhabited

def Timestamp.read (time : Nat) : Timestamp → Timestamp
  | .now => .at time
  | stamp => stamp

/-- Of the other times, only whether they are set. -/
structure SwiftMigrationStatus where
  phase : Phase
  phaseDetail : String
  mode : Mode
  conditions : Conditions
  sourceNode : String
  destinationNode : String
  sourcePodUID : String
  sourcePodRef : Option String
  destinationPodRef : Option String
  recvAttempts : Nat
  sendAttempts : Nat
  cutoverStep1At : Bool
  cutoverStep2DispatchedAt : Bool
  startedAt : Bool
  preparingStartedAt : Bool
  resumingStartedAt : Bool
  completedAt : Timestamp
  terminalAt : Bool
  targetIP : String
  failureReason : FailureReason
  failureMessage : String
  deriving DecidableEq, Repr, Inhabited

def SwiftMigrationStatus.stamped (time : Nat) (s : SwiftMigrationStatus) : SwiftMigrationStatus :=
  { s with completedAt := s.completedAt.read time }

structure SwiftMigration where
  namespace_ : String
  name : String
  uid : String
  resourceVersion : Nat
  guestRef : String
  target : String
  specMode : Mode
  cancelRequested : Bool
  timeout : String
  deleting : Bool
  finalizer : Bool
  status : SwiftMigrationStatus
  deriving DecidableEq, Repr, Inhabited

def isTerminalPhase : Phase → Bool
  | .completed | .failed | .cancelled => true
  | _ => false

variable (mig : SwiftMigration)

def isLiveMode (status : SwiftMigrationStatus) : Bool :=
  status.mode = .live || (status.mode = .unset && mig.specMode = .live)

def isPostCutover : Bool := mig.status.conditions.podRefSwapped

def SwiftGuest.hasVFIODevices (guest : SwiftGuest) : Bool :=
  guest.gpuProfileRef.isSome || guest.gpuResourceClaim || guest.sriovInterface

def quote (s : String) : String := "\"" ++ s ++ "\""

def textStartsWith (s start : String) : Bool := start.toList.isPrefixOf s.toList

def trimStart (s start : String) : String :=
  if textStartsWith s start then String.ofList (s.toList.drop start.length) else s

def trimSpace (s : String) : String :=
  String.ofList ((s.toList.dropWhile Char.isWhitespace).reverse.dropWhile Char.isWhitespace).reverse

def lowered (s : String) : String := String.ofList ((trimSpace s).toList.map Char.toLower)

def normalizeStatusDetail (s : String) : String :=
  if s = "" then "(no detail)"
  else
    let flat := s.toList.map fun c => if c = '\n' ∨ c = '\t' then ' ' else c
    if 256 < flat.length then String.ofList (flat.take 256) ++ "..." else String.ofList flat

def classifyFailureFromDetail (detail : String) : FailureReason :=
  let d := lowered detail
  if d = "" then .other
  else if GPU.containsText d "destination listener exited abnormally" ||
      GPU.containsText d "abnormal ch exit" || GPU.containsText d "ch process killed" ||
      GPU.containsText d "destination not reachable" then .podTerminated
  else if d = "cancelled" || GPU.containsText d "cancelled by operator" then .cancelled
  else if textStartsWith d "w1_violation" || GPU.containsText d "w1 violation" ||
      GPU.containsText d "destination not running post-receive" then .rpcError
  else if textStartsWith d "send_migration:" || textStartsWith d "receive_migration:" then
    if GPU.containsText d "transport_error" || GPU.containsText d "connection_refused" then .receiveDisconnect
    else .rpcError
  else .other

def isLocalStunnelNotReady (detail : String) : Bool :=
  let d := lowered detail
  (textStartsWith d "send_migration:" && GPU.containsText d "connection_refused") ||
    (GPU.containsText d "migration connection to 127.0.0.1:" && GPU.containsText d "never opened") ||
    GPU.containsText d "before its connection to the destination was established"

def isDestReceiverNotReady (detail : String) : Bool :=
  let d := lowered detail
  textStartsWith d "send_migration:" && GPU.containsText d "internal_server_error"

def phaseDetailLiveIssuingRecv := "issuing receive on destination"
def phaseDetailLiveDestReceiving := "destination receiving"
def phaseDetailLiveIssuingSend := "issuing send on source"
def phaseDetailLiveTransferring := "transferring guest state"
def phaseDetailLiveSourceBusy := "waiting for the source launcher to finish a previous send"
def phaseDetailLiveDestRunning := "destination running; waiting for the source's report"
def phaseDetailLiveSrcCompleted := "src migration complete; preparing cutover"
def phaseDetailLiveCutoverPodRef := "cutover: updating canonical pod"
def phaseDetailLiveCutoverDeleteSrc := "cutover: deleting source pod"
def phaseDetailLiveCutoverCompleting := "cutover: completing"

def isPreCutoverPhaseDetail (detail : String) : Bool :=
  [phaseDetailLiveIssuingRecv, phaseDetailLiveDestReceiving, phaseDetailLiveIssuingSend,
    phaseDetailLiveTransferring, phaseDetailLiveSourceBusy, phaseDetailLiveSrcCompleted].contains detail

def canonicalPodNameForGuest (guestName : String) (guest : SwiftGuest) : String :=
  match guest.podRef with
  | some ref => if ref.name = "" then guestName else ref.name
  | none => guestName

def srcPodLookupName (guest : SwiftGuest) : String :=
  match mig.status.sourcePodRef with
  | some name => if name = "" then canonicalPodNameForGuest mig.guestRef guest else name
  | none => canonicalPodNameForGuest mig.guestRef guest

def shortUIDLength : Nat := 6

def dstPodNameMaxLength : Nat := 64

def dstPodName : Except String String :=
  if mig.uid = "" then
    .error ("SwiftMigration " ++ quote mig.name ++ " has empty UID; dst pod name cannot be derived")
  else if mig.uid.length < shortUIDLength then
    .error ("SwiftMigration " ++ quote mig.name ++ " UID " ++ quote mig.uid ++
      " shorter than 6 chars; cannot derive short-uid")
  else
    let name := mig.guestRef ++ "-mig-" ++ String.ofList (mig.uid.toList.take shortUIDLength)
    if dstPodNameMaxLength < name.length then
      .error ("dst pod name " ++ quote name ++ " exceeds DNS-1123 limit (" ++ toString name.length ++
        " chars > 64); guest.Name should have been capped at admission for mode=live")
    else .ok name

def recvActionID : ActionID := .recv mig.name (max 1 mig.status.recvAttempts)

def sendAttemptNumber : Nat := max 1 mig.status.sendAttempts

def sendActionID : ActionID := .send mig.name (sendAttemptNumber mig)

def cancelID : ActionID := .cancel mig.name

def cancelSendID : ActionID := .cancelSend mig.name

def ActionID.isSendOf : ActionID → Bool
  | .send name _ => name = mig.name
  | _ => false

def ActionID.isRecvOf : ActionID → Bool
  | .recv name _ => name = mig.name
  | _ => false

def podActionMatches (pod : Option Pod) (action : Verb) (id : ActionID) : Bool :=
  pod.any fun p => p.action = action && p.actionID = id

def podStatusMatches (pod : Option Pod) (status : Report) (id : ActionID) : Bool :=
  pod.any fun p => p.status = status && p.statusID = id

def srcReportedComplete (src : Option Pod) : Bool :=
  podStatusMatches src .complete (sendActionID mig)

def dstReportedRunning (dst : Option Pod) : Bool :=
  podStatusMatches dst .running (recvActionID mig)

def passedCommitPoint (src dst : Option Pod) : Bool :=
  srcReportedComplete mig src || dstReportedRunning mig dst

inductive Substate
  | preRecv | recvPending | preSend | sendPending | srcCompleted
  | dstFailed | srcFailed | dstRejected | srcRejected | dstRunning
  deriving DecidableEq, Repr, Inhabited

def deriveSubstate (src dst : Option Pod) : Substate :=
  let rid := recvActionID mig
  let sid := sendActionID mig
  if podStatusMatches src .complete sid then .srcCompleted
  else if podStatusMatches dst .running rid then .dstRunning
  else if podStatusMatches src .failed sid then .srcFailed
  else if podStatusMatches src .rejected sid then .srcRejected
  else if podStatusMatches dst .failed rid then .dstFailed
  else if podStatusMatches dst .rejected rid then .dstRejected
  else if podActionMatches src .send sid then .sendPending
  else if podStatusMatches dst .receiveReady rid then .preSend
  else if podActionMatches dst .receive rid then .recvPending
  else .preRecv

inductive CutoverStep
  | step1 | step1TimestampOnly | step2 | step3
  deriving DecidableEq, Repr, Inhabited

def deriveCutoverStep (guest : SwiftGuest) (srcPodPresent : Bool) (dstName : String) :
    CutoverStep :=
  if (guest.podRef.map fun ref => ref.name) ≠ some dstName then .step1
  else if !mig.status.cutoverStep1At then .step1TimestampOnly
  else if srcPodPresent then .step2
  else .step3

def srcReportedSendEnded (src : Pod) : Bool :=
  src.statusID = sendActionID mig && (src.status = .failed || src.status = .rejected)

def sourceCancelIssued (src : Pod) : Bool :=
  src.action = .cancelSend && src.actionID = cancelSendID mig

def sendMayHaveStarted (src : Pod) : Bool :=
  src.actionID.isSendOf mig || src.statusID.isSendOf mig || sourceCancelIssued mig src ||
    src.cancelResultID = cancelSendID mig

def launcherFeatureMigrationCancel := "migration-cancel"

def sourceCanCancel (src : Pod) : Bool :=
  let cid := cancelSendID mig
  if src.cancelResultID = cid && src.cancelResult = .failed && !sourceCancelIssued mig src then false
  else if sourceCancelIssued mig src || src.cancelResultID = cid then true
  else src.launcherFeatures.contains launcherFeatureMigrationCancel && !src.deleting

def destinationCancelIssued (dst : Pod) : Bool :=
  dst.action = .cancel && dst.actionID = cancelID mig

def cancelAcknowledged (dst : Pod) : Bool :=
  dst.status = .failed && dst.statusID = cancelID mig &&
    GPU.containsText (String.ofList (dst.statusDetail.toList.map Char.toLower)) "cancelled"

def shouldCheckSourcePodUID : Bool :=
  match mig.status.phase with
  | .pending | .validating | .preparing => true
  | .stopAndCopy => !isPostCutover mig && isPreCutoverPhaseDetail mig.status.phaseDetail
  | _ => false

def dstPodReady (pod : Pod) : Bool := pod.phase = .running && pod.ready

def dstPodMatches (existing : Pod) (mig : SwiftMigration) : Bool :=
  existing.guestLabel = mig.guestRef && existing.migrationRole = "destination" &&
    existing.migrationName = mig.name && (existing.controller.any fun owner => owner.name = mig.guestRef)

def newDstPod (guest : SwiftGuest) (src : Pod) (mtls : Bool) : Pod where
  uid := ""
  controller := some ⟨mig.guestRef, guest.uid⟩
  guestLabel := mig.guestRef
  migrationRole := "destination"
  migrationName := mig.name
  nodeName := mig.target
  hostname := src.hostname
  deleting := false
  phase := .unset
  ready := false
  podIP := ""
  initFailure := none
  launcherReady := false
  phase2Ack := !mtls
  launcherFeatures := []
  guestIP := ""
  action := .none
  actionID := .absent
  status := .none
  statusID := .absent
  statusDetail := ""
  cancelResult := .none
  cancelResultID := .absent
  cancelResultDetail := ""
  cancelIssuedAt := false

def patched {α : Type} [DecidableEq α] (current base wanted : α) : α :=
  if base = wanted then current else wanted

-- A list of conditions is replaced as a whole.
def SwiftMigrationStatus.merge (current base wanted : SwiftMigrationStatus) : SwiftMigrationStatus where
  phase := patched current.phase base.phase wanted.phase
  phaseDetail := patched current.phaseDetail base.phaseDetail wanted.phaseDetail
  mode := patched current.mode base.mode wanted.mode
  conditions := patched current.conditions base.conditions wanted.conditions
  sourceNode := patched current.sourceNode base.sourceNode wanted.sourceNode
  destinationNode := patched current.destinationNode base.destinationNode wanted.destinationNode
  sourcePodUID := patched current.sourcePodUID base.sourcePodUID wanted.sourcePodUID
  sourcePodRef := patched current.sourcePodRef base.sourcePodRef wanted.sourcePodRef
  destinationPodRef := patched current.destinationPodRef base.destinationPodRef wanted.destinationPodRef
  recvAttempts := patched current.recvAttempts base.recvAttempts wanted.recvAttempts
  sendAttempts := patched current.sendAttempts base.sendAttempts wanted.sendAttempts
  cutoverStep1At := patched current.cutoverStep1At base.cutoverStep1At wanted.cutoverStep1At
  cutoverStep2DispatchedAt :=
    patched current.cutoverStep2DispatchedAt base.cutoverStep2DispatchedAt wanted.cutoverStep2DispatchedAt
  startedAt := patched current.startedAt base.startedAt wanted.startedAt
  preparingStartedAt := patched current.preparingStartedAt base.preparingStartedAt wanted.preparingStartedAt
  resumingStartedAt := patched current.resumingStartedAt base.resumingStartedAt wanted.resumingStartedAt
  completedAt := patched current.completedAt base.completedAt wanted.completedAt
  terminalAt := patched current.terminalAt base.terminalAt wanted.terminalAt
  targetIP := patched current.targetIP base.targetIP wanted.targetIP
  failureReason := patched current.failureReason base.failureReason wanted.failureReason
  failureMessage := patched current.failureMessage base.failureMessage wanted.failureMessage

def SwiftGuest.merge (current base wanted : SwiftGuest) : SwiftGuest :=
  { current with
    inProgress := patched current.inProgress base.inProgress wanted.inProgress
    runPolicy := patched current.runPolicy base.runPolicy wanted.runPolicy
    nodeName := patched current.nodeName base.nodeName wanted.nodeName }

def SwiftGuest.mergeStatus (current base wanted : SwiftGuest) : SwiftGuest :=
  { current with
    podRef := patched current.podRef base.podRef wanted.podRef
    gpu := patched current.gpu base.gpu wanted.gpu }

def Pod.merge (current base wanted : Pod) : Pod :=
  { current with
    migrationName := patched current.migrationName base.migrationName wanted.migrationName
    phase2Ack := patched current.phase2Ack base.phase2Ack wanted.phase2Ack
    action := patched current.action base.action wanted.action
    actionID := patched current.actionID base.actionID wanted.actionID
    cancelResult := patched current.cancelResult base.cancelResult wanted.cancelResult
    cancelResultID := patched current.cancelResultID base.cancelResultID wanted.cancelResultID
    cancelResultDetail := patched current.cancelResultDetail base.cancelResultDetail wanted.cancelResultDetail
    cancelIssuedAt := patched current.cancelIssuedAt base.cancelIssuedAt wanted.cancelIssuedAt }

@[simp] theorem patched_self {α : Type} [DecidableEq α] (current wanted : α) :
    patched current current wanted = wanted := by
  unfold patched
  split <;> simp_all

@[simp] theorem SwiftMigrationStatus.merge_self (current wanted : SwiftMigrationStatus) :
    current.merge current wanted = wanted := by
  simp [merge]

end KubeSwift.Migration
