import KubeSwift.Migration.Cluster

/-! # The `SwiftMigration` reconciler

The handlers of `internal/controller/swiftmigration`. A handler works on a copy of the status; a transient error is an
error of the program. -/

namespace KubeSwift.Migration
open Program

inductive Outcome
  | advance | requeue | failure (message : String) (reason : FailureReason)
  deriving DecidableEq, Repr

abbrev Handled := Outcome × SwiftMigrationStatus

section

variable (mig : SwiftMigration) (status : SwiftMigrationStatus)

def timeoutFailure : Outcome :=
  .failure ("spec.timeout=" ++ mig.timeout ++ " exceeded since StartedAt; migration did not complete in time") .timeout

def persist : Act Unit :=
  if mig.status = status then pure ()
  else
    let freshTerminal := isTerminalPhase status.phase && !isTerminalPhase mig.status.phase
    let status := if freshTerminal then { status with terminalAt := true } else status
    ignoreNotFound (issue (.patchStatus mig.status status))

def persistPhaseDetail (detail : String) : Act Unit :=
  if mig.status.phaseDetail = detail then pure ()
  else do
    let _ ← issue (.patchStatus mig.status { mig.status with phaseDetail := detail })
    pure ()

def liveCommitted : Act Bool :=
  if isPostCutover mig then pure true
  else if mig.status.mode ≠ .live then pure false
  else do
    match ← readGuest with
    | none => pure false
    | some guest =>
      let src ← readPod (srcPodLookupName mig guest)
      if srcReportedComplete mig src then pure true
      else match dstPodName mig with
        | .error _ => pure false
        | .ok dstName =>
          let dst ← readPod dstName
          pure (dstReportedRunning mig dst)

def deletionCommitted : Act Bool :=
  if mig.status.mode = .live then liveCommitted mig
  else if mig.status.destinationNode = "" then pure false
  else do
    match ← readGuest with
    | none => pure false
    | some guest => pure (guest.nodeName = mig.status.destinationNode)

def finishCutoverBeforeDeletion : Act Bool :=
  if !mig.finalizer || isTerminalPhase mig.status.phase || mig.status.mode ≠ .live then pure false
  else liveCommitted mig

inductive AbortOutcome
  | pending | noSend | sourceRetained | destinationDead | committed | unresolved
  deriving DecidableEq, Repr

inductive CancelPath
  | unset | none | source | destination
  deriving DecidableEq, Repr

inductive AbortTrigger
  | explicit | deadline | deletion | failure
  deriving DecidableEq, Repr

structure AbortResolution where
  outcome : AbortOutcome
  path : CancelPath
  detail : String
  deriving DecidableEq, Repr

def AbortResolution.settled (res : AbortResolution) : Bool :=
  res.outcome ≠ .pending && res.outcome ≠ .committed

def triggerText : AbortTrigger → String
  | .explicit => "cancel requested"
  | .deadline => "spec.timeout expired"
  | .deletion => "SwiftMigration deleted"
  | .failure => "migration failed"

def abortTriggerFor (reason : FailureReason) : AbortTrigger :=
  if reason = .timeout then .deadline else .failure

def Pod.withoutAction (pod : Pod) : Pod := { pod with action := .none, actionID := .absent }

def clearAction (name : String) (own : Pod → Bool) : Act Unit := do
  match ← readPod name with
  | none => pure ()
  | some pod =>
    if own pod then ignoreNotFound (issue (.patchPod name pod pod.withoutAction)) else pure ()

def clearSourceSend : Act Unit := do
  match ← readGuest with
  | none => pure ()
  | some guest => clearAction (srcPodLookupName mig guest) fun src => src.actionID.isSendOf mig

def clearLauncherCancel : Act Unit := do
  match ← readGuest with
  | none => pure ()
  | some guest => clearAction (srcPodLookupName mig guest) (sourceCancelIssued mig)

-- Only a launcher that the guest controls is its launcher.
def clearDestinationReceive : Act Unit :=
  if mig.status.phase ≠ .completed then pure ()
  else do
    match ← readGuest with
    | none => pure ()
    | some guest =>
      clearAction (canonicalPodNameForGuest mig.guestRef guest) fun pod =>
        (pod.controller.any fun owner => owner.uid = guest.uid) && pod.actionID.isRecvOf mig

def sendEnded (src : Pod) : AbortResolution :=
  ⟨.sourceRetained, .source, trimStart (normalizeStatusDetail src.statusDetail) "cancelled: "⟩

def fallBackToDestinationCancel (srcName : String) (src : Pod) (reason : String) : Act Unit :=
  let recorded := if src.cancelResultID = cancelSendID mig then src
    else { src with cancelResultID := cancelSendID mig, cancelResult := .failed, cancelResultDetail := reason }
  let withdrawn := if sourceCancelIssued mig recorded then recorded.withoutAction else recorded
  ignoreNotFound (issue (.patchPod srcName src withdrawn))

-- `none` means that the destination has to be asked instead.
def resolveOnSource (srcName : String) (src dst : Pod) : Act (Option AbortResolution) :=
  let cid := cancelSendID mig
  let pending : AbortResolution :=
    ⟨.pending, .source, "waiting for the source to report the cancelled transfer"⟩
  if !sourceCancelIssued mig src && src.cancelResultID ≠ cid then do
    let _ ← issue (.patchPod srcName src { src with action := .cancelSend, actionID := cid, cancelIssuedAt := true })
    pure (some pending)
  else
    let answered := src.cancelResultID = cid
    let sending := src.status = .sending && src.statusID = sendActionID mig
    if srcReportedComplete mig (some src) || dstReportedRunning mig (some dst) then
      pure (some ⟨.committed, .source, "the transfer completed before the cancel took effect"⟩)
    else if srcReportedSendEnded mig src then
      pure (some (sendEnded src))
    else if answered && src.cancelResult = .failed then do
      fallBackToDestinationCancel mig srcName src ("the source could not cancel: " ++ src.cancelResultDetail)
      pure none
    else if answered && src.cancelResult = .notActive && !sending then
      pure (some ⟨.sourceRetained, .source, "cancelled before the source sent anything"⟩)
    else if !src.cancelIssuedAt then do
      let _ ← issue (.patchPod srcName src { src with cancelIssuedAt := true })
      pure (some pending)
    else do
      if ← issue (.clock .sourceCancel) then
        fallBackToDestinationCancel mig srcName src "the source did not report within 1m0s"
        pure none
      else pure (some pending)

def resolveOnDestination (dstName : String) (dst : Pod) : Act AbortResolution := do
  clearSourceSend mig
  let waiting : AbortResolution := ⟨.pending, .destination, "waiting for cancel acknowledgment"⟩
  if !destinationCancelIssued mig dst then
    let _ ← issue (.patchPod dstName dst
      { dst with action := .cancel, actionID := cancelID mig, cancelIssuedAt := true })
    pure ⟨.pending, .destination, "issuing cancel on destination"⟩
  else if cancelAcknowledged mig dst then
    pure ⟨.destinationDead, .destination, "the receiving Cloud Hypervisor was stopped before it ran the guest"⟩
  else if !dst.cancelIssuedAt then
    let _ ← issue (.patchPod dstName dst { dst with cancelIssuedAt := true })
    pure waiting
  else if ← issue (.clock .cancelAck) then
    pure ⟨.unresolved, .destination, "swiftletd cancel ack timed out (30s budget)"⟩
  else pure waiting

def resolveTransfer (srcName dstName : String) (src : Option Pod) (dst : Pod) : Act AbortResolution :=
  match src with
  | none => resolveOnDestination mig dstName dst
  | some src =>
    if srcReportedSendEnded mig src then
      pure (sendEnded src)
    else if destinationCancelIssued mig dst then resolveOnDestination mig dstName dst
    else if !sendMayHaveStarted mig src then pure ⟨.noSend, .none, "the source never started sending"⟩
    else if sourceCanCancel mig src then do
      match ← resolveOnSource mig srcName src dst with
      | some res => pure res
      | none => resolveOnDestination mig dstName dst
    else resolveOnDestination mig dstName dst

def resolveSourceOwnership : Act AbortResolution := do
  if ← liveCommitted mig then pure ⟨.committed, .none, "the migration had already committed"⟩
  else
    match ← readGuest with
    | none => pure ⟨.noSend, .none, "the source SwiftGuest is gone"⟩
    | some guest =>
      match dstPodName mig with
      | .error e => pure ⟨.noSend, .none, "no destination pod name: " ++ e⟩
      | .ok dstName =>
        match ← readPod dstName with
        | none => pure ⟨.noSend, .none, "the destination pod does not exist"⟩
        | some dst =>
          let srcName := srcPodLookupName mig guest
          let src ← readPod srcName
          resolveTransfer mig srcName dstName src dst

def deleteAbandonedDestination (res : AbortResolution) : Act Unit :=
  if !res.settled then .fail (.text "internal: destination cleanup before ownership was resolved")
  else do
    match ← readGuest with
    | none => pure ()
    | some _ =>
      match dstPodName mig with
      | .error _ => pure ()
      | .ok name => ignoreNotFound (issue (.deletePod name (res.outcome = .unresolved)))

def cleanupDstPod : Act Unit :=
  match status.destinationPodRef with
  | none => pure ()
  | some name => if name = "" then pure () else ignoreNotFound (issue (.deletePod name false))

def allocatedTo : String := mig.namespace_ ++ "/" ++ mig.guestRef

def resolveGPUProfile (guest : SwiftGuest) : Act GPU.SwiftGPUProfileSpec :=
  match guest.gpuProfileRef with
  | none => .fail (.text ("guest " ++ quote mig.guestRef ++ " has no gpuProfileRef"))
  | some name => issue (.getProfile name)

-- What failed; the cause, which the message ends with, is left out.
def reserveTargetGPUs (guest : SwiftGuest) : Act (Except String Unit) := do
  match ← (resolveGPUProfile mig guest).attempt with
  | .error _ => pure (.error "reserve target GPUs")
  | .ok profile =>
    match ← (onGPUs (GPU.reserveOnNode (allocatedTo mig) profile mig.target)).attempt with
    | .error _ => pure (.error ("reserve target GPUs on " ++ quote mig.target))
    | .ok _ => pure (.ok ())

def stampedGPU (guest : SwiftGuest) (al : GPU.Allocation) : GPUStatus where
  devices := al.gpus.map fun g => g.pciAddress
  partitionID := al.partitionID
  numaNodes := al.numaNodes
  hypervisor := (guest.gpu.map fun gpu => gpu.hypervisor).getD ""
  nodeName := mig.target

def gpuNode (guest : SwiftGuest) : String := (guest.gpu.map fun gpu => gpu.nodeName).getD ""

def cutoverGPUs (guest : SwiftGuest) : Act SwiftGuest :=
  if (guest.gpu.map fun gpu => gpu.nodeName) = some mig.target then pure guest
  else do
    let profile ← resolveGPUProfile mig guest
    let al ← onGPUs (GPU.reserveOnNode (allocatedTo mig) profile mig.target)
    let sourceNode := gpuNode guest
    if sourceNode ≠ "" ∧ sourceNode ≠ mig.target then
      onGPUs (GPU.releaseFromNodeFor (allocatedTo mig) sourceNode)
    issue (.patchGuestStatus guest { guest with gpu := some (stampedGPU mig guest al) })

def releaseTargetReservation (guest : SwiftGuest) : Act Unit :=
  if (guest.gpu.map fun gpu => gpu.nodeName) = some mig.target then pure ()
  else do
    match ← (onGPUs (GPU.releaseFromNodeFor (allocatedTo mig) mig.target)).attempt with
    | .ok _ | .error (.gpu .notFound) => pure ()
    | .error e => .fail e

def cleanupSourceGuest (restoreRunPolicy : Bool) : Act Unit := do
  match ← readGuest with
  | none => pure ()
  | some guest =>
    if guest.inProgress ≠ mig.name then pure ()
    else
      let runPolicy := if restoreRunPolicy ∧ guest.runPolicy = .stopped then .running else guest.runPolicy
      match ← lookup (issue (.patchGuest guest { guest with inProgress := "", runPolicy })) with
      | none => pure ()
      | some guest =>
        if restoreRunPolicy && guest.hasVFIODevices then releaseTargetReservation mig guest else pure ()

def undoFailed (postCutover : Bool) : Act Unit := do
  cleanupSourceGuest mig !postCutover
  if !postCutover ∧ status.mode = .live then
    clearSourceSend mig
    cleanupDstPod status

def onTerminalPhase : Act Unit :=
  if status.phase ≠ .failed then pure ()
  else if status.mode = .live then undoFailed mig status (isPostCutover mig)
  else do
    match ← readGuest with
    | none => pure ()
    | some guest =>
      undoFailed mig status (guest.nodeName = status.destinationNode && status.destinationNode ≠ "")

def resolveBeforeFailing (reason : FailureReason) : Act (Bool × AbortResolution) :=
  if !isLiveMode mig status || isPostCutover mig then pure (false, ⟨.noSend, .none, ""⟩)
  else do
    let resolution ← resolveSourceOwnership mig
    match resolution.outcome with
    | .pending =>
      persist mig { status with
        phaseDetail := triggerText (abortTriggerFor reason) ++ "; " ++ resolution.detail }
      pure (true, resolution)
    | .committed => pure (true, resolution)
    | _ => pure (false, resolution)

def failedStatus (message : String) (reason : FailureReason) :
    SwiftMigrationStatus :=
  { status with
    phase := .failed
    failureMessage := message
    failureReason := if reason = .none then status.failureReason else reason
    completedAt := .now }

def recordFailure (resolution : AbortResolution) (failed : SwiftMigrationStatus) : Act Unit := do
  if resolution.outcome = .unresolved then deleteAbandonedDestination mig resolution
  clearLauncherCancel mig
  onTerminalPhase mig failed
  persist mig failed

def failMigration (message : String) (reason : FailureReason) : Act Unit := do
  let (held, resolution) ← resolveBeforeFailing mig status reason
  if held then pure () else recordFailure mig resolution (failedStatus status message reason)

def dispatchResult (result : Handled) : Act Unit :=
  match result with
  | (.failure message reason, status) => failMigration mig status message reason
  | (_, status) => persist mig status

def removeFinalizer : Act Unit :=
  if mig.finalizer then ignoreNotFound (issue (.patchFinalizer false)) else pure ()

/-- The end of a deletion: release the guest, then the object. `resolved`: the destination pod was dealt with. -/
def finishDeletion (committed resolved : Bool) : Act Unit := do
  cleanupSourceGuest mig !committed
  if !committed ∧ mig.status.mode = .live ∧ !resolved then cleanupDstPod mig.status
  issue (.ensure .nodeIdentities)
  removeFinalizer mig

def handleCancellation : Act Unit :=
  if !mig.finalizer then pure ()
  else do
    let committed ← deletionCommitted mig
    if !committed ∧ mig.status.mode = .live ∧ !isTerminalPhase mig.status.phase then
      let resolution ← resolveSourceOwnership mig
      match resolution.outcome with
      | .pending =>
        let _ ← (persistPhaseDetail mig ("SwiftMigration deleted; " ++ resolution.detail)).attempt
        pure ()
      | .committed => pure ()
      | _ =>
        deleteAbandonedDestination mig resolution
        clearLauncherCancel mig
        finishDeletion mig committed true
    else finishDeletion mig committed false

def cancelledDetail (res : AbortResolution) : String :=
  match res.outcome with
  | .sourceRetained => "cancelled on the source (" ++ res.detail ++ "); destination pod deleted"
  | .destinationDead => "destination pod deleted after swiftletd cancel ack"
  | .unresolved => "destination pod force-deleted; swiftletd cancel ack timed out (30s budget)"
  | _ =>
    if res.detail = "the source SwiftGuest is gone" then
      "source SwiftGuest missing at cancel-time; nothing to clean up"
    else if res.detail = "the destination pod does not exist" then
      "destination pod does not exist; cancel completes without swiftletd ack"
    else res.detail ++ "; destination pod deleted"

def finalizeCancelled (detail : String) : Act Unit := do
  let cancelled := { mig.status with
    phase := .cancelled
    completedAt := .now
    failureReason := .cancelled
    failureMessage := detail
    phaseDetail := detail }
  match ← (issue (.patchStatusLocked mig.resourceVersion mig.status cancelled)).attempt with
  | .ok _ | .error .conflict => pure ()
  | .error e => .fail e

def transitionCancelLive : Act Unit := do
  let res ← resolveSourceOwnership mig
  match res.outcome with
  | .pending =>
    let _ ← (persistPhaseDetail mig res.detail).attempt
    pure ()
  | .committed => pure ()
  | _ =>
    deleteAbandonedDestination mig res
    clearLauncherCancel mig
    finalizeCancelled mig (cancelledDetail res)

def markCancelIgnored : Act SwiftMigration :=
  if mig.status.conditions.cancelIgnored then pure mig
  else issue (.patchStatus mig.status
    { mig.status with conditions := { mig.status.conditions with cancelIgnored := true } })

-- `none` when the pass ends here, else the object it goes on with.
def honorCancel : Act (Option SwiftMigration) :=
  if !mig.cancelRequested || mig.status.mode ≠ .live then pure (some mig)
  else do
    if ← liveCommitted mig then
      let mig ← markCancelIgnored mig
      pure (some mig)
    else
      transitionCancelLive mig
      pure none

def guestGone (during : String) (reason : FailureReason) : Outcome :=
  .failure ("source SwiftGuest " ++ quote mig.guestRef ++ " deleted during " ++ during) reason

def guestMissing (reason : FailureReason) : Outcome :=
  .failure ("source SwiftGuest " ++ quote mig.guestRef ++ " no longer exists in namespace " ++
    quote mig.namespace_) reason

def runChecks (status : SwiftMigrationStatus) (passed : SwiftMigrationStatus → Act Handled) : List Check → Act Handled
  | [] => passed status
  | what :: rest => do
    match ← issue (.check what) with
    | .pass => runChecks status passed rest
    | .fail message reason => pure (.failure message reason, status)
    | .wait detail => pure (.requeue, { status with phaseDetail := detail })

def resolveAutoMode : Act (Option Mode) := do
  match ← readGuest with
  | none => pure none
  | some guest =>
    if guest.hasVFIODevices then pure (some .offline)
    else
      match ← issue (.check .autoLive) with
      | .pass => pure (some .live)
      | _ => pure (some .offline)

def sourcePodCopyable (guest : SwiftGuest) (srcName : String) (src : Pod)
    (status : SwiftMigrationStatus) (copyable : SwiftMigrationStatus → Act Handled) : Act Handled :=
  if !(src.controller.any fun owner => owner.uid = guest.uid) then
    pure (.failure ("source pod " ++ quote srcName ++ " is not controlled by SwiftGuest " ++
      quote mig.guestRef ++ "; refusing to copy it to the destination") .other, status)
  else runChecks status copyable [.sourceImages]

end

section Handlers

variable (mtls : Bool) (mig : SwiftMigration) (status : SwiftMigrationStatus)

def handleValidatingLive : Act Handled := do
  match ← readGuest with
  | none => pure (guestMissing mig .other, status)
  | some guest =>
    if !guest.migrationEnabled then
      pure (.failure ("SwiftGuest " ++ quote mig.guestRef ++ " has spec.migration.enabled=false")
        .eligibilityMismatch, status)
    else
      runChecks status (fun status =>
        if guest.hasVFIODevices then
          pure (.failure ("SwiftGuest " ++ quote mig.guestRef ++ " has VFIO devices (gpuProfileRef or " ++
            "an SR-IOV interface); they cannot live-migrate. Use spec.mode=offline")
            .eligibilityMismatch, status)
        else runChecks status (fun status => do
          let status := { status with
            mode := .live, sourceNode := guest.statusNodeName, destinationNode := mig.target }
          let srcName := canonicalPodNameForGuest mig.guestRef guest
          match ← readPod srcName with
          | none =>
            pure (.failure ("source SwiftGuest " ++ quote mig.guestRef ++
              " has no pod; cannot live-migrate a non-running guest") .other, status)
          | some src =>
            let status := { status with sourcePodUID := src.uid, sourcePodRef := some srcName }
            runChecks status (fun status =>
              sourcePodCopyable mig guest srcName src status fun status =>
                runChecks status (fun status =>
                  pure (.advance, { status with
                    phase := .preparing, phaseDetail := "preparing destination launcher pod" }))
                  ([.targetNode, .capacity] ++ if mtls then [.identity] else []))
              [.volumeDetach]) [.liveBackends]) [.liveStorage]

def handleValidatingOffline : Act Handled := do
  match ← readGuest with
  | none => pure (guestMissing mig .none, status)
  | some guest =>
    if !guest.migrationEnabled then
      pure (.failure ("SwiftGuest " ++ quote mig.guestRef ++ " has spec.migration.enabled=false") .none, status)
    else
      let status := { status with
        sourceNode := guest.statusNodeName, destinationNode := mig.target, mode := .offline }
      runChecks status (fun status =>
        pure (.advance, { status with phase := .preparing, phaseDetail := "stopping source SwiftGuest" }))
        ([.targetNode, .capacity] ++ if guest.hasVFIODevices then [.gpuCapacity] else [])

def handleValidatingMode : Act Handled :=
  if isLiveMode mig status then handleValidatingLive mtls mig status else handleValidatingOffline mig status

def handleValidating : Act Handled :=
  runChecks status (fun status =>
    if mig.specMode = .auto ∧ status.mode = .unset then do
      match ← resolveAutoMode with
      | none => pure (guestMissing mig .none, status)
      | some mode => handleValidatingMode mtls mig { status with mode }
    else handleValidatingMode mtls mig status) [.sharedBase]

def sourceReplaced (src : Pod) : Outcome :=
  .failure ("source pod for SwiftGuest " ++ quote mig.guestRef ++ " was replaced (UID changed from " ++
    quote status.sourcePodUID ++ " to " ++ quote src.uid ++ ")") .sourcePodReplaced

def sourceMissing (what : String) : Outcome :=
  .failure ("source pod for SwiftGuest " ++ quote mig.guestRef ++ " no longer exists" ++ what) .sourcePodReplaced

def createDstPod (guest : SwiftGuest) (dstName srcName : String) (src : Pod)
    (status : SwiftMigrationStatus) : Act Handled :=
  sourcePodCopyable mig guest srcName src status fun status => do
    issue (.ensure .frozenIntent)
    issue (.ensure .ovnIdentity)
    runChecks status (fun status => do
      let status := { status with phaseDetail := "creating destination pod" }
      match ← (issue (.createPod dstName (newDstPod mig guest src mtls))).attempt with
      | .error .alreadyExists => pure (.requeue, status)
      | .error e => .fail e
      | .ok _ =>
        pure (.requeue, { status with
          destinationPodRef := some dstName, phaseDetail := "waiting for destination pod ready" }))
      [.buildPod]

def awaitDstPod (dstName : String) (dst : Pod) (status : SwiftMigrationStatus) : Act Handled :=
  if !dstPodMatches dst mig then
    pure (.failure ("destination pod " ++ quote dstName ++ " exists but does not match expected " ++
      "ownership/labels (possible name collision)") .dstPodConflict, status)
  else
    runChecks status (fun status => do
      let status := { status with destinationPodRef := some dstName }
      if mtls ∧ dst.podIP ≠ "" then issue (.ensure .sourceInputs)
      if dstPodReady dst then
        pure (.advance, { status with
          phase := .stopAndCopy, phaseDetail := "destination pod ready; advancing to StopAndCopy" })
      else if ← issue (.clock .preparingReady) then
        pure (.failure ("destination pod " ++ quote dstName ++ " never reached Ready within 1m0s budget")
          .dstNeverReady, status)
      else pure (.requeue, { status with phaseDetail := "waiting for destination pod ready" }))
      [.buildPod, .dstImages]

def prepareDstPod (guest : SwiftGuest) (status : SwiftMigrationStatus) : Act Handled := do
  let status := { status with preparingStartedAt := true }
  let srcName := srcPodLookupName mig guest
  match ← readPod srcName with
  | none => pure (sourceMissing mig "; cannot template dst pod", status)
  | some src =>
    match dstPodName mig with
    | .error e => pure (.failure e .other, status)
    | .ok dstName =>
      issue (.ensure .launcherRBAC)
      match ← readPod dstName with
      | none => createDstPod mtls mig guest dstName srcName src status
      | some dst => awaitDstPod mtls mig dstName dst status

def preparingLive (guest : SwiftGuest) (status : SwiftMigrationStatus) : Act Handled :=
  if shouldCheckSourcePodUID mig ∧ status.sourcePodUID ≠ "" then do
    match ← readPod (srcPodLookupName mig guest) with
    | none => pure (sourceMissing mig " during Preparing", status)
    | some src =>
      if src.uid ≠ status.sourcePodUID then pure (sourceReplaced mig status src, status)
      else prepareDstPod mtls mig guest status
  else prepareDstPod mtls mig guest status

def handlePreparingLive : Act Handled := do
  match ← readGuest with
  | none => pure (guestGone mig "Preparing" .other, status)
  | some guest => preparingLive mtls mig guest status

def claimGuest (guest : SwiftGuest) : Act SwiftGuest :=
  if guest.inProgress = "" then
    issue (.patchGuest guest { guest with inProgress := mig.name, runPolicy := .stopped })
  else pure guest

def stopSourcePod (guest : SwiftGuest) (status : SwiftMigrationStatus) : Act Handled := do
  let name := canonicalPodNameForGuest mig.guestRef guest
  match ← readPod name with
  | some pod =>
    if !pod.deleting then ignoreNotFound (issue (.deletePod name false))
    pure (.requeue, { status with phaseDetail := "waiting for source pod termination" })
  | none =>
    runChecks status (fun status =>
      pure (.advance, { status with
        phase := .stopAndCopy, phaseDetail := "patching SwiftGuest to start on destination node" }))
      [.volumeAttached]

def handlePreparing : Act Handled :=
  if isLiveMode mig status then handlePreparingLive mtls mig status
  else do
    match ← readGuest with
    | none => pure (guestGone mig "Preparing" .none, status)
    | some guest =>
      if guest.inProgress ≠ "" ∧ guest.inProgress ≠ mig.name then
        pure (.failure ("another SwiftMigration " ++ quote guest.inProgress ++
          " is already in progress for SwiftGuest " ++ quote mig.guestRef) .none, status)
      else
        let reserved ← (if guest.hasVFIODevices then reserveTargetGPUs mig guest else pure (.ok ()))
        match reserved with
        | .error message => pure (.failure message .none, status)
        | .ok _ =>
          let guest ← claimGuest mig guest
          stopSourcePod mig guest status

/-- The times of step 1, which only `dispatchResult` persists. -/
def cutoverStep1Timestamp : Handled :=
  (.requeue, { status with
    cutoverStep1At := true
    conditions := { status.conditions with podRefSwapped := true }
    phaseDetail := phaseDetailLiveCutoverDeleteSrc })

def cutoverStep1 (guest : SwiftGuest) (dstName : String) (dstUID : String) : Act Handled := do
  let guest ← (
    if guest.nodeName ≠ "" ∧ guest.nodeName ≠ mig.target then
      issue (.patchGuest guest { guest with nodeName := mig.target })
    else pure guest)
  let _ ← issue (.patchGuestStatus guest { guest with podRef := some ⟨dstName, dstUID⟩ })
  pure (cutoverStep1Timestamp { status with phaseDetail := phaseDetailLiveCutoverPodRef })

def cutoverStep2 (srcName : String) : Act Handled := do
  ignoreNotFound (issue (.deletePod srcName false))
  pure (.requeue, { status with
    cutoverStep2DispatchedAt := true, phaseDetail := phaseDetailLiveCutoverCompleting })

def cutoverStep3 : Handled :=
  (.advance, { status with phase := .resuming, phaseDetail := "waiting for guest health on destination" })

def executeCutover (guest : SwiftGuest) (dstName dstUID : String) : Act Handled := do
  let srcName := srcPodLookupName mig guest
  let src ← readPod srcName
  match deriveCutoverStep mig guest src.isSome dstName with
  | .step1 => cutoverStep1 mig status guest dstName dstUID
  | .step1TimestampOnly => pure (cutoverStep1Timestamp status)
  | .step2 => cutoverStep2 status srcName
  | .step3 => pure (cutoverStep3 status)

def issueReceive (srcName dstName : String) (src : Option Pod) (dst : Pod) : Act Handled := do
  match src with
  | none => pure ()
  | some src =>
    if src.migrationName ≠ mig.name ∨ (!mtls ∧ !src.phase2Ack) then
      let _ ← issue (.patchPod srcName src { src with migrationName := mig.name, phase2Ack := src.phase2Ack || !mtls })
      pure ()
  let _ ← issue (.patchPod dstName dst { dst with action := .receive, actionID := recvActionID mig })
  pure (.requeue, { status with recvAttempts := 1, phaseDetail := phaseDetailLiveIssuingRecv })

def issueSend (srcName : String) (src : Option Pod) (dst : Pod) : Act Handled :=
  let status := { status with phaseDetail := phaseDetailLiveDestReceiving }
  match src with
  | none =>
    pure (.failure ("source pod " ++ quote mig.guestRef ++ " disappeared between pre-recv and pre-send")
      .sourcePodReplaced, status)
  | some src =>
    if dst.podIP = "" then pure (.requeue, status)
    else do
      let _ ← issue (.patchPod srcName src { src with action := .send, actionID := sendActionID mig })
      pure (.requeue, { status with
        sendAttempts := sendAttemptNumber mig, phaseDetail := phaseDetailLiveIssuingSend })

def awaitTransfer (src : Option Pod) : Handled :=
  if podStatusMatches src .sending (sendActionID mig) then
    (.requeue, { status with phaseDetail := phaseDetailLiveTransferring })
  else if src.any fun p => p.status = .sending then
    (.requeue, { status with phaseDetail := phaseDetailLiveSourceBusy })
  else (.requeue, status)

def awaitSourceReport (src : Option Pod) : Act (Bool × SwiftMigrationStatus) :=
  match src with
  | none => pure (false, status)
  | some src =>
    if src.deleting ∨ src.phase = .succeeded ∨ src.phase = .failed then pure (false, status)
    else do
      let graceOver ← issue (.clock .sourceReport)
      pure (!graceOver, { status with conditions := { status.conditions with destinationRunning := true } })

def maxMTLSSendRetries : Nat := 10

def sourceFailed (src : Option Pod) (dst : Pod) : Handled :=
  let detail := (src.map fun p => p.statusDetail).getD ""
  let srcNotReady := isLocalStunnelNotReady detail
  let dstNotReady := isDestReceiverNotReady detail
  if mtls && (srcNotReady || dstNotReady) && !dst.deleting && sendAttemptNumber mig < maxMTLSSendRetries then
    (.requeue, { status with
      sendAttempts := sendAttemptNumber mig + 1
      phaseDetail := if dstNotReady && !srcNotReady then "destination receiver not ready; retrying send"
        else "source mTLS sidecar not ready; retrying send" })
  else
    (.failure ("source reported migration failure: " ++ normalizeStatusDetail detail)
      (if dst.deleting then .podTerminated else classifyFailureFromDetail detail), status)

def reported (text : String) (pod : Option Pod) : String :=
  text ++ normalizeStatusDetail ((pod.map fun p => p.statusDetail).getD "")

def dispatchSubstate (guest : SwiftGuest) (srcName dstName : String) (src : Option Pod) (dst : Pod) : Act Handled :=
  match deriveSubstate mig src (some dst) with
  | .preRecv => issueReceive mtls mig status srcName dstName src dst
  | .recvPending => pure (.requeue, { status with phaseDetail := phaseDetailLiveIssuingRecv })
  | .preSend => issueSend mig status srcName src dst
  | .sendPending => pure (awaitTransfer mig status src)
  | .srcCompleted => executeCutover mig status guest dstName dst.uid
  | .dstRunning => do
    let (wait, status) ← awaitSourceReport status src
    if wait then pure (.requeue, { status with phaseDetail := phaseDetailLiveDestRunning })
    else executeCutover mig status guest dstName dst.uid
  | .dstFailed =>
    pure (.failure (reported "destination reported migration failure: " (some dst))
      (classifyFailureFromDetail dst.statusDetail), status)
  | .srcFailed => pure (sourceFailed mtls mig status src dst)
  | .dstRejected => pure (.failure (reported "destination rejected migration action: " (some dst)) .other, status)
  | .srcRejected => pure (.failure (reported "source rejected migration action: " src) .other, status)

def stopAndCopyTransfer (guest : SwiftGuest) (srcName dstName : String) (src : Option Pod) (dst : Pod) : Act Handled :=
  let committed := passedCommitPoint mig src (some dst)
  let checkUID := !committed && shouldCheckSourcePodUID mig && status.sourcePodUID ≠ ""
  match checkUID, src with
  | true, none => pure (sourceMissing mig " during StopAndCopy", status)
  | _, _ =>
    if checkUID ∧ (src.map fun p => p.uid) ≠ some status.sourcePodUID then
      pure (.failure ("source pod for SwiftGuest " ++ quote mig.guestRef ++ " was replaced (UID changed from " ++
        quote status.sourcePodUID ++ " to " ++ quote ((src.map fun p => p.uid).getD "") ++ ")")
        .sourcePodReplaced, status)
    else if (guest.podRef.map fun ref => ref.name) = some dstName then
      executeCutover mig status guest dstName dst.uid
    else do
      let expired ← (if committed then pure false else issue (.clock .timeout))
      if expired then pure (timeoutFailure mig, status)
      else dispatchSubstate mtls mig status guest srcName dstName src dst

def stopAndCopyLive (guest : SwiftGuest) (status : SwiftMigrationStatus) : Act Handled := do
  let srcName := srcPodLookupName mig guest
  let src ← readPod srcName
  match dstPodName mig with
  | .error e => pure (.failure e .other, status)
  | .ok dstName =>
    match ← readPod dstName with
    | none =>
      pure (.failure ("destination pod " ++ quote dstName ++ " disappeared during StopAndCopy") .podTerminated, status)
    | some dst => stopAndCopyTransfer mtls mig status guest srcName dstName src dst

def handleStopAndCopyLive : Act Handled := do
  match ← readGuest with
  | none => pure (guestGone mig "StopAndCopy" .other, status)
  | some guest => stopAndCopyLive mtls mig guest status

def startOnTarget (guest : SwiftGuest) : Act Unit :=
  if guest.runPolicy ≠ .running ∨ guest.nodeName ≠ mig.target then do
    let _ ← issue (.patchGuest guest { guest with runPolicy := .running, nodeName := mig.target })
    pure ()
  else pure ()

def awaitScheduling : Act Handled := do
  match ← readPod mig.guestRef with
  | none => pure (.requeue, { status with phaseDetail := "awaiting destination pod creation" })
  | some pod =>
    if pod.nodeName = "" then
      if pod.hostname ≠ "" ∧ pod.hostname ≠ mig.target then
        pure (.failure ("destination pod " ++ quote mig.guestRef ++ " pins to " ++ quote pod.hostname ++
          " via nodeSelector, expected " ++ quote mig.target ++ " (atomicity invariant violated)") .none,
          status)
      else
        pure (.requeue, { status with
          phaseDetail := "awaiting destination pod scheduling on " ++ quote mig.target })
    else if pod.nodeName ≠ mig.target then
      pure (.failure ("destination pod " ++ quote mig.guestRef ++ " scheduled on " ++ quote pod.nodeName ++
        ", expected " ++ quote mig.target ++ " (atomicity invariant violated)") .none, status)
    else
      pure (.advance, { status with
        destinationPodRef := some mig.guestRef
        phase := .resuming
        phaseDetail := "awaiting GuestRunning on destination (boot ~17s on warm cache)" })

def handleStopAndCopy : Act Handled :=
  if isLiveMode mig status then handleStopAndCopyLive mtls mig status
  else do
    match ← readGuest with
    | none => pure (guestGone mig "StopAndCopy" .none, status)
    | some guest =>
      if guest.inProgress ≠ mig.name then
        pure (.failure ("SwiftGuest " ++ quote mig.guestRef ++ " is missing the in-progress annotation for " ++
          "this migration; the phase ordering invariant was violated") .none, status)
      else
        let guest ← (if guest.hasVFIODevices then cutoverGPUs mig guest else pure guest)
        startOnTarget mig guest
        awaitScheduling mig status

def handleResumingLive : Act Handled := do
  match ← readGuest with
  | none => pure (guestGone mig "Resuming" .other, status)
  | some guest =>
    if (guest.podRef.map fun ref => ref.name).getD "" = "" then
      pure (.failure ("Resuming entered but SwiftGuest " ++ quote mig.guestRef ++ " has empty " ++
        "status.podRef.name; cutover step 1 must run before Resuming") .other, status)
    else
      let status := { status with resumingStartedAt := true }
      let dstName := canonicalPodNameForGuest mig.guestRef guest
      match ← readPod dstName with
      | none =>
        pure (.failure ("destination pod " ++ quote dstName ++ " terminated post-cutover; SwiftGuest is " ++
          "now orphaned and requires operator intervention") .podTerminated, status)
      | some dst =>
        if dst.phase ≠ .running ∨ !guest.guestRunning then
          if ← issue (.clock .timeout) then pure (timeoutFailure mig, status)
          else pure (.requeue, { status with phaseDetail := "waiting for guest health on destination" })
        else
          let targetIP := if dst.guestIP = "" then status.targetIP else dst.guestIP
          pure (.advance, { status with
            targetIP
            completedAt := .now
            phase := .completed
            phaseDetail := if targetIP = "" then "destination guest healthy"
              else "destination guest healthy (IP " ++ targetIP ++ ")" })

def unclaimGuest (guest : SwiftGuest) : Act Unit :=
  if guest.inProgress = mig.name then do
    let _ ← (issue (.patchGuest guest { guest with inProgress := "" })).attempt
    pure ()
  else pure ()

def handleResuming : Act Handled :=
  if isLiveMode mig status then handleResumingLive mig status
  else do
    match ← readGuest with
    | none => pure (guestGone mig "Resuming" .none, status)
    | some guest =>
      match ← readPod mig.guestRef with
      | none => pure (.requeue, { status with phaseDetail := "awaiting destination pod (re)creation" })
      | some dst =>
        match dst.initFailure with
        | some (container, exitCode, reason) =>
          pure (.failure ("destination guest failed to boot on " ++ quote status.destinationNode ++
            ": init container " ++ quote container ++ " exited " ++ toString exitCode ++
            " (" ++ reason ++ ")") .none, status)
        | none =>
          if !dst.launcherReady then
            pure (.requeue, { status with phaseDetail := "awaiting destination launcher start" })
          else if !guest.guestRunning then
            pure (.requeue, { status with phaseDetail := "awaiting GuestRunning=True on destination" })
          else if guest.primaryIP = "" then
            pure (.requeue, { status with phaseDetail := "awaiting primaryIP discovery on destination" })
          else
            unclaimGuest mig guest
            pure (.advance, { status with
              completedAt := .now
              phase := .completed
              phaseDetail := "guest running on " ++ quote status.destinationNode ++ " with IP " ++ guest.primaryIP })

def ensureFinalizer : Act SwiftMigration :=
  if mig.finalizer then pure mig else issue (.patchFinalizer true)

def handleTerminalRetention : Act Unit :=
  if !mig.status.terminalAt then pure ()
  else do
    if ← issue (.clock .retention) then ignoreNotFound (issue .deleteMigration) else pure ()

def finishTerminal : Act Unit := do
  clearDestinationReceive mig
  clearLauncherCancel mig
  if mig.finalizer then
    issue (.ensure .nodeIdentities)
    removeFinalizer mig
  else handleTerminalRetention mig

def offlineTimeoutFailure : Act Outcome :=
  if mig.status.phase ≠ .stopAndCopy ∧ mig.status.phase ≠ .resuming then pure (timeoutFailure mig)
  else do
    let _ ← (issue (.getPod mig.guestRef)).attempt
    pure (timeoutFailure mig)

def runPhase : Act Unit :=
  match mig.status.phase with
  | .unset | .pending =>
    persist mig { status with phase := .validating, phaseDetail := "validating migration request" }
  | .validating => handleValidating mtls mig status >>= dispatchResult mig
  | .preparing => handlePreparing mtls mig status >>= dispatchResult mig
  | .stopAndCopy => handleStopAndCopy mtls mig status >>= dispatchResult mig
  | .resuming => handleResuming mig status >>= dispatchResult mig
  | _ => pure ()

-- A migration that has not been validated yet has no time to run out of, and a live one looks at its
-- timeout only before the commit point.
def dispatchPhase : Act Unit := do
  let status := { mig.status with startedAt := true }
  let expired ← (
    if mig.status.phase = .unset ∨ mig.status.phase = .pending ∨ isLiveMode mig status then pure false
    else issue (.clock .timeout))
  if expired then
    let failure ← offlineTimeoutFailure mig
    dispatchResult mig (failure, status)
  else runPhase mtls mig status

def proceed : Act Unit :=
  if isTerminalPhase mig.status.phase then finishTerminal mig
  else do
    let mig ← ensureFinalizer mig
    match ← honorCancel mig with
    | none => pure ()
    | some mig => dispatchPhase mtls mig

def reconcile : Act Unit := do
  match ← lookup (issue .getMigration) with
  | none => pure ()
  | some mig =>
    if mig.deleting then
      if ← finishCutoverBeforeDeletion mig then proceed mtls mig else handleCancellation mig
    else proceed mtls mig

end Handlers

end KubeSwift.Migration
