import KubeSwift.Migration.Handover

/-! # What a phase handler issues

No handler writes the migration, and none fails or cancels it: that is left to the end of the pass. -/

namespace KubeSwift.Migration
open Program Prog

structure Reading (mig : SwiftMigration) (A : Op → Prop) : Prop extends Ordinary mig A where
  getPod : ∀ name, A (.getPod name)

structure Tidying (mig : SwiftMigration) (A : Op → Prop) : Prop extends Reading mig A where
  deletePod : ∀ name force, A (.deletePod name force)

def GuestPatch (mig : SwiftMigration) (base wanted : SwiftGuest) : Prop :=
  wanted.podRef = base.podRef ∨ ∃ dst, IsDst mig dst ∧ (wanted.podRef.map fun ref => ref.name) = some dst

def Pod.sending (pod : Pod) (mig : SwiftMigration) : Pod :=
  { pod with action := .send, actionID := sendActionID mig }

def Pod.receiving (pod : Pod) (mig : SwiftMigration) : Pod :=
  { pod with action := .receive, actionID := recvActionID mig }

structure Handling (mig : SwiftMigration) (A : Op → Prop) : Prop extends Tidying mig A where
  receive : ∀ name base, A (.patchPod name base (base.receiving mig))
  createPod : ∀ name guest src mtls, A (.createPod name (newDstPod mig guest src mtls))
  patchGuestStatus : ∀ base wanted, GuestPatch mig base wanted → A (.patchGuestStatus base wanted)

structure Driving (mig : SwiftMigration) (guest : SwiftGuest) (A : Op → Prop) : Prop extends Ordinary mig A where
  source : A (.getPod (srcPodLookupName mig guest))
  destination : ∀ dst, IsDst mig dst → A (.getPod dst)
  receive : ∀ name base, A (.patchPod name base (base.receiving mig))
  createPod : ∀ name guest src mtls, A (.createPod name (newDstPod mig guest src mtls))
  patchGuestStatus : ∀ base wanted, GuestPatch mig base wanted → A (.patchGuestStatus base wanted)
  deleteSource : mig.status.cutoverStep1At = true → A (.deletePod (srcPodLookupName mig guest) false)

theorem Handling.driving {mig : SwiftMigration} {A : Op → Prop} (handling : Handling mig A) (guest : SwiftGuest) :
    Driving mig guest A where
  toOrdinary := handling.toOrdinary
  source := handling.getPod _
  destination _ _ := handling.getPod _
  receive := handling.receive
  createPod := handling.createPod
  patchGuestStatus := handling.patchGuestStatus
  deleteSource _ := handling.deletePod _ _

def Told (R : ∀ o : Op, Except Err o.Res → Prop) (guest : SwiftGuest) : Prop :=
  R .getGuest (.ok guest) ∨ ∃ base wanted, R (.patchGuest base wanted) (.ok guest)

structure Stopping (mig : SwiftMigration) (A : Op → Prop) (R : ∀ o : Op, Except Err o.Res → Prop) : Prop
    extends Reading mig A where
  patchGuestStatus : ∀ base wanted, wanted.podRef = base.podRef → A (.patchGuestStatus base wanted)
  deleteSource : ∀ guest, Told R guest → A (.deletePod (canonicalPodNameForGuest mig.guestRef guest) false)

theorem Handling.stopping {mig : SwiftMigration} {A : Op → Prop} {R : ∀ o : Op, Except Err o.Res → Prop}
    (handling : Handling mig A) : Stopping mig A R where
  toReading := handling.toReading
  patchGuestStatus _ _ same := handling.patchGuestStatus _ _ (.inl same)
  deleteSource _ _ := handling.deletePod _ _

def Next (goal : Phase) (s₀ s : SwiftMigrationStatus) : Prop :=
  (s.phase = s₀.phase ∨ s.phase = goal) ∧ s.conditions.podRefSwapped = s₀.conditions.podRefSwapped

def Copied (s₀ s : SwiftMigrationStatus) : Prop :=
  s.phase = s₀.phase ∧ s.mode = s₀.mode ∧ s.sourcePodRef = s₀.sourcePodRef ∧
    s.conditions.podRefSwapped = s₀.conditions.podRefSwapped ∧ s.cutoverStep1At = s₀.cutoverStep1At

def Later (goal : Phase) (s₀ s : SwiftMigrationStatus) : Prop :=
  (s.phase = s₀.phase ∨ s.phase = goal) ∧ s.mode = s₀.mode ∧ s.sourcePodRef = s₀.sourcePodRef ∧
    s.conditions.podRefSwapped = s₀.conditions.podRefSwapped ∧ s.cutoverStep1At = s₀.cutoverStep1At

def Onward (goal : Phase) (s₀ s : SwiftMigrationStatus) : Prop :=
  (s.phase = s₀.phase ∨ s.phase = goal) ∧ s.mode = s₀.mode ∧ s.sourcePodRef = s₀.sourcePodRef ∧
    (s₀.conditions.podRefSwapped = true → s.conditions.podRefSwapped = true)

def Crossing (s₀ s : SwiftMigrationStatus) : Prop :=
  Onward .resuming s₀ s ∧ (s.cutoverStep1At = true ∨ s.phase ≠ s₀.phase →
    s.conditions.podRefSwapped = true ∨ s₀.cutoverStep1At = true)

theorem copied_started (s : SwiftMigrationStatus) : Copied s { s with startedAt := true } :=
  ⟨rfl, rfl, rfl, rfl, rfl⟩

theorem next_started (goal : Phase) (s : SwiftMigrationStatus) : Next goal s { s with startedAt := true } :=
  ⟨.inl rfl, rfl⟩

section Statuses

variable {goal : Phase} {s₀ s : SwiftMigrationStatus}

theorem Copied.later (copied : Copied s₀ s) : Later goal s₀ s := ⟨.inl copied.1, copied.2⟩

theorem Later.swapped (later : Later goal s₀ s) : s.conditions.podRefSwapped = s₀.conditions.podRefSwapped :=
  later.2.2.2.1

theorem Later.onward (later : Later goal s₀ s) : Onward goal s₀ s :=
  ⟨later.1, later.2.1, later.2.2.1, later.swapped.trans⟩

theorem Copied.crossing (copied : Copied s₀ s) : Crossing s₀ s := by
  refine ⟨copied.later.onward, ?_⟩
  rintro (stamped | moved)
  · exact .inr (copied.2.2.2.2.symm.trans stamped)
  · exact absurd copied.1 moved

end Statuses

section Ends

variable {A : Op → Prop} {R : ∀ o : Op, Except Err o.Res → Prop} {mig : SwiftMigration}

variable (reads : ∀ guest, R .getGuest (.ok guest) → A (.getPod (srcPodLookupName mig guest)))
include reads

theorem yields_undoFailed (ordinary : Ordinary mig A) {status : SwiftMigrationStatus} {post : Bool}
    (cleanup : status.mode = .live → post = false → (cleanupDstPod status).Yields A R (fun _ => True)) :
    (undoFailed mig status post).Yields A R (fun _ => True) := by
  refine yields_then (yields_cleanupSourceGuest ordinary _) fun _ => ?_
  apply yields_ite
  · intro abandons
    simp only [Bool.not_eq_true'] at abandons
    exact yields_then (yields_clearSourceSend ordinary reads) fun _ => cleanup abandons.2 abandons.1
  · intro _
    trivial

theorem yields_onTerminalPhase (ordinary : Ordinary mig A) {status : SwiftMigrationStatus}
    (cleanup : status.mode = .live → isPostCutover mig = false →
      (cleanupDstPod status).Yields A R (fun _ => True)) :
    (onTerminalPhase mig status).Yields A R (fun _ => True) := by
  refine yields_unless trivial fun _ => ?_
  apply yields_ite
  · intro _
    exact yields_undoFailed reads ordinary cleanup
  · intro offline
    refine yields_withGuest ordinary.getGuest trivial fun guest _ => ?_
    exact yields_undoFailed reads ordinary fun live => absurd live offline

omit reads

theorem handles_liveCommitted (getGuest : A .getGuest) (getPod : ∀ name, A (.getPod name)) :
    (liveCommitted mig).Yields A R (fun _ => True) := by
  refine yields_unless trivial fun _ => ?_
  refine yields_unless trivial fun _ => ?_
  refine yields_withGuest getGuest trivial fun guest _ => ?_
  refine yields_onPod (getPod _) fun src => ?_
  refine yields_unless trivial fun _ => ?_
  split
  · trivial
  · exact yields_onPod (getPod _) fun dst => trivial

theorem handles_deletionCommitted (reading : Reading mig A) :
    (deletionCommitted mig).Yields A R (fun _ => True) := by
  refine yields_unless (handles_liveCommitted reading.getGuest reading.getPod) fun _ => ?_
  refine yields_unless trivial fun _ => ?_
  exact yields_withGuest reading.getGuest trivial fun guest _ => trivial

variable (tidying : Tidying mig A)
include tidying

theorem handles_finishCutoverBeforeDeletion :
    (finishCutoverBeforeDeletion mig).Yields A R (fun _ => True) := by
  refine yields_unless trivial fun _ => ?_
  exact handles_liveCommitted tidying.getGuest tidying.getPod

theorem handles_resolveSourceOwnership :
    (resolveSourceOwnership mig).Yields A R (fun _ => True) := by
  refine yields_then (handles_liveCommitted tidying.getGuest tidying.getPod) fun committed => ?_
  refine yields_unless trivial fun _ => ?_
  refine yields_withGuest tidying.getGuest trivial fun guest _ => ?_
  split
  · trivial
  refine yields_onPod (tidying.getPod _) fun dst => ?_
  cases dst with
  | none => trivial
  | some dst =>
    refine yields_onPod (tidying.getPod _) fun src => ?_
    exact yields_resolveTransfer tidying.toOrdinary (fun _ _ => tidying.getPod _) _ _ _ _

theorem handles_deletePod (name : String) (force : Bool) :
    (ignoreNotFound (issue (.deletePod name force))).Yields A R (fun _ => True) :=
  yields_ignoreNotFound (yields_call (tidying.deletePod _ _) fun _ _ => trivial)

theorem handles_deleteAbandonedDestination (res : AbortResolution) :
    (deleteAbandonedDestination mig res).Yields A R (fun _ => True) := by
  refine yields_unless trivial fun _ => ?_
  refine yields_withGuest tidying.getGuest trivial fun guest _ => ?_
  split
  · trivial
  · exact handles_deletePod tidying _ _

theorem handles_cleanupDstPod (status : SwiftMigrationStatus) :
    (cleanupDstPod status).Yields A R (fun _ => True) := by
  unfold cleanupDstPod
  split
  · trivial
  · refine yields_unless trivial fun _ => ?_
    exact handles_deletePod tidying _ _

theorem handles_clearLauncherCancel :
    (clearLauncherCancel mig).Yields A R (fun _ => True) :=
  yields_clearLauncherCancel tidying.toOrdinary.toPlain fun _ _ => tidying.getPod _

omit tidying

theorem handles_clearDestinationReceive (plain : Plain mig A) (getPod : ∀ name, A (.getPod name)) :
    (clearDestinationReceive mig).Yields A R (fun _ => True) := by
  refine yields_unless trivial fun _ => ?_
  exact yields_withGuest plain.getGuest trivial fun guest _ => yields_clearAction plain (getPod _)

theorem handles_onTerminalPhase (tidying : Tidying mig A) (status : SwiftMigrationStatus) :
    (onTerminalPhase mig status).Yields A R (fun _ => True) :=
  yields_onTerminalPhase (fun _ _ => tidying.getPod _) tidying.toOrdinary fun _ _ =>
    handles_cleanupDstPod tidying status

end Ends

section Handlers

variable {A : Op → Prop} {R : ∀ o : Op, Except Err o.Res → Prop} {mig : SwiftMigration}
  {s₀ s : SwiftMigrationStatus} {V : SwiftMigrationStatus → Prop}

theorem handles_runChecks (ordinary : Ordinary mig A) {checks : List Check}
    {passed : SwiftMigrationStatus → Act Handled} (here : V s) (waits : ∀ detail, V { s with phaseDetail := detail })
    (passes : (passed s).Yields A R (fun h => V h.2)) : (runChecks s passed checks).Yields A R (fun h => V h.2) :=
  yields_runChecks ordinary.toPlain (fun _ _ => here) (fun _ detail _ _ => waits detail) passes

variable {guest : SwiftGuest}

theorem handles_sourcePodCopyable (ordinary : Ordinary mig A) {srcName : String} {src : Pod} {copyable : SwiftMigrationStatus → Act Handled}
    (here : V s) (waits : ∀ detail, V { s with phaseDetail := detail })
    (goes : (copyable s).Yields A R (fun h => V h.2)) :
    (sourcePodCopyable mig guest srcName src s copyable).Yields A R (fun h => V h.2) := by
  refine yields_unless here fun _ => ?_
  exact handles_runChecks ordinary here waits goes

theorem handles_validatingLive (handling : Handling mig A) (mtls : Bool) (next : Next .preparing s₀ s) :
    (handleValidatingLive mtls mig s).Yields A R (fun h => Next .preparing s₀ h.2) := by
  refine yields_withGuest handling.getGuest next fun guest _ => ?_
  refine yields_unless next fun _ => ?_
  apply handles_runChecks handling.toOrdinary next fun _ => next
  refine yields_unless next fun _ => ?_
  apply handles_runChecks handling.toOrdinary next fun _ => next
  refine yields_onPod (handling.getPod _) fun src => ?_
  cases src with
  | none => exact next
  | some src =>
    apply handles_runChecks handling.toOrdinary
    · exact next
    · exact fun _ => next
    apply handles_sourcePodCopyable handling.toOrdinary
    · exact next
    · exact fun _ => next
    apply handles_runChecks handling.toOrdinary
    · exact next
    · exact fun _ => next
    exact ⟨.inr rfl, next.2⟩

theorem handles_validatingOffline (handling : Handling mig A) (next : Next .preparing s₀ s) :
    (handleValidatingOffline mig s).Yields A R (fun h => Next .preparing s₀ h.2) := by
  refine yields_withGuest handling.getGuest next fun guest _ => ?_
  refine yields_unless next fun _ => ?_
  apply handles_runChecks handling.toOrdinary
  · exact next
  · exact fun _ => next
  exact ⟨.inr rfl, next.2⟩

theorem handles_validatingMode (handling : Handling mig A) (mtls : Bool) (next : Next .preparing s₀ s) :
    (handleValidatingMode mtls mig s).Yields A R (fun h => Next .preparing s₀ h.2) := by
  refine yields_unless (handles_validatingLive handling mtls next) fun _ => ?_
  exact handles_validatingOffline handling next

theorem handles_resolveAutoMode (plain : Plain mig A) : resolveAutoMode.Yields A R (fun _ => True) := by
  refine yields_withGuest plain.getGuest trivial fun guest _ => ?_
  refine yields_unless trivial fun _ => ?_
  refine yields_next (plain.check _) fun verdict => ?_
  cases verdict <;> trivial

theorem handles_validating (handling : Handling mig A) (mtls : Bool) (next : Next .preparing s₀ s) :
    (handleValidating mtls mig s).Yields A R (fun h => Next .preparing s₀ h.2) := by
  apply handles_runChecks handling.toOrdinary next fun _ => next
  apply yields_ite
  · intro _
    refine yields_then (handles_resolveAutoMode handling.toPlain) fun found => ?_
    cases found with
    | none => exact next
    | some mode => exact handles_validatingMode handling mtls next
  · intro _
    exact handles_validatingMode handling mtls next

theorem handles_resolveGPUProfile (ordinary : Ordinary mig A) (guest : SwiftGuest) :
    (resolveGPUProfile mig guest).Yields A R (fun _ => True) := by
  unfold resolveGPUProfile
  split
  · trivial
  · exact yields_call (ordinary.getProfile _) fun _ _ => trivial

section Offline

variable (stopping : Stopping mig A R)
include stopping

theorem handles_reserveTargetGPUs (guest : SwiftGuest) : (reserveTargetGPUs mig guest).Yields A R (fun _ => True) := by
  refine yields_then (yields_attempt (V := fun _ => True) (handles_resolveGPUProfile stopping.toOrdinary guest) fun _ => trivial)
    fun profile => ?_
  cases profile with
  | error e => trivial
  | ok profile =>
    refine yields_then (yields_attempt (V := fun _ => True) (yields_onGPUs _ stopping.gpu) fun _ => trivial) fun found => ?_
    cases found <;> trivial

theorem handles_claimGuest (told : Told R guest) : (claimGuest mig guest).Yields A R (Told R) := by
  refine yields_unless (yields_call (stopping.patchGuest _ _) fun _ answer => .inr ⟨_, _, answer⟩) fun _ => ?_
  exact told

theorem handles_stopSourcePod (told : Told R guest) (later : Later .stopAndCopy s₀ s) :
    (stopSourcePod mig guest s).Yields A R (fun h => Later .stopAndCopy s₀ h.2) := by
  refine yields_onPod (stopping.getPod _) fun pod => ?_
  cases pod with
  | some pod =>
    dsimp only
    split
    · exact yields_then (yields_ignoreNotFound
        (yields_call (stopping.deleteSource guest told) fun _ _ => trivial)) fun _ => later
    · exact later
  | none =>
    apply handles_runChecks stopping.toOrdinary later fun _ => later
    exact ⟨.inr rfl, later.2⟩

theorem handles_preparingOffline (mtls : Bool) (offline : isLiveMode mig s = false) (later : Later .stopAndCopy s₀ s) :
    (handlePreparing mtls mig s).Yields A R (fun h => Later .stopAndCopy s₀ h.2) := by
  unfold handlePreparing
  rw [if_neg (by simp [offline])]
  refine yields_withGuest stopping.getGuest later fun guest told => ?_
  refine yields_unless later fun _ => ?_
  have reserves : (if guest.hasVFIODevices then reserveTargetGPUs mig guest else pure (.ok ())).Yields A R
      (fun _ => True) := by
    exact yields_unless (handles_reserveTargetGPUs stopping guest) fun _ => trivial
  refine yields_then reserves fun reserved => ?_
  cases reserved with
  | error e => exact later
  | ok _ =>
    refine yields_seq (handles_claimGuest stopping (.inl told)) fun guest told => ?_
    exact handles_stopSourcePod stopping told later

theorem handles_cutoverGPUs (guest : SwiftGuest) : (cutoverGPUs mig guest).Yields A R (fun _ => True) := by
  have stamps : ∀ gpu, (issue (.patchGuestStatus guest { guest with gpu })).Yields A R (fun _ => True) := fun _ =>
    yields_call (stopping.patchGuestStatus _ _ rfl) fun _ _ => trivial
  refine yields_unless trivial fun _ => ?_
  refine yields_then (handles_resolveGPUProfile stopping.toOrdinary guest) fun profile => ?_
  refine yields_then (yields_onGPUs _ stopping.gpu) fun al => ?_
  dsimp only
  split
  · exact yields_then (yields_onGPUs _ stopping.gpu) fun _ => stamps _
  · exact stamps _

theorem handles_awaitScheduling (later : Later .resuming s₀ s) :
    (awaitScheduling mig s).Yields A R (fun h => Later .resuming s₀ h.2) := by
  refine yields_onPod (stopping.getPod _) fun pod => ?_
  cases pod with
  | none => exact later
  | some pod =>
    dsimp only
    repeat' split
    · exact later
    · exact later
    · exact later
    · exact ⟨.inr rfl, later.2⟩

theorem handles_stopAndCopyOffline (mtls : Bool) (offline : isLiveMode mig s = false) (later : Later .resuming s₀ s) :
    (handleStopAndCopy mtls mig s).Yields A R (fun h => Later .resuming s₀ h.2) := by
  unfold handleStopAndCopy
  rw [if_neg (by simp [offline])]
  refine yields_withGuest stopping.getGuest later fun guest _ => ?_
  refine yields_unless later fun _ => ?_
  have gpus : (if guest.hasVFIODevices then cutoverGPUs mig guest else pure guest).Yields A R (fun _ => True) := by
    exact yields_unless (handles_cutoverGPUs stopping guest) fun _ => trivial
  refine yields_then gpus fun guest => ?_
  refine yields_then (yields_unless (yields_next (stopping.patchGuest _ _) fun _ => trivial) fun _ => trivial) fun _ => ?_
  exact handles_awaitScheduling stopping later

end Offline

theorem handles_issueReceive (plain : Plain mig A) (receive : ∀ name base, A (.patchPod name base (base.receiving mig)))
    (mtls : Bool) (srcName dstName : String) (src : Option Pod) (dst : Pod) (copied : Copied s₀ s) :
    (issueReceive mtls mig s srcName dstName src dst).Yields A R (fun h => Copied s₀ h.2) := by
  have receives : Prog.Yields A R (fun h : Handled => Copied s₀ h.2) (do
      let _ ← issue (.patchPod dstName dst { dst with action := .receive, actionID := recvActionID mig })
      pure (.requeue, { s with recvAttempts := 1, phaseDetail := phaseDetailLiveIssuingRecv })) := by
    exact yields_next (receive dstName dst) fun _ => copied
  cases src with
  | none => exact receives
  | some src =>
    unfold issueReceive
    dsimp only
    split
    · refine yields_next (plain.patchPod _ _ _ ?_) fun _ => receives
      exact ⟨.inl ⟨rfl, rfl⟩, .inl rfl⟩
    · exact receives

theorem handles_issueSend (sends : ∀ name base, A (.patchPod name base (base.sending mig))) (srcName : String)
    (src : Option Pod) (dst : Pod) (copied : Copied s₀ s) :
    (issueSend mig s srcName src dst).Yields A R (fun h => Copied s₀ h.2) := by
  cases src with
  | none => exact copied
  | some src =>
    refine yields_unless copied fun _ => ?_
    exact yields_next (sends srcName src) fun _ => copied

theorem copied_awaitTransfer (src : Option Pod) (copied : Copied s₀ s) : Copied s₀ (awaitTransfer mig s src).2 := by
  unfold awaitTransfer
  split
  · exact copied
  · split <;> exact copied

theorem copied_sourceFailed (mtls : Bool) (src : Option Pod) (dst : Pod) (copied : Copied s₀ s) :
    Copied s₀ (sourceFailed mtls mig s src dst).2 := by
  have same : ∀ attempts detail, Copied s₀ { s with sendAttempts := attempts, phaseDetail := detail } := fun _ _ => copied
  unfold sourceFailed
  dsimp only
  split
  · exact same _ _
  · exact copied

theorem handles_awaitSourceReport (plain : Plain mig A) (src : Option Pod) (copied : Copied s₀ s) :
    (awaitSourceReport s src).Yields A R (fun result => Copied s₀ result.2) := by
  unfold awaitSourceReport
  split
  · exact copied
  split
  · exact copied
  · exact yields_next (plain.clock _) fun isOver => copied

section Live

variable {guest : SwiftGuest} {dstName : String} (driving : Driving mig guest A)
include driving

theorem handles_createDstPod (mtls : Bool) (dstName srcName : String) (src : Pod) (later : Later .stopAndCopy s₀ s) :
    (createDstPod mtls mig guest dstName srcName src s).Yields A R (fun h => Later .stopAndCopy s₀ h.2) := by
  have ordinary := driving.toOrdinary
  apply handles_sourcePodCopyable ordinary later fun _ => later
  refine yields_next (ordinary.ensure _) fun _ => ?_
  refine yields_next (ordinary.ensure _) fun _ => ?_
  apply handles_runChecks ordinary later fun _ => later
  refine yields_then (yields_attempt
    (yields_call (driving.createPod _ _ _ _) fun _ _ => trivial) fun _ => trivial) fun r => ?_
  rcases r with (_ | _ | _ | _ | _ | _) | _
  case error.alreadyExists => exact later
  case ok => exact later
  all_goals trivial

theorem handles_awaitDstPod (mtls : Bool) (dstName : String) (dst : Pod) (later : Later .stopAndCopy s₀ s) :
    (awaitDstPod mtls mig dstName dst s).Yields A R (fun h => Later .stopAndCopy s₀ h.2) := by
  have ordinary := driving.toOrdinary
  refine yields_unless later fun _ => ?_
  apply handles_runChecks ordinary later fun _ => later
  have waits : ∀ (late : Act Bool) (failed waiting : Handled), late.Yields A R (fun _ => True) → Later .stopAndCopy s₀ failed.2 →
      Later .stopAndCopy s₀ waiting.2 → Prog.Yields A R (fun h : Handled => Later .stopAndCopy s₀ h.2)
        (late >>= fun late => if late then pure failed else pure waiting) := by
    intro late failed waiting first fails waits
    refine yields_then first fun late => ?_
    split
    · exact fails
    · exact waits
  dsimp only
  repeat' split
  · refine yields_next (ordinary.ensure _) fun _ => ?_
    exact ⟨.inr rfl, later.2⟩
  · refine yields_next (ordinary.ensure _) fun _ => ?_
    exact waits _ _ _ (yields_call (ordinary.clock _) fun _ _ => trivial) later later
  · exact ⟨.inr rfl, later.2⟩
  · exact waits _ _ _ (yields_call (ordinary.clock _) fun _ _ => trivial) later later

theorem handles_prepareDstPod (mtls : Bool) (later : Later .stopAndCopy s₀ s) :
    (prepareDstPod mtls mig guest s).Yields A R (fun h => Later .stopAndCopy s₀ h.2) := by
  refine yields_onPod driving.source fun src => ?_
  cases src with
  | none => exact later
  | some src =>
    dsimp only
    split
    · exact later
    next dst isDst =>
    refine yields_next (driving.ensure _) fun _ => ?_
    refine yields_onPod (driving.destination dst isDst) fun found => ?_
    cases found with
    | none => exact handles_createDstPod driving mtls _ _ src later
    | some there => exact handles_awaitDstPod driving mtls _ there later

theorem handles_preparingLive (mtls : Bool) (later : Later .stopAndCopy s₀ s) :
    (preparingLive mtls mig guest s).Yields A R (fun h => Later .stopAndCopy s₀ h.2) := by
  have prepares := handles_prepareDstPod (R := R) driving mtls later
  apply yields_ite
  · intro _
    refine yields_onPod driving.source fun src => ?_
    cases src with
    | none => exact later
    | some src =>
      refine yields_unless later fun _ => ?_
      exact prepares
  · intro _
    exact prepares

theorem handles_executeCutover (isDst : IsDst mig dstName) (dstUID : String) (copied : Copied mig.status s) :
    (executeCutover mig s guest dstName dstUID).Yields A R (fun h => Crossing mig.status h.2) := by
  have swapped : Crossing mig.status (cutoverStep1Timestamp s).2 :=
    ⟨⟨.inl copied.1, copied.2.1, copied.2.2.1, fun _ => rfl⟩, fun _ => .inl rfl⟩
  refine yields_onPod driving.source fun src => ?_
  -- from step 2 on, step 1 was recorded
  have recorded : ∀ step, deriveCutoverStep mig guest src.isSome dstName = step →
      step = .step2 ∨ step = .step3 → mig.status.cutoverStep1At = true := by
    intro step derived which
    by_contra unstamped
    have unstamped : mig.status.cutoverStep1At = false := by simpa using unstamped
    simp only [deriveCutoverStep, unstamped, Bool.not_false, if_true] at derived
    subst derived
    split at which <;> simp at which
  split
  next =>
    have moves : (if guest.nodeName ≠ "" ∧ guest.nodeName ≠ mig.target then
        issue (.patchGuest guest { guest with nodeName := mig.target }) else pure guest).Yields A R
        (fun _ => True) := by
      exact yields_unless (yields_call (driving.patchGuest _ _) fun _ _ => trivial) fun _ => trivial
    refine yields_then moves fun guest => ?_
    refine yields_next (driving.patchGuestStatus _ _ ?_) fun _ => swapped
    exact .inr ⟨dstName, isDst, rfl⟩
  next => exact swapped
  next derived =>
    exact yields_then (yields_ignoreNotFound (yields_call
      (driving.deleteSource (recorded _ derived (.inl rfl))) fun _ _ => trivial)) fun _ => copied.crossing
  next derived =>
    exact ⟨⟨.inr rfl, copied.crossing.1.2⟩, fun _ => .inr (recorded _ derived (.inr rfl))⟩

variable (sends : ∀ name base, A (.patchPod name base (base.sending mig)))
include sends

theorem handles_dispatchSubstate (mtls : Bool) (srcName : String) (isDst : IsDst mig dstName) (src : Option Pod)
    (dst : Pod) (copied : Copied mig.status s) :
    (dispatchSubstate mtls mig s guest srcName dstName src dst).Yields A R (fun h => Crossing mig.status h.2) := by
  have plain := driving.toPlain
  unfold dispatchSubstate
  split
  · exact yields_mono (fun _ => Copied.crossing) (handles_issueReceive plain driving.receive mtls srcName dstName src dst copied)
  · exact copied.crossing
  · exact yields_mono (fun _ => Copied.crossing) (handles_issueSend sends srcName src dst copied)
  · exact (copied_awaitTransfer src copied).crossing
  · exact handles_executeCutover driving isDst dst.uid copied
  · refine yields_seq (handles_awaitSourceReport plain src copied) fun result copied' => ?_
    obtain ⟨wait, s'⟩ := result
    refine yields_unless copied'.crossing fun _ => ?_
    exact handles_executeCutover driving isDst dst.uid copied'
  · exact copied.crossing
  · exact (copied_sourceFailed mtls src dst copied).crossing
  · exact copied.crossing
  · exact copied.crossing

theorem handles_stopAndCopyTransfer (mtls : Bool) (srcName : String) (isDst : IsDst mig dstName) (src : Option Pod)
    (dst : Pod) (copied : Copied mig.status s) :
    (stopAndCopyTransfer mtls mig s guest srcName dstName src dst).Yields A R (fun h => Crossing mig.status h.2) := by
  have clock : (if passedCommitPoint mig src (some dst) then pure false else issue (.clock .timeout)).Yields A R
      (fun _ => True) := by
    refine yields_unless trivial fun _ => ?_
    exact yields_call (driving.clock _) fun _ _ => trivial
  have dispatches := handles_dispatchSubstate (R := R) driving sends mtls srcName isDst src dst copied
  unfold stopAndCopyTransfer
  dsimp only
  split
  · exact copied.crossing
  split
  · exact copied.crossing
  split
  · exact handles_executeCutover driving isDst dst.uid copied
  refine yields_then clock fun expired => ?_
  refine yields_unless copied.crossing fun _ => ?_
  exact dispatches

theorem handles_stopAndCopyLive (mtls : Bool) (copied : Copied mig.status s) :
    (stopAndCopyLive mtls mig guest s).Yields A R (fun h => Crossing mig.status h.2) := by
  refine yields_onPod driving.source fun src => ?_
  cases isDst : dstPodName mig with
  | error e => exact copied.crossing
  | ok name =>
    refine yields_onPod (driving.destination name isDst) fun dst => ?_
    cases dst with
    | none => exact copied.crossing
    | some dst => exact handles_stopAndCopyTransfer driving sends mtls _ isDst src dst copied

end Live

theorem handles_preparing (handling : Handling mig A) (mtls : Bool) (later : Later .stopAndCopy s₀ s) :
    (handlePreparing mtls mig s).Yields A R (fun h => Later .stopAndCopy s₀ h.2) := by
  by_cases live : isLiveMode mig s = true
  · unfold handlePreparing
    rw [if_pos live]
    exact yields_withGuest handling.getGuest later fun guest _ => handles_preparingLive (handling.driving guest) mtls later
  · exact handles_preparingOffline handling.stopping mtls (by simpa using live) later

theorem handles_stopAndCopy (handling : Handling mig A)
    (sends : ∀ name base, A (.patchPod name base (base.sending mig))) (mtls : Bool) (copied : Copied mig.status s) :
    (handleStopAndCopy mtls mig s).Yields A R (fun _ => True) := by
  by_cases live : isLiveMode mig s = true
  · unfold handleStopAndCopy
    rw [if_pos live]
    exact yields_withGuest handling.getGuest trivial fun guest _ =>
      yields_mono (fun _ _ => trivial) (handles_stopAndCopyLive (handling.driving guest) sends mtls copied)
  · exact yields_mono (fun _ _ => trivial)
      (handles_stopAndCopyOffline handling.stopping mtls (by simpa using live) copied.later)

theorem handles_resumingLive (reading : Reading mig A) (later : Later .completed s₀ s) :
    (handleResumingLive mig s).Yields A R (fun h => Later .completed s₀ h.2) := by
  refine yields_withGuest reading.getGuest later fun guest _ => ?_
  refine yields_unless later fun _ => ?_
  refine yields_onPod (reading.getPod _) fun dst => ?_
  cases dst with
  | none => exact later
  | some dst =>
    apply yields_ite
    · intro _
      refine yields_next (reading.clock _) fun expired => ?_
      refine yields_unless later fun _ => ?_
      exact later
    · intro _
      exact ⟨.inr rfl, later.2⟩

theorem handles_unclaimGuest (reading : Reading mig A) (guest : SwiftGuest) :
    (unclaimGuest mig guest).Yields A R (fun _ => True) := by
  apply yields_ite
  · intro _
    exact yields_then (yields_attempt
      (yields_call (reading.patchGuest _ _) fun _ _ => trivial) fun _ => trivial) fun _ => trivial
  · intro _
    trivial

theorem handles_resuming (reading : Reading mig A) (later : Later .completed s₀ s) :
    (handleResuming mig s).Yields A R (fun h => Later .completed s₀ h.2) := by
  refine yields_unless (handles_resumingLive reading later) fun _ => ?_
  refine yields_withGuest reading.getGuest later fun guest _ => ?_
  refine yields_onPod (reading.getPod _) fun dst => ?_
  cases dst with
  | none => exact later
  | some dst =>
    dsimp only
    split
    · exact later
    split
    · exact later
    split
    · exact later
    split
    · exact later
    exact yields_then (handles_unclaimGuest reading guest) fun _ => ⟨.inr rfl, later.2⟩

end Handlers

section Closing

variable {A : Op → Prop} {R : ∀ o : Op, Except Err o.Res → Prop} {mig : SwiftMigration}

theorem handles_removeFinalizer (drop : A (.patchFinalizer false)) :
    (removeFinalizer mig).Yields A R (fun _ => True) := by
  exact yields_unless (yields_ignoreNotFound (yields_call drop fun _ _ => trivial)) fun _ => trivial

theorem handles_finishDeletion (tidying : Tidying mig A) (drop : A (.patchFinalizer false))
    (committed resolved : Bool) : (finishDeletion mig committed resolved).Yields A R (fun _ => True) := by
  have ends : Prog.Yields A R (fun _ => True) (do issue (.ensure .nodeIdentities); removeFinalizer mig) :=
    yields_next (tidying.ensure _) fun _ => handles_removeFinalizer drop
  refine yields_then (yields_cleanupSourceGuest tidying.toOrdinary _) fun _ => ?_
  split
  · exact yields_then (handles_cleanupDstPod tidying _) fun _ => ends
  · exact ends

theorem handles_finishTerminal (tidying : Tidying mig A) (drop : A (.patchFinalizer false))
    (delete : A .deleteMigration) : (finishTerminal mig).Yields A R (fun _ => True) := by
  refine yields_then (handles_clearDestinationReceive tidying.toOrdinary.toPlain tidying.getPod) fun _ => ?_
  refine yields_then (handles_clearLauncherCancel tidying) fun _ => ?_
  apply yields_ite
  · intro _
    exact yields_next (tidying.ensure _) fun _ =>
      handles_removeFinalizer drop
  intro _
  refine yields_unless trivial fun _ => ?_
  refine yields_next (tidying.clock _) fun kept => ?_
  exact yields_unless (yields_ignoreNotFound (yields_call delete fun _ _ => trivial)) fun _ => trivial

theorem handles_offlineTimeoutFailure (reading : Reading mig A) :
    (offlineTimeoutFailure mig).Yields A R (fun outcome => outcome = timeoutFailure mig) := by
  apply yields_ite
  · intro _
    rfl
  · intro _
    exact yields_then (yields_attempt (V := fun _ => True)
      (yields_call (reading.getPod _) fun _ _ => trivial) fun _ => trivial) fun _ => rfl

theorem handles_timeout (tidying : Tidying mig A) {c : Prop} [Decidable c] :
    (if c then pure false else issue (.clock .timeout)).Yields A R (fun _ => True) := by
  refine yields_unless trivial fun _ => ?_
  exact yields_call (tidying.clock _) fun _ _ => trivial

theorem handles_persist (writes : ∀ o, o.onMigration = true → A o) (s : SwiftMigrationStatus) :
    (persist mig s).Yields A R (fun _ => True) := by
  refine yields_unless trivial fun _ => ?_
  exact yields_ignoreNotFound (yields_call (writes _ rfl) fun _ _ => trivial)

section Failing

variable (tidying : Tidying mig A) (writes : ∀ o, o.onMigration = true → A o)
include tidying writes

theorem handles_recordFailure (resolution : AbortResolution) (failed : SwiftMigrationStatus) :
    (recordFailure mig resolution failed).Yields A R (fun _ => True) := by
  have ends : Prog.Yields A R (fun _ => True) (do
      clearLauncherCancel mig
      onTerminalPhase mig failed
      persist mig failed) := by
    refine yields_then (handles_clearLauncherCancel tidying) fun _ => ?_
    exact yields_then (handles_onTerminalPhase tidying failed) fun _ => handles_persist writes failed
  unfold recordFailure
  split
  · exact yields_then (handles_deleteAbandonedDestination tidying resolution) fun _ => ends
  · exact ends

theorem handles_failMigration (s : SwiftMigrationStatus) (message : String) (reason : FailureReason) :
    (failMigration mig s message reason).Yields A R (fun _ => True) := by
  have resolves : (resolveBeforeFailing mig s reason).Yields A R (fun _ => True) := by
    refine yields_unless trivial fun _ => ?_
    refine yields_then (handles_resolveSourceOwnership tidying) fun resolution => ?_
    split
    · exact yields_then (handles_persist writes _) fun _ => trivial
    · trivial
    · trivial
  refine yields_then resolves fun result => ?_
  refine yields_unless trivial fun _ => ?_
  exact handles_recordFailure tidying writes _ _

end Failing

end Closing

/-! ## A whole pass -/

structure Passing (P : SwiftMigration → Prop) (A : Op → Prop) (R : ∀ o : Op, Except Err o.Res → Prop) : Prop where
  handling : ∀ mig, P mig → Handling mig A
  sends : ∀ mig, P mig → mig.status.phase = .stopAndCopy → ∀ name base, A (.patchPod name base (base.sending mig))
  getMigration : A .getMigration
  writes : ∀ o, o.onMigration = true → A o
  read : ∀ mig, R .getMigration (.ok mig) → P mig
  flagged : ∀ present mig, R (.patchFinalizer present) (.ok mig) → P mig
  written : ∀ base wanted mig, R (.patchStatus base wanted) (.ok mig) → P mig

namespace Passing

variable {P : SwiftMigration → Prop} {A : Op → Prop} {R : ∀ o : Op, Except Err o.Res → Prop} {mig : SwiftMigration}

variable (passing : Passing P A R)
include passing

theorem persistPhaseDetail (detail : String) :
    (Migration.persistPhaseDetail mig detail).Yields A R (fun _ => True) := by
  refine yields_unless trivial fun _ => ?_
  exact yields_next (passing.writes _ rfl) fun _ => trivial

variable (here : P mig)
include here

theorem dispatchResult (result : Handled) :
    (Migration.dispatchResult mig result).Yields A R (fun _ => True) := by
  obtain ⟨outcome, s⟩ := result
  cases outcome with
  | advance | requeue => exact handles_persist passing.writes s
  | failure message reason =>
    exact handles_failMigration (passing.handling mig here).toTidying passing.writes s message reason

theorem handleCancellation :
    (Migration.handleCancellation mig).Yields A R (fun _ => True) := by
  have handling := passing.handling mig here
  have finishes : ∀ committed resolved, (finishDeletion mig committed resolved).Yields A R (fun _ => True) :=
    handles_finishDeletion handling.toTidying (passing.writes _ rfl)
  refine yields_unless trivial fun _ => ?_
  refine yields_then (handles_deletionCommitted handling.toReading) fun committed => ?_
  apply yields_ite
  · intro _
    refine yields_then (handles_resolveSourceOwnership handling.toTidying) fun resolution => ?_
    split
    · exact yields_then (yields_attempt (passing.persistPhaseDetail _) fun _ => trivial) fun _ => trivial
    · trivial
    · refine yields_then (handles_deleteAbandonedDestination handling.toTidying resolution) fun _ => ?_
      exact yields_then (handles_clearLauncherCancel handling.toTidying) fun _ => finishes _ _
  · intro _
    exact finishes _ _

theorem transitionCancelLive :
    (Migration.transitionCancelLive mig).Yields A R (fun _ => True) := by
  have handling := passing.handling mig here
  refine yields_then (handles_resolveSourceOwnership handling.toTidying) fun res => ?_
  split
  · exact yields_then (yields_attempt (passing.persistPhaseDetail _) fun _ => trivial) fun _ => trivial
  · trivial
  · refine yields_then (handles_deleteAbandonedDestination handling.toTidying res) fun _ => ?_
    refine yields_then (handles_clearLauncherCancel handling.toTidying) fun _ => ?_
    refine yields_then (yields_attempt
      (yields_call (passing.writes _ rfl) fun _ _ => trivial) fun _ => trivial) fun r => ?_
    rcases r with (_ | _ | _ | _ | _ | _) | a <;> trivial

theorem honorCancel :
    (Migration.honorCancel mig).Yields A R (fun next => ∀ mig', next = some mig' → P mig') := by
  have same : ∀ mig', some mig = some mig' → P mig' := by
    intro mig' equal
    cases equal
    exact here
  refine yields_unless same fun _ => ?_
  have handling := passing.handling mig here
  refine yields_then (handles_liveCommitted handling.getGuest handling.getPod) fun committed => ?_
  apply yields_ite
  · intro _
    have marks : (markCancelIgnored mig).Yields A R P := by
      refine yields_unless here fun _ => ?_
      exact yields_call (passing.writes _ rfl) fun mig' answer => passing.written _ _ mig' answer
    refine yields_seq marks ?_
    intro next kept mig' equal
    cases equal
    exact kept
  · intro _
    refine yields_then (passing.transitionCancelLive here) ?_
    intro _ mig' equal
    cases equal

theorem runPhase (mtls : Bool) :
    (Migration.runPhase mtls mig { mig.status with startedAt := true }).Yields A R (fun _ => True) := by
  have handling := passing.handling mig here
  have ends : ∀ {V : Handled → Prop} (handler : Act Handled), handler.Yields A R V →
      (handler >>= Migration.dispatchResult mig).Yields A R (fun _ => True) := fun handler yields =>
    yields_seq yields fun result _ => passing.dispatchResult here result
  unfold Migration.runPhase
  cases phase : mig.status.phase with
  | unset | pending => exact handles_persist passing.writes _
  | validating => exact ends _ (handles_validating handling mtls (next_started _ _))
  | preparing => exact ends _ (handles_preparing handling mtls (copied_started _).later)
  | stopAndCopy =>
    exact ends _ (handles_stopAndCopy handling (passing.sends mig here phase) mtls (copied_started _))
  | resuming => exact ends _ (handles_resuming handling.toReading (copied_started _).later)
  | completed | failed | cancelled | unknown => trivial

theorem dispatchPhase (mtls : Bool) :
    (Migration.dispatchPhase mtls mig).Yields A R (fun _ => True) := by
  have handling := passing.handling mig here
  refine yields_then (handles_timeout handling.toTidying) fun expired => ?_
  apply yields_ite
  · intro _
    exact yields_seq (handles_offlineTimeoutFailure handling.toReading) fun failure _ => passing.dispatchResult here _
  · intro _
    exact passing.runPhase here mtls

theorem proceed (mtls : Bool) :
    (Migration.proceed mtls mig).Yields A R (fun _ => True) := by
  have handling := passing.handling mig here
  have marks : (ensureFinalizer mig).Yields A R P := by
    refine yields_unless here fun _ => ?_
    exact yields_call (passing.writes _ rfl) fun mig' answer => passing.flagged _ mig' answer
  refine yields_unless (handles_finishTerminal handling.toTidying (passing.writes _ rfl) (passing.writes _ rfl)) fun _ => ?_
  refine yields_seq marks fun mig1 here1 => ?_
  refine yields_seq (passing.honorCancel here1) fun next kept => ?_
  cases next with
  | none => trivial
  | some mig2 => exact passing.dispatchPhase (kept mig2 rfl) mtls

omit here

theorem reconcile (mtls : Bool) :
    (Migration.reconcile mtls).Yields A R (fun _ => True) := by
  have reads : (lookup (issue .getMigration)).Yields A R (fun found => ∀ mig, found = some mig → P mig) := by
    refine yields_lookup (yields_call passing.getMigration ?_) ?_
    · intro mig answer mig' equal
      cases equal
      exact passing.read mig answer
    · intro mig equal
      cases equal
  refine yields_seq reads fun found known => ?_
  cases found with
  | none => trivial
  | some mig =>
    have here := known mig rfl
    apply yields_ite
    · intro _
      refine yields_then (handles_finishCutoverBeforeDeletion (passing.handling mig here).toTidying) fun forward => ?_
      refine yields_unless (passing.proceed here mtls) fun _ => ?_
      exact passing.handleCancellation here
    · intro _
      exact passing.proceed here mtls

end Passing

end KubeSwift.Migration
