import KubeSwift.Migration.Ending
import KubeSwift.Migration.Operations

/-! # A destination that may have the guest is not deleted

Every handler keeps the status fitting the cluster, and whatever abandons a live migration looks for the
hand-over first. -/

namespace KubeSwift.Migration
open Program Prog

structure Careful (mig : SwiftMigration) (P : Watched → Prop) (A : Op → Prop)
    (R : ∀ o : Op, Except Err o.Res → Prop) : Prop where
  keeps : ∀ {α : Type} {m : Act α} {V : α → Prop}, m.Yields A R V →
    Program.Leaves watched safeSpec () P m fun r w => P w ∧ ∀ value, r = .ok value → V value
  stays : ∀ w, P w → Stays mig w.cluster
  ordinary : Ordinary mig A

def Spared (mig : SwiftMigration) (w : Watched) : Prop := Stays mig w.cluster ∧ w.deletes = false

theorem careful_spares (mig : SwiftMigration) : Careful mig (Spared mig) (Spares mig) (Sees mig) where
  keeps yields _ _ here := wp_spares yields here.1 here.2
  stays _ here := here.1
  ordinary := ordinary_spares mig

variable {src : String} {mig : SwiftMigration}

theorem careful_aborts (source : Source mig src) (present : Bool) :
    Careful mig (Clear mig present) (Aborts mig src present) (Present present) where
  keeps yields _ _ here := wp_aborts source yields here
  stays _ here := here.stays
  ordinary := ordinary_aborts mig src present

theorem Known.aside (w : Watched) (known : Known mig w) : Spared mig w := ⟨known.stays, known.spared⟩

section Ends

variable {mig : SwiftMigration} {P : Watched → Prop} {A : Op → Prop} {R : ∀ o : Op, Except Err o.Res → Prop}

theorem Careful.andThen (careful : Careful mig P A R) {α β : Type} {m : Act α} {f : α → Act β} {V : α → Prop}
    (yields : m.Yields A R V) (rest : ∀ value, V value → Upholds P (f value)) : Upholds P (m >>= f) :=
  leaves_bind (careful.keeps yields) (fun _ _ _ => trivial)
    fun value w inv here => rest value (here.2 value rfl) w inv here.1

theorem Careful.finishDeletion (careful : Careful mig P A R) {committed resolved : Bool}
    (cleanup : committed = false → mig.status.mode = .live → resolved = false →
      (cleanupDstPod mig.status).Yields A R (fun _ => True)) :
    Upholds P (finishDeletion mig committed resolved) := by
  have ends : Upholds P (do issue (.ensure .nodeIdentities); removeFinalizer mig) :=
    careful.andThen (yields_call (careful.ordinary.ensure _) fun _ _ => trivial)
      fun _ _ => upholds_removeFinalizer careful.stays
  refine careful.andThen (yields_cleanupSourceGuest careful.ordinary _) fun _ _ => ?_
  split
  next abandons =>
    simp only [Bool.not_eq_true'] at abandons
    exact careful.andThen (cleanup abandons.1 abandons.2.1 abandons.2.2) fun _ _ => ends
  next => exact ends

theorem Careful.recordFailure (careful : Careful mig P A R) {resolution : AbortResolution}
    {failed : SwiftMigrationStatus}
    (abandons : resolution.outcome = .unresolved →
      (deleteAbandonedDestination mig resolution).Yields A R (fun _ => True))
    (reads : ∀ guest, R .getGuest (.ok guest) → A (.getPod (srcPodLookupName mig guest)))
    (cleanup : failed.mode = .live → isPostCutover mig = false →
      (cleanupDstPod failed).Yields A R (fun _ => True))
    (fitting : Fitting mig failed.course) : Upholds P (recordFailure mig resolution failed) := by
  have ends : Upholds P (do
      clearLauncherCancel mig
      onTerminalPhase mig failed
      persist mig failed) := by
    refine careful.andThen (yields_clearLauncherCancel careful.ordinary.toPlain reads) fun _ _ => ?_
    refine careful.andThen (yields_onTerminalPhase reads careful.ordinary cleanup) fun _ _ => ?_
    exact upholds_persist careful.stays fitting
  unfold Migration.recordFailure
  split
  next unresolved => exact careful.andThen (abandons unresolved) fun _ _ => ends
  next => exact ends

variable {src : String} {α β : Type}

theorem upholds_abandon (source : Source mig src) (res : AbortResolution) {present : Bool} {last : Act α}
    (ends : Upholds (Clear mig present) last) :
    Upholds (Clear mig present) (do
      deleteAbandonedDestination mig res
      clearLauncherCancel mig
      last) := by
  have careful := careful_aborts source present
  refine careful.andThen (yields_deleteAbandoned res) fun _ _ => ?_
  exact careful.andThen (yields_clearLauncherCancel careful.ordinary.toPlain (reads_source source)) fun _ _ => ends

theorem upholds_resolve {f : AbortResolution → Act β} (source : Source mig src) (live : mig.status.mode = .live)
    (handed : ∀ res, res.outcome = .committed → Upholds (fun _ => True) (f res))
    (clear : ∀ res present, res.outcome ≠ .committed → Upholds (Clear mig present) (f res)) :
    Upholds (Known mig) (resolveSourceOwnership mig >>= f) := by
  refine leaves_bind (leaves_resolveSourceOwnership source live) (fun _ _ _ => trivial) fun res w inv resolves => ?_
  by_cases committed : res.outcome = .committed
  · exact handed res committed w inv trivial
  · obtain ⟨present, found⟩ := resolves res rfl committed
    exact clear res present committed w inv found

theorem upholds_transitionCancelLive (source : Source mig src) (live : mig.status.mode = .live) :
    Upholds (Known mig) (transitionCancelLive mig) := by
  refine upholds_resolve source live (fun res committed => ?_) fun res present other => ?_
  · rw [committed]
    exact upholds_done
  · have stays := (careful_aborts source present).stays
    have ends := upholds_abandon source res (upholds_finalizeCancelled (cancelledDetail res) source stays)
    cases outcome : res.outcome with
    | pending => exact leaves_attempt (upholds_persistPhaseDetail stays) fun _ _ _ _ => trivial
    | committed => exact absurd outcome other
    | noSend | sourceRetained | destinationDead | unresolved => exact ends

end Ends

theorem spares_source (mig : SwiftMigration) (guest : SwiftGuest)
    (_ : Sees mig .getGuest (.ok guest)) : Spares mig (.getPod (srcPodLookupName mig guest)) :=
  ⟨trivial, nofun⟩

theorem yields_noDestination {s : SwiftMigrationStatus} {A : Op → Prop}
    {R : ∀ o : Op, Except Err o.Res → Prop} (absent : s.destinationPodRef = none) :
    (cleanupDstPod s).Yields A R (fun _ => True) := by
  unfold cleanupDstPod
  rw [absent]
  trivial

theorem reading_spares (mig : SwiftMigration) : Reading mig (Spares mig) :=
  ⟨ordinary_spares mig, fun _ => ⟨trivial, nofun⟩⟩

section Deletion

variable {mig : SwiftMigration}

theorem upholds_handleCancellation_spared (settled : mig.status.mode = .live →
      isTerminalPhase mig.status.phase = true ∧ mig.status.destinationPodRef = none) :
    Upholds (Spared mig) (handleCancellation mig) := by
  have careful := careful_spares mig
  unfold handleCancellation
  split
  · exact upholds_done
  refine careful.andThen (handles_deletionCommitted (reading_spares mig)) fun committed _ => ?_
  rw [if_neg]
  · apply careful.finishDeletion
    intro _ live _
    exact yields_noDestination (settled live).2
  · intro ⟨_, live, open_⟩
    rw [(settled live).1] at open_
    cases open_

theorem upholds_handleCancellation_live (source : Source mig src) (live : mig.status.mode = .live) :
    Upholds (Known mig) (handleCancellation mig) := by
  unfold handleCancellation
  split
  · exact upholds_done
  rw [deletionCommitted, if_pos live]
  refine leaves_bind (leaves_liveCommitted source live) (fun _ _ _ => trivial) fun committed w inv found => ?_
  obtain ⟨known, unhanded⟩ := found committed rfl
  cases committed with
  | true =>
    refine (?_ : Upholds (Spared mig) _) w inv known.aside
    exact (careful_spares mig).finishDeletion nofun
  | false =>
    split
    · refine upholds_resolve source live (fun res committed => ?_) (fun res present other => ?_) w inv known
      · rw [committed]
        exact upholds_done
      · have careful := careful_aborts source present
        cases outcome : res.outcome with
        | pending => exact leaves_attempt (upholds_persistPhaseDetail careful.stays) fun _ _ _ _ => trivial
        | committed => exact absurd outcome other
        | noSend | sourceRetained | destinationDead | unresolved =>
          exact upholds_abandon source res (careful.finishDeletion nofun)
    · exact (careful_aborts source _).finishDeletion (fun _ _ _ => yields_cleanupDstPod _) w inv
        (known.clear (unhanded rfl))

theorem upholds_handleCancellation : Upholds (Known mig) (handleCancellation mig) := by
  intro w inv known
  by_cases live : mig.status.mode = .live
  · by_cases underWay : isTerminalPhase mig.status.phase = false ∨ mig.status.destinationPodRef.isSome = true
    · obtain ⟨src, source⟩ := known.stays.source live underWay
      exact upholds_handleCancellation_live source live w inv known
    · refine upholds_handleCancellation_spared (fun _ => ?_) w inv known.aside
      simpa using underWay
  · exact upholds_handleCancellation_spared (fun now => absurd now live) w inv known.aside

end Deletion

structure Failing (mig : SwiftMigration) (s : Course) : Prop where
  failed : Fitting mig { s with phase := .failed }
  early : mig.status.phase.early = true → s.destination = none
  late : mig.status.phase.early = false → Fitting mig s

def Suitable (mig : SwiftMigration) : Handled → Prop
  | (.failure _ _, s) => Failing mig s.course
  | (_, s) => Fitting mig s.course

theorem yields_resolve_early (early : mig.status.phase.early = true) :
    (resolveSourceOwnership mig).Yields (Spares mig) (Sees mig)
      (fun res => res.outcome = .committed ∨ res.outcome = .noSend) := by
  have ordinary := ordinary_spares mig
  refine yields_then (handles_liveCommitted ordinary.getGuest (reading_spares mig).getPod) fun committed => ?_
  refine yields_unless (.inl rfl) fun _ => ?_
  refine yields_withGuest ordinary.getGuest (.inr rfl) fun guest _ => ?_
  split
  · exact .inr rfl
  next dst isDst =>
    refine yields_seq (U := fun found => found = none) ?_ ?_
    · refine yields_lookup (yields_call ⟨trivial, nofun⟩ ?_) rfl
      intro pod answer
      exact absurd isDst (answer early)
    · intro found absent
      rw [absent]
      exact .inr rfl

section Failure

variable {mig : SwiftMigration} {s : SwiftMigrationStatus} {message : String} {reason : FailureReason}

variable (failing : Failing mig s.course)
include failing

theorem upholds_failMigration_settled (settled : isLiveMode mig s = false ∨ isPostCutover mig = true) :
    Upholds (Spared mig) (failMigration mig s message reason) := by
  have direct : resolveBeforeFailing mig s reason = pure (false, ⟨.noSend, .none, ""⟩) := by
    rw [resolveBeforeFailing, if_pos]
    rcases settled with offline | post <;> simp [*]
  unfold failMigration
  rw [direct]
  show Upholds _ (recordFailure mig ⟨.noSend, .none, ""⟩ (failedStatus s message reason))
  refine (careful_spares mig).recordFailure nofun (spares_source mig) ?_ failing.failed
  intro live before
  rcases settled with offline | post
  · have : s.mode = .live := live
    simp [isLiveMode, this] at offline
  · rw [post] at before
    cases before

theorem upholds_failMigration_early (early : mig.status.phase.early = true) :
    Upholds (Spared mig) (failMigration mig s message reason) := by
  have careful := careful_spares mig
  by_cases settled : isLiveMode mig s = false ∨ isPostCutover mig = true
  · exact upholds_failMigration_settled failing settled
  have gate : (!isLiveMode mig s || isPostCutover mig) = false := by simpa using settled
  have yields : (resolveBeforeFailing mig s reason).Yields (Spares mig) (Sees mig)
      (fun result => result.1 = true ∨ result.2.outcome = .noSend) := by
    rw [resolveBeforeFailing, if_neg (by simp [gate])]
    refine yields_seq (yields_resolve_early early) ?_
    intro resolution outcome
    rcases outcome with committed | noSend
    · rw [committed]
      exact .inl rfl
    · rw [noSend]
      exact .inr noSend
  refine careful.andThen yields fun result outcome => ?_
  obtain ⟨held, resolution⟩ := result
  dsimp only
  split
  · exact upholds_done
  next go =>
    have noSend : resolution.outcome = .noSend := outcome.resolve_left go
    refine careful.recordFailure ?_ (spares_source mig) ?_ failing.failed
    · rw [noSend]
      nofun
    · intro _ _
      exact yields_noDestination (failing.early early)

theorem upholds_failMigration_live (source : Source mig src) (live : mig.status.mode = .live)
    (late : mig.status.phase.early = false) :
    Upholds (Known mig) (failMigration mig s message reason) := by
  by_cases settled : isLiveMode mig s = false ∨ isPostCutover mig = true
  · exact upholds_pre Known.aside (upholds_failMigration_settled failing settled)
  have gate : (!isLiveMode mig s || isPostCutover mig) = false := by simpa using settled
  unfold failMigration
  rw [resolveBeforeFailing, if_neg (by simp [gate]), bind_assoc]
  refine upholds_resolve source live (fun res committed => ?_) fun res present other => ?_
  · rw [committed]
    exact upholds_done
  · have careful := careful_aborts source present
    have records : Upholds (Clear mig present) (recordFailure mig res (failedStatus s message reason)) :=
      careful.recordFailure (fun _ => yields_deleteAbandoned res) (reads_source source)
        (fun _ _ => yields_cleanupDstPod _) failing.failed
    cases outcome : res.outcome with
    | pending =>
      rw [bind_assoc]
      exact leaves_bind (upholds_persist careful.stays (failing.late late)) (fun _ _ _ => trivial) fun _ _ _ _ => trivial
    | committed => exact absurd outcome other
    | noSend | sourceRetained | destinationDead | unresolved => exact records

end Failure

section Validating

variable {mig : SwiftMigration} {s : SwiftMigrationStatus}

structure Unmoved (mig : SwiftMigration) (c : Course) : Prop where
  phase : c.phase = mig.status.phase
  destination : c.destination = mig.status.destinationPodRef
  swapped : c.swapped = mig.status.conditions.podRefSwapped
  stamped : c.stamped = mig.status.cutoverStep1At

variable {w : World}

theorem Unmoved.failing {c : Course} (stays : Stays mig w) (early : mig.status.phase.early = true)
    (unmoved : Unmoved mig c) : Failing mig c := by
  have fits := stays.fits.status
  have noDest : c.destination = none := unmoved.destination.trans (fits.fresh early).1
  have late : ∀ {P : Prop}, mig.status.phase.early = false → P := fun late =>
    absurd (early.symm.trans late) (by simp)
  refine ⟨fitting_terminal rfl ?_ ?_ late, fun _ => noDest, late⟩
  · intro _ dest
    exact absurd dest (by simp [noDest])
  · rw [unmoved.stamped, unmoved.swapped]
    exact fits.stamped

theorem Unmoved.fitting {c : Course} (stays : Stays mig w) (early : mig.status.phase.early = true)
    (unmoved : Unmoved mig c) {phase : Phase} (next : phase = c.phase ∨ phase = .preparing)
    (source : c.mode = .live → ∃ name, c.source = some name ∧ name ≠ "" ∧ ¬ IsDst mig name)
    (mode : c.mode = .live ∨ c.mode = .offline) : Fitting mig { c with phase } := by
  have fits := stays.fits.status
  obtain ⟨noDest, unswapped⟩ := fits.fresh early
  refine ⟨⟨?_, fun live _ => source live, fun _ => mode, ?_, ?_⟩, fun _ => early, ?_⟩
  · intro _
    exact ⟨unmoved.destination.trans noDest, unmoved.swapped.trans unswapped⟩
  · rw [unmoved.stamped, unmoved.swapped]
    exact fits.stamped
  · intro resuming
    have resuming : phase = .resuming := resuming
    rcases next with same | preparing
    · rw [← unmoved.phase, ← same, resuming] at early
      cases early
    · rw [preparing] at resuming
      cases resuming
  · intro late
    exact absurd (early.symm.trans late) (by simp)

theorem dst_ne_guestRef (mig : SwiftMigration) : ¬ IsDst mig mig.guestRef := by
  unfold IsDst dstPodName
  intro isDst
  split at isDst
  · cases isDst
  split at isDst
  · cases isDst
  dsimp only at isDst
  split at isDst
  · cases isDst
  have lengths := congrArg String.length (Except.ok.inj isDst)
  have five : "-mig-".length = 5 := rfl
  simp only [String.length_append] at lengths
  omega

theorem canonical_other {guest : SwiftGuest} (still : mig.status.mode ≠ .live ∨ mig.status.phase.early = true)
    (moved : Moved (IsDst mig) mig.status.course guest) :
    ¬ IsDst mig (canonicalPodNameForGuest mig.guestRef guest) := by
  intro isDst
  cases ref : guest.podRef with
  | none =>
    simp only [canonicalPodNameForGuest, ref] at isDst
    exact dst_ne_guestRef mig isDst
  | some ref' =>
    by_cases unnamed : ref'.name = ""
    · simp only [canonicalPodNameForGuest, ref, unnamed, if_true] at isDst
      exact dst_ne_guestRef mig isDst
    · simp only [canonicalPodNameForGuest, ref, unnamed, if_false] at isDst
      obtain ⟨live, late⟩ := moved ref'.name isDst (by simp [ref])
      rcases still with offline | early
      · exact offline live
      · exact absurd (early.symm.trans late) (by simp)

theorem canonical_named {guest : SwiftGuest} (named : mig.guestRef ≠ "") :
    canonicalPodNameForGuest mig.guestRef guest ≠ "" := by
  unfold canonicalPodNameForGuest
  split
  · split <;> assumption
  · exact named

variable (early : mig.status.phase.early = true) (stays : Stays mig w) (unmoved : Unmoved mig s.course)
include early stays unmoved

theorem yields_checks {checks : List Check} {passed : SwiftMigrationStatus → Act Handled} (fits : Fitting mig s.course)
    (passes : (passed s).Yields (Spares mig) (Sees mig) (Suitable mig)) :
    (runChecks s passed checks).Yields (Spares mig) (Sees mig) (Suitable mig) :=
  yields_runChecks (ordinary_spares mig).toPlain (fun _ _ => unmoved.failing stays early) (fun _ _ _ _ => fits) passes

theorem yields_gate {what : Check} {passed : SwiftMigrationStatus → Act Handled} (never : what.mayWait = false)
    (passes : (passed s).Yields (Spares mig) (Sees mig) (Suitable mig)) :
    (runChecks s passed [what]).Yields (Spares mig) (Sees mig) (Suitable mig) := by
  refine yields_runChecks (ordinary_spares mig).toPlain (fun _ _ => unmoved.failing stays early) ?_ passes
  intro what detail member answer
  cases List.mem_singleton.mp member
  have waits := answer detail rfl
  rw [never] at waits
  cases waits

theorem yields_handleValidatingLive (mtls : Bool) :
    (handleValidatingLive mtls mig s).Yields (Spares mig) (Sees mig) (Suitable mig) := by
  refine yields_withGuest (ordinary_spares mig).getGuest (unmoved.failing stays early) fun guest moved => ?_
  refine yields_unless (unmoved.failing stays early) fun _ => yields_gate early stays unmoved rfl ?_
  refine yields_unless (unmoved.failing stays early) fun _ => yields_gate early stays unmoved rfl ?_
  refine yields_then (yields_readPod ⟨trivial, nofun⟩ fun _ => trivial) fun src => ?_
  have still : ∀ ref, Unmoved mig { s.course with mode := .live, source := ref } := fun ref =>
    { unmoved with }
  cases src with
  | none => exact (still _).failing stays early
  | some src =>
    have source : ∃ name, some (canonicalPodNameForGuest mig.guestRef guest) = some name ∧ name ≠ "" ∧
        ¬ IsDst mig name :=
      ⟨_, rfl, canonical_named stays.fits.named, canonical_other (.inr early) moved⟩
    have fits : ∀ {phase}, phase = s.phase ∨ phase = .preparing → Fitting mig { s.course with
        mode := .live, source := some (canonicalPodNameForGuest mig.guestRef guest), phase } := fun next =>
      (still _).fitting stays early next (fun _ => source) (.inl rfl)
    refine yields_checks early stays (still _) (fits (.inl rfl)) ?_
    refine yields_unless ((still _).failing stays early) fun _ => yields_checks early stays (still _) (fits (.inl rfl)) ?_
    exact yields_checks early stays (still _) (fits (.inl rfl)) (fits (.inr rfl))

theorem yields_handleValidatingOffline :
    (handleValidatingOffline mig s).Yields (Spares mig) (Sees mig) (Suitable mig) := by
  refine yields_withGuest (ordinary_spares mig).getGuest (unmoved.failing stays early) fun guest moved => ?_
  refine yields_unless (unmoved.failing stays early) fun _ => ?_
  have still : Unmoved mig { s.course with mode := .offline } :=
    { unmoved with }
  have fits : ∀ {phase}, phase = s.phase ∨ phase = .preparing →
      Fitting mig { s.course with mode := .offline, phase } := fun next =>
    still.fitting stays early next nofun (.inr rfl)
  exact yields_checks early stays still (fits (.inl rfl)) (fits (.inr rfl))

theorem yields_handleValidating (mtls : Bool) :
    (handleValidating mtls mig s).Yields (Spares mig) (Sees mig) (Suitable mig) := by
  have modes : ∀ s' : SwiftMigrationStatus, Unmoved mig s'.course →
      (handleValidatingMode mtls mig s').Yields (Spares mig) (Sees mig) (Suitable mig) := by
    intro s' unmoved
    unfold handleValidatingMode
    split
    · exact yields_handleValidatingLive early stays unmoved mtls
    · exact yields_handleValidatingOffline early stays unmoved
  refine yields_gate early stays unmoved rfl ?_
  apply yields_ite
  · intro _
    refine yields_then (handles_resolveAutoMode (ordinary_spares mig).toPlain) fun found => ?_
    cases found with
    | none => exact unmoved.failing stays early
    | some mode => exact modes _ { unmoved with }
  · intro _
    exact modes s unmoved

end Validating

def Phase.running : Phase → Bool
  | .preparing | .stopAndCopy | .resuming => true
  | _ => false

section Running

variable {mig : SwiftMigration} {s : SwiftMigrationStatus} {w : World}

theorem running_late {phase : Phase} (running : phase.running = true) : phase.early = false := by
  cases phase <;> first | rfl | cases running

theorem running_open {phase : Phase} (running : phase.running = true) : isTerminalPhase phase = false := by
  cases phase <;> first | rfl | cases running

variable (running : mig.status.phase.running = true)
include running

theorem fitting_running (stays : Stays mig w) {c : Course}
    (late : c.phase.early = false) (mode : c.mode = mig.status.mode) (source : c.source = mig.status.sourcePodRef)
    (stamped : c.stamped = true → c.swapped = true)
    (resumed : c.phase = .resuming → c.mode = .live → c.swapped = true) : Fitting mig c := by
  have fits := stays.fits.status
  refine ⟨⟨?_, ?_, ?_, stamped, resumed⟩, ?_, fun _ => mode⟩
  · intro early
    exact absurd (early.symm.trans late) (by simp)
  · intro live _
    rw [source]
    exact fits.source (mode.symm.trans live) (.inl (running_open running))
  · intro _
    rw [mode]
    apply fits.mode
    revert running
    cases phase : mig.status.phase <;> simp [Phase.running, SwiftMigrationStatus.course, phase]
  · intro early
    exact absurd (early.symm.trans late) (by simp)

theorem Fitting.suitable (fitting : Fitting mig s.course) (outcome : Outcome) : Suitable mig (outcome, s) := by
  cases outcome with
  | advance | requeue => exact fitting
  | failure message reason =>
    refine ⟨?_, ?_, fun _ => fitting⟩
    · exact fitting_terminal rfl (fun live dest => fitting.status.source live (.inr dest))
        fitting.status.stamped fitting.mode
    · intro early
      exact absurd (early.symm.trans (running_late running)) (by simp)

theorem suitable_later (stays : Stays mig w) (goal : Phase)
    (ahead : goal.early = false) (other : goal ≠ .resuming ∨ mig.status.mode ≠ .live)
    (later : Later goal mig.status s) (outcome : Outcome) : Suitable mig (outcome, s) := by
  have fits := stays.fits.status
  obtain ⟨phase, mode, source, swapped, stamped⟩ := later
  refine Fitting.suitable running (fitting_running running stays ?_ mode source ?_ ?_) outcome
  · show s.phase.early = false
    rcases phase with same | moved
    · rw [same]
      exact running_late running
    · rw [moved]
      exact ahead
  · show s.cutoverStep1At = true → s.conditions.podRefSwapped = true
    rw [stamped, swapped]
    exact fits.stamped
  · intro resuming live
    have live : mig.status.mode = .live := mode.symm.trans live
    rcases phase with same | moved
    · exact swapped.trans (fits.resumed (same.symm.trans resuming) live)
    · rcases other with other | offline
      · exact absurd (moved.symm.trans resuming) other
      · exact absurd live offline

theorem suitable_crossing (stays : Stays mig w)
    (crossing : Crossing mig.status s) (outcome : Outcome) : Suitable mig (outcome, s) := by
  have fits := stays.fits.status
  obtain ⟨⟨phase, mode, source, kept⟩, recorded⟩ := crossing
  have swapped : s.cutoverStep1At = true ∨ s.phase ≠ mig.status.phase → s.conditions.podRefSwapped = true :=
    fun crossed => (recorded crossed).elim id fun stamped => kept (fits.stamped stamped)
  refine Fitting.suitable running (fitting_running running stays ?_ mode source (fun stamped => swapped (.inl stamped))
    ?_) outcome
  · show s.phase.early = false
    rcases phase with same | moved
    · rw [same]
      exact running_late running
    · rw [moved]
      rfl
  · intro resuming live
    by_cases same : s.phase = mig.status.phase
    · exact kept (fits.resumed (same.symm.trans resuming) (mode.symm.trans live))
    · exact swapped (.inr same)

omit running

theorem stopping_spares (offline : mig.status.mode ≠ .live) : Stopping mig (Spares mig) (Sees mig) where
  toReading := reading_spares mig
  patchGuestStatus _ _ same := ⟨.inl same.symm, nofun⟩
  deleteSource guest told := by
    have moved : Moved (IsDst mig) mig.status.course guest := by
      rcases told with answer | ⟨_, _, answer⟩ <;> exact answer
    refine ⟨trivial, ?_⟩
    rintro name ⟨⟩
    exact canonical_other (.inl offline) moved

theorem driving_advances (source : Source mig src) (stays : Stays mig w)
    (running : mig.status.phase.running = true) (live : mig.status.mode = .live) (guest : SwiftGuest) :
    Driving mig guest (Advances mig src) where
  toOrdinary := ordinary_advances mig src
  source := by
    refine ⟨⟨trivial, nofun⟩, nofun, ?_⟩
    rintro name ⟨⟩
    exact .inl (source.lookup guest)
  destination dst isDst := by
    refine ⟨⟨trivial, nofun⟩, nofun, ?_⟩
    rintro name ⟨⟩
    exact .inr isDst
  receive _ _ := ⟨⟨trivial, nofun⟩, nofun, nofun⟩
  createPod _ _ _ _ := ⟨⟨running_late running, nofun⟩, nofun, nofun⟩
  patchGuestStatus _ _ _ := ⟨⟨.inr ⟨live, running_late running⟩, nofun⟩, nofun, nofun⟩
  deleteSource stamped := by
    refine ⟨⟨trivial, ?_⟩, fun _ => stays.fits.status.stamped stamped, nofun⟩
    rintro name ⟨⟩
    rw [source.lookup]
    exact source.other

end Running

section Pass

variable {mig : SwiftMigration} {w : Watched}

variable (settled : mig.status.phase.early = true ∨ isPostCutover mig = true ∨ mig.status.mode = .offline)
include settled

theorem upholds_dispatch_spared {result : Handled}
    (suitable : Suitable mig result) : Upholds (Spared mig) (dispatchResult mig result) := by
  obtain ⟨outcome, s⟩ := result
  cases outcome with
  | advance | requeue => exact upholds_persist (fun _ here => here.1) suitable
  | failure message reason =>
    have failing : Failing mig s.course := suitable
    cases early : mig.status.phase.early with
    | true => exact upholds_failMigration_early failing early
    | false =>
      apply upholds_failMigration_settled failing _
      rcases settled with now | post | offline
      · exact absurd (early.symm.trans now) (by simp)
      · exact .inr post
      · have mode : s.mode = .offline := ((failing.late early).mode early).trans offline
        simp [isLiveMode, mode]

theorem upholds_handle_spared {handler : Act Handled} (yields : handler.Yields (Spares mig) (Sees mig) (Suitable mig)) :
    Upholds (Known mig) (handler >>= dispatchResult mig) :=
  upholds_pre Known.aside ((careful_spares mig).andThen yields fun _ => upholds_dispatch_spared settled)

omit settled

theorem upholds_dispatch_live {result : Handled} (source : Source mig src)
    (live : mig.status.mode = .live) (late : mig.status.phase.early = false) (suitable : Suitable mig result) :
    Upholds (Known mig) (dispatchResult mig result) := by
  obtain ⟨outcome, s⟩ := result
  cases outcome with
  | advance | requeue => exact upholds_persist (fun _ => Known.stays) suitable
  | failure message reason => exact upholds_failMigration_live suitable source live late

theorem upholds_handle_live {gone : Handled} {there : SwiftGuest → Act Handled} (source : Source mig src)
    (live : mig.status.mode = .live) (late : mig.status.phase.early = false) (absent : Suitable mig gone)
    (yields : ∀ guest, (there guest).Yields (Advances mig src) (Sees mig) (Suitable mig)) :
    Upholds (Known mig)
      ((readGuest >>= fun | none => pure gone | some guest => there guest) >>= dispatchResult mig) := by
  intro w inv known
  rw [wp_bind, wp_bind]
  apply wp_readGuest inv
  · intro guest found
    refine wp_mono ?_ (wp_inv inv (wp_advances source (yields guest) known (by rw [found]; rfl)))
    intro r w' kept
    cases r with
    | error e => trivial
    | ok result => exact upholds_dispatch_live source live late (kept.2.2 result rfl) w' kept.1 kept.2.1.1
  · intro _
    exact upholds_dispatch_live source live late absent w inv known
  · intro e
    trivial

theorem Known.mode (known : Known mig w) (running : mig.status.phase.running = true) :
    mig.status.mode = .live ∨ mig.status.mode = .offline := by
  apply known.stays.fits.status.mode
  show mig.status.phase = .preparing ∨ mig.status.phase = .stopAndCopy ∨ mig.status.phase = .resuming
  cases phase : mig.status.phase <;> simp [phase, Phase.running] at running ⊢

theorem fitting_begun {w : World} (stays : Stays mig w) (early : mig.status.phase.early = true) :
    Fitting mig { mig.status.course with phase := .validating } := by
  have fits := stays.fits.status
  have still : isTerminalPhase mig.status.phase = false := by
    cases phase : mig.status.phase <;> simp [phase, Phase.early] at early ⊢ <;> rfl
  refine ⟨⟨fun _ => fits.fresh early, fun live _ => fits.source live (.inl still), ?_, fits.stamped, nofun⟩, ?_, ?_⟩
  · intro phase
    rcases phase with phase | phase | phase <;> cases phase
  · intro _
    exact early
  · intro late
    exact absurd (early.symm.trans late) (by simp)

theorem upholds_runPhase (mtls : Bool) : Upholds (Known mig) (runPhase mtls mig { mig.status with startedAt := true }) := by
  intro w inv known
  have stays := known.stays
  have copied := copied_started mig.status
  unfold runPhase
  cases phase : mig.status.phase with
  | unset | pending =>
    have early : mig.status.phase.early = true := by rw [phase]; rfl
    exact upholds_persist (fun _ => Known.stays) (fitting_begun stays early) w inv known
  | validating =>
    have early : mig.status.phase.early = true := by rw [phase]; rfl
    refine upholds_handle_spared (.inl early) ?_ w inv known
    refine yields_handleValidating early stays ?_ mtls
    exact ⟨rfl, rfl, rfl, rfl⟩
  | preparing =>
    have running : mig.status.phase.running = true := by rw [phase]; rfl
    have suits : ∀ h : Handled, Later .stopAndCopy mig.status h.2 → Suitable mig h := fun h later =>
      suitable_later running stays .stopAndCopy rfl (.inl (by decide)) later h.1
    rcases known.mode running with live | offline
    · obtain ⟨src, source⟩ := stays.source live (.inl (running_open running))
      rw [handlePreparing, if_pos (by simp [isLiveMode, live])]
      exact upholds_handle_live source live (running_late running) (suits _ copied.later) (fun guest => yields_mono suits
        (handles_preparingLive (driving_advances source stays running live guest) mtls copied.later)) w inv known
    · exact upholds_handle_spared (.inr (.inr offline)) (yields_mono suits (handles_preparingOffline
        (stopping_spares (by simp [offline])) mtls (by simp [isLiveMode, offline]) copied.later)) w inv known
  | stopAndCopy =>
    have running : mig.status.phase.running = true := by rw [phase]; rfl
    rcases known.mode running with live | offline
    · obtain ⟨src, source⟩ := stays.source live (.inl (running_open running))
      have suits : ∀ h : Handled, Crossing mig.status h.2 → Suitable mig h := fun h crossing =>
        suitable_crossing running stays crossing h.1
      have sends : ∀ name base, Advances mig src (.patchPod name base (base.sending mig)) := fun _ _ =>
        ⟨⟨trivial, by simp [Op.deletes]⟩, by simp [Op.deletes], by simp [Op.reads]⟩
      rw [handleStopAndCopy, if_pos (by simp [isLiveMode, live])]
      exact upholds_handle_live source live (running_late running) (suits _ copied.crossing) (fun guest => yields_mono
        suits (handles_stopAndCopyLive (driving_advances source stays running live guest) sends mtls copied)) w inv known
    · have other : mig.status.mode ≠ .live := by simp [offline]
      exact upholds_handle_spared (.inr (.inr offline))
        (yields_mono (fun h later => suitable_later running stays .resuming rfl (.inr other) later h.1)
          (handles_stopAndCopyOffline (stopping_spares other) mtls (by simp [isLiveMode, offline]) copied.later))
        w inv known
  | resuming =>
    have running : mig.status.phase.running = true := by rw [phase]; rfl
    have settled : isPostCutover mig = true ∨ mig.status.mode = .offline :=
      (known.mode running).imp_left fun live => stays.fits.status.resumed phase live
    exact upholds_handle_spared (.inr settled)
      (yields_mono (fun h later => suitable_later running stays .completed rfl (.inl (by decide)) later h.1)
        (handles_resuming (reading_spares mig) copied.later)) w inv known
  | completed | failed | cancelled | unknown => trivial

end Pass

section Reconcile

variable {mig : SwiftMigration} {p : Unit} {w : Watched}

theorem wp_clock {timer : Timer} {Q : Except Err Bool → Watched → Prop} (inv : safeSpec.inv w)
    (after : ∀ r, Q r w) : wp watched safeSpec p (issue (.clock timer)) Q w := by
  rw [wp_call]
  refine ⟨trivial, ?_⟩
  intro r w' action
  have same : w' = w := by
    obtain ⟨seen, deletes, -⟩ := watched_cases action
    have cluster : w'.cluster = w.cluster := by
      rcases watched_effect action with same | ⟨c, a, done⟩
      · exact same
      · exact (Prod.mk.inj (Except.ok.inj done)).1.symm
    cases w'
    cases cluster
    cases seen
    cases deletes
    rfl
  rw [same]
  refine ⟨inv, trivial, ?_⟩
  intro w'' same _
  rw [show w'' = w from same]
  exact after r

theorem Stays.failing {w : World} (stays : Stays mig w) : Failing mig mig.status.course := by
  have fits := stays.fits.status
  refine ⟨?_, fun early => (fits.fresh early).1, fun _ => .same stays⟩
  exact fitting_terminal rfl (fun live dest => fits.source live (.inr dest)) fits.stamped fun _ => rfl

theorem upholds_dispatchPhase (mtls : Bool) : Upholds (Known mig) (dispatchPhase mtls mig) := by
  intro w inv known
  have runs := upholds_runPhase mtls w inv known
  unfold dispatchPhase
  rw [wp_bind]
  split
  · exact runs
  next offline =>
    apply wp_clock known.inv
    intro r
    cases r with
    | error e => trivial
    | ok expired =>
      cases expired with
      | false => exact runs
      | true =>
        refine (careful_spares mig).andThen (handles_offlineTimeoutFailure (reading_spares mig)) (fun outcome same => ?_)
          w inv known.aside
        rw [same]
        refine upholds_failMigration_settled known.stays.failing (.inl ?_)
        simp only [not_or] at offline
        simpa using offline.2.2

theorem Known.rewritten {mig' : SwiftMigration} {w' : Watched} (known : Known mig w)
    (stays : Stays mig' w'.cluster) (written : w'.cluster = w.cluster.setMigration (some mig'))
    (seen : w'.seen = w.seen) (deletes : w'.deletes = w.deletes) (dst : IsDst mig' = IsDst mig)
    (recv : recvActionID mig' = recvActionID mig) (send : sendActionID mig' = sendActionID mig)
    (ref : mig'.status.sourcePodRef = mig.status.sourcePodRef) (post : isPostCutover mig' = isPostCutover mig) :
    Known mig' w' := by
  refine ⟨stays, deletes.trans known.spared, ?_⟩
  intro now
  rw [seen] at now
  rcases known.seen now with before | ⟨guest, name, pod, there, witness⟩
  · exact .inl (post.trans before)
  · right
    rw [written]
    refine ⟨guest, name, pod, there, ?_⟩
    simpa only [Witness, dst, dstReportedRunning, srcReportedComplete, recv, send, ref] using witness

theorem leaves_ensureFinalizer : Program.Leaves watched safeSpec () (Known mig) (ensureFinalizer mig) fun r w' =>
    ∀ mig', r = .ok mig' → Known mig' w' ∧ mig'.status = mig.status := by
  intro w inv known
  unfold ensureFinalizer
  split
  · intro mig' same
    cases same
    exact ⟨known, rfl⟩
  · have performs : ∀ c, w.cluster.perform c (.patchFinalizer true) =
        .ok (w.cluster.setMigration (some (World.withFinalizer mig true)), World.withFinalizer mig true) := by
      intro c
      simp [World.perform, World.found, known.stays.migration, World.remaining, World.withFinalizer]
    have fits : Fits (World.withFinalizer mig true) (w.cluster.setMigration (some (World.withFinalizer mig true))) :=
      known.stays.fits.flag _ ⟨rfl, rfl, rfl⟩
    refine wp_write known.stays inv.2 ⟨fun r => ?_, rfl⟩ performs ?_ ?_ ?_
    · cases r <;> rfl
    · rintro _ _ ⟨⟩
      exact fits
    · rintro _ w' written seen deletes _ ⟨⟩
      have stays : Stays (World.withFinalizer mig true) w'.cluster := written ▸ ⟨rfl, fits⟩
      exact ⟨known.rewritten stays written seen deletes rfl rfl rfl rfl rfl, rfl⟩
    · intro _ _ _ failed
      cases failed

theorem leaves_markCancelIgnored : Program.Leaves watched safeSpec () (Known mig) (markCancelIgnored mig) fun r w' =>
    ∀ mig', r = .ok mig' → Known mig' w' := by
  intro w inv known
  unfold markCancelIgnored
  split
  · intro mig' same
    cases same
    exact known
  · refine wp_patchStatus known.stays inv.2 (.same known.stays) ?_ ?_
    · intro time w' stays written seen deletes mig' same
      cases same
      apply known.rewritten stays written seen deletes rfl <;>
        simp [World.withStatus, SwiftMigrationStatus.stamped, recvActionID, sendActionID, sendAttemptNumber, isPostCutover]
    · intro _ _ _ failed
      cases failed

theorem leaves_honorCancel (still : isTerminalPhase mig.status.phase = false) :
    Program.Leaves watched safeSpec () (Known mig) (honorCancel mig) fun r w' =>
      ∀ mig', r = .ok (some mig') → Known mig' w' := by
  intro w inv known
  unfold honorCancel
  split
  · intro mig' same
    cases same
    exact known
  next asked =>
    have live : mig.status.mode = .live := by
      simp only [Bool.or_eq_true, not_or] at asked
      simpa using asked.2
    obtain ⟨src, source⟩ := known.stays.source live (.inl still)
    refine leaves_bind (leaves_liveCommitted source live) (fun _ _ _ _ same => nomatch same) (fun committed => ?_) w inv known
    refine leaves_conseq ?_ (fun _ _ found => (found committed rfl).1) fun _ _ kept => kept
    split
    · refine leaves_bind leaves_markCancelIgnored (fun _ _ _ _ same => nomatch same) fun next w' _ marked mig' same => ?_
      cases same
      exact marked _ rfl
    · refine leaves_bind (upholds_transitionCancelLive source live) (fun _ _ _ _ same => nomatch same) ?_
      exact fun _ _ _ _ _ same => nomatch same

theorem upholds_finishTerminal : Upholds (Known mig) (finishTerminal mig) := by
  have careful := careful_spares mig
  refine upholds_pre Known.aside ?_
  refine careful.andThen (handles_clearDestinationReceive careful.ordinary.toPlain (reading_spares mig).getPod) fun _ _ => ?_
  refine careful.andThen (yields_clearLauncherCancel careful.ordinary.toPlain (spares_source mig)) fun _ _ => ?_
  split
  · exact careful.andThen (yields_call (careful.ordinary.ensure _) fun _ _ => trivial)
      fun _ _ => upholds_removeFinalizer careful.stays
  · unfold handleTerminalRetention
    split
    · exact upholds_done
    refine careful.andThen (yields_call (careful.ordinary.clock _) fun _ _ => trivial) fun isOver _ w inv here => ?_
    split
    · apply wp_ignoreNotFound
      have performs : ∀ c, w.cluster.perform c .deleteMigration = .ok (w.cluster.setMigration
          (World.remaining { mig with deleting := true, resourceVersion := mig.resourceVersion + 1 }), ()) := by
        intro c
        simp [World.perform, World.found, here.1.migration]
      refine wp_write here.1 inv.2 ⟨fun _ => rfl, rfl⟩ performs (fun _ mig' left => here.1.fits.flag _ ?_)
        (fun _ _ _ _ _ => trivial) fun _ _ => trivial
      cases World.remaining_eq left
      exact ⟨rfl, rfl, rfl⟩
    · trivial

theorem upholds_proceed (mtls : Bool) : Upholds (Known mig) (proceed mtls mig) := by
  unfold proceed
  split
  · exact upholds_finishTerminal
  next still =>
    have still : isTerminalPhase mig.status.phase = false := by simpa using still
    refine leaves_bind leaves_ensureFinalizer (fun _ _ _ => trivial) fun mig1 w1 inv1 ensured => ?_
    obtain ⟨known1, status⟩ := ensured mig1 rfl
    refine leaves_bind (leaves_honorCancel (by rw [status]; exact still)) (fun _ _ _ => trivial)
      (fun next w2 inv2 honored => ?_) w1 inv1 known1
    cases next with
    | none => trivial
    | some mig2 => exact upholds_dispatchPhase mtls w2 inv2 (honored mig2 rfl)

theorem wp_reconcile (mtls : Bool) (inv : safeSpec.inv w) :
    wp watched safeSpec p (reconcile mtls) (fun _ _ => True) w := by
  unfold reconcile
  rw [wp_bind, wp_lookup, wp_call]
  refine ⟨trivial, ?_⟩
  intro r w' action
  obtain ⟨c, cluster, done, rfl⟩ := watched_exec action
  obtain ⟨rfl, outcome⟩ := World.exec_read rfl done
  refine ⟨⟨inv.1, fun _ => rfl⟩, trivial, ?_⟩
  intro w'' same _
  cases same
  rcases outcome with ⟨mig, here, rfl⟩ | ⟨none, rfl⟩ | ⟨fault, rfl⟩
  · have known : Known mig ⟨w.cluster, isPostCutover mig, false⟩ := ⟨⟨here, inv.1 mig here⟩, rfl, .inl⟩
    show wp watched safeSpec p (if mig.deleting then _ else _) (fun _ _ => True) ⟨w.cluster, isPostCutover mig, false⟩
    refine (?_ : Upholds (Known mig) _) _ known.inv known
    split
    · unfold finishCutoverBeforeDeletion
      split
      · exact upholds_handleCancellation
      next asked =>
        simp only [Bool.or_eq_true, not_or] at asked
        have still : isTerminalPhase mig.status.phase = false := by simpa using asked.1.2
        have live : mig.status.mode = .live := by simpa using asked.2
        obtain ⟨src, source⟩ := known.stays.source live (.inl still)
        refine leaves_bind (leaves_liveCommitted source live) (fun _ _ _ => trivial) fun committed w1 inv1 found => ?_
        obtain ⟨known1, -⟩ := found committed rfl
        cases committed with
        | true => exact upholds_proceed mtls w1 inv1 known1
        | false => exact upholds_handleCancellation w1 inv1 known1
    · exact upholds_proceed mtls
  · trivial
  · exact onFound_fault fault fun _ => trivial

end Reconcile

theorem suits_surroundings : Suits watched safeSpec surroundings where
  refl _ _ := rfl
  trans _ _ _ _ first second := second.trans first
  env _ _ _ moves := moves.elim
  quiet w w' inv moves := by
    obtain ⟨between, seen, deletes⟩ := moves
    refine ⟨?_, by rw [seen, deletes]; exact inv.2⟩
    intro mig here
    obtain ⟨old, was, edited⟩ := between.migration mig here
    have flagged : Flagged old mig := by
      rw [← edited]
      exact ⟨rfl, rfl, rfl⟩
    have same := (inv.1 old was).flag none flagged
    refine ⟨same.named, same.status, ?_, ?_⟩
    · intro early name isDst
      exact between.pods old name was (flagged.dst ▸ isDst) (same.placed.absent early name isDst)
    · intro guest there name isDst points
      obtain ⟨before, found, pointed⟩ :=
        between.podRef old name guest was (flagged.dst ▸ isDst) there points
      exact same.placed.moved before found name isDst pointed
  starts p prog w offer inv := by
    obtain ⟨mtls, rfl⟩ := offer
    exact wp_reconcile mtls inv

theorem Created.inv {w : World} (created : Created w) : safeSpec.inv ⟨w, false, false⟩ := by
  refine ⟨?_, nofun⟩
  intro mig here
  obtain ⟨phase, mode, dest, swapped, stamped⟩ := created.fresh mig here
  refine ⟨created.named mig here, ⟨?_, ?_, ?_, ?_, ?_⟩, ?_, ?_⟩
  · intro _
    exact ⟨dest, swapped⟩
  · intro live
    exact absurd (mode.symm.trans live) nofun
  · intro running
    simp [SwiftMigrationStatus.course, phase] at running
  · intro now
    exact absurd (stamped.symm.trans now) nofun
  · intro resuming
    exact absurd (phase.symm.trans resuming) nofun
  · intro _ name isDst
    exact (created.absent mig name here isDst).1
  · intro guest there name isDst points
    exact absurd points ((created.absent mig name here isDst).2 guest there)

/-- A pass that has seen a witness of the hand-over, or started from a migration whose podRef was swapped,
has not asked for the deletion of the destination pod, and a pass that has asked for it sees none. -/
theorem destination_kept_after_handover {w : World} (created : Created w) {s : Loops Unit Watched Op Op.Res Err}
    (reach : LoopsReach watched surroundings ⟨w, false, false⟩ s) :
    s.world.seen = true → s.world.deletes = false :=
  (loopsSound_reach suits_surroundings created.inv reach).inv.2

private def reportsComplete : List (LoopMove Unit Choice Bool LiveEvent) :=
  transfer ++ [.quiet (.report "vm" .complete (.send "m" 1)), .start () false] ++ List.replicate 6 (.op () {})

theorem destination_kept_after_report :
    ∃ s, LoopsReach watched surroundings ⟨runningGuest, false, false⟩ s ∧
      s.world.cluster.migration.map (fun mig => mig.status.phase) = some .stopAndCopy ∧
      (s.world.cluster.pods "vm-mig-abcdef").isSome = true ∧ s.world.seen = true ∧ s.world.deletes = false := by
  have reached : ∃ s, LoopsReach watched surroundings ⟨runningGuest, false, false⟩ s ∧
      s.world.cluster.migration.map (fun mig => mig.status.phase) = some .stopAndCopy ∧
      (s.world.cluster.pods "vm-mig-abcdef").isSome = true ∧ s.world.seen = true :=
    exists_of_play liveScript_fits reportsComplete (by decide +kernel)
  obtain ⟨s, reach, phase, there, seen⟩ := reached
  exact ⟨s, reach, phase, there, seen, destination_kept_after_handover runningGuest_created reach seen⟩

end KubeSwift.Migration
