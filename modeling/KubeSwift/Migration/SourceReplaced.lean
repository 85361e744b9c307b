import KubeSwift.Migration.Operations
import KubeSwift.Migration.Ending

/-! # A source pod that is no longer the one the migration started from

In `StopAndCopy` the source pod is compared with the recorded UID only under the listed phase details. -/

namespace KubeSwift.Migration
open Program

def Op.orders : Op → Bool
  | .createPod _ pod => pod.action = .receive || pod.action = .send
  | .patchPod _ base wanted => (wanted.action = .receive || wanted.action = .send) &&
    !(wanted.action = base.action && wanted.actionID = base.actionID)
  | _ => false

def anyFault : Machine Unit World Op Op.Res Err := engine.machine (fun _ _ _ _ => True) (fun _ _ => True)

def orderless : Spec Unit World Op where
  inv _ := True
  rely _ w w' := w' = w
  guar _ _ _ := True
  pre _ _ o := o.orders = false

def Replaced (mig : SwiftMigration) (guest : SwiftGuest) (dst : String) (w : World) : Prop :=
  w.migration = some mig ∧ w.guest = some guest ∧ IsDst mig dst ∧
    mig.status.phase = .stopAndCopy ∧ mig.status.mode = .live ∧ mig.status.conditions.podRefSwapped = false ∧
    passedCommitPoint mig (w.pods (srcPodLookupName mig guest)) (w.pods dst) = false ∧
    mig.status.sourcePodUID ≠ "" ∧
    ((w.pods (srcPodLookupName mig guest)).map fun pod => pod.uid) ≠ some mig.status.sourcePodUID

instance (mig : SwiftMigration) (guest : SwiftGuest) (dst : String) (w : World) : Decidable (Replaced mig guest dst w) := by
  unfold Replaced
  infer_instance

def Compared (mig : SwiftMigration) (dst : String) (w : World) : Prop :=
  isPreCutoverPhaseDetail mig.status.phaseDetail = true ∧ mig.deleting = false ∧ mig.cancelRequested = false ∧
    (w.pods dst).isSome = true

instance (mig : SwiftMigration) (dst : String) (w : World) : Decidable (Compared mig dst w) := by
  unfold Compared
  infer_instance

/-- Whether `resolveSourceOwnership`, seeing these pods before the hand-over, settles in the same pass. -/
def settledAtOnce (mig : SwiftMigration) (src : Option Pod) (dst : Pod) : Bool :=
  match src with
  | none => destinationCancelIssued mig dst && cancelAcknowledged mig dst
  | some src =>
    if srcReportedSendEnded mig src then true
    else if destinationCancelIssued mig dst then cancelAcknowledged mig dst
    else !sendMayHaveStarted mig src ||
      (src.cancelResultID = cancelSendID mig && src.cancelResult = .notActive &&
        !(src.status = .sending && src.statusID = sendActionID mig))

def Decided (mig : SwiftMigration) (guest : SwiftGuest) (dst : String) (w : World) : Prop :=
  (w.pods dst).all (settledAtOnce mig (w.pods (srcPodLookupName mig guest))) = true

instance (mig : SwiftMigration) (guest : SwiftGuest) (dst : String) (w : World) : Decidable (Decided mig guest dst w) :=
  inferInstanceAs (Decidable (_ = true))

def ReplacedFailure (h : Handled) : Prop := ∃ message, h.1 = .failure message .sourcePodReplaced

def EndsReplaced (w : World) : Prop :=
  ∃ mig, w.migration = some mig ∧ mig.status.phase = .failed ∧ mig.status.failureReason = .sourcePodReplaced

section Pass

variable {mig : SwiftMigration} {guest : SwiftGuest} {dst : String} {w : World} {α : Type} {mtls : Bool}

theorem wp_sees {o : Op} {f : Option o.Res → Act α} {Q : Except Err α → World → Prop} {object : Option o.Res}
    (reads : ∀ c, w.perform c o = World.found object fun x => (w, x)) (plain : o.orders = false)
    (failed : ∀ e, Q (.error e) w) (seen : wp anyFault orderless () (f object) Q w) :
    wp anyFault orderless () (lookup (issue o) >>= f) Q w := by
  rw [wp_bind, wp_lookup, wp_call]
  refine ⟨plain, ?_⟩
  rintro r w' ⟨c, -, action⟩
  obtain ⟨rfl, outcome⟩ := World.exec_read (reads c) action
  refine ⟨trivial, trivial, ?_⟩
  rintro w'' rfl -
  rcases outcome with ⟨x, there, rfl⟩ | ⟨none_there, rfl⟩ | ⟨fault, rfl⟩
  · subst there
    exact seen
  · subst none_there
    exact seen
  · exact onFound_fault fault failed

def Tidies (away : Prop) (o : Op) : Prop := o.orders = false ∧ (away → o.onMigration = false)

theorem tidying_tidies (away : Prop) (mig : SwiftMigration) : Tidying mig (Tidies away) where
  getGuest := ⟨rfl, fun _ => rfl⟩
  getProfile _ := ⟨rfl, fun _ => rfl⟩
  clock _ := ⟨rfl, fun _ => rfl⟩
  check _ := ⟨rfl, fun _ => rfl⟩
  ensure _ := ⟨rfl, fun _ => rfl⟩
  patchGuest _ _ := ⟨rfl, fun _ => rfl⟩
  patchPod _ base wanted patch := by
    refine ⟨?_, fun _ => rfl⟩
    rcases patch.action with ⟨verb, id⟩ | ⟨verb, -⟩ | ⟨verb, -⟩ | ⟨verb, -⟩ <;> simp [Op.orders, *]
  gpu _ := ⟨rfl, fun _ => rfl⟩
  getPod _ := ⟨rfl, fun _ => rfl⟩
  deletePod _ _ := ⟨rfl, fun _ => rfl⟩

theorem wp_tidies {away : Prop} {m : Act α} {V : α → Prop} (yields : m.Yields (Tidies away) (fun _ _ => True) V)
    (here : away → w.migration = some mig) : wp anyFault orderless () m
      (fun r w' => (away → w'.migration = some mig) ∧ ∀ a, r = .ok a → V a) w := by
  refine wp_yields (P := fun w : World => away → w.migration = some mig) ?_ yields here
  rintro o w ⟨plain, aside⟩ here
  refine ⟨plain, ?_⟩
  rintro r w' ⟨c, -, action⟩
  refine ⟨trivial, trivial, trivial, ?_⟩
  rintro w'' rfl - off
  rcases World.exec_cases action with ⟨a, -, did⟩ | ⟨e, -, same, -⟩ | ⟨fault, -, same | ⟨a, did⟩⟩
  · exact (World.perform_migration (aside off) did).trans (here off)
  · exact same ▸ here off
  · exact same ▸ here off
  · exact (World.perform_migration (aside off) did).trans (here off)

theorem stopAndCopyTransfer_replaced {s : SwiftMigrationStatus} {srcName dstName : String} {src : Option Pod} {dst : Pod}
    (unwitnessed : passedCommitPoint mig src (some dst) = false) (checks : shouldCheckSourcePodUID mig = true)
    (recorded : s.sourcePodUID ≠ "") (other : (src.map fun pod => pod.uid) ≠ some s.sourcePodUID) :
    ∃ message, stopAndCopyTransfer mtls mig s guest srcName dstName src dst =
      pure (.failure message .sourcePodReplaced, s) := by
  have checked : (!false && true && decide (s.sourcePodUID ≠ "")) = true := by simp [recorded]
  unfold stopAndCopyTransfer
  simp only [unwitnessed, checks]
  rw [checked]
  cases src with
  | none => exact ⟨_, rfl⟩
  | some src =>
    rw [if_pos ⟨rfl, other⟩]
    exact ⟨_, rfl⟩

/-! ## The failure, once the transfer is settled -/

section Failing

variable {s : SwiftMigrationStatus} {message : String} {src : Option Pod} {pod : Pod} {srcName : String}

def EndsAsReplaced (r : Except Err Unit) (w : World) : Prop := r = .ok () → EndsReplaced w

theorem ends_error {e : Err} : EndsAsReplaced (.error e) w := by
  rintro ⟨⟩

theorem wp_persist_failed (here : w.migration = some mig) (going : mig.status.phase ≠ .failed) :
    wp anyFault orderless () (persist mig (failedStatus s message .sourcePodReplaced)) EndsAsReplaced w := by
  unfold persist
  rw [if_neg fun same => going (congrArg SwiftMigrationStatus.phase same)]
  dsimp only
  generalize wanted : (if (isTerminalPhase (failedStatus s message .sourcePodReplaced).phase &&
    !isTerminalPhase mig.status.phase) = true then
      { failedStatus s message .sourcePodReplaced with terminalAt := true }
      else failedStatus s message .sourcePodReplaced) = s'
  have written : s'.phase = .failed ∧ s'.failureReason = .sourcePodReplaced := by
    subst wanted
    split <;> exact ⟨rfl, rfl⟩
  refine wp_then (Q := fun r w' => ∀ a, r = .ok a → EndsReplaced w') ?_ (fun e _ _ same => by cases same) ?_
  · rw [wp_lookup, wp_call]
    refine ⟨rfl, ?_⟩
    rintro r w' ⟨c, -, action⟩
    refine ⟨trivial, trivial, ?_⟩
    rintro w'' rfl -
    rcases World.exec_cases action with ⟨a, rfl, did⟩ | ⟨e, -, -, failed⟩ | ⟨fault, rfl, -⟩
    · simp only [World.perform, World.found, here] at did
      obtain ⟨rfl, -⟩ := Prod.mk.inj (Except.ok.inj did)
      intro _ _
      refine ⟨_, rfl, ?_⟩
      simp only [World.withStatus, SwiftMigrationStatus.merge_self]
      exact written
    · simp only [World.perform, World.found, here] at failed
      cases failed
    · exact onFound_fault fault fun _ _ same => by cases same
  · intro a w' ends _
    exact ends a rfl

theorem wp_recordFailure (here : w.migration = some mig) (going : mig.status.phase ≠ .failed) (res : AbortResolution) :
    wp anyFault orderless () (recordFailure mig res (failedStatus s message .sourcePodReplaced)) EndsAsReplaced w := by
  have tidying := tidying_tidies True mig
  have ends : ∀ w', w'.migration = some mig → wp anyFault orderless () (do
      clearLauncherCancel mig
      onTerminalPhase mig (failedStatus s message .sourcePodReplaced)
      persist mig (failedStatus s message .sourcePodReplaced)) EndsAsReplaced w' := by
    intro w1 here1
    refine wp_then (wp_tidies (handles_clearLauncherCancel tidying) fun _ => here1) (fun _ _ _ => ends_error) fun _ w2 ⟨here2, _⟩ => ?_
    refine wp_then (wp_tidies (handles_onTerminalPhase tidying _) here2) (fun _ _ _ => ends_error) fun _ w3 ⟨here3, _⟩ => ?_
    exact wp_persist_failed (here3 trivial) going
  unfold recordFailure
  split
  · exact wp_then (wp_tidies (handles_deleteAbandonedDestination tidying res) fun _ => here) (fun _ _ _ => ends_error)
      fun _ w' ⟨here', _⟩ => ends w' (here' trivial)
  · exact ends w here

theorem wp_resolveTransfer_settled (here : w.migration = some mig) (unwitnessed : passedCommitPoint mig src (some pod) = false)
    (settled : settledAtOnce mig src pod = true) :
    wp anyFault orderless () (resolveTransfer mig srcName dst src pod)
      (fun r w' => w'.migration = some mig ∧ ∀ res, r = .ok res → res.settled = true) w := by
  have onDestination : destinationCancelIssued mig pod = true → cancelAcknowledged mig pod = true →
      (resolveOnDestination mig dst pod).Yields (Tidies True) (fun _ _ => True) (fun res => res.settled = true) := by
    intro issued acknowledged
    refine Prog.yields_then (yields_clearSourceSend (tidying_tidies True mig).toOrdinary fun _ _ => ⟨rfl, fun _ => rfl⟩) fun _ => ?_
    simp only [issued, acknowledged, Bool.not_true, Bool.false_eq_true, if_false, if_true]
    rfl
  refine wp_mono (fun _ _ ⟨here', settles⟩ => ⟨here' trivial, settles⟩) (wp_tidies ?_ fun _ => here)
  cases src with
  | none =>
    simp only [settledAtOnce, Bool.and_eq_true] at settled
    exact onDestination settled.1 settled.2
  | some src =>
    simp only [settledAtOnce] at settled
    unfold resolveTransfer
    dsimp only
    split
    · rfl
    next going =>
    rw [if_neg going] at settled
    split
    · next issued =>
      rw [if_pos issued] at settled
      exact onDestination issued settled
    next unissued =>
    rw [if_neg unissued] at settled
    split
    · rfl
    next started =>
    obtain ⟨answered, inactive, idle⟩ : src.cancelResultID = cancelSendID mig ∧ src.cancelResult = .notActive ∧
        (src.status ≠ .sending ∨ src.statusID ≠ sendActionID mig) := by
      simpa [started, and_assoc] using settled
    have can : sourceCanCancel mig src = true := by simp [sourceCanCancel, answered, inactive]
    rw [passedCommitPoint] at unwitnessed
    rw [if_pos can, resolveOnSource, if_neg (by simp [answered]), if_neg (by simp [unwitnessed]), if_neg going,
      if_neg (by simp [inactive]), if_pos (by simp [answered, inactive, idle])]
    rfl

end Failing

variable (replaced : Replaced mig guest dst w)
include replaced

theorem wp_liveCommitted_replaced :
    wp anyFault orderless () (liveCommitted mig) (fun r w' => w' = w ∧ ∀ committed, r = .ok committed → committed = false) w := by
  obtain ⟨-, there, isDst, -, mode, unswapped, unwitnessed, -, -⟩ := replaced
  obtain ⟨incomplete, idle⟩ := Bool.or_eq_false_iff.mp unwitnessed
  have name : dstPodName mig = .ok dst := isDst
  unfold liveCommitted readGuest readPod
  rw [if_neg (by simp [isPostCutover, unswapped]), if_neg (by simp [mode])]
  have error : ∀ e : Err, w = w ∧ ∀ committed : Bool, .error e = Except.ok committed → committed = false :=
    fun _ => ⟨rfl, fun _ same => by cases same⟩
  refine wp_sees (fun _ => rfl) rfl error ?_
  rw [there]
  refine wp_sees (fun _ => rfl) rfl error ?_
  rw [if_neg (by simp [incomplete]), name]
  refine wp_sees (fun _ => rfl) rfl error ?_
  refine ⟨rfl, ?_⟩
  rintro _ ⟨⟩
  exact idle

theorem wp_resolveSourceOwnership_settled (present : (w.pods dst).isSome = true) (settled : Decided mig guest dst w) :
    wp anyFault orderless () (resolveSourceOwnership mig)
      (fun r w' => w'.migration = some mig ∧ ∀ res, r = .ok res → res.settled = true) w := by
  obtain ⟨here, there, isDst, -, -, -, unwitnessed, -, -⟩ := id replaced
  obtain ⟨pod, present⟩ := Option.isSome_iff_exists.mp present
  rw [present] at unwitnessed
  rw [Decided, present] at settled
  have name : dstPodName mig = .ok dst := isDst
  refine wp_then (wp_liveCommitted_replaced replaced) (fun _ _ same => ⟨same.1 ▸ here, nofun⟩) ?_
  rintro committed _ ⟨rfl, answer⟩
  rw [answer committed rfl]
  refine wp_sees (fun _ => rfl) rfl (fun _ => ⟨here, nofun⟩) ?_
  rw [there, name]
  refine wp_sees (fun _ => rfl) rfl (fun _ => ⟨here, nofun⟩) ?_
  rw [present]
  refine wp_sees (fun _ => rfl) rfl (fun _ => ⟨here, nofun⟩) ?_
  exact wp_resolveTransfer_settled here unwitnessed settled

theorem wp_failMigration_replaced (present : (w.pods dst).isSome = true) (settled : Decided mig guest dst w)
    {s : SwiftMigrationStatus} (live : s.mode = .live) (message : String) :
    wp anyFault orderless () (failMigration mig s message .sourcePodReplaced) EndsAsReplaced w := by
  have going : mig.status.phase ≠ .failed := by simp [replaced.2.2.2.1]
  have alive : (!isLiveMode mig s || isPostCutover mig) = false := by
    simp [isLiveMode, live, isPostCutover, replaced.2.2.2.2.2.1]
  refine wp_then (Q := fun r w' => w'.migration = some mig ∧ ∀ held, r = .ok held → held.1 = false) ?_ (fun _ _ _ => ends_error) ?_
  · unfold resolveBeforeFailing
    rw [alive, if_neg Bool.false_ne_true]
    refine wp_then (wp_resolveSourceOwnership_settled replaced present settled)
      (fun _ _ here => ⟨here.1, fun _ same => by cases same⟩) ?_
    rintro ⟨outcome, path, detail⟩ w' ⟨here', settles⟩
    have ended := settles _ rfl
    cases outcome with
    | pending | committed => cases ended
    | noSend | sourceRetained | destinationDead | unresolved =>
      refine ⟨here', ?_⟩
      rintro _ ⟨⟩
      rfl
  · rintro ⟨held, resolution⟩ w' ⟨here', answer⟩
    have held : held = false := answer _ rfl
    subst held
    exact wp_recordFailure here' going resolution

variable (compared : Compared mig dst w)
include compared

theorem wp_handleStopAndCopy_replaced {s : SwiftMigrationStatus} (mode : s.mode = .live)
    (same : s.sourcePodUID = mig.status.sourcePodUID) :
    wp anyFault orderless () (handleStopAndCopy mtls mig s)
      (fun r w' => w' = w ∧ ∀ h, r = .ok h → h.2 = s ∧ ReplacedFailure h) w := by
  obtain ⟨-, there, isDst, copying, -, unswapped, unwitnessed, recorded, other⟩ := replaced
  obtain ⟨detail, -, -, present⟩ := compared
  obtain ⟨pod, present⟩ := Option.isSome_iff_exists.mp present
  rw [present] at unwitnessed
  rw [← same] at recorded other
  have checks : shouldCheckSourcePodUID mig = true := by
    simp [shouldCheckSourcePodUID, copying, isPostCutover, unswapped, detail]
  have live : isLiveMode mig s = true := by simp [isLiveMode, mode]
  have name : dstPodName mig = .ok dst := isDst
  have error : ∀ e : Err, w = w ∧ ∀ h : Handled, .error e = Except.ok h → h.2 = s ∧ ReplacedFailure h :=
    fun _ => ⟨rfl, fun _ same => by cases same⟩
  unfold handleStopAndCopy handleStopAndCopyLive readGuest
  rw [if_pos live]
  refine wp_sees (fun _ => rfl) rfl error ?_
  rw [there]
  refine wp_sees (fun _ => rfl) rfl error ?_
  rw [name]
  refine wp_sees (fun _ => rfl) rfl error ?_
  rw [present]
  obtain ⟨message, fails⟩ := stopAndCopyTransfer_replaced unwitnessed checks recorded other
  dsimp only
  rw [fails]
  refine ⟨rfl, fun h same => ?_⟩
  have value := Except.ok.inj same
  exact ⟨(congrArg Prod.snd value).symm, message, (congrArg Prod.fst value).symm⟩

theorem wp_dispatchPhase_replaced :
    wp anyFault orderless () (dispatchPhase mtls mig) (fun r w' => Decided mig guest dst w → EndsAsReplaced r w') w := by
  have writes : ∀ o : Op, o.onMigration = true → Tidies False o := by
    intro o here
    refine ⟨?_, False.elim⟩
    cases o <;> first | rfl | cases here
  obtain ⟨-, -, -, copying, mode, -⟩ := id replaced
  unfold dispatchPhase
  dsimp only
  rw [if_pos (by simp [isLiveMode, mode])]
  show wp anyFault orderless () (runPhase mtls mig { mig.status with startedAt := true }) _ w
  unfold runPhase
  rw [copying]
  refine wp_then (wp_handleStopAndCopy_replaced replaced compared mode rfl) (fun _ _ _ _ => ends_error) ?_
  rintro ⟨outcome, s⟩ w' ⟨same, answer⟩
  obtain ⟨rfl, message, rfl⟩ := answer _ rfl
  rw [same]
  by_cases settled : Decided mig guest dst w
  · exact wp_mono (fun _ _ ends _ => ends) (wp_failMigration_replaced replaced compared.2.2.2 settled
      (s := { mig.status with startedAt := true }) mode message)
  · have yields := handles_failMigration (R := fun _ _ => True) (tidying_tidies False mig) writes
      { mig.status with startedAt := true } message .sourcePodReplaced
    exact wp_mono (fun _ _ _ now => absurd now settled) (wp_tidies yields fun _ => replaced.1)

theorem wp_reconcile_replaced :
    wp anyFault orderless () (reconcile mtls) (fun r w' => Decided mig guest dst w → EndsAsReplaced r w') w := by
  have goes : ∀ {mig' w'} {next : Option SwiftMigration → Act Unit}, (∀ mig, next (some mig) = dispatchPhase mtls mig) →
      Replaced mig' guest dst w' → Compared mig' dst w' →
      wp anyFault orderless () (honorCancel mig' >>= next) (fun r w'' => Decided mig' guest dst w' → EndsAsReplaced r w'') w' := by
    intro mig' w' next goes replaced' compared'
    unfold honorCancel
    rw [if_pos (by simp [compared'.2.2.1])]
    show wp _ _ _ (next (some mig')) _ w'
    rw [goes]
    exact wp_dispatchPhase_replaced replaced' compared'
  obtain ⟨here, rest⟩ := id replaced
  refine wp_sees (fun _ => rfl) rfl (fun _ _ => ends_error) ?_
  rw [here]
  show wp _ _ _ (if mig.deleting = true then _ else proceed mtls mig) _ w
  rw [compared.2.1, if_neg Bool.false_ne_true]
  unfold proceed ensureFinalizer
  rw [if_neg (by simp [rest.2.2.1, isTerminalPhase])]
  split
  · exact goes (fun _ => rfl) replaced compared
  · rw [wp_bind, wp_call]
    refine ⟨rfl, ?_⟩
    rintro r w' ⟨c, -, action⟩
    refine ⟨trivial, trivial, ?_⟩
    rintro w'' rfl -
    rcases World.exec_cases action with ⟨a, rfl, did⟩ | ⟨e, rfl, -⟩ | ⟨fault, rfl, -⟩
    · obtain ⟨m, there, same⟩ := World.found_ok did
      cases here.symm.trans there
      obtain ⟨rfl, rfl⟩ := Prod.mk.inj same
      have stays : World.remaining (World.withFinalizer mig true) = some (World.withFinalizer mig true) := by
        simp [World.remaining, World.withFinalizer]
      exact @goes _ (w.setMigration _) _ (fun _ => rfl) ⟨stays, rest⟩ compared
    · exact fun _ => ends_error
    · exact fun _ => ends_error

omit replaced compared

end Pass

private def prepared : List (LoopMove Unit Choice Bool LiveEvent) :=
  livePass 3 ++ livePass 11 ++ livePass 12 ++ [.quiet (.ready "vm-mig-abcdef")] ++ livePass 9

private def received (w : World) : Bool := (w.pods "vm-mig-abcdef").any fun pod => pod.action = .receive

private def ordered (w : World) : World × Option (Except Err Unit) :=
  drive engine () (List.replicate 8 {}) (reconcile false) w

end KubeSwift.Migration
