import KubeSwift.Migration.Operations

/-! # The outcome of a migration under stale reads

A pass begins with some version of the migration, current or earlier. The cluster may change at any moment, but only the
reconciler writes the status. -/

namespace KubeSwift.Migration
open Program Prog

structure Recalled where
  cluster : World
  past : List SwiftMigration

def Recalled.versions (w : Recalled) : List SwiftMigration := w.past ++ w.cluster.migration.toList

def Recalled.moveTo (w : Recalled) (cluster : World) : Recalled := ⟨cluster, w.versions⟩

/-- `version` is the one the cache shows, `none` for the current one. -/
structure RecallChoice extends Choice where
  version : Option Nat := none

def Recalled.answer (c : RecallChoice) (w : Recalled) : (o : Op) → Option (World × Except Err o.Res)
  | .getMigration =>
    match c.version.bind fun v => w.versions[v]? with
    | some mig => some (w.cluster, .ok mig)
    | none => World.exec c.toChoice w.cluster .getMigration
  | o => World.exec c.toChoice w.cluster o

def recalledEngine : Engine Unit RecallChoice Recalled Op Op.Res Err where
  exec _ c w o := (w.answer c o).map fun (cluster, r) => (w.moveTo cluster, r)
  crash _ w := w

def UpToDate (w : Recalled) : Op → RecallChoice → Prop
  | .getMigration, c => ∀ v old now, c.version = some v → w.versions[v]? = some old →
      w.cluster.migration = some now → isTerminalPhase now.status.phase = true →
      isTerminalPhase old.status.phase = true
  | _, _ => True

def upToDate : Machine Unit Recalled Op Op.Res Err :=
  recalledEngine.machine (fun _ w o c => UpToDate w o c) (fun _ _ => True)

def StatusKept (before after : World) : Prop :=
  ∀ mig, after.migration = some mig → ∃ old, before.migration = some old ∧ mig.status = old.status

def lagging : Setting Unit Recalled Op Op.Res Err where
  env before after := StatusKept before.cluster after.cluster ∧ after.past = before.versions
  quiet _ _ := False
  offered _ prog := ∃ mtls, prog = reconcile mtls

structure Ending where
  phase : Phase
  failureReason : FailureReason
  failureMessage : String
  completedAt : Timestamp
  deriving DecidableEq

def SwiftMigrationStatus.ending (s : SwiftMigrationStatus) : Ending where
  phase := s.phase
  failureReason := s.failureReason
  failureMessage := s.failureMessage
  completedAt := s.completedAt

def Settled (old new : SwiftMigration) : Prop :=
  isTerminalPhase old.status.phase = true → new.status.ending = old.status.ending

instance (old new : SwiftMigration) : Decidable (Settled old new) := inferInstanceAs (Decidable (_ → _))

def finalSpec : Spec Unit Recalled Op where
  inv w := w.versions.Pairwise Settled
  rely _ w w' := StatusKept w.cluster w'.cluster
  guar _ _ _ := True
  pre _ _ _ := True

def Ongoing (w : Recalled) : Prop :=
  ∀ mig, w.cluster.migration = some mig → isTerminalPhase mig.status.phase = false

theorem StatusKept.refl (w : World) : StatusKept w w := fun mig here => ⟨mig, here, rfl⟩

theorem StatusKept.trans {u v w : World} (first : StatusKept u v) (second : StatusKept v w) : StatusKept u w := by
  intro mig here
  obtain ⟨between, there, same⟩ := second mig here
  obtain ⟨old, was, same'⟩ := first between there
  exact ⟨old, was, same.trans same'⟩

theorem Ongoing.kept {w w' : Recalled} (ongoing : Ongoing w) (kept : StatusKept w.cluster w'.cluster) :
    Ongoing w' := by
  intro mig here
  obtain ⟨old, was, same⟩ := kept mig here
  rw [same]
  exact ongoing old was

theorem settled_moveTo {w : Recalled} {cluster : World} (inv : finalSpec.inv w)
    (keeps : ∀ mig, cluster.migration = some mig → ∃ old, w.cluster.migration = some old ∧ Settled old mig) :
    finalSpec.inv (w.moveTo cluster) := by
  show (w.versions ++ cluster.migration.toList).Pairwise Settled
  rw [List.pairwise_append]
  refine ⟨inv, ?_, ?_⟩
  · cases cluster.migration with
    | none => exact List.Pairwise.nil
    | some mig => exact List.pairwise_singleton _ _
  intro version earlier mig here ended
  obtain ⟨old, was, settled⟩ := keeps mig (by simpa using here)
  have current : version ∈ w.past ∨ version = old := by
    simpa [Recalled.versions, was] using earlier
  rcases current with before | rfl
  · have pairwise : (w.past ++ [old]).Pairwise Settled := by
      have := inv
      simpa [finalSpec, Recalled.versions, was] using this
    have same := (List.pairwise_append.mp pairwise).2.2 version before old (by simp) ended
    have stillEnded : isTerminalPhase old.status.phase = true := by
      have phase : old.status.phase = version.status.phase := congrArg Ending.phase same
      rw [phase]
      exact ended
    exact (settled stillEnded).trans same
  · exact settled ended

theorem perform_status {w w' : World} {c : Choice} {o : Op} {a : o.Res} (away : o.writesStatus = false)
    (done : w.perform c o = .ok (w', a)) : StatusKept w w' := by
  intro mig here
  obtain ⟨old, was, rewritten⟩ := World.perform_old done here
  exact ⟨old, was, rewritten.status away⟩

section Steps

variable {p : Unit} {w w' : Recalled} {o : Op} {r : Except Err o.Res}

theorem upToDate_cases (action : upToDate.step p w o r w') :
    w' = w.moveTo w'.cluster ∧
      (w'.cluster = w.cluster ∨ ∃ c a, w.cluster.perform c o = .ok (w'.cluster, a)) := by
  obtain ⟨c, -, action⟩ := action
  obtain ⟨⟨cluster, answer⟩, done, same⟩ := Option.map_eq_some_iff.mp action
  cases same
  refine ⟨rfl, ?_⟩
  have performed : World.exec c.toChoice w.cluster o = some (cluster, r) →
      cluster = w.cluster ∨ ∃ c a, w.cluster.perform c o = .ok (cluster, a) := by
    intro done
    rcases effect_of_cases (withFault_cases (Option.some.inj done)) with same | ⟨a, done⟩
    · exact .inl same
    · exact .inr ⟨_, a, done⟩
  cases o with
  | getMigration =>
    simp only [Recalled.answer] at done
    split at done
    · cases done
      exact .inl rfl
    · exact performed done
  | _ => exact performed done

variable {mig : SwiftMigration}

theorem recalled_read {c : RecallChoice} {cluster : World} (done : w.answer c .getMigration = some (cluster, .ok mig)) :
    cluster = w.cluster ∧
      (w.cluster.migration = some mig ∨ ∃ v, c.version = some v ∧ w.versions[v]? = some mig) := by
  simp only [Recalled.answer] at done
  split at done
  · next old shown =>
    cases done
    obtain ⟨v, version, found⟩ := Option.bind_eq_some_iff.mp shown
    exact ⟨rfl, .inr ⟨v, version, found⟩⟩
  · obtain ⟨rfl, ⟨x, there, read⟩ | ⟨-, read⟩ | ⟨fault, read⟩⟩ := World.exec_read rfl done
    · cases read
      exact ⟨rfl, .inl there⟩
    · cases read
    · cases read

theorem upToDate_read (action : upToDate.step p w .getMigration (.ok mig) w')
    (going : isTerminalPhase mig.status.phase = false) : Ongoing w' := by
  obtain ⟨c, allowed, action⟩ := action
  obtain ⟨⟨cluster, answer⟩, done, same⟩ := Option.map_eq_some_iff.mp action
  cases same
  obtain ⟨rfl, read⟩ := recalled_read done
  intro now here
  rcases read with current | ⟨v, version, found⟩
  · cases current.symm.trans here
    exact going
  · by_contra ended
    have stillEnded := allowed v mig now version found here (by simpa using ended)
    rw [going] at stillEnded
    cases stillEnded

variable (action : upToDate.step p w o r w')
include action

theorem statusKept_step (away : o.writesStatus = false) :
    StatusKept w.cluster w'.cluster := by
  obtain ⟨-, same | ⟨c, a, done⟩⟩ := upToDate_cases action
  · rw [same]
    exact StatusKept.refl w.cluster
  · exact perform_status away done

theorem settled_step (inv : finalSpec.inv w) (away : o.writesStatus = false) :
    finalSpec.inv w' := by
  have kept := statusKept_step action away
  rw [(upToDate_cases action).1]
  apply settled_moveTo inv
  intro mig here
  obtain ⟨old, was, same⟩ := kept mig here
  refine ⟨old, was, ?_⟩
  intro _
  rw [same]

theorem settled_write (inv : finalSpec.inv w) (ongoing : Ongoing w) :
    finalSpec.inv w' := by
  obtain ⟨moved, same | ⟨c, a, done⟩⟩ := upToDate_cases action
  all_goals rw [moved]; apply settled_moveTo inv
  · intro mig here
    rw [same] at here
    exact ⟨mig, here, fun _ => rfl⟩
  · intro mig here
    obtain ⟨old, was, -⟩ := World.perform_old done here
    refine ⟨old, was, ?_⟩
    intro ended
    rw [ongoing old was] at ended
    cases ended

end Steps

def Leaves (o : Op) : Prop := o.writesStatus = false

theorem handling_leaves (mig : SwiftMigration) : Handling mig Leaves := by
  refine ⟨⟨⟨⟨⟨?_, ?_, ?_, ?_, ?_, ?_⟩, ?_, ?_⟩, ?_⟩, ?_⟩, ?_, ?_, ?_⟩ <;> intros <;> rfl

section Programs

variable {p : Unit} {α β : Type} {w : Recalled} {m : Act α} {V : α → Prop}

theorem wp_leaves (yields : m.Yields Leaves (fun _ _ => True) V) (inv : finalSpec.inv w) :
    wp upToDate finalSpec p m (fun _ w' => finalSpec.inv w') w := by
  refine wp_mono (fun _ _ kept => kept.1) (wp_yields (P := finalSpec.inv) ?_ yields inv)
  intro o w away inv
  refine ⟨trivial, ?_⟩
  intro r w' action
  exact ⟨trivial, settled_step action inv away, trivial, fun _ _ inv' => inv'⟩

def Ends (m : Act α) : Prop := Program.Leaves upToDate finalSpec () Ongoing m fun _ _ => True

theorem leaves_ongoing (yields : m.Yields Leaves (fun _ _ => True) V) :
    Program.Leaves upToDate finalSpec () Ongoing m fun r w => Ongoing w ∧ ∀ value, r = .ok value → V value := by
  intro w inv ongoing
  refine wp_mono (fun _ _ kept => ⟨kept.1.2, kept.2⟩)
    (wp_yields (P := fun w => finalSpec.inv w ∧ Ongoing w) ?_ yields ⟨inv, ongoing⟩)
  intro o w away here
  refine ⟨trivial, ?_⟩
  intro r w' action
  refine ⟨trivial, settled_step action here.1 away, trivial, ?_⟩
  intro w'' later inv''
  exact ⟨inv'', (here.2.kept (statusKept_step action away)).kept later⟩

theorem ends_done {value : α} : Ends (pure value) := fun _ _ _ => trivial

theorem ends_next {f : α → Act β} (yields : m.Yields Leaves (fun _ _ => True) V) (rest : ∀ value, V value → Ends (f value)) :
    Ends (m >>= f) :=
  leaves_bind (leaves_ongoing yields) (fun _ _ _ => trivial)
    fun value w inv here => rest value (here.2 value rfl) w inv here.1

theorem ends_write {o : Op} : Ends (issue o) := by
  intro w inv ongoing
  rw [wp_call]
  refine ⟨trivial, ?_⟩
  intro r w' action
  exact ⟨settled_write action inv ongoing, trivial, fun _ _ _ => trivial⟩

theorem ends_last {f : α → Act β} (first : Ends m)
    (rest : ∀ value w', wp upToDate finalSpec () (f value) (fun _ _ => True) w') : Ends (m >>= f) :=
  leaves_bind first (fun _ _ _ => trivial) fun value w' _ _ => rest value w'

theorem ends_attempt {f : Except Err α → Act β} (first : Ends m)
    (rest : ∀ r w', wp upToDate finalSpec () (f r) (fun _ _ => True) w') : Ends (m.attempt >>= f) :=
  leaves_attempt first fun r w' _ _ => rest r w'

theorem ends_persist {s : SwiftMigrationStatus} : Ends (persist mig s) := by
  unfold persist
  split
  · exact ends_done
  refine ends_last (ends_attempt ends_write fun r w' => ?_) fun _ _ => trivial
  rcases r with (_ | _ | _ | _ | _ | _) | a <;> trivial

theorem ends_persistPhaseDetail {detail : String} : Ends (persistPhaseDetail mig detail) := by
  unfold persistPhaseDetail
  split
  · exact ends_done
  · exact ends_last ends_write fun _ _ => trivial

end Programs

section Pass

variable {p : Unit} {w : Recalled} {mig : SwiftMigration}

theorem ends_recordFailure (resolution : AbortResolution) {failed : SwiftMigrationStatus} :
    Ends (recordFailure mig resolution failed) := by
  have tidying := (handling_leaves mig).toTidying
  have ends : Ends (do
      clearLauncherCancel mig
      onTerminalPhase mig failed
      persist mig failed) := by
    refine ends_next (handles_clearLauncherCancel tidying) fun _ _ => ?_
    exact ends_next (handles_onTerminalPhase tidying failed) fun _ _ => ends_persist
  unfold recordFailure
  split
  · exact ends_next (handles_deleteAbandonedDestination tidying resolution) fun _ _ => ends
  · exact ends

theorem ends_failMigration {s : SwiftMigrationStatus} {message : String} {reason : FailureReason} :
    Ends (failMigration mig s message reason) := by
  unfold failMigration resolveBeforeFailing
  split
  · exact ends_recordFailure ⟨.noSend, .none, ""⟩
  rw [bind_assoc]
  refine ends_next (handles_resolveSourceOwnership (handling_leaves mig).toTidying) fun resolution _ => ?_
  cases outcome : resolution.outcome with
  | pending =>
    rw [bind_assoc]
    exact ends_last ends_persist fun _ _ => trivial
  | committed => exact ends_done
  | noSend | sourceRetained | destinationDead | unresolved => exact ends_recordFailure _

theorem ends_dispatchResult {result : Handled} : Ends (dispatchResult mig result) := by
  obtain ⟨outcome, s⟩ := result
  cases outcome with
  | advance | requeue => exact ends_persist
  | failure message reason => exact ends_failMigration

theorem ends_handler {handler : Act Handled} {V : Handled → Prop}
    (yields : handler.Yields Leaves (fun _ _ => True) V) : Ends (handler >>= dispatchResult mig) :=
  ends_next yields fun _ _ => ends_dispatchResult

theorem ends_runPhase (mtls : Bool) : Ends (runPhase mtls mig { mig.status with startedAt := true }) := by
  have handling := handling_leaves mig
  unfold runPhase
  cases phase : mig.status.phase with
  | unset | pending => exact ends_persist
  | validating => exact ends_handler (handles_validating handling mtls (next_started _ _))
  | preparing => exact ends_handler (handles_preparing handling mtls (copied_started _).later)
  | stopAndCopy => exact ends_handler (handles_stopAndCopy handling (fun _ _ => rfl) mtls (copied_started _))
  | resuming => exact ends_handler (handles_resuming handling.toReading (copied_started _).later)
  | completed | failed | cancelled | unknown => exact ends_done

theorem ends_dispatchPhase (mtls : Bool) : Ends (dispatchPhase mtls mig) := by
  have handling := handling_leaves mig
  refine ends_next (handles_timeout handling.toTidying) fun expired _ => ?_
  cases expired with
  | true => exact ends_next (handles_offlineTimeoutFailure handling.toReading) fun _ _ => ends_dispatchResult
  | false => exact ends_runPhase mtls

theorem ends_transitionCancelLive : Ends (transitionCancelLive mig) := by
  have tidying := (handling_leaves mig).toTidying
  refine ends_next (handles_resolveSourceOwnership tidying) fun res _ => ?_
  have ends : Ends (do
      deleteAbandonedDestination mig res
      clearLauncherCancel mig
      finalizeCancelled mig (cancelledDetail res)) := by
    refine ends_next (handles_deleteAbandonedDestination tidying res) fun _ _ => ?_
    refine ends_next (handles_clearLauncherCancel tidying) fun _ _ => ?_
    refine ends_attempt ends_write fun r w' => ?_
    rcases r with (_ | _ | _ | _ | _ | _) | a <;> trivial
  cases outcome : res.outcome with
  | pending => exact ends_attempt ends_persistPhaseDetail fun _ _ => trivial
  | committed => exact ends_done
  | noSend | sourceRetained | destinationDead | unresolved => exact ends

theorem ongoing_markCancelIgnored :
    Program.Leaves upToDate finalSpec () Ongoing (markCancelIgnored mig) fun _ w' => Ongoing w' := by
  intro w inv ongoing
  unfold markCancelIgnored
  split
  · exact ongoing
  rw [wp_call]
  refine ⟨trivial, ?_⟩
  intro r w1 action
  refine ⟨settled_write action inv ongoing, trivial, ?_⟩
  intro w2 later inv2
  refine Ongoing.kept ?_ later
  obtain ⟨-, same | ⟨c, a, done⟩⟩ := upToDate_cases action
  · intro now here
    rw [same] at here
    exact ongoing now here
  · obtain ⟨old, was, moved⟩ := World.found_ok done
    obtain ⟨moved, -⟩ := Prod.mk.inj moved
    intro now here
    rw [← moved] at here
    cases here
    simp only [World.withStatus, SwiftMigrationStatus.stamped, SwiftMigrationStatus.merge, patched, if_true]
    exact ongoing old was

theorem ongoing_honorCancel : Program.Leaves upToDate finalSpec () Ongoing (honorCancel mig)
    fun r w' => ∀ next, r = .ok (some next) → Ongoing w' := by
  unfold honorCancel
  split
  · exact leaves_pure fun w ongoing _ _ => ongoing
  have handling := handling_leaves mig
  refine leaves_bind (leaves_ongoing (handles_liveCommitted handling.getGuest handling.getPod))
    (fun _ _ _ _ same => nomatch same) ?_
  intro committed
  refine leaves_conseq ?_ (fun _ _ here => here.1) fun _ _ kept => kept
  split
  · refine leaves_bind ongoing_markCancelIgnored (fun _ _ _ _ same => nomatch same) fun next => ?_
    exact leaves_pure fun w ongoing _ _ => ongoing
  · refine leaves_bind ends_transitionCancelLive (fun _ _ _ _ same => nomatch same) fun next => ?_
    exact leaves_pure fun w _ _ same => nomatch same

theorem ends_proceed (mtls : Bool) : Ends (proceed mtls mig) := by
  have marks : (ensureFinalizer mig).Yields Leaves (fun _ _ => True) (fun _ => True) := by
    refine yields_unless trivial fun _ => ?_
    exact yields_call (show Leaves (.patchFinalizer true) from rfl) fun _ _ => trivial
  unfold proceed
  split
  · exact fun w inv _ => wp_mono (fun _ _ _ => trivial)
      (wp_leaves (handles_finishTerminal (handling_leaves mig).toTidying rfl rfl) inv)
  refine ends_next marks fun mig1 _ => ?_
  refine leaves_bind ongoing_honorCancel (fun _ _ _ => trivial) fun next => ?_
  cases next with
  | none => exact fun _ _ _ => trivial
  | some mig2 => exact leaves_conseq (ends_dispatchPhase mtls) (fun _ _ honored => honored mig2 rfl) fun _ _ _ => trivial

theorem ends_handleCancellation : Ends (handleCancellation mig) := by
  have handling := handling_leaves mig
  have finishes : ∀ committed resolved, Ends (finishDeletion mig committed resolved) :=
    fun _ _ w inv _ => wp_mono (fun _ _ _ => trivial) (wp_leaves (handles_finishDeletion handling.toTidying rfl _ _) inv)
  unfold handleCancellation
  split
  · exact ends_done
  refine ends_next (handles_deletionCommitted handling.toReading) fun committed _ => ?_
  split
  · refine ends_next (handles_resolveSourceOwnership handling.toTidying) fun resolution _ => ?_
    have ends : Ends (do
        deleteAbandonedDestination mig resolution
        clearLauncherCancel mig
        finishDeletion mig committed true) := by
      refine ends_next (handles_deleteAbandonedDestination handling.toTidying resolution) fun _ _ => ?_
      exact ends_next (handles_clearLauncherCancel handling.toTidying) fun _ _ => finishes _ _
    cases outcome : resolution.outcome with
    | pending => exact ends_attempt ends_persistPhaseDetail fun _ _ => trivial
    | committed => exact ends_done
    | noSend | sourceRetained | destinationDead | unresolved => exact ends
  · exact finishes _ _

theorem leaves_ended (mtls : Bool) (ended : isTerminalPhase mig.status.phase = true) :
    Prog.Yields Leaves (fun _ _ => True) (fun _ => True) (do
      if mig.deleting then
        if ← finishCutoverBeforeDeletion mig then proceed mtls mig else handleCancellation mig
      else proceed mtls mig) := by
  have handling := handling_leaves mig
  have proceeds : (proceed mtls mig).Yields Leaves (fun _ _ => True) (fun _ => True) := by
    unfold proceed
    rw [if_pos ended]
    exact handles_finishTerminal handling.toTidying rfl rfl
  have cancels : (handleCancellation mig).Yields Leaves (fun _ _ => True) (fun _ => True) := by
    unfold handleCancellation
    split
    · trivial
    refine yields_then (handles_deletionCommitted handling.toReading) fun committed => ?_
    rw [if_neg (by simp [ended])]
    exact handles_finishDeletion handling.toTidying rfl _ _
  apply yields_ite
  · intro _
    refine yields_then (handles_finishCutoverBeforeDeletion handling.toTidying) fun committed => ?_
    cases committed with
    | true => exact proceeds
    | false => exact cancels
  · intro _
    exact proceeds

theorem wp_reconcile_final (mtls : Bool) (inv : finalSpec.inv w) :
    wp upToDate finalSpec p (reconcile mtls) (fun _ _ => True) w := by
  refine ⟨trivial, ?_⟩
  intro r w1 action
  have inv1 := settled_step action inv rfl
  refine ⟨inv1, trivial, ?_⟩
  intro w2 later inv2
  rcases r with (_ | _ | _ | _ | _ | _) | mig
  case ok =>
    show wp upToDate finalSpec p (if mig.deleting then _ else _) (fun _ _ => True) w2
    cases ended : isTerminalPhase mig.status.phase with
    | true => exact wp_mono (fun _ _ _ => trivial) (wp_leaves (leaves_ended mtls ended) inv2)
    | false =>
      have ongoing : Ongoing w2 := (upToDate_read action ended).kept later
      split
      · refine ends_next (handles_finishCutoverBeforeDeletion (handling_leaves mig).toTidying) (fun committed _ => ?_)
          w2 inv2 ongoing
        cases committed with
        | true => exact ends_proceed mtls
        | false => exact ends_handleCancellation
      · exact ends_proceed mtls w2 inv2 ongoing
  all_goals trivial

end Pass

theorem suits_lagging : Suits upToDate finalSpec lagging where
  refl _ w := StatusKept.refl w.cluster
  trans _ _ _ _ first second := first.trans second
  env w w' inv moves := by
    obtain ⟨kept, past⟩ := moves
    refine ⟨?_, fun _ => kept⟩
    have moved : w' = w.moveTo w'.cluster := by
      rw [Recalled.moveTo, ← past]
    rw [moved]
    apply settled_moveTo inv
    intro mig here
    obtain ⟨old, was, same⟩ := kept mig here
    refine ⟨old, was, ?_⟩
    intro _
    rw [same]
  starts p prog w offer inv := by
    obtain ⟨mtls, rfl⟩ := offer
    exact wp_reconcile_final mtls inv

/-- Passes that do not begin with a version from before the end never change how the migration ended. -/
theorem outcome_final {w : World} {s : Loops Unit Recalled Op Op.Res Err}
    (reach : LoopsReach upToDate lagging ⟨w, []⟩ s) : s.world.versions.Pairwise Settled := by
  refine (loopsSound_reach suits_lagging ?_ reach).inv
  show (w.migration.toList).Pairwise Settled
  cases w.migration with
  | none => exact List.Pairwise.nil
  | some mig => exact List.pairwise_singleton _ _

def stale : Machine Unit Recalled Op Op.Res Err := recalledEngine.machine (fun _ _ _ _ => True) (fun _ _ => True)

-- The event is the loss of every pod.
private def recallScript (check : RecallChoice → Bool) : Script Unit RecallChoice Recalled Op Op.Res Err Bool Unit where
  engine := recalledEngine
  calls := reconcile
  event _ w := w.moveTo { w.cluster with pods := fun _ => none }
  check _ _ _ := check
  pids := [()]

private theorem recallScript_fits (check : RecallChoice → Bool) {allowed : Unit → Recalled → Op → RecallChoice → Prop}
    (passes : ∀ p w o c, check c = true → allowed p w o c) : (recallScript check).Fits lagging allowed where
  passes := passes
  offers _ mtls _ := ⟨mtls, rfl⟩
  env _ w _ := ⟨StatusKept.refl w.cluster, rfl⟩

private def resumed : World where
  migration := some { (default : SwiftMigration) with
    name := "m", uid := "abcdef", guestRef := "vm", target := "b", specMode := .live, finalizer := true
    status := { (default : SwiftMigrationStatus) with
      phase := .resuming, mode := .live, sourcePodRef := some "vm"
      conditions := { (default : Conditions) with podRefSwapped := true } } }
  guest := some { (default : SwiftGuest) with podRef := some ⟨"vm-mig-abcdef", "uid-dst"⟩, guestRunning := true }
  pods := Function.update (fun _ => none) "vm-mig-abcdef" (some { (default : Pod) with phase := .running })
  profiles _ := none
  gpus := ⟨fun _ => []⟩

private def completes : List (LoopMove Unit RecallChoice Bool Unit) :=
  [.start () false, .op () {}, .op () {}, .op () {}, .op () {}, .finish ()]

-- The destination pod is lost, and a pass begins with the version from before the completion.
private def failsAgain : List (LoopMove Unit RecallChoice Bool Unit) :=
  [.env (), .start () false, .op () { version := some 0 }, .op () {}, .op () {}, .op () {}, .op () {}, .op () {}, .op () {}]

theorem outcome_final_after_completion :
    ∃ s, LoopsReach upToDate lagging ⟨resumed, []⟩ s ∧
      (s.world.cluster.migration.map fun mig => mig.status.phase) = some .completed ∧
      s.world.versions.Pairwise Settled := by
  have reached : ∃ s, LoopsReach upToDate lagging ⟨resumed, []⟩ s ∧
      (s.world.cluster.migration.map fun mig => mig.status.phase) = some .completed := by
    refine exists_of_play (recallScript_fits (fun c => c.version.isNone) ?_) completes (by decide)
    intro p w o c current
    cases o with
    | getMigration =>
      intro v old now version
      rw [version] at current
      cases current
    | _ => trivial
  obtain ⟨s, reach, shown⟩ := reached
  exact ⟨s, reach, shown, outcome_final reach⟩

/-- A completed migration fails. -/
theorem stale_pass_changes_outcome :
    ∃ s, LoopsReach stale lagging ⟨resumed, []⟩ s ∧
      (∃ old ∈ s.world.versions, old.status.phase = .completed) ∧
      (s.world.cluster.migration.map fun mig => mig.status.phase) = some .failed := by
  exact exists_of_play (recallScript_fits (fun _ => true) fun _ _ _ _ _ => trivial) (completes ++ failsAgain) (by decide)

end KubeSwift.Migration
