import KubeSwift.Program.Loops
import KubeSwift.Migration.Reconciler

/-! # The order of the cutover

A live migration in `StopAndCopy` is reconciled again and again, while everything changes and a pod may be shown as it
was. -/

namespace KubeSwift.Migration
open Program Prog

structure Reads where
  migration : Option SwiftMigration
  guest : Option SwiftGuest
  pods : String → Option (Option Pod)

structure Viewed where
  cluster : World
  past : List (String → Option Pod)
  reads : Reads

structure ViewChoice extends Choice where
  view : Option Nat := none

namespace Viewed

def readsAfter (w : Viewed) : (o : Op) → Except Err o.Res → Reads
  | .getMigration, .ok mig => ⟨some mig, none, fun _ => none⟩
  | .getGuest, .ok guest | .patchGuest _ _, .ok guest => { w.reads with guest := some guest }
  | .getPod name, .ok pod => { w.reads with pods := Function.update w.reads.pods name (some (some pod)) }
  | .getPod name, .error .notFound => { w.reads with pods := Function.update w.reads.pods name (some none) }
  | _, _ => w.reads

def seen (w : Viewed) (view : Option Nat) : String → Option Pod :=
  match view.bind fun k => w.past[k]? with
  | some pods => pods
  | none => w.cluster.pods

def exec (c : ViewChoice) (w : Viewed) : (o : Op) → Option (Viewed × Except Err o.Res)
  | .getPod name =>
    (World.exec c.toChoice { w.cluster with pods := w.seen c.view } (.getPod name)).map fun (_, r) =>
      ({ w with reads := w.readsAfter (.getPod name) r }, r)
  | o => (World.exec c.toChoice w.cluster o).map fun (cluster, r) =>
    (⟨cluster, w.cluster.pods :: w.past, w.readsAfter o r⟩, r)

end Viewed

def viewedEngine : Engine Unit ViewChoice Viewed Op Op.Res Err where
  exec _ := Viewed.exec
  crash _ w := w

def viewed : Machine Unit Viewed Op Op.Res Err := viewedEngine.machine (fun _ _ _ _ => True) (fun _ _ => True)

/-- `Reconcile` of a live migration in `StopAndCopy`, without what does not come to `executeCutover`. -/
def cutoverPass (mtls : Bool) : Act Unit := do
  match ← lookup (issue .getMigration) with
  | none => pure ()
  | some mig =>
    let status := { mig.status with startedAt := true }
    if mig.status.phase ≠ .stopAndCopy ∨ isLiveMode mig status = false then pure ()
    else
      match ← handleStopAndCopyLive mtls mig status with
      | (.failure _ _, _) => pure ()
      | (_, status) => persist mig status

def Recorded (mig : SwiftMigration) : Prop :=
  ∃ src, mig.status.sourcePodRef = some src ∧ src ≠ "" ∧ dstPodName mig ≠ .ok src

def anyCluster : Setting Unit Viewed Op Op.Res Err where
  env before after := after.past = before.cluster.pods :: before.past ∧ after.reads = before.reads ∧
    ∀ mig, after.cluster.migration = some mig → Recorded mig
  quiet _ _ := False
  offered _ prog := ∃ mtls, prog = cutoverPass mtls

structure SwapSeen (reads : Reads) (src dst : String) : Prop where
  migration : ∃ mig, reads.migration = some mig ∧ mig.status.sourcePodRef = some src ∧ dstPodName mig = .ok dst ∧
    mig.status.cutoverStep1At = true
  guest : ∃ guest, reads.guest = some guest ∧ (guest.podRef.map fun ref => ref.name) = some dst

def PointsAtRead (reads : Reads) (ref : Option PodRef) : Prop :=
  ∃ mig dst pod, reads.migration = some mig ∧ dstPodName mig = .ok dst ∧ reads.pods dst = some (some pod) ∧
    ref = some ⟨dst, pod.uid⟩

def SourceGone (reads : Reads) : Prop :=
  ∃ mig src, reads.migration = some mig ∧ mig.status.sourcePodRef = some src ∧ reads.pods src = some none

def InOrder (w : Viewed) : Op → Prop
  | .deletePod name _ => ∃ dst, name ≠ dst ∧ SwapSeen w.reads name dst
  | .patchGuestStatus _ wanted => PointsAtRead w.reads wanted.podRef
  | .patchStatus base wanted => wanted.phase = .resuming → base.phase ≠ .resuming → SourceGone w.reads
  | _ => True

def orderSpec : Spec Unit Viewed Op where
  inv w := ∀ mig, w.cluster.migration = some mig → Recorded mig
  rely _ w w' := w'.reads = w.reads
  guar _ _ _ := True
  pre _ w o := InOrder w o

theorem compatible_orderSpec : Compatible viewed orderSpec where
  refl _ _ := rfl
  trans _ _ _ _ first second := second.trans first

section Steps

variable {p : Unit} {w w' : Viewed} {o : Op} {r : Except Err o.Res}

theorem viewed_reads (action : viewed.step p w o r w') : w'.reads = w.readsAfter o r := by
  obtain ⟨c, -, action⟩ := action
  change Viewed.exec c w o = some (w', r) at action
  cases o
  all_goals
    simp only [Viewed.exec] at action
    obtain ⟨⟨cluster, r'⟩, -, same⟩ := Option.map_eq_some_iff.mp action
    cases same
    rfl

theorem viewed_cluster (action : viewed.step p w o r w') :
    w'.cluster = w.cluster ∨ ∃ c a, w.cluster.perform c o = .ok (w'.cluster, a) := by
  obtain ⟨c, -, action⟩ := action
  change Viewed.exec c w o = some (w', r) at action
  cases o
  case getPod =>
    simp only [Viewed.exec] at action
    obtain ⟨answer, -, same⟩ := Option.map_eq_some_iff.mp action
    cases same
    exact .inl rfl
  all_goals
    simp only [Viewed.exec] at action
    obtain ⟨⟨cluster, r'⟩, done, same⟩ := Option.map_eq_some_iff.mp action
    cases same
    rcases effect_of_cases (withFault_cases (Option.some.inj done)) with unchanged | ⟨a, performed⟩
    · exact .inl unchanged
    · exact .inr ⟨c.toChoice, a, performed⟩

variable {mig : SwiftMigration}

theorem Recorded.withStatus {base wanted : SwiftMigrationStatus} (recorded : Recorded mig)
    (kept : wanted.sourcePodRef = base.sourcePodRef) (time : Nat) : Recorded (World.withStatus time mig base wanted) := by
  obtain ⟨src, ref, named, other⟩ := recorded
  refine ⟨src, ?_, named, other⟩
  simp [World.withStatus, SwiftMigrationStatus.stamped, SwiftMigrationStatus.merge, patched, kept, ref]

theorem recorded_calm (inv : orderSpec.inv w) (calm : o.onMigration = false)
    (action : viewed.step p w o r w') : orderSpec.inv w' := by
  have same : w'.cluster.migration = w.cluster.migration := by
    rcases viewed_cluster action with same | ⟨c, a, done⟩
    · rw [same]
    · exact World.perform_migration calm done
  intro mig here
  rw [same] at here
  exact inv mig here

end Steps

variable {p : Unit} {w : Viewed}

theorem wp_plain {o : Op} {Q : Except Err o.Res → Viewed → Prop} (inv : orderSpec.inv w) (pre : InOrder w o)
    (calm : o.onMigration = false) (after : ∀ r w', w'.reads = w.readsAfter o r → orderSpec.inv w' → Q r w') :
    wp viewed orderSpec p (issue o) Q w := by
  rw [wp_call]
  refine ⟨pre, ?_⟩
  intro r w' action
  refine ⟨recorded_calm inv calm action, trivial, ?_⟩
  intro w'' later inv''
  exact after r w'' (later.trans (viewed_reads action)) inv''

def Aside : Op → Prop
  | .clock _ | .patchPod _ _ _ => True
  | _ => False

theorem wp_aside {α : Type} {m : Act α} {V : α → Prop} {reads : Reads} (yields : m.Yields Aside (fun _ _ => True) V)
    (inv : orderSpec.inv w) (same : w.reads = reads) :
    wp viewed orderSpec p m
      (fun r w' => (orderSpec.inv w' ∧ w'.reads = reads) ∧ ∀ value, r = .ok value → V value) w := by
  refine wp_yields (P := fun w : Viewed => orderSpec.inv w ∧ w.reads = reads) ?_ yields ⟨inv, same⟩
  intro o w aside here
  have calm : o.onMigration = false := by cases o <;> first | rfl | exact aside.elim
  have silent : ∀ r, w.readsAfter o r = w.reads := by
    intro r
    cases o <;> first | exact aside.elim | cases r <;> rfl
  refine ⟨by cases o <;> trivial, ?_⟩
  intro r w' action
  have inv' := recorded_calm here.1 calm action
  refine ⟨trivial, inv', trivial, ?_⟩
  intro w'' later inv''
  exact ⟨inv'', later.trans ((viewed_reads action).trans ((silent r).trans here.2))⟩

section Rules

variable {p : Unit} {w : Viewed}

theorem wp_lookup_view {o : Op} {Q : Except Err (Option o.Res) → Viewed → Prop} (inv : orderSpec.inv w)
    (pre : InOrder w o) (calm : o.onMigration = false)
    (found : ∀ a w', w'.reads = w.readsAfter o (.ok a) → orderSpec.inv w' → Q (.ok (some a)) w')
    (absent : ∀ w', w'.reads = w.readsAfter o (.error .notFound) → orderSpec.inv w' → Q (.ok none) w')
    (error : ∀ e w', Q (.error e) w') : wp viewed orderSpec p (lookup (issue o)) Q w := by
  simp only [lookup, wp_bind, wp_attempt]
  apply wp_plain inv pre calm
  intro r w' reads inv'
  rcases r with (_ | _ | _ | _ | _ | _) | a
  case ok => exact found a w' reads inv'
  case error.notFound => exact absent w' reads inv'
  all_goals exact error _ w'

theorem wp_persist_view {s : SwiftMigrationStatus} (inv : orderSpec.inv w)
    (source : s.sourcePodRef = mig.status.sourcePodRef)
    (order : s.phase = .resuming → mig.status.phase ≠ .resuming → SourceGone w.reads) :
    wp viewed orderSpec p (persist mig s) (fun _ _ => True) w := by
  unfold persist
  split
  · trivial
  refine ⟨?_, ?_⟩
  · intro resuming before
    apply order _ before
    revert resuming
    split <;> exact id
  · intro r w' action
    refine ⟨?_, trivial, fun w'' _ _ => by rcases r with (_ | _ | _ | _ | _ | _) | a <;> trivial⟩
    intro mig' here
    rcases viewed_cluster action with same | ⟨c, a, done⟩
    · rw [same] at here
      exact inv mig' here
    · obtain ⟨old, was, same⟩ := World.found_ok done
      obtain ⟨next, -⟩ := Prod.mk.inj same
      rw [← next] at here
      cases here
      apply (inv old was).withStatus
      split <;> exact source

end Rules

/-! ## The cutover -/

structure HasRead (mig : SwiftMigration) (guest : SwiftGuest) (dst : String) (pod : Pod) (w : Viewed) : Prop where
  inv : orderSpec.inv w
  migration : w.reads.migration = some mig
  guest : w.reads.guest = some guest
  dst : w.reads.pods dst = some (some pod)

structure Concluded (mig : SwiftMigration) (s : SwiftMigrationStatus) (w : Viewed) : Prop where
  inv : orderSpec.inv w
  source : s.sourcePodRef = mig.status.sourcePodRef
  order : s.phase = .resuming → mig.status.phase ≠ .resuming → SourceGone w.reads

def Concludes (mig : SwiftMigration) : Except Err Handled → Viewed → Prop
  | .ok (_, s), w => Concluded mig s w
  | .error _, _ => True

section Cutover

variable {p : Unit} {w : Viewed} {mig : SwiftMigration} {s : SwiftMigrationStatus} {guest : SwiftGuest}
  {src dst : String} {pod : Pod}

theorem lookup_recorded (ref : mig.status.sourcePodRef = some src) (named : src ≠ "") (guest : SwiftGuest) :
    srcPodLookupName mig guest = src := by
  simp [srcPodLookupName, ref, named]

theorem deriveCutoverStep_swapped {present : Bool}
    (later : deriveCutoverStep mig guest present dst = .step2 ∨ deriveCutoverStep mig guest present dst = .step3) :
    (guest.podRef.map fun ref => ref.name) = some dst ∧ mig.status.cutoverStep1At = true := by
  unfold deriveCutoverStep at later
  split at later
  · simp at later
  next named =>
    split at later
    · simp at later
    next stamped => exact ⟨by simpa using named, by simpa using stamped⟩

theorem deriveCutoverStep_gone {present : Bool} (derived : deriveCutoverStep mig guest present dst = .step3) :
    present = false := by
  unfold deriveCutoverStep at derived
  cases present with
  | false => rfl
  | true =>
    split at derived
    · cases derived
    split at derived <;> cases derived

structure Looked (mig : SwiftMigration) (guest : SwiftGuest) (src dst : String) (pod : Pod) (found : Option Pod)
    (w : Viewed) : Prop extends HasRead mig guest dst pod w where
  src : w.reads.pods src = some found

variable (isDst : dstPodName mig = .ok dst) (source : s.sourcePodRef = mig.status.sourcePodRef)
  (same : s.phase = mig.status.phase)
include isDst source same

theorem wp_cutoverStep1 (has : HasRead mig guest dst pod w) :
    wp viewed orderSpec p (cutoverStep1 mig s guest dst pod.uid) (Concludes mig) w := by
  have points : ∀ w' : Viewed, w'.reads.migration = some mig → w'.reads.pods dst = some (some pod) →
      orderSpec.inv w' → ∀ guest', wp viewed orderSpec p (do
        let _ ← issue (.patchGuestStatus guest' { guest' with podRef := some ⟨dst, pod.uid⟩ })
        pure (cutoverStep1Timestamp { s with phaseDetail := phaseDetailLiveCutoverPodRef }))
        (Concludes mig) w' := by
    intro w' migration there inv' guest'
    rw [wp_bind]
    refine wp_plain inv' ⟨mig, dst, pod, migration, isDst, there, rfl⟩ rfl ?_
    intro r w'' _ inv''
    cases r with
    | error e => trivial
    | ok _ =>
      refine ⟨inv'', source, ?_⟩
      intro now before
      exact absurd (same.symm.trans now) before
  unfold cutoverStep1
  rw [wp_bind]
  split
  · refine wp_plain has.inv trivial rfl ?_
    intro r w' reads inv'
    cases r with
    | error e => trivial
    | ok guest' =>
      refine points w' ?_ ?_ inv' guest' <;> rw [reads]
      · exact has.migration
      · exact has.dst
  · exact points w has.migration has.dst has.inv guest

variable (ref : mig.status.sourcePodRef = some src) (other : src ≠ dst)
include ref other

theorem wp_cutoverStep2 (swapped : (guest.podRef.map fun ref => ref.name) = some dst) (stamped : mig.status.cutoverStep1At = true)
    (has : HasRead mig guest dst pod w) :
    wp viewed orderSpec p (cutoverStep2 s src) (Concludes mig) w := by
  have swap : SwapSeen w.reads src dst :=
    ⟨⟨mig, has.migration, ref, isDst, stamped⟩, ⟨guest, has.guest, swapped⟩⟩
  have concluded : ∀ w', orderSpec.inv w' → Concluded mig { s with
      cutoverStep2DispatchedAt := true, phaseDetail := phaseDetailLiveCutoverCompleting } w' := by
    intro w' inv'
    refine ⟨inv', source, ?_⟩
    intro now before
    exact absurd (same.symm.trans now) before
  simp only [cutoverStep2, ignoreNotFound, wp_bind]
  refine wp_lookup_view has.inv ⟨dst, other, swap⟩ rfl ?_ ?_ ?_
  · intro _ w' _ inv'
    exact concluded w' inv'
  · intro w' _ inv'
    exact concluded w' inv'
  · intro e w'
    trivial

theorem wp_cutover {found : Option Pod} (looked : Looked mig guest src dst pod found w) :
    wp viewed orderSpec p (match deriveCutoverStep mig guest found.isSome dst with
      | .step1 => cutoverStep1 mig s guest dst pod.uid
      | .step1TimestampOnly => pure (cutoverStep1Timestamp s)
      | .step2 => cutoverStep2 s src
      | .step3 => pure (cutoverStep3 s)) (Concludes mig) w := by
  cases derived : deriveCutoverStep mig guest found.isSome dst with
  | step1 => exact wp_cutoverStep1 isDst source same looked.toHasRead
  | step1TimestampOnly =>
    refine ⟨looked.inv, source, ?_⟩
    intro now before
    exact absurd (same.symm.trans now) before
  | step2 =>
    obtain ⟨swapped, stamped⟩ := deriveCutoverStep_swapped (.inl derived)
    exact wp_cutoverStep2 isDst source same ref other swapped stamped looked.toHasRead
  | step3 =>
    have gone : found = none := by simpa using deriveCutoverStep_gone derived
    refine ⟨looked.inv, source, fun _ _ => ⟨mig, src, looked.migration, ref, ?_⟩⟩
    rw [looked.src, gone]

theorem wp_executeCutover (named : src ≠ "") (has : HasRead mig guest dst pod w) :
    wp viewed orderSpec p (executeCutover mig s guest dst pod.uid) (Concludes mig) w := by
  have looks : ∀ (found : Option Pod) (w' : Viewed),
      w'.reads = { w.reads with pods := Function.update w.reads.pods src (some found) } → orderSpec.inv w' →
      Looked mig guest src dst pod found w' := by
    intro found w' reads inv'
    refine ⟨⟨inv', ?_, ?_, ?_⟩, ?_⟩ <;> rw [reads]
    · exact has.migration
    · exact has.guest
    · show Function.update w.reads.pods src (some found) dst = _
      rw [Function.update_of_ne other.symm]
      exact has.dst
    · exact Function.update_self ..
  unfold executeCutover
  rw [lookup_recorded ref named, wp_bind, readPod]
  refine wp_lookup_view has.inv trivial rfl ?_ ?_ ?_
  · intro there w' reads inv'
    exact wp_cutover isDst source same ref other (looks (some there) w' reads inv')
  · intro w' reads inv'
    exact wp_cutover isDst source same ref other (looks none w' reads inv')
  · intro e w'
    trivial

end Cutover

structure Kept (mig : SwiftMigration) (s : SwiftMigrationStatus) : Prop where
  source : s.sourcePodRef = mig.status.sourcePodRef
  phase : s.phase = mig.status.phase

section Handler

variable {p : Unit} {w : Viewed} {mig : SwiftMigration} {s : SwiftMigrationStatus} {guest : SwiftGuest}
  {src dst : String} {pod : Pod}

theorem Kept.detail (kept : Kept mig s) (detail : String) : Kept mig { s with phaseDetail := detail } :=
  { kept with }

theorem Kept.concluded (kept : Kept mig s) (inv : orderSpec.inv w) : Concluded mig s w := by
  refine ⟨inv, kept.source, ?_⟩
  intro now before
  exact absurd (kept.phase.symm.trans now) before

theorem wp_transfer {m : Act Handled} (yields : m.Yields Aside (fun _ _ => True) (fun result => Kept mig result.2))
    (inv : orderSpec.inv w) : wp viewed orderSpec p m (Concludes mig) w := by
  refine wp_mono ?_ (wp_aside yields inv rfl)
  intro r w' done
  cases r with
  | error e => trivial
  | ok result => exact (done.2 result rfl).concluded done.1.1

variable (kept : Kept mig s)
include kept

theorem yields_issueReceive_aside (mtls : Bool) (srcName dstName : String) (source : Option Pod) (dst : Pod) :
    (issueReceive mtls mig s srcName dstName source dst).Yields Aside (fun _ _ => True)
      (fun result => Kept mig result.2) := by
  have patches : ∀ name base wanted,
      (issue (.patchPod name base wanted)).Yields Aside (fun _ _ => True) (fun _ => True) := fun _ _ _ =>
    yields_call trivial fun _ _ => trivial
  have receives : ∀ wanted : Pod, Prog.Yields Aside (fun _ _ => True) (fun result => Kept mig result.2) (do
      let _ ← issue (.patchPod dstName dst wanted)
      pure ((.requeue, { s with recvAttempts := 1, phaseDetail := phaseDetailLiveIssuingRecv }) : Handled)) :=
    fun wanted => yields_then (patches _ _ _) fun _ => { kept with }
  cases source with
  | none => exact receives _
  | some source =>
    unfold issueReceive
    dsimp only
    split
    · exact yields_then (patches _ _ _) fun _ => receives _
    · exact receives _

theorem yields_issueSend_aside (srcName : String) (source : Option Pod) (dst : Pod) :
    (issueSend mig s srcName source dst).Yields Aside (fun _ _ => True) (fun result => Kept mig result.2) := by
  have same := kept.detail
  cases source with
  | none => exact same _
  | some source =>
    refine yields_unless (same _) fun _ => ?_
    exact yields_then (yields_call trivial fun _ _ => trivial) fun _ => { kept with }

theorem kept_awaitTransfer (source : Option Pod) :
    Kept mig (awaitTransfer mig s source).2 := by
  unfold awaitTransfer
  split
  · exact { kept with }
  · split
    · exact { kept with }
    · exact kept

theorem kept_sourceFailed (mtls : Bool) (source : Option Pod) (dst : Pod) :
    Kept mig (sourceFailed mtls mig s source dst).2 := by
  have retries : ∀ attempts detail, Kept mig { s with sendAttempts := attempts, phaseDetail := detail } :=
    fun _ _ => { kept with }
  unfold sourceFailed
  dsimp only
  split
  · exact retries _ _
  · exact kept

theorem yields_awaitSourceReport (source : Option Pod) :
    (awaitSourceReport s source).Yields Aside (fun _ _ => True) (fun result => Kept mig result.2) := by
  unfold awaitSourceReport
  split
  · exact kept
  split
  · exact kept
  · exact yields_then (yields_call trivial fun _ _ => trivial) fun _ => { kept with }

omit kept

theorem HasRead.later {reads : Reads} (has : HasRead mig guest dst pod w) {w' : Viewed} (inv : orderSpec.inv w')
    (same : w'.reads = reads) (here : w.reads = reads) : HasRead mig guest dst pod w' := by
  have back : w'.reads = w.reads := same.trans here.symm
  refine ⟨inv, ?_, ?_, ?_⟩ <;> rw [back]
  · exact has.migration
  · exact has.guest
  · exact has.dst

variable (kept : Kept mig s)
include kept

theorem wp_dispatchSubstate (ref : mig.status.sourcePodRef = some src) (named : src ≠ "")
    (isDst : dstPodName mig = .ok dst) (other : src ≠ dst) (mtls : Bool) (source : Option Pod)
    (has : HasRead mig guest dst pod w) :
    wp viewed orderSpec p (dispatchSubstate mtls mig s guest src dst source pod) (Concludes mig) w := by
  have cuts := fun w' (s' : SwiftMigrationStatus) (kept' : Kept mig s') (has' : HasRead mig guest dst pod w') =>
    wp_executeCutover (p := p) isDst kept'.source kept'.phase ref other named has'
  unfold dispatchSubstate
  split
  · exact wp_transfer (yields_issueReceive_aside kept mtls src dst source pod) has.inv
  · exact (kept.detail _).concluded has.inv
  · exact wp_transfer (yields_issueSend_aside kept src source pod) has.inv
  · exact (kept_awaitTransfer kept source).concluded has.inv
  · exact cuts w s kept has
  · refine wp_then (wp_aside (yields_awaitSourceReport kept source) has.inv rfl) (fun _ _ _ => trivial)
      fun result w' done => ?_
    obtain ⟨wait, s'⟩ := result
    have kept' : Kept mig s' := done.2 _ rfl
    dsimp only
    split
    · exact (kept'.detail _).concluded done.1.1
    · exact cuts w' s' kept' (has.later done.1.1 done.1.2 rfl)
  · exact kept.concluded has.inv
  · exact (kept_sourceFailed kept mtls source pod).concluded has.inv
  · exact kept.concluded has.inv
  · exact kept.concluded has.inv

theorem wp_stopAndCopyTransfer (ref : mig.status.sourcePodRef = some src) (named : src ≠ "")
    (isDst : dstPodName mig = .ok dst) (other : src ≠ dst) (mtls : Bool) (source : Option Pod)
    (has : HasRead mig guest dst pod w) :
    wp viewed orderSpec p (stopAndCopyTransfer mtls mig s guest src dst source pod) (Concludes mig) w := by
  have dispatches := fun w' (has' : HasRead mig guest dst pod w') =>
    wp_dispatchSubstate (p := p) kept ref named isDst other mtls source has'
  have clock : (if passedCommitPoint mig source (some pod) then pure false else issue (.clock .timeout)).Yields Aside
      (fun _ _ => True) (fun _ => True) := by
    refine yields_unless trivial fun _ => ?_
    show (issue (.clock .timeout)).Yields Aside (fun _ _ => True) (fun _ => True)
    exact yields_call trivial fun _ _ => trivial
  unfold stopAndCopyTransfer
  dsimp only
  split
  · exact kept.concluded has.inv
  split
  · exact kept.concluded has.inv
  split
  · exact wp_executeCutover isDst kept.source kept.phase ref other named has
  refine wp_then (wp_aside clock has.inv rfl) (fun _ _ _ => trivial) fun expired w' done => ?_
  split
  · exact kept.concluded done.1.1
  · exact dispatches w' (has.later done.1.1 done.1.2 rfl)

theorem wp_stopAndCopyLive (recorded : Recorded mig) (mtls : Bool) (inv : orderSpec.inv w)
    (migration : w.reads.migration = some mig) (read : w.reads.guest = some guest) :
    wp viewed orderSpec p (stopAndCopyLive mtls mig guest s) (Concludes mig) w := by
  obtain ⟨src, ref, named, other⟩ := recorded
  have reads : ∀ {dst : String} {source : Option Pod} {next : Option Pod → Act Handled} {w' : Viewed},
      dstPodName mig = .ok dst → (∃ r, next none = pure (r, s)) →
      (∀ pod, next (some pod) = stopAndCopyTransfer mtls mig s guest src dst source pod) →
      w'.reads.migration = some mig → w'.reads.guest = some guest → orderSpec.inv w' →
      wp viewed orderSpec p (readPod dst >>= next) (Concludes mig) w' := by
    intro dst source next w' isDst stops goes migration read inv
    have other : src ≠ dst := by
      intro same
      subst same
      exact other isDst
    rw [wp_bind, readPod]
    refine wp_lookup_view inv trivial rfl ?_ ?_ ?_
    · intro pod w'' reads inv'
      rw [onOk_ok, goes]
      apply wp_stopAndCopyTransfer kept ref named isDst other mtls source
      refine ⟨inv', ?_, ?_, ?_⟩ <;> rw [reads]
      · exact migration
      · exact read
      · exact Function.update_self ..
    · intro w'' _ inv'
      obtain ⟨r, stops⟩ := stops
      rw [onOk_ok, stops]
      exact kept.concluded inv'
    · intro e w''
      trivial
  unfold stopAndCopyLive
  rw [lookup_recorded ref named, wp_bind, readPod]
  cases isDst : dstPodName mig with
  | error e =>
    refine wp_lookup_view inv trivial rfl (fun _ _ _ inv' => ?_) (fun _ _ inv' => ?_) fun _ _ => trivial
    · exact kept.concluded inv'
    · exact kept.concluded inv'
  | ok dst =>
    refine wp_lookup_view inv trivial rfl ?_ ?_ fun _ _ => trivial
    · intro pod w' seen inv'
      refine reads isDst ⟨_, rfl⟩ (fun _ => rfl) ?_ ?_ inv' <;> rw [seen]
      · exact migration
      · exact read
    · intro w' seen inv'
      refine reads isDst ⟨_, rfl⟩ (fun _ => rfl) ?_ ?_ inv' <;> rw [seen]
      · exact migration
      · exact read

theorem wp_handleStopAndCopyLive (recorded : Recorded mig) (mtls : Bool) (inv : orderSpec.inv w)
    (migration : w.reads.migration = some mig) :
    wp viewed orderSpec p (handleStopAndCopyLive mtls mig s) (Concludes mig) w := by
  unfold handleStopAndCopyLive
  rw [wp_bind, readGuest]
  refine wp_lookup_view inv trivial rfl ?_ ?_ ?_
  · intro guest w' reads inv'
    apply wp_stopAndCopyLive kept recorded mtls inv' <;> rw [reads]
    · exact migration
    · rfl
  · intro w' _ inv'
    exact kept.concluded inv'
  · intro e w'
    trivial

end Handler

theorem viewed_migration {w' : Viewed} (action : viewed.step p w .getMigration (.ok mig) w') :
    w.cluster.migration = some mig := by
  obtain ⟨c, -, action⟩ := action
  change Viewed.exec c w .getMigration = some (w', .ok mig) at action
  simp only [Viewed.exec] at action
  obtain ⟨⟨cluster, r⟩, done, same⟩ := Option.map_eq_some_iff.mp action
  obtain ⟨-, rfl⟩ := Prod.mk.inj same
  obtain ⟨-, ⟨x, there, answer⟩ | ⟨-, answer⟩ | ⟨fault, answer⟩⟩ := World.exec_read rfl done
  · cases answer
    exact there
  · cases answer
  · cases answer

theorem wp_cutoverPass (mtls : Bool) (inv : orderSpec.inv w) :
    wp viewed orderSpec p (cutoverPass mtls) (fun _ _ => True) w := by
  have passes : ∀ mig w', Recorded mig → w'.reads.migration = some mig → orderSpec.inv w' →
      wp viewed orderSpec p (do
        match ← handleStopAndCopyLive mtls mig { mig.status with startedAt := true } with
        | (.failure _ _, _) => pure ()
        | (_, status) => persist mig status) (fun _ _ => True) w' := by
    intro mig w' recorded migration inv'
    have kept : Kept mig { mig.status with startedAt := true } := ⟨rfl, rfl⟩
    refine wp_then (wp_handleStopAndCopyLive kept recorded mtls inv' migration) (fun _ _ _ => trivial)
      fun result w'' concludes => ?_
    obtain ⟨outcome, s⟩ := result
    have concluded : Concluded mig s w'' := concludes
    cases outcome with
    | advance | requeue => exact wp_persist_view concluded.inv concluded.source concluded.order
    | failure message reason => trivial
  refine ⟨trivial, ?_⟩
  intro r w' action
  refine ⟨recorded_calm inv rfl action, trivial, ?_⟩
  intro w'' later inv''
  rcases r with (_ | _ | _ | _ | _ | _) | mig
  case ok =>
    have migration : w''.reads.migration = some mig := by
      rw [show w''.reads = w'.reads from later, viewed_reads action]
      rfl
    show wp viewed orderSpec p (if _ then _ else _) (fun _ _ => True) w''
    split
    · trivial
    · exact passes mig w'' (inv mig (viewed_migration action)) migration inv''
  all_goals trivial

theorem suits_anyCluster : Suits viewed orderSpec anyCluster where
  toCompatible := compatible_orderSpec
  env _ _ _ moves := ⟨moves.2.2, fun _ => moves.2.1⟩
  starts p prog w offer inv := by
    obtain ⟨mtls, rfl⟩ := offer
    exact wp_cutoverPass mtls inv

/-- In every run of the cutover: the pod deleted is the recorded source and not the destination, and the
pass that deletes it has read a guest that points at the destination by name and a migration whose step 1
was recorded; step 1 points the guest at the destination pod it read, name and UID; and the pass that
writes `Resuming` did not find the source pod. -/
theorem cutover_in_order {w : Viewed} (recorded : ∀ mig, w.cluster.migration = some mig → Recorded mig)
    {s : Loops Unit Viewed Op Op.Res Err} (reach : LoopsReach viewed anyCluster w s) {o : Op}
    (pending : s.pending () = some o) : InOrder s.world o :=
  (loopsSound_reach suits_anyCluster recorded reach).pre compatible_orderSpec pending

private def cutoverScript : Script Unit ViewChoice Viewed Op Op.Res Err Bool Unit where
  engine := viewedEngine
  calls := cutoverPass
  event _ w := w
  check _ _ _ _ := true
  pids := [()]

private def handedOver : Pod := { (default : Pod) with uid := "uid-src", status := .complete, statusID := .send "m" 1 }

private def receiver (uid : String) : Pod := { (default : Pod) with uid }

private def pods (dstUID : String) : String → Option Pod :=
  Function.update (Function.update (fun _ => none) "vm" (some handedOver)) "vm-mig-abcdef" (some (receiver dstUID))

private def replacedDestination : Viewed where
  cluster := {
    migration := some { (default : SwiftMigration) with
      name := "m", uid := "abcdef", guestRef := "vm", target := "b", specMode := .live
      status := { (default : SwiftMigrationStatus) with
        phase := .stopAndCopy, mode := .live, sourcePodRef := some "vm" } }
    guest := some { (default : SwiftGuest) with podRef := some ⟨"vm", "uid-src"⟩ }
    pods := pods "uid-2"
    profiles := fun _ => none
    gpus := ⟨fun _ => []⟩ }
  past := [pods "uid-1"]
  reads := ⟨none, none, fun _ => none⟩

-- The first pass sees the old destination and swaps the reference; the second one sees the new one.
private def firstPass (view : Option Nat) : List (LoopMove Unit ViewChoice Bool Unit) :=
  [.start () true, .op () {}, .op () {}, .op () {}, .op () { view }, .op () {}, .op () {}, .op () {}, .finish ()]

private def secondPass : List (LoopMove Unit ViewChoice Bool Unit) :=
  [.start () true, .op () {}, .op () {}, .op () {}, .op () {}, .op () {}]

private theorem cutoverScript_fits : cutoverScript.Fits anyCluster (V := fun _ => False) where
  offers _ mtls _ := ⟨mtls, rfl⟩

/-- The pass may find the podRef with another UID than the destination pod it reads, and deletes the source. -/
theorem cutover_ignores_uid :
    ∃ s, LoopsReach viewed anyCluster replacedDestination s ∧ s.pending () = some (.deletePod "vm" false) ∧
      (s.world.reads.guest.bind fun guest => guest.podRef) = some ⟨"vm-mig-abcdef", "uid-1"⟩ ∧
      s.world.reads.pods "vm-mig-abcdef" = some (some (receiver "uid-2")) := by
  exact exists_of_play cutoverScript_fits (firstPass (some 2) ++ secondPass) (by decide)

theorem cutover_in_order_of_one :
    ∃ s, LoopsReach viewed anyCluster replacedDestination s ∧ s.pending () = some (.deletePod "vm" false) ∧
      ∃ dst, "vm" ≠ dst ∧ SwapSeen s.world.reads "vm" dst := by
  have reached : ∃ s, LoopsReach viewed anyCluster replacedDestination s ∧ s.pending () = some (.deletePod "vm" false) :=
    exists_of_play cutoverScript_fits (firstPass none ++ secondPass) (by decide)
  obtain ⟨s, reach, seen⟩ := reached
  exact ⟨s, reach, seen, cutover_in_order (by rintro mig ⟨⟩; exact ⟨"vm", rfl, by decide, by decide⟩) reach seen⟩

end KubeSwift.Migration
