import KubeSwift.Program.Loops
import KubeSwift.Program.Triples
import KubeSwift.Migration.Reconciler

/-! # The hand-over, as a pass of the reconciler sees it

The reconciler runs alone; between two passes the others do what they like. A pass has seen the hand-over once a read
showed one of its witnesses. -/

namespace KubeSwift.Migration
open Program Prog

structure Watched where
  cluster : World
  seen : Bool
  deletes : Bool

def IsDst (mig : SwiftMigration) (name : String) : Prop := dstPodName mig = .ok name

instance (mig : SwiftMigration) (name : String) : Decidable (IsDst mig name) :=
  inferInstanceAs (Decidable (_ = _))

/-- The pod shows the hand-over: the destination reports `running`, or another launcher `complete`, for this migration.
-/
def showsHandOver (mig : SwiftMigration) (name : String) (pod : Pod) : Bool :=
  if IsDst mig name then dstReportedRunning mig (some pod) else srcReportedComplete mig (some pod)

-- A pass begins with reading the migration.
def Watched.seenAfter (w : Watched) : (o : Op) → Except Err o.Res → Bool
  | .getMigration, .ok mig => isPostCutover mig
  | .getPod name, .ok pod => w.seen || w.cluster.migration.any fun mig => showsHandOver mig name pod
  | _, _ => w.seen

def Watched.deletesAfter (w : Watched) : Op → Bool
  | .getMigration => false
  | .deletePod name _ => w.deletes || w.cluster.migration.any fun mig => decide (IsDst mig name)
  | _ => w.deletes

def watchedEngine : Engine Unit Choice Watched Op Op.Res Err where
  exec p c w o := (engine.exec p c w.cluster o).map fun (cluster, r) =>
    (⟨cluster, w.seenAfter o r, w.deletesAfter o⟩, r)
  crash p w := { w with cluster := engine.crash p w.cluster }

def watched : Machine Unit Watched Op Op.Res Err := watchedEngine.machine (fun _ _ _ _ => True) (fun _ _ => True)

def MigrationEdited (before after : Option SwiftMigration) : Prop :=
  ∀ mig, after = some mig → ∃ old, before = some old ∧
    { mig with cancelRequested := old.cancelRequested, deleting := old.deleting,
               resourceVersion := old.resourceVersion } = old

structure Between (before after : World) : Prop where
  migration : MigrationEdited before.migration after.migration
  pods : ∀ mig name, before.migration = some mig → IsDst mig name → before.pods name = none →
    after.pods name = none
  podRef : ∀ mig name guest, before.migration = some mig → IsDst mig name → after.guest = some guest →
    (guest.podRef.map fun ref => ref.name) = some name →
    ∃ old, before.guest = some old ∧ (old.podRef.map fun ref => ref.name) = some name

def surroundings : Setting Unit Watched Op Op.Res Err where
  env _ _ := False
  quiet before after := Between before.cluster after.cluster ∧ after.seen = before.seen ∧
    after.deletes = before.deletes
  offered _ prog := ∃ mtls, prog = reconcile mtls

structure Created (w : World) : Prop where
  named : ∀ mig, w.migration = some mig → mig.guestRef ≠ ""
  fresh : ∀ mig, w.migration = some mig → mig.status.phase = .unset ∧ mig.status.mode = .unset ∧
    mig.status.destinationPodRef = none ∧ mig.status.conditions.podRefSwapped = false ∧
    mig.status.cutoverStep1At = false
  absent : ∀ mig name, w.migration = some mig → IsDst mig name → w.pods name = none ∧
    ∀ guest, w.guest = some guest → (guest.podRef.map fun ref => ref.name) ≠ some name

def Phase.early : Phase → Bool
  | .unset | .pending | .validating => true
  | _ => false

structure Course where
  phase : Phase
  mode : Mode
  swapped : Bool
  stamped : Bool
  source : Option String
  destination : Option String

def SwiftMigrationStatus.course (s : SwiftMigrationStatus) : Course where
  phase := s.phase
  mode := s.mode
  swapped := s.conditions.podRefSwapped
  stamped := s.cutoverStep1At
  source := s.sourcePodRef
  destination := s.destinationPodRef

structure StatusFits (dst : String → Prop) (s : Course) : Prop where
  fresh : s.phase.early = true → s.destination = none ∧ s.swapped = false
  source : s.mode = .live → (isTerminalPhase s.phase = false ∨ s.destination.isSome = true) →
    ∃ name, s.source = some name ∧ name ≠ "" ∧ ¬ dst name
  mode : s.phase = .preparing ∨ s.phase = .stopAndCopy ∨ s.phase = .resuming →
    s.mode = .live ∨ s.mode = .offline
  stamped : s.stamped = true → s.swapped = true
  resumed : s.phase = .resuming → s.mode = .live → s.swapped = true

def Moved (dst : String → Prop) (s : Course) (guest : SwiftGuest) : Prop :=
  ∀ name, dst name → (guest.podRef.map fun ref => ref.name) = some name →
    s.mode = .live ∧ s.phase.early = false

structure Placed (dst : String → Prop) (s : Course) (w : World) : Prop where
  absent : s.phase.early = true → ∀ name, dst name → w.pods name = none
  moved : ∀ guest, w.guest = some guest → Moved dst s guest

structure Fits (mig : SwiftMigration) (w : World) : Prop where
  named : mig.guestRef ≠ ""
  status : StatusFits (IsDst mig) mig.status.course
  placed : Placed (IsDst mig) mig.status.course w

def safeSpec : Spec Unit Watched Op where
  inv w := (∀ mig, w.cluster.migration = some mig → Fits mig w.cluster) ∧ (w.seen = true → w.deletes = false)
  rely _ w w' := w' = w
  guar _ _ _ := True
  pre _ _ _ := True

variable {o : Op} {p : Unit} {w w' : Watched} {mig : SwiftMigration} {name src : String} {present : Bool}

variable {r : Except Err o.Res} {a : o.Res} {c : Choice} {detail : String} {α : Type} {pod : Pod} {s : Course}

theorem watched_cases (action : watched.step p w o r w') :
    w'.seen = w.seenAfter o r ∧ w'.deletes = w.deletesAfter o ∧
    ((∃ c a, r = .ok a ∧ w.cluster.perform c o = .ok (w'.cluster, a)) ∨
      (∃ e, r = .error e ∧ (w'.cluster = w.cluster ∨ ∃ c a, w.cluster.perform c o = .ok (w'.cluster, a)))) := by
  obtain ⟨c, -, action⟩ := action
  simp only [watchedEngine] at action
  obtain ⟨⟨cluster, r'⟩, done, same⟩ := Option.map_eq_some_iff.mp action
  cases same
  refine ⟨rfl, rfl, ?_⟩
  rcases withFault_cases (Option.some.inj done) with ⟨a, ok, performed⟩ | ⟨e, failed, unchanged | ⟨a, performed⟩⟩
  · exact .inl ⟨c, a, ok, performed⟩
  · exact .inr ⟨e, failed, .inl unchanged⟩
  · exact .inr ⟨e, failed, .inr ⟨c, a, performed⟩⟩

theorem watched_effect (action : watched.step p w o r w') :
    w'.cluster = w.cluster ∨ ∃ c a, w.cluster.perform c o = .ok (w'.cluster, a) := by
  obtain ⟨-, -, ⟨c, a, -, done⟩ | ⟨e, -, effect⟩⟩ := watched_cases action
  · exact .inr ⟨c, a, done⟩
  · exact effect

def Calm (mig : SwiftMigration) : Op → Prop
  | .patchFinalizer _ | .patchStatus _ _ | .patchStatusLocked _ _ _ | .deleteMigration | .getMigration => False
  | .patchGuestStatus base wanted =>
    base.podRef = wanted.podRef ∨ (mig.status.mode = .live ∧ mig.status.phase.early = false)
  | .createPod _ _ => mig.status.phase.early = false
  | _ => True

section Calm

variable {mig : SwiftMigration} {w w' : World} {c : Choice} {o : Op} {a : o.Res}

theorem Calm.onMigration (calm : Calm mig o) : o.onMigration = false := by
  cases o <;> first | rfl | exact calm.elim

theorem placed_perform (calm : Calm mig o) (placed : Placed (IsDst mig) mig.status.course w)
    (done : w.perform c o = .ok (w', a)) : Placed (IsDst mig) mig.status.course w' := by
  constructor
  · intro early name isDst
    have absent := placed.absent early name isDst
    have step := World.perform_pods done name
    rw [absent] at step
    generalize w'.pods name = after at step ⊢
    cases step with
    | same => rfl
    | patch _ there => cases there
    | @create pod uid op _ =>
      subst op
      exact absurd (early.symm.trans calm) (by simp)
    | delete _ there => cases there
  · intro guest there name isDst points
    by_cases onGuest : o.onGuest = false
    · rw [World.perform_guest onGuest done] at there
      exact placed.moved guest there name isDst points
    · cases o with
      | patchGuest base wanted =>
        obtain ⟨old, was, same⟩ := World.found_ok done
        cases same
        cases there
        exact placed.moved old was name isDst points
      | patchGuestStatus base wanted =>
        obtain ⟨old, was, same⟩ := World.found_ok done
        cases same
        cases there
        rcases calm with same | live
        · refine placed.moved old was name isDst ?_
          rw [← points]
          simp [SwiftGuest.mergeStatus, patched, same]
        · exact live
      | _ => exact absurd rfl onGuest

end Calm

structure Stays (mig : SwiftMigration) (w : World) : Prop where
  migration : w.migration = some mig
  fits : Fits mig w

theorem stays_perform {w w' : World} (calm : Calm mig o) (stays : Stays mig w) (done : w.perform c o = .ok (w', a)) :
    Stays mig w' :=
  ⟨(World.perform_migration calm.onMigration done).trans stays.migration, stays.fits.named, stays.fits.status,
    placed_perform calm stays.fits.placed done⟩

theorem Stays.inv (stays : Stays mig w.cluster) (apart : w.seen = true → w.deletes = false) : safeSpec.inv w := by
  refine ⟨?_, apart⟩
  intro mig' here
  rw [stays.migration] at here
  cases here
  exact stays.fits

theorem stays_step (calm : Calm mig o) (stays : Stays mig w.cluster) (action : watched.step p w o r w') :
    Stays mig w'.cluster := by
  rcases watched_effect action with same | ⟨c, a, done⟩
  · exact same ▸ stays
  · exact stays_perform calm stays done

def Op.deletes : Op → Option String
  | .deletePod name _ => some name
  | _ => none

def Spares (mig : SwiftMigration) (o : Op) : Prop :=
  Calm mig o ∧ ∀ name, o.deletes = some name → ¬ IsDst mig name

def Sees (mig : SwiftMigration) : (o : Op) → Except Err o.Res → Prop
  | .getGuest, .ok guest | .patchGuest _ _, .ok guest | .patchGuestStatus _ _, .ok guest =>
    Moved (IsDst mig) mig.status.course guest
  | .getPod name, .ok _ => mig.status.phase.early = true → ¬ IsDst mig name
  | .check what, .ok verdict => ∀ detail, verdict = .wait detail → what.mayWait = true
  | _, _ => True

theorem verdict_wait {what : Check} {verdict : Verdict} (waits : what.verdict verdict = .wait detail) :
    what.mayWait = true := by
  cases verdict with
  | wait _ =>
    by_contra never
    simp [Check.verdict, never] at waits
  | pass | fail => cases waits

theorem sees_perform {w w' : World} (stays : Stays mig w') (done : w.perform c o = .ok (w', a)) :
    Sees mig o (.ok a) := by
  cases o with
  | getGuest =>
    obtain ⟨rfl, there⟩ := World.perform_getGuest done
    exact stays.fits.placed.moved a there
  | patchGuest | patchGuestStatus =>
    obtain ⟨guest, there, same⟩ := World.found_ok done
    cases same
    exact stays.fits.placed.moved _ rfl
  | getPod name =>
    obtain ⟨rfl, there⟩ := World.perform_getPod done
    intro early isDst
    rw [stays.fits.placed.absent early name isDst] at there
    cases there
  | check what =>
    intro detail waits
    obtain ⟨-, rfl⟩ := Prod.mk.inj (Except.ok.inj done)
    exact verdict_wait waits
  | _ => trivial

theorem sees_step (stays : Stays mig w'.cluster) (action : watched.step p w o r w') : Sees mig o r := by
  obtain ⟨-, -, ⟨c, a, rfl, done⟩ | ⟨e, rfl, -⟩⟩ := watched_cases action
  · exact sees_perform stays done
  · cases o <;> trivial

theorem spared_step (spares : Spares mig o) (stays : Stays mig w.cluster) (none : w.deletes = false)
    (action : watched.step p w o r w') : w'.deletes = false := by
  rw [(watched_cases action).2.1]
  cases o with
  | deletePod name force =>
    have other := spares.2 name rfl
    simp [Watched.deletesAfter, none, stays.migration, other]
  | getMigration => rfl
  | _ => exact none

variable {m : Act α}

theorem wp_spares {V : α → Prop} (yields : m.Yields (Spares mig) (Sees mig) V)
    (stays : Stays mig w.cluster) (none : w.deletes = false) :
    wp watched safeSpec p m
      (fun r w => (Stays mig w.cluster ∧ w.deletes = false) ∧ ∀ value, r = .ok value → V value) w := by
  refine wp_yields (P := fun w : Watched => Stays mig w.cluster ∧ w.deletes = false) ?_ yields ⟨stays, none⟩
  intro o w spares here
  refine ⟨trivial, ?_⟩
  intro r w' action
  have stays' := stays_step spares.1 here.1 action
  have none' := spared_step spares here.1 here.2 action
  refine ⟨sees_step stays' action, stays'.inv fun _ => none', trivial, ?_⟩
  intro w'' same _
  cases same
  exact ⟨stays', none'⟩

def Witness (mig : SwiftMigration) (name : String) (pod : Pod) : Prop :=
  (IsDst mig name ∧ dstReportedRunning mig (some pod) = true) ∨
    (mig.status.sourcePodRef = some name ∧ srcReportedComplete mig (some pod) = true)

def HandedOver (mig : SwiftMigration) (w : World) : Prop :=
  isPostCutover mig = true ∨
    (w.guest.isSome = true ∧ ∃ name pod, w.pods name = some pod ∧ Witness mig name pod)

theorem Witness.congr {pod' : Pod} (witness : Witness mig name pod) (status : pod'.status = pod.status)
    (id : pod'.statusID = pod.statusID) : Witness mig name pod' := by
  simpa [Witness, dstReportedRunning, srcReportedComplete, podStatusMatches, status, id] using witness

structure Source (mig : SwiftMigration) (src : String) : Prop where
  ref : mig.status.sourcePodRef = some src
  named : src ≠ ""
  other : ¬ IsDst mig src

theorem Source.lookup (source : Source mig src) (guest : SwiftGuest) : srcPodLookupName mig guest = src := by
  simp [srcPodLookupName, source.ref, source.named]

theorem Source.witness (source : Source mig src) (role : name = src ∨ IsDst mig name) :
    showsHandOver mig name pod = true ↔ Witness mig name pod := by
  unfold showsHandOver Witness
  by_cases isDst : IsDst mig name
  · have other : mig.status.sourcePodRef ≠ some name := by
      rw [source.ref]
      intro same
      cases same
      exact source.other isDst
    simp [isDst, other]
  · have same : name = src := role.resolve_right isDst
    subst same
    simp [isDst, source.ref]

def Op.reads : Op → Option String
  | .getPod name => some name
  | _ => none

def Op.creates : Op → Bool
  | .createPod _ _ => true
  | _ => false

section Reports

variable {w w' : World} {c : Choice} {o : Op} {a : o.Res} {name : String} {pod : Pod}

variable (done : w.perform c o = .ok (w', a))
include done

theorem report_kept (there : w.pods name = some pod) (kept : o.deletes ≠ some name) :
    ∃ pod', w'.pods name = some pod' ∧ pod'.status = pod.status ∧ pod'.statusID = pod.statusID := by
  have step := World.perform_pods done name
  rw [there] at step
  generalize w'.pods name = after at step ⊢
  cases step with
  | same => exact ⟨pod, rfl, rfl, rfl⟩
  | patch _ same =>
    cases same
    exact ⟨_, rfl, rfl, rfl⟩
  | create _ absent => cases absent
  | delete op _ =>
    subst op
    exact absurd rfl kept

theorem report_old (there : w'.pods name = some pod) (old : o.creates = false) :
    ∃ pod', w.pods name = some pod' ∧ pod.status = pod'.status ∧ pod.statusID = pod'.statusID := by
  have step := World.perform_pods done name
  rw [there] at step
  generalize w.pods name = before at step ⊢
  generalize after : some pod = result at step
  cases step with
  | same => exact ⟨pod, after.symm, rfl, rfl⟩
  | patch _ same =>
    cases after
    exact ⟨_, same, rfl, rfl⟩
  | create op _ =>
    subst op
    cases old
  | @delete force _ op same =>
    cases force
    · cases after
      exact ⟨_, same, rfl, rfl⟩
    · cases after

theorem guest_isSome : w'.guest.isSome = w.guest.isSome := by
  by_cases onGuest : o.onGuest = false
  · rw [World.perform_guest onGuest done]
  · cases o with
    | patchGuest | patchGuestStatus =>
      obtain ⟨old, was, same⟩ := World.found_ok done
      cases same
      rw [was]
      rfl
    | _ => exact absurd rfl onGuest

end Reports

structure Clear (mig : SwiftMigration) (present : Bool) (w : Watched) : Prop where
  stays : Stays mig w.cluster
  guest : w.cluster.guest.isSome = present
  unseen : w.seen = false
  none : present = true → ∀ name pod, w.cluster.pods name = some pod → ¬ Witness mig name pod

def Aborts (mig : SwiftMigration) (src : String) (present : Bool) (o : Op) : Prop :=
  Calm mig o ∧ o.creates = false ∧
    ∀ name, o.reads = some name → present = true ∧ (name = src ∨ IsDst mig name)

def Present (present : Bool) : (o : Op) → Except Err o.Res → Prop
  | .getGuest, .ok _ => present = true
  | _, _ => True

theorem clear_step (source : Source mig src) (aborts : Aborts mig src present o) (clear : Clear mig present w)
    (action : watched.step p w o r w') : Clear mig present w' := by
  obtain ⟨seen, -, steps⟩ := watched_cases action
  have kept := watched_effect action
  refine ⟨stays_step aborts.1 clear.stays action, ?_, ?_, ?_⟩
  · rcases kept with same | ⟨c, a, done⟩
    · rw [same, clear.guest]
    · rw [guest_isSome done, clear.guest]
  · rw [seen]
    cases o with
    | getMigration => exact aborts.1.elim
    | getPod name =>
      obtain ⟨here, role⟩ := aborts.2.2 name rfl
      rcases steps with ⟨c, pod, rfl, done⟩ | ⟨e, rfl, -⟩
      · have there := (World.perform_getPod done).2
        have nothing := clear.none here name pod there
        rw [← source.witness role] at nothing
        simp [Watched.seenAfter, clear.unseen, clear.stays.migration, nothing]
      · exact clear.unseen
    | _ => exact clear.unseen
  · intro here name pod there witness
    rcases kept with same | ⟨c, a, done⟩
    · rw [same] at there
      exact clear.none here name pod there witness
    · obtain ⟨old, was, status, id⟩ := report_old done there aborts.2.1
      exact clear.none here name old was (witness.congr status.symm id.symm)

theorem present_step (clear : Clear mig present w) (action : watched.step p w o r w') : Present present o r := by
  obtain ⟨-, -, ⟨c, a, rfl, done⟩ | ⟨e, rfl, -⟩⟩ := watched_cases action
  · cases o with
    | getGuest =>
      have there := (World.perform_getGuest done).2
      have here := clear.guest
      rw [there] at here
      exact here.symm
    | _ => trivial
  · cases o <;> trivial

theorem Clear.inv (clear : Clear mig present w) : safeSpec.inv w := by
  apply clear.stays.inv
  intro seen
  rw [clear.unseen] at seen
  cases seen

theorem wp_aborts {V : α → Prop} (source : Source mig src)
    (yields : m.Yields (Aborts mig src present) (Present present) V) (clear : Clear mig present w) :
    wp watched safeSpec p m (fun r w => Clear mig present w ∧ ∀ value, r = .ok value → V value) w := by
  refine wp_yields ?_ yields clear
  intro o w aborts here
  refine ⟨trivial, ?_⟩
  intro r w' action
  have clear' := clear_step source aborts here action
  refine ⟨present_step here action, clear'.inv, trivial, ?_⟩
  intro w'' same _
  cases same
  exact clear'

structure Known (mig : SwiftMigration) (w : Watched) : Prop where
  stays : Stays mig w.cluster
  spared : w.deletes = false
  seen : w.seen = true → HandedOver mig w.cluster

def Advances (mig : SwiftMigration) (src : String) (o : Op) : Prop :=
  Spares mig o ∧ (o.deletes.isSome = true → isPostCutover mig = true) ∧
    ∀ name, o.reads = some name → name = src ∨ IsDst mig name

theorem handedOver_perform {w w' : World} (kept : o.deletes.isSome = true → isPostCutover mig = true)
    (handed : HandedOver mig w) (done : w.perform c o = .ok (w', a)) : HandedOver mig w' := by
  rcases handed with post | ⟨guest, name, pod, there, witness⟩
  · exact .inl post
  · by_cases deleted : o.deletes = some name
    · exact .inl (kept (by rw [deleted]; rfl))
    · obtain ⟨pod', there', status, id⟩ := report_kept done there deleted
      exact .inr ⟨(guest_isSome done).trans guest, name, pod', there', witness.congr status id⟩

theorem known_step (source : Source mig src) (advances : Advances mig src o) (known : Known mig w)
    (guest : w.cluster.guest.isSome = true) (action : watched.step p w o r w') :
    Known mig w' ∧ w'.cluster.guest.isSome = true := by
  obtain ⟨seen, -, steps⟩ := watched_cases action
  have stays' := stays_step advances.1.1 known.stays action
  have spared' := spared_step advances.1 known.stays known.spared action
  have later : HandedOver mig w.cluster → HandedOver mig w'.cluster := by
    intro handed
    rcases watched_effect action with same | ⟨c, a, done⟩
    · exact same ▸ handed
    · exact handedOver_perform advances.2.1 handed done
  have guest' : w'.cluster.guest.isSome = true := by
    rcases watched_effect action with same | ⟨c, a, done⟩
    · exact same ▸ guest
    · exact (guest_isSome done).trans guest
  refine ⟨⟨stays', spared', ?_⟩, guest'⟩
  intro seen'
  rw [seen] at seen'
  cases o with
  | getMigration => exact advances.1.1.elim
  | getPod name =>
    rcases steps with ⟨c, pod, rfl, done⟩ | ⟨e, rfl, -⟩
    · have there := (World.perform_getPod done).2
      simp only [Watched.seenAfter, known.stays.migration, Option.any_some, Bool.or_eq_true] at seen'
      rcases seen' with before | now
      · exact later (known.seen before)
      · exact later (.inr ⟨guest, name, pod, there, (source.witness (advances.2.2 name rfl)).mp now⟩)
    · exact later (known.seen seen')
  | _ => exact later (known.seen seen')

theorem Known.inv (known : Known mig w) : safeSpec.inv w :=
  known.stays.inv fun _ => known.spared

theorem wp_advances {V : α → Prop} (source : Source mig src)
    (yields : m.Yields (Advances mig src) (Sees mig) V) (known : Known mig w) (guest : w.cluster.guest.isSome = true) :
    wp watched safeSpec p m
      (fun r w => (Known mig w ∧ w.cluster.guest.isSome = true) ∧ ∀ value, r = .ok value → V value) w := by
  refine wp_yields (P := fun w : Watched => Known mig w ∧ w.cluster.guest.isSome = true) ?_ yields ⟨known, guest⟩
  intro o w advances here
  refine ⟨trivial, ?_⟩
  intro r w' action
  have next := known_step source advances here.1 here.2 action
  refine ⟨sees_step next.1.stays action, next.1.inv, trivial, ?_⟩
  intro w'' same _
  cases same
  exact next

structure PodPatch (mig : SwiftMigration) (base wanted : Pod) : Prop where
  action : (wanted.action = base.action ∧ wanted.actionID = base.actionID) ∨
    (wanted.action = .none ∧ wanted.actionID = .absent) ∨
    (wanted.action = .cancel ∧ wanted.actionID = cancelID mig) ∨
    (wanted.action = .cancelSend ∧ wanted.actionID = cancelSendID mig)
  answer : wanted.cancelResultID = base.cancelResultID ∨ wanted.cancelResultID = cancelSendID mig

structure Plain (mig : SwiftMigration) (A : Op → Prop) : Prop where
  getGuest : A .getGuest
  getProfile : ∀ name, A (.getProfile name)
  clock : ∀ timer, A (.clock timer)
  check : ∀ what, A (.check what)
  ensure : ∀ what, A (.ensure what)
  patchPod : ∀ name base wanted, PodPatch mig base wanted → A (.patchPod name base wanted)

structure Ordinary (mig : SwiftMigration) (A : Op → Prop) : Prop extends Plain mig A where
  patchGuest : ∀ base wanted, A (.patchGuest base wanted)
  gpu : ∀ o, A (.gpu o)

theorem ordinary_spares (mig : SwiftMigration) : Ordinary mig (Spares mig) := by
  refine ⟨⟨?_, ?_, ?_, ?_, ?_, ?_⟩, ?_, ?_⟩ <;> intros <;> exact ⟨trivial, nofun⟩

theorem ordinary_aborts (mig : SwiftMigration) (src : String) (present : Bool) :
    Ordinary mig (Aborts mig src present) := by
  refine ⟨⟨?_, ?_, ?_, ?_, ?_, ?_⟩, ?_, ?_⟩ <;> intros <;> exact ⟨trivial, rfl, nofun⟩

theorem ordinary_advances (mig : SwiftMigration) (src : String) : Ordinary mig (Advances mig src) := by
  refine ⟨⟨?_, ?_, ?_, ?_, ?_, ?_⟩, ?_, ?_⟩ <;> intros <;> exact ⟨⟨trivial, nofun⟩, nofun, nofun⟩

section Helpers

variable {A : Op → Prop} {R : ∀ o : Op, Except Err o.Res → Prop} {mig : SwiftMigration}

theorem yields_clearAction (plain : Plain mig A) {name : String} {own : Pod → Bool} (read : A (.getPod name)) :
    (clearAction name own).Yields A R (fun _ => True) := by
  refine yields_then (yields_readPod read fun _ => trivial) ?_
  intro pod
  cases pod with
  | none => trivial
  | some pod =>
    apply yields_ite
    · intro _
      have withdraws : PodPatch mig pod pod.withoutAction := ⟨.inr (.inl ⟨rfl, rfl⟩), .inl rfl⟩
      exact yields_ignoreNotFound (yields_call (plain.patchPod _ _ _ withdraws) fun _ _ => trivial)
    · intro _
      trivial

theorem yields_withGuest {α : Type} {V : α → Prop} {absent : Act α} {there : SwiftGuest → Act α} (issued : A .getGuest)
    (gone : absent.Yields A R V) (goes : ∀ guest, R .getGuest (.ok guest) → (there guest).Yields A R V) :
    (readGuest >>= fun | none => absent | some guest => there guest).Yields A R V := by
  let U : Option SwiftGuest → Prop := fun found => ∀ guest, found = some guest → R .getGuest (.ok guest)
  have first : readGuest.Yields A R U := by
    refine yields_lookup (yields_call issued ?_) ?_
    · intro guest answer _ same
      cases same
      exact answer
    · intro guest same
      cases same
  refine yields_seq first ?_
  intro found answer
  cases found with
  | none => exact gone
  | some guest => exact goes guest (answer guest rfl)

theorem yields_clearSourceSend (ordinary : Ordinary mig A)
    (read : ∀ guest, R .getGuest (.ok guest) → A (.getPod (srcPodLookupName mig guest))) :
    (clearSourceSend mig).Yields A R (fun _ => True) :=
  yields_withGuest ordinary.getGuest trivial fun guest answer => yields_clearAction ordinary.toPlain (read guest answer)

theorem yields_clearLauncherCancel (plain : Plain mig A)
    (read : ∀ guest, R .getGuest (.ok guest) → A (.getPod (srcPodLookupName mig guest))) :
    (clearLauncherCancel mig).Yields A R (fun _ => True) :=
  yields_withGuest plain.getGuest trivial fun guest answer => yields_clearAction plain (read guest answer)

theorem yields_releaseTargetReservation (ordinary : Ordinary mig A) (guest : SwiftGuest) :
    (releaseTargetReservation mig guest).Yields A R (fun _ => True) := by
  refine yields_unless trivial fun _ => ?_
  refine yields_then (yields_attempt (yields_onGPUs _ ordinary.gpu) fun _ => trivial) ?_
  intro r
  split <;> trivial

theorem yields_cleanupSourceGuest (ordinary : Ordinary mig A) (restore : Bool) :
    (cleanupSourceGuest mig restore).Yields A R (fun _ => True) := by
  refine yields_withGuest ordinary.getGuest trivial fun guest _ => ?_
  refine yields_unless trivial fun _ => ?_
  refine yields_then
    (yields_lookup (yields_call (ordinary.patchGuest _ _) fun _ _ => trivial) trivial) ?_
  intro patched
  cases patched with
  | none => trivial
  | some guest =>
    apply yields_ite
    · intro _
      exact yields_releaseTargetReservation ordinary guest
    · intro _
      trivial

theorem yields_runChecks (plain : Plain mig A) {V : Handled → Prop} {passed : SwiftMigrationStatus → Act Handled}
    {status : SwiftMigrationStatus} {checks : List Check} (fails : ∀ message reason, V (.failure message reason, status))
    (waits : ∀ what detail, what ∈ checks → R (.check what) (.ok (.wait detail)) →
      V (.requeue, { status with phaseDetail := detail }))
    (passes : (passed status).Yields A R V) : (runChecks status passed checks).Yields A R V := by
  induction checks with
  | nil => exact passes
  | cons what rest ih =>
    refine yields_seq (yields_call (plain.check what) fun _ answer => answer) ?_
    intro verdict answer
    cases verdict with
    | pass => exact ih fun what detail member => waits what detail (List.mem_cons_of_mem _ member)
    | fail message reason => exact fails message reason
    | wait detail => exact waits what detail List.mem_cons_self answer

end Helpers

/-! ## Writing the status -/

structure Fitting (mig : SwiftMigration) (s : Course) : Prop where
  status : StatusFits (IsDst mig) s
  early : s.phase.early = true → mig.status.phase.early = true
  mode : mig.status.phase.early = false → s.mode = mig.status.mode

theorem Fitting.placed {w : World} (fitting : Fitting mig s) (placed : Placed (IsDst mig) mig.status.course w) :
    Placed (IsDst mig) s w := by
  constructor
  · intro early
    exact placed.absent (fitting.early early)
  · intro guest there name isDst points
    obtain ⟨live, late⟩ := placed.moved guest there name isDst points
    refine ⟨(fitting.mode late).trans live, ?_⟩
    by_contra early
    have := fitting.early (by simpa using early)
    exact absurd (late.symm.trans this) (by simp)

theorem stays_withStatus {s : SwiftMigrationStatus} {w : World} (stays : Stays mig w) (fitting : Fitting mig s.course)
    (time : Nat) : Stays (World.withStatus time mig mig.status s)
      (w.setMigration (some (World.withStatus time mig mig.status s))) := by
  have written : (World.withStatus time mig mig.status s).status.course = s.course := by
    rw [World.withStatus, SwiftMigrationStatus.merge_self]
    rfl
  refine ⟨rfl, stays.fits.named, ?_, ?_⟩
  · rw [written]
    exact fitting.status
  · rw [written]
    have placed := fitting.placed stays.fits.placed
    exact { placed with }

theorem watched_found {next : Choice → World} {answer : Choice → o.Res}
    (performs : ∀ c, w.cluster.perform c o = .ok (next c, answer c)) (action : watched.step p w o r w') :
    w'.seen = w.seenAfter o r ∧ w'.deletes = w.deletesAfter o ∧
    ((∃ c, r = .ok (answer c) ∧ w'.cluster = next c) ∨
      ∃ e, r = .error e ∧ (w'.cluster = w.cluster ∨ ∃ c, w'.cluster = next c)) := by
  obtain ⟨seen, deletes, ⟨c, b, ok, done⟩ | ⟨e, failed, same | ⟨c, b, done⟩⟩⟩ := watched_cases action
  all_goals refine ⟨seen, deletes, ?_⟩
  · rw [performs c] at done
    obtain ⟨next, same⟩ := Prod.mk.inj (Except.ok.inj done)
    exact .inl ⟨c, same ▸ ok, next.symm⟩
  · exact .inr ⟨e, failed, .inl same⟩
  · rw [performs c] at done
    exact .inr ⟨e, failed, .inr ⟨c, (congrArg Prod.fst (Except.ok.inj done)).symm⟩⟩

theorem wp_write {other : Choice → Option SwiftMigration} {answer : Choice → o.Res} {Q : Except Err o.Res → Watched → Prop}
    (stays : Stays mig w.cluster) (apart : w.seen = true → w.deletes = false)
    (quiet : (∀ r, w.seenAfter o r = w.seen) ∧ w.deletesAfter o = w.deletes)
    (performs : ∀ c, w.cluster.perform c o = .ok (w.cluster.setMigration (other c), answer c))
    (fits : ∀ c mig', other c = some mig' → Fits mig' (w.cluster.setMigration (other c)))
    (ok : ∀ c w', w'.cluster = w.cluster.setMigration (other c) → w'.seen = w.seen → w'.deletes = w.deletes →
      Q (.ok (answer c)) w') (error : ∀ e w', Q (.error e) w') : wp watched safeSpec p (issue o) Q w := by
  refine ⟨trivial, ?_⟩
  intro r w' action
  obtain ⟨seen, deletes, outcome⟩ := watched_found performs action
  rw [quiet.1 r] at seen
  rw [quiet.2] at deletes
  have apart' : w'.seen = true → w'.deletes = false := by
    rw [seen, deletes]
    exact apart
  have written : ∀ c, w'.cluster = w.cluster.setMigration (other c) → safeSpec.inv w' := by
    intro c next
    refine ⟨?_, apart'⟩
    intro mig' here
    rw [next] at here ⊢
    exact fits c mig' here
  rcases outcome with ⟨c, rfl, next⟩ | ⟨e, rfl, same | ⟨c, next⟩⟩
  · refine ⟨written c next, trivial, ?_⟩
    intro w'' same _
    cases same
    exact ok c w' next seen deletes
  · have stays' : Stays mig w'.cluster := same ▸ stays
    exact ⟨stays'.inv apart', trivial, fun w'' _ _ => error e w''⟩
  · exact ⟨written c next, trivial, fun w'' _ _ => error e w''⟩

theorem wp_patchStatus {s : SwiftMigrationStatus} {Q : Except Err SwiftMigration → Watched → Prop}
    (stays : Stays mig w.cluster) (apart : w.seen = true → w.deletes = false) (fitting : Fitting mig s.course)
    (ok : ∀ time w', Stays (World.withStatus time mig mig.status s) w'.cluster →
      w'.cluster = w.cluster.setMigration (some (World.withStatus time mig mig.status s)) →
      w'.seen = w.seen → w'.deletes = w.deletes → Q (.ok (World.withStatus time mig mig.status s)) w')
    (error : ∀ e w', Q (.error e) w') : wp watched safeSpec p (issue (.patchStatus mig.status s)) Q w := by
  have written := stays_withStatus stays fitting
  have performs : ∀ c, w.cluster.perform c (.patchStatus mig.status s) =
      .ok (w.cluster.setMigration (some (World.withStatus c.time mig mig.status s)),
        World.withStatus c.time mig mig.status s) := by
    intro c
    simp [World.perform, World.found, stays.migration]
  refine wp_write stays apart ⟨fun r => ?_, rfl⟩ performs ?_ ?_ error
  · cases r <;> rfl
  · rintro c _ ⟨⟩
    exact (written c.time).fits
  · exact fun c w' next => ok c.time w' (next ▸ written c.time) next

structure Flagged (mig mig' : SwiftMigration) : Prop where
  status : mig'.status = mig.status
  dst : IsDst mig' = IsDst mig
  guestRef : mig'.guestRef = mig.guestRef

theorem Fits.flag {mig' : SwiftMigration} {w : World} (fits : Fits mig w) (other : Option SwiftMigration)
    (flagged : Flagged mig mig') : Fits mig' (w.setMigration other) := by
  obtain ⟨status, dst, guestRef⟩ := flagged
  refine ⟨guestRef ▸ fits.named, ?_, ?_⟩
  · rw [dst, status]
    exact fits.status
  · rw [dst, status]
    exact ⟨fits.placed.absent, fits.placed.moved⟩

def Upholds (P : Watched → Prop) (m : Act α) : Prop := Program.Leaves watched safeSpec () P m fun _ _ => True

section Upholds

variable {P : Watched → Prop}

theorem upholds_done {value : α} : Upholds P (pure value) := fun _ _ _ => trivial

theorem upholds_pre {P' : Watched → Prop} (stronger : ∀ w, P w → P' w) (passes : Upholds P' m) : Upholds P m :=
  fun w inv here => passes w inv (stronger w here)

variable (stays : ∀ w, P w → Stays mig w.cluster)
include stays

theorem upholds_persist {s : SwiftMigrationStatus} (fitting : Fitting mig s.course) : Upholds P (persist mig s) := by
  intro w inv here
  unfold persist
  split
  · trivial
  · apply wp_ignoreNotFound
    refine wp_patchStatus (stays w here) inv.2 ?_ (fun _ _ _ _ _ _ => trivial) fun _ _ => trivial
    split <;> exact fitting

theorem upholds_persistPhaseDetail :
    Upholds P (persistPhaseDetail mig detail) := by
  intro w inv here
  have fitting : Fitting mig mig.status.course := ⟨(stays w here).fits.status, id, fun _ => rfl⟩
  unfold persistPhaseDetail
  split
  · trivial
  · rw [wp_bind]
    exact wp_patchStatus (stays w here) inv.2 fitting (fun _ _ _ _ _ _ => trivial) fun _ _ => trivial

theorem upholds_removeFinalizer : Upholds P (removeFinalizer mig) := by
  intro w inv here
  unfold removeFinalizer
  split
  · have performs : ∀ c, w.cluster.perform c (.patchFinalizer false) =
        .ok (w.cluster.setMigration (World.remaining (World.withFinalizer mig false)),
          World.withFinalizer mig false) := by
      intro c
      simp only [World.perform, World.found, (stays w here).migration]
    apply wp_ignoreNotFound
    refine wp_write (stays w here) inv.2 ⟨fun r => ?_, rfl⟩ performs (fun _ mig' left => (stays w here).fits.flag _ ?_)
      (fun _ _ _ _ _ => trivial) fun _ _ => trivial
    · cases r <;> rfl
    · cases World.remaining_eq left
      exact ⟨rfl, rfl, rfl⟩
  · trivial

end Upholds

/-! ## Looking for the commit point -/

theorem watched_exec (action : watched.step p w o r w') :
    ∃ c cluster, World.exec c w.cluster o = some (cluster, r) ∧
      w' = ⟨cluster, w.seenAfter o r, w.deletesAfter o⟩ := by
  obtain ⟨c, -, action⟩ := action
  simp only [watchedEngine] at action
  obtain ⟨⟨cluster, r'⟩, done, same⟩ := Option.map_eq_some_iff.mp action
  cases same
  exact ⟨c, cluster, done, rfl⟩

theorem wp_readGuest {Q : Except Err (Option SwiftGuest) → Watched → Prop} (inv : safeSpec.inv w)
    (there : ∀ guest, w.cluster.guest = some guest → Q (.ok (some guest)) w)
    (absent : w.cluster.guest = none → Q (.ok none) w) (error : ∀ e, Q (.error e) w) :
    wp watched safeSpec p readGuest Q w := by
  rw [readGuest, wp_lookup, wp_call]
  refine ⟨trivial, ?_⟩
  intro r w' action
  obtain ⟨c, cluster, done, rfl⟩ := watched_exec action
  obtain ⟨rfl, outcome⟩ := World.exec_read rfl done
  refine ⟨?_, trivial, ?_⟩
  · rcases outcome with ⟨guest, -, rfl⟩ | ⟨-, rfl⟩ | ⟨fault, rfl⟩ <;> exact inv
  · intro w'' same _
    cases same
    rcases outcome with ⟨guest, here, rfl⟩ | ⟨none, rfl⟩ | ⟨fault, rfl⟩
    · exact there guest here
    · exact absent none
    · exact onFound_fault fault error

def Watched.look (w : Watched) (name : String) (pod : Pod) : Watched :=
  { w with seen := w.seen || w.cluster.migration.any fun mig => showsHandOver mig name pod }

variable {Q : Except Err (Option Pod) → Watched → Prop}

theorem wp_readPod (inv : safeSpec.inv w) (spared : w.deletes = false)
    (there : ∀ pod, w.cluster.pods name = some pod → Q (.ok (some pod)) (w.look name pod))
    (absent : w.cluster.pods name = none → Q (.ok none) w) (error : ∀ e, Q (.error e) w) :
    wp watched safeSpec p (readPod name) Q w := by
  rw [readPod, wp_lookup, wp_call]
  refine ⟨trivial, ?_⟩
  intro r w' action
  obtain ⟨c, cluster, done, rfl⟩ := watched_exec action
  obtain ⟨rfl, outcome⟩ := World.exec_read rfl done
  refine ⟨⟨inv.1, fun _ => spared⟩, trivial, ?_⟩
  intro w'' same _
  cases same
  rcases outcome with ⟨pod, here, rfl⟩ | ⟨none, rfl⟩ | ⟨fault, rfl⟩
  · exact there pod here
  · exact absent none
  · exact onFound_fault fault error

theorem Known.look (source : Source mig src) (known : Known mig w) (guest : w.cluster.guest.isSome = true)
    (role : name = src ∨ IsDst mig name) (there : w.cluster.pods name = some pod) : Known mig (w.look name pod) := by
  refine ⟨known.stays, known.spared, ?_⟩
  intro seen
  simp only [Watched.look, known.stays.migration, Option.any_some, Bool.or_eq_true] at seen
  rcases seen with before | now
  · exact known.seen before
  · exact .inr ⟨guest, name, pod, there, (source.witness role).mp now⟩

theorem wp_readRole (source : Source mig src) (known : Known mig w)
    (guest : w.cluster.guest.isSome = true) (role : name = src ∨ IsDst mig name)
    (ok : ∀ w', Known mig w' → w'.cluster = w.cluster → Q (.ok (w.cluster.pods name)) w')
    (error : ∀ e, Q (.error e) w) : wp watched safeSpec p (readPod name) Q w := by
  refine wp_readPod known.inv known.spared ?_ ?_ error
  · intro pod there
    have after := ok (w.look name pod) (known.look source guest role there) rfl
    rwa [there] at after
  · intro absent
    have after := ok w known rfl
    rwa [absent] at after

theorem Known.clear (known : Known mig w) (unhanded : ¬ HandedOver mig w.cluster) :
    Clear mig w.cluster.guest.isSome w := by
  refine ⟨known.stays, rfl, ?_, ?_⟩
  · by_contra seen
    exact unhanded (known.seen (by simpa using seen))
  · intro present name pod there witness
    exact unhanded (.inr ⟨present, name, pod, there, witness⟩)

theorem leaves_liveCommitted (source : Source mig src) (live : mig.status.mode = .live) :
    Program.Leaves watched safeSpec () (Known mig) (liveCommitted mig) fun r w' =>
      ∀ b, r = .ok b → Known mig w' ∧ (b = false → ¬ HandedOver mig w'.cluster) := by
  intro w _ known
  unfold liveCommitted
  split
  · intro b same
    cases same
    exact ⟨known, nofun⟩
  next post =>
    rw [if_neg (by simp [live]), wp_bind]
    apply wp_readGuest known.inv
    · intro guest there
      have present : w.cluster.guest.isSome = true := by rw [there]; rfl
      simp only [onOk_ok, source.lookup, wp_bind]
      apply wp_readRole source known present (.inl rfl)
      · intro w1 known1 same1
        rw [onOk_ok]
        split
        · intro b same
          cases same
          exact ⟨known1, nofun⟩
        next incomplete =>
          have unhanded : (∀ name pod, IsDst mig name → w.cluster.pods name = some pod →
              dstReportedRunning mig (some pod) = false) → ¬ HandedOver mig w.cluster := by
            intro still
            rintro (now | ⟨-, name, pod, there, ⟨isDst, running⟩ | ⟨ref, complete⟩⟩)
            · exact post now
            · rw [still name pod isDst there] at running
              cases running
            · rw [source.ref] at ref
              cases ref
              rw [there] at incomplete
              exact incomplete complete
          split
          next e noDst =>
            intro b same
            cases same
            refine ⟨known1, fun _ => ?_⟩
            rw [same1]
            apply unhanded
            intro name pod isDst
            rw [IsDst, noDst] at isDst
            cases isDst
          next dst isDst =>
            rw [wp_bind]
            apply wp_readRole source known1 (by rw [same1]; exact present) (.inr isDst)
            · intro w2 known2 same2 b same
              cases same
              refine ⟨known2, fun still => ?_⟩
              rw [same2, same1]
              apply unhanded
              intro name pod isDst' there
              have one : name = dst := Except.ok.inj (isDst'.symm.trans isDst)
              subst one
              rw [same1, there] at still
              exact still
            · intro e
              exact nofun
      · intro e
        exact nofun
    · intro absent b same
      cases same
      refine ⟨known, fun _ => ?_⟩
      rintro (now | ⟨present, -⟩)
      · exact post now
      · rw [absent] at present
        cases present
    · intro e
      exact nofun

section Abort

variable {A : Op → Prop} {R : ∀ o : Op, Except Err o.Res → Prop} {mig : SwiftMigration}

variable (ordinary : Ordinary mig A)
include ordinary

theorem yields_fallBack (srcName : String) (src : Pod) (reason : String) :
    (fallBackToDestinationCancel mig srcName src reason).Yields A R (fun _ => True) := by
  apply yields_ignoreNotFound
  refine yields_call (ordinary.patchPod _ _ _ ?_) fun _ _ => trivial
  repeat' split
  · exact ⟨.inr (.inl ⟨rfl, rfl⟩), .inl rfl⟩
  · exact ⟨.inl ⟨rfl, rfl⟩, .inl rfl⟩
  · exact ⟨.inr (.inl ⟨rfl, rfl⟩), .inr rfl⟩
  · exact ⟨.inl ⟨rfl, rfl⟩, .inr rfl⟩

theorem yields_resolveOnSource (srcName : String) (src dst : Pod) :
    (resolveOnSource mig srcName src dst).Yields A R (fun _ => True) := by
  have patches : ∀ wanted, PodPatch mig src wanted → (issue (.patchPod srcName src wanted)).Yields A R (fun _ => True) :=
    fun _ patch => yields_call (ordinary.patchPod _ _ _ patch) fun _ _ => trivial
  have fallsBack : ∀ reason, (fallBackToDestinationCancel mig srcName src reason).Yields A R (fun _ => True) :=
    yields_fallBack ordinary srcName src
  unfold resolveOnSource
  dsimp only
  split
  · exact yields_then (patches _ ⟨.inr (.inr (.inr ⟨rfl, rfl⟩)), .inl rfl⟩) fun _ => trivial
  · repeat' split
    · trivial
    · trivial
    · exact yields_then (fallsBack _) fun _ => trivial
    · trivial
    · exact yields_then (patches _ ⟨.inl ⟨rfl, rfl⟩, .inl rfl⟩) fun _ => trivial
    · refine yields_next (ordinary.clock _) fun late => ?_
      exact yields_unless (yields_then (fallsBack _) fun _ => trivial) fun _ => trivial

variable (read : ∀ guest, R .getGuest (.ok guest) → A (.getPod (srcPodLookupName mig guest)))
include read

theorem yields_resolveOnDestination (dstName : String)
    (dst : Pod) : (resolveOnDestination mig dstName dst).Yields A R (fun _ => True) := by
  have patches : ∀ wanted, PodPatch mig dst wanted → (issue (.patchPod dstName dst wanted)).Yields A R (fun _ => True) :=
    fun _ patch => yields_call (ordinary.patchPod _ _ _ patch) fun _ _ => trivial
  refine yields_then (yields_clearSourceSend ordinary read) fun _ => ?_
  repeat' split
  · exact yields_then (patches _ ⟨.inr (.inr (.inl ⟨rfl, rfl⟩)), .inl rfl⟩) fun _ => trivial
  · trivial
  · exact yields_then (patches _ ⟨.inl ⟨rfl, rfl⟩, .inl rfl⟩) fun _ => trivial
  · refine yields_next (ordinary.clock _) fun late => ?_
    split <;> trivial

theorem yields_resolveTransfer (srcName dstName : String) (src : Option Pod) (dst : Pod) :
    (resolveTransfer mig srcName dstName src dst).Yields A R (fun _ => True) := by
  have onDestination := yields_resolveOnDestination ordinary read dstName dst
  cases src with
  | none => exact onDestination
  | some src =>
    simp only [resolveTransfer]
    repeat' split
    · trivial
    · exact onDestination
    · trivial
    · refine yields_then (yields_resolveOnSource ordinary srcName src dst) ?_
      intro res
      cases res with
      | none => exact onDestination
      | some res => trivial
    · exact onDestination

end Abort

theorem reads_source (source : Source mig src) (guest : SwiftGuest) (answer : Present present .getGuest (.ok guest)) :
    Aborts mig src present (.getPod (srcPodLookupName mig guest)) := by
  refine ⟨trivial, rfl, ?_⟩
  intro name same
  cases same
  exact ⟨answer, .inl (source.lookup guest)⟩

theorem yields_deleteAbandoned (res : AbortResolution) :
    (deleteAbandonedDestination mig res).Yields (Aborts mig src present) (Present present) (fun _ => True) := by
  have ordinary := ordinary_aborts mig src present
  refine yields_unless trivial fun _ => ?_
  refine yields_withGuest ordinary.getGuest trivial fun guest _ => ?_
  split
  · trivial
  · exact yields_ignoreNotFound (yields_call ⟨trivial, rfl, nofun⟩ fun _ _ => trivial)

theorem yields_cleanupDstPod (s : SwiftMigrationStatus) :
    (cleanupDstPod s).Yields (Aborts mig src present) (Present present) (fun _ => True) := by
  unfold cleanupDstPod
  split
  · trivial
  · refine yields_unless trivial fun _ => ?_
    exact yields_ignoreNotFound (yields_call ⟨trivial, rfl, nofun⟩ fun _ _ => trivial)

theorem leaves_resolveSourceOwnership (source : Source mig src) (live : mig.status.mode = .live) :
    Program.Leaves watched safeSpec () (Known mig) (resolveSourceOwnership mig) fun r w' =>
      ∀ res, r = .ok res → res.outcome ≠ .committed → ∃ present, Clear mig present w' := by
  refine leaves_bind (leaves_liveCommitted source live) (fun _ _ _ _ same => nomatch same) fun committed w inv found => ?_
  obtain ⟨known, unhanded⟩ := found committed rfl
  cases committed with
  | true =>
    intro res same outcome
    cases same
    exact absurd rfl outcome
  | false =>
    have clear := known.clear (unhanded rfl)
    generalize w.cluster.guest.isSome = present at clear
    have ordinary := ordinary_aborts mig src present
    refine wp_mono ?_ (wp_aborts (V := fun _ => True) source ?_ clear)
    · intro r w' kept res _ _
      exact ⟨present, kept.1⟩
    · refine yields_withGuest ordinary.getGuest trivial fun guest answer => ?_
      split
      · trivial
      next dst isDst =>
        have readDst : Aborts mig src present (.getPod dst) := by
          refine ⟨trivial, rfl, ?_⟩
          intro name same
          cases same
          exact ⟨answer, .inr isDst⟩
        refine yields_then (yields_readPod readDst fun _ => trivial) fun found => ?_
        cases found with
        | none => trivial
        | some pod =>
          refine yields_onPod (reads_source source guest answer) fun _ => ?_
          exact yields_resolveTransfer ordinary (reads_source source) _ _ _ _

theorem Stays.source {w : World} (stays : Stays mig w) (live : mig.status.mode = .live)
    (underWay : isTerminalPhase mig.status.phase = false ∨ mig.status.destinationPodRef.isSome = true) :
    ∃ src, Source mig src := by
  obtain ⟨src, ref, named, other⟩ := stays.fits.status.source live underWay
  exact ⟨src, ref, named, other⟩

theorem Fitting.same {w : World} (stays : Stays mig w) : Fitting mig mig.status.course :=
  ⟨stays.fits.status, id, fun _ => rfl⟩

theorem fitting_terminal (terminal : isTerminalPhase s.phase = true)
    (source : s.mode = .live → s.destination.isSome = true →
      ∃ name, s.source = some name ∧ name ≠ "" ∧ ¬ IsDst mig name) (stamped : s.stamped = true → s.swapped = true)
    (mode : mig.status.phase.early = false → s.mode = mig.status.mode) : Fitting mig s := by
  have ended : s.phase = .completed ∨ s.phase = .failed ∨ s.phase = .cancelled := by
    revert terminal
    cases s.phase <;> simp [isTerminalPhase]
  have late : s.phase.early = false := by
    rcases ended with phase | phase | phase <;> rw [phase] <;> rfl
  refine ⟨⟨?_, ?_, ?_, stamped, ?_⟩, ?_, mode⟩
  · intro early
    exact absurd (late.symm.trans early) (by simp)
  · intro live underWay
    rcases underWay with still | dest
    · exact absurd (terminal.symm.trans still) (by simp)
    · exact source live dest
  · intro phases
    rcases ended with phase | phase | phase <;> simp [phase] at phases
  · intro resuming
    rcases ended with phase | phase | phase <;> simp [phase] at resuming
  · intro early
    exact absurd (late.symm.trans early) (by simp)

theorem Source.fitting (source : Source mig src) (terminal : isTerminalPhase s.phase = true)
    (ref : s.source = mig.status.sourcePodRef) (stamped : s.stamped = true → s.swapped = true)
    (mode : s.mode = mig.status.mode) : Fitting mig s :=
  fitting_terminal terminal (fun _ _ => ⟨src, ref.trans source.ref, source.named, source.other⟩) stamped
    fun _ => mode

theorem upholds_finalizeCancelled {P : Watched → Prop} (detail : String) (source : Source mig src)
    (stays : ∀ w, P w → Stays mig w.cluster) : Upholds P (finalizeCancelled mig detail) := by
  intro w inv here
  have stays := stays w here
  refine ⟨trivial, ?_⟩
  intro r w' action
  refine ⟨?_, trivial, fun w'' _ _ => by rcases r with (_ | _ | _ | _ | _ | _) | a <;> trivial⟩
  obtain ⟨seen, deletes, -⟩ := watched_cases action
  have apart' : w'.seen = true → w'.deletes = false := by
    rw [seen, deletes]
    cases r <;> exact inv.2
  have written : ∀ c a, w.cluster.perform c (.patchStatusLocked mig.resourceVersion mig.status
      { mig.status with
        phase := .cancelled, completedAt := .now, failureReason := .cancelled, failureMessage := detail,
        phaseDetail := detail }) = .ok (w'.cluster, a) → safeSpec.inv w' := by
    intro c a done
    simp only [World.perform, stays.migration, if_true, Except.ok.injEq] at done
    obtain ⟨next, -⟩ := Prod.mk.inj done
    have stays' := stays_withStatus stays (s := { mig.status with
      phase := .cancelled, completedAt := .now, failureReason := .cancelled, failureMessage := detail,
      phaseDetail := detail }) (source.fitting rfl rfl stays.fits.status.stamped rfl) c.time
    rw [next] at stays'
    exact stays'.inv apart'
  rcases watched_effect action with same | ⟨c, a, done⟩
  · have stays' : Stays mig w'.cluster := same ▸ stays
    exact stays'.inv apart'
  · exact written c a done

end KubeSwift.Migration
