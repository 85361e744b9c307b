import KubeSwift.GPU.Exclusive
import KubeSwift.Migration.Operations

/-! # An offline migration, its guest and the guest's GPUs

The reconciler runs alone, but users, launchers and the other writers of the GPU nodes act at any moment. -/

namespace KubeSwift.Migration
open Program

def recordsFor (gpus : GPU.World) (node id : String) : List String :=
  match (gpus.versions node).getLast? with
  | some st => (st.existing id).map fun g => g.pciAddress
  | none => []

def SwiftGuest.gpusOn (guest : SwiftGuest) (node : String) : Prop :=
  (guest.gpu.map fun gpu => gpu.nodeName) = some node

instance (guest : SwiftGuest) (node : String) : Decidable (guest.gpusOn node) :=
  inferInstanceAs (Decidable (_ = _))

def unowned (w : World) : Bool :=
  w.migration.any fun mig => w.guest.any fun guest => guest.gpu.any fun gpu =>
    gpu.devices.any fun address => !(recordsFor w.gpus gpu.nodeName (allocatedTo mig)).contains address

def exposed (w : World) : Bool :=
  w.migration.any fun mig => w.guest.any fun guest =>
    guest.hasVFIODevices && guest.inProgress ≠ mig.name && !decide (guest.gpusOn mig.target) &&
      !(recordsFor w.gpus mig.target (allocatedTo mig)).isEmpty

def pinned (w : World) : Bool :=
  w.migration.any fun mig => w.guest.any fun guest => guest.nodeName = mig.target

def givesUp : (o : Op) → Except Err o.Res → Bool
  | .getMigration, .ok mig => mig.deleting
  | .clock .timeout, .ok expired => expired
  | _, _ => false

def fails : (o : Op) → Except Err o.Res → Bool
  | .gpu _, .ok answer => match answer with
      | .ok _ => false
      | .error _ => true
  | _, .ok _ => false
  | _, .error _ => true

/-- The cluster, and what has gone wrong: a pass gave up while the GPUs were unowned (`early`), or a call failed around
an exposed reservation (`hurt`). -/
structure Traced where
  cluster : World
  early : Bool
  hurt : Bool

def Traced.after (w : Traced) (cluster : World) (o : Op) (r : Except Err o.Res) : Traced where
  cluster := cluster
  early := w.early || (givesUp o r && unowned w.cluster)
  hurt := w.hurt || ((exposed w.cluster || exposed cluster) && (fails o r || pinned cluster))

-- A reservation that is exposed when the controller dies stays so.
def tracedEngine : Engine Unit Choice Traced Op Op.Res Err where
  exec p c w o := (engine.exec p c w.cluster o).map fun (cluster, r) => (w.after cluster o r, r)
  crash _ w := { w with hurt := w.hurt || exposed w.cluster }

def attentive (w : World) : Op → Choice → Prop
  | .gpu (.get name), c => c.gpu.fault = none ∧
      c.gpu.version = if w.gpus.versions name = [] then none else some ((w.gpus.versions name).length - 1)
  | .gpu _, c => c.gpu.fault = none
  | .check .autoLive, c => Check.autoLive.verdict c.verdict ≠ .pass
  | _, _ => True

def traced : Machine Unit Traced Op Op.Res Err :=
  tracedEngine.machine (fun _ w o c => attentive w.cluster o c) (fun _ _ => True)

structure Core where
  inProgress : String
  runPolicy : RunPolicy
  nodeName : String
  gpu : Option GPUStatus
  vfio : Bool

def SwiftGuest.core (guest : SwiftGuest) : Core where
  inProgress := guest.inProgress
  runPolicy := guest.runPolicy
  nodeName := guest.nodeName
  gpu := guest.gpu
  vfio := guest.hasVFIODevices

structure Around (before after : World) : Prop where
  migration : MigrationEdited before.migration after.migration
  guest : ∀ guest, after.guest = some guest → ∃ old, before.guest = some old ∧ guest.core = old.core
  versions : Extends before.gpus.versions after.gpus.versions
  records : ∀ mig, after.migration = some mig → ∀ node address,
    address ∈ recordsFor after.gpus node (allocatedTo mig) ↔ address ∈ recordsFor before.gpus node (allocatedTo mig)

def offlineSetting : Setting Unit Traced Op Op.Res Err where
  env before after := Around before.cluster after.cluster ∧ after.early = before.early ∧ after.hurt = before.hurt
  quiet _ _ := False
  offered _ prog := ∃ mtls, prog = reconcile mtls

structure OfflineStatus (mig : SwiftMigration) (s : SwiftMigrationStatus) : Prop where
  mode : s.mode ≠ .live
  node : s.destinationNode = "" ∨ s.destinationNode = mig.target
  moving : s.phase = .preparing ∨ s.phase = .stopAndCopy ∨ s.phase = .resuming → s.destinationNode = mig.target

structure Offline (mig : SwiftMigration) : Prop where
  named : mig.name ≠ ""
  placed : mig.target ≠ ""
  mode : mig.specMode ≠ .live
  status : OfflineStatus mig mig.status

inductive GuestWrite (mig : SwiftMigration) (w : Traced) (base : SwiftGuest) : SwiftGuest → Prop
  | claim (phase : mig.status.phase = .preparing) (free : base.inProgress = "") :
      GuestWrite mig w base { base with inProgress := mig.name, runPolicy := .stopped }
  | start (phase : mig.status.phase = .stopAndCopy) (own : base.inProgress = mig.name)
      (gpus : base.hasVFIODevices = true → base.gpusOn mig.target) :
      GuestWrite mig w base { base with runPolicy := .running, nodeName := mig.target }
  | finish (phase : mig.status.phase = .resuming) (own : base.inProgress = mig.name) :
      GuestWrite mig w base { base with inProgress := "" }
  | keep (own : base.inProgress = mig.name) (moved : base.nodeName = mig.target) :
      GuestWrite mig w base { base with inProgress := "" }
  | restore (own : base.inProgress = mig.name)
      (owned : mig.status.phase = .stopAndCopy → w.early = true ∨ unowned w.cluster = false) :
      GuestWrite mig w base { base with
        inProgress := "", runPolicy := if base.runPolicy = .stopped then .running else base.runPolicy }

inductive NodeWrite (mig : SwiftMigration) (w : World) (node : String) (st : GPU.SwiftGPUNodeStatus) :
    GPU.SwiftGPUNodeStatus → Prop
  | reserve {selected : List GPU.GPUDevice} {part : Int} (target : node = mig.target)
      (phase : mig.status.phase = .preparing ∨ mig.status.phase = .stopAndCopy)
      (vfio : ∀ guest, w.guest = some guest → guest.hasVFIODevices = true) :
      NodeWrite mig w node st (st.mark selected part (allocatedTo mig))
  | leave (other : node ≠ mig.target) (phase : mig.status.phase = .stopAndCopy)
      (own : ∀ guest, w.guest = some guest → guest.inProgress = mig.name ∧ guest.hasVFIODevices = true ∧
        guest.gpusOn node) : NodeWrite mig w node st (st.clear (allocatedTo mig))
  | release (target : node = mig.target)
      (unused : ∀ guest, w.guest = some guest → ¬ guest.gpusOn mig.target ∧ guest.inProgress ≠ mig.name) :
      NodeWrite mig w node st (st.clear (allocatedTo mig))

inductive StatusWrite (mig : SwiftMigration) (w : World) (wanted : SwiftMigrationStatus) : Prop
  | same (phase : wanted.phase = mig.status.phase)
  | validate (before : mig.status.phase = .unset ∨ mig.status.phase = .pending) (phase : wanted.phase = .validating)
  | prepare (before : mig.status.phase = .validating) (phase : wanted.phase = .preparing)
  | copy (before : mig.status.phase = .preparing) (phase : wanted.phase = .stopAndCopy)
  | resume (before : mig.status.phase = .stopAndCopy) (phase : wanted.phase = .resuming)
      (started : ∀ guest, w.guest = some guest → guest.runPolicy = .running ∧ guest.nodeName = mig.target ∧
        (guest.hasVFIODevices = true → guest.gpusOn mig.target))
  | complete (before : mig.status.phase = .resuming) (phase : wanted.phase = .completed)
  | fail (before : isTerminalPhase mig.status.phase = false) (phase : wanted.phase = .failed)
      (unmarked : ∀ guest, w.guest = some guest → guest.inProgress ≠ mig.name)

structure Stamp (mig : SwiftMigration) (w : World) (base wanted : SwiftGuest) : Prop where
  phase : mig.status.phase = .stopAndCopy
  own : base.inProgress = mig.name
  away : ¬ base.gpusOn mig.target
  gpu : ∃ gpu, wanted = { base with gpu := some gpu } ∧ gpu.nodeName = mig.target ∧
    ∀ address ∈ gpu.devices, address ∈ recordsFor w.gpus mig.target (allocatedTo mig)
  left : gpuNode base ≠ "" → recordsFor w.gpus (gpuNode base) (allocatedTo mig) = []

def Guard (mig : SwiftMigration) (w : Traced) : Op → Prop
  | .patchGuest base wanted => ∀ guest, w.cluster.guest = some guest →
      guest.core = base.core ∧ GuestWrite mig w base wanted
  | .patchGuestStatus base wanted => ∀ guest, w.cluster.guest = some guest →
      guest.core = base.core ∧ Stamp mig w.cluster base wanted
  | .patchStatus base wanted => base = mig.status ∧ OfflineStatus mig wanted ∧ StatusWrite mig w.cluster wanted
  | .patchStatusLocked _ _ _ | .createPod _ _ => False
  | .patchFinalizer false => isTerminalPhase mig.status.phase = true ∨
      ∀ guest, w.cluster.guest = some guest → guest.inProgress ≠ mig.name
  | .gpu (.update node version wanted) => ∀ st, (w.cluster.gpus.versions node)[version]? = some st →
      NodeWrite mig w.cluster node st wanted
  | .gpu .list | .gpu (.getNode _) | .gpu (.create _) | .gpu (.patchPhase _ _) => False
  | _ => True

def Op.covered : Op → Bool
  | .patchGuest _ _ | .gpu _ => false
  | _ => true

def offlineSpec : Spec Unit Traced Op where
  inv w := ∀ mig, w.cluster.migration = some mig → Offline mig ∧ (mig.status.phase = .resuming →
    ∀ guest, w.cluster.guest = some guest → guest.hasVFIODevices = true → guest.gpusOn mig.target)
  rely _ w w' := Around w.cluster w'.cluster ∧ w'.early = w.early ∧ w'.hurt = w.hurt
  guar _ _ _ := True
  pre _ w o := ∀ mig, w.cluster.migration = some mig → Guard mig w o ∧
    (o.covered = true → w.hurt = true ∨ exposed w.cluster = false)

def Sheltered (w : Traced) : Prop := w.hurt = true ∨ exposed w.cluster = false

/-! ## Around a pass -/

def Version (mig m : SwiftMigration) : Prop :=
  { m with cancelRequested := mig.cancelRequested, deleting := mig.deleting,
           resourceVersion := mig.resourceVersion } = mig

section Version

variable {mig m m' : SwiftMigration}

theorem Version.refl (mig : SwiftMigration) : Version mig mig := rfl

theorem Version.symm (version : Version mig m) : Version m mig := by
  rw [Version, ← version]

theorem Version.trans (first : Version mig m) (second : Version m m') : Version mig m' := by
  rw [Version] at *
  rw [← first, ← second]

variable (version : Version mig m)
include version

theorem Version.field {α : Type} (f : SwiftMigration → α) :
    f { m with cancelRequested := mig.cancelRequested, deleting := mig.deleting,
               resourceVersion := mig.resourceVersion } = f mig := by
  rw [version]

theorem Version.status : m.status = mig.status := version.field SwiftMigration.status

theorem Version.name : m.name = mig.name := version.field SwiftMigration.name

theorem Version.target : m.target = mig.target := version.field SwiftMigration.target

theorem Version.specMode : m.specMode = mig.specMode :=
  version.field SwiftMigration.specMode

theorem Version.allocatedTo : allocatedTo m = Migration.allocatedTo mig := by
  have space : m.namespace_ = mig.namespace_ := version.field SwiftMigration.namespace_
  have guest : m.guestRef = mig.guestRef := version.field SwiftMigration.guestRef
  rw [Migration.allocatedTo, space, guest, Migration.allocatedTo]

theorem Version.offline (offline : Offline mig) : Offline m where
  named := version.name ▸ offline.named
  placed := version.target ▸ offline.placed
  mode := version.specMode ▸ offline.mode
  status := by
    rw [version.status]
    exact ⟨offline.status.mode, version.target ▸ offline.status.node, version.target ▸ offline.status.moving⟩

end Version

theorem exposed_iff {w : World} : exposed w = true ↔ ∃ mig, w.migration = some mig ∧ ∃ guest, w.guest = some guest ∧
    guest.hasVFIODevices = true ∧ guest.inProgress ≠ mig.name ∧ ¬ guest.gpusOn mig.target ∧
    recordsFor w.gpus mig.target (allocatedTo mig) ≠ [] := by
  simp only [exposed, Option.any_eq_true, Bool.and_eq_true, decide_eq_true_eq, Bool.not_eq_true', decide_eq_false_iff_not,
    List.isEmpty_eq_false_iff, and_assoc, ne_eq]

theorem unowned_iff {w : World} : unowned w = true ↔ ∃ mig, w.migration = some mig ∧ ∃ guest, w.guest = some guest ∧
    ∃ gpu, guest.gpu = some gpu ∧
      ∃ address ∈ gpu.devices, address ∉ recordsFor w.gpus gpu.nodeName (allocatedTo mig) := by
  simp only [unowned, Option.any_eq_true, List.any_eq_true, Bool.not_eq_true', List.contains_eq_mem,
    decide_eq_false_iff_not]

theorem SwiftGuest.gpusOn_core {guest old : SwiftGuest} (same : guest.core = old.core) (node : String) :
    guest.gpusOn node ↔ old.gpusOn node := by
  have gpu : guest.gpu = old.gpu := congrArg Core.gpu same
  rw [gpusOn, gpusOn, gpu]

structure Steady (before after : World) : Prop where
  migration : ∀ m, after.migration = some m → ∃ mig, before.migration = some mig ∧ m.name = mig.name ∧
    m.target = mig.target ∧ allocatedTo m = allocatedTo mig
  guest : ∀ guest, after.guest = some guest → ∃ old, before.guest = some old ∧ guest.core = old.core
  records : ∀ m, after.migration = some m → ∀ node address,
    address ∈ recordsFor after.gpus node (allocatedTo m) ↔ address ∈ recordsFor before.gpus node (allocatedTo m)

theorem Steady.exposed {w w' : World} (steady : Steady w w') (after : Migration.exposed w' = true) :
    Migration.exposed w = true := by
  obtain ⟨m, there, guest, present, vfio, unmarked, away, held⟩ := exposed_iff.mp after
  obtain ⟨mig, before, name, target, id⟩ := steady.migration m there
  obtain ⟨old, was, same⟩ := steady.guest guest present
  obtain ⟨address, member⟩ := List.exists_mem_of_ne_nil _ held
  refine exposed_iff.mpr ⟨mig, before, old, was, ?_, ?_, ?_, ?_⟩
  · exact (congrArg Core.vfio same).symm.trans vfio
  · rw [← name]
    exact fun own => unmarked ((congrArg Core.inProgress same).trans own)
  · rw [← target]
    exact fun on => away ((SwiftGuest.gpusOn_core same _).mpr on)
  · rw [← target, ← id]
    exact List.ne_nil_of_mem ((steady.records m there _ _).mp member)

theorem Steady.unowned {w w' : World} (steady : Steady w w') (after : Migration.unowned w' = true) :
    Migration.unowned w = true := by
  obtain ⟨m, there, guest, present, gpu, stamped, address, member, missing⟩ := unowned_iff.mp after
  obtain ⟨mig, before, -, -, id⟩ := steady.migration m there
  obtain ⟨old, was, same⟩ := steady.guest guest present
  refine unowned_iff.mpr ⟨mig, before, old, was, gpu, (congrArg Core.gpu same).symm.trans stamped, address, member, ?_⟩
  rw [← id]
  exact fun held => missing ((steady.records m there _ _).mpr held)

variable {w : Traced}

variable {w' : Traced} {o : Op}

theorem Steady.covered (steady : Steady w.cluster w'.cluster) (hurt : w.hurt = true → w'.hurt = true)
    (before : Sheltered w) : Sheltered w' := by
  rcases before with was | was
  · exact .inl (hurt was)
  · refine .inr (Bool.eq_false_iff.mpr fun after => ?_)
    exact Bool.eq_false_iff.mp was (steady.exposed after)

theorem Steady.owned (steady : Steady w.cluster w'.cluster) (early : w.early = true → w'.early = true)
    (before : w.early = true ∨ Migration.unowned w.cluster = false) :
    w'.early = true ∨ Migration.unowned w'.cluster = false := by
  rcases before with was | was
  · exact .inl (early was)
  · refine .inr (Bool.eq_false_iff.mpr fun after => ?_)
    exact Bool.eq_false_iff.mp was (steady.unowned after)

namespace Around

variable {w w' w'' : World}

theorem refl (w : World) : Around w w where
  migration mig there := ⟨mig, there, rfl⟩
  guest guest there := ⟨guest, there, rfl⟩
  versions := Extends.refl _
  records _ _ _ _ := Iff.rfl

variable {m : SwiftMigration}

theorem edited (around : Around w w') (there : w'.migration = some m) : ∃ mig, w.migration = some mig ∧ Version mig m :=
  around.migration m there

theorem trans (first : Around w w') (second : Around w' w'') : Around w w'' where
  migration m there := by
    obtain ⟨between, here, edited⟩ := second.edited there
    obtain ⟨mig, before, version⟩ := first.edited here
    exact ⟨mig, before, version.trans edited⟩
  guest guest there := by
    obtain ⟨between, here, same⟩ := second.guest guest there
    obtain ⟨old, before, same'⟩ := first.guest between here
    exact ⟨old, before, same.trans same'⟩
  versions := first.versions.trans second.versions
  records m there node address := by
    obtain ⟨between, here, edited⟩ := second.edited there
    rw [second.records m there node address, edited.allocatedTo]
    exact first.records between here node address

theorem steady (around : Around w w') : Steady w w' where
  migration m there := by
    obtain ⟨mig, before, version⟩ := around.edited there
    exact ⟨mig, before, version.name, version.target, version.allocatedTo⟩
  guest := around.guest
  records := around.records

end Around

/-! ## A pass over one version of the migration -/

structure Amid (mig : SwiftMigration) (know : Core → Prop) (owned : Prop) (w : Traced) : Prop where
  version : ∀ m, w.cluster.migration = some m → Version mig m
  offline : Offline mig
  settled : mig.status.phase = .resuming → ∀ guest, w.cluster.guest = some guest → guest.hasVFIODevices = true →
    guest.gpusOn mig.target
  guest : ∀ guest, w.cluster.guest = some guest → know guest.core
  owned : owned → w.early = true ∨ unowned w.cluster = false

structure On (mig : SwiftMigration) (know : Core → Prop) (owned : Prop) (w : Traced) : Prop
    extends Amid mig know owned w where
  covered : Sheltered w

section On

variable {mig : SwiftMigration} {know : Core → Prop} {owned : Prop} {w w' : Traced}

theorem Amid.inv (amid : Amid mig know owned w) : offlineSpec.inv w := by
  intro m there
  have version := amid.version m there
  refine ⟨version.offline amid.offline, ?_⟩
  rw [version.status, version.target]
  exact amid.settled

theorem Amid.around (amid : Amid mig know owned w) (around : Around w.cluster w'.cluster)
    (early : w.early = true → w'.early = true) : Amid mig know owned w' where
  version m there := by
    obtain ⟨old, before, version⟩ := around.edited there
    exact (amid.version old before).trans version
  offline := amid.offline
  settled resuming guest there vfio := by
    obtain ⟨old, before, same⟩ := around.guest guest there
    rw [SwiftGuest.gpusOn_core same]
    exact amid.settled resuming old before ((congrArg Core.vfio same).symm.trans vfio)
  guest guest there := by
    obtain ⟨old, before, same⟩ := around.guest guest there
    rw [same]
    exact amid.guest old before
  owned known := around.steady.owned early (amid.owned known)

theorem On.around (on : On mig know owned w) (around : Around w.cluster w'.cluster)
    (early : w.early = true → w'.early = true) (hurt : w.hurt = true → w'.hurt = true) : On mig know owned w' :=
  ⟨on.toAmid.around around early, around.steady.covered hurt on.covered⟩

theorem Amid.weaken {know' : Core → Prop} {owned' : Prop} (amid : Amid mig know owned w)
    (less : ∀ core, know core → know' core) (fewer : owned' → owned) : Amid mig know' owned' w where
  version := amid.version
  offline := amid.offline
  settled := amid.settled
  guest guest there := less _ (amid.guest guest there)
  owned known := amid.owned (fewer known)

theorem Amid.unclaimed (amid : Amid mig know owned w) : Amid mig know False w :=
  amid.weaken (fun _ => id) False.elim

theorem On.weaken {know' : Core → Prop} {owned' : Prop} (on : On mig know owned w)
    (less : ∀ core, know core → know' core) (fewer : owned' → owned) : On mig know' owned' w :=
  ⟨on.toAmid.weaken less fewer, on.covered⟩

end On

theorem traced_cases {p : Unit} {r : Except Err o.Res} (action : traced.step p w o r w') :
    ∃ c, attentive w.cluster o c ∧ World.exec c w.cluster o = some (w'.cluster, r) ∧ w' = w.after w'.cluster o r := by
  obtain ⟨c, heeds, action⟩ := action
  simp only [tracedEngine] at action
  obtain ⟨⟨cluster, r'⟩, done, same⟩ := Option.map_eq_some_iff.mp action
  cases same
  exact ⟨c, heeds, done, rfl⟩

theorem traced_outcome {p : Unit} {r : Except Err o.Res} (action : traced.step p w o r w') :
    ∃ c, attentive w.cluster o c ∧ w' = w.after w'.cluster o r ∧
      ((∃ a, r = .ok a ∧ w.cluster.perform c o = .ok (w'.cluster, a)) ∨
        ∃ e, r = .error e ∧ (w'.cluster = w.cluster ∨ ∃ a, w.cluster.perform c o = .ok (w'.cluster, a))) := by
  obtain ⟨c, heeds, done, after⟩ := traced_cases action
  refine ⟨c, heeds, after, ?_⟩
  rcases World.exec_cases done with ok | ⟨e, rfl, same, -⟩ | ⟨fault, rfl, took⟩
  · exact .inl ok
  · exact .inr ⟨e, rfl, .inl same⟩
  · exact .inr ⟨_, rfl, took⟩

section After

variable {r : Except Err o.Res} (after : w' = w.after w'.cluster o r)

include after

theorem after_early (early : w.early = true) : w'.early = true := by
  rw [after]
  simp [Traced.after, early]

theorem after_hurt (hurt : w.hurt = true) : w'.hurt = true := by
  rw [after]
  simp [Traced.after, hurt]

theorem after_failure (failing : fails o r = true) : Sheltered w' := by
  unfold Sheltered
  cases lies : exposed w'.cluster with
  | false => exact .inr rfl
  | true =>
    left
    rw [after]
    simp [Traced.after, lies, failing]

theorem On.called (on : On mig know owned w) (around : Around w.cluster w'.cluster) : On mig know owned w' :=
  on.around around (after_early after) (after_hurt after)

end After

def Still : Op → Prop
  | .getGuest | .getPod _ | .getProfile _ | .clock _ | .check _ | .ensure _ | .patchPod _ _ _ | .deletePod _ _
  | .gpu (.get _) => True
  | _ => False

def Heeds : (o : Op) → Except Err o.Res → Prop
  | .check .autoLive, .ok verdict => verdict ≠ .pass
  | _, _ => True

section Still

variable {w w' : World} {c : Choice} {o : Op} {a : o.Res}

theorem get_exec {w w' : GPU.World} {c : GPU.Choice} {name : String} {r : Except GPU.Err GPU.SwiftGPUNode}
    (done : w.exec c (.get name) = some (w', r)) : w' = w := by
  rcases effect_of_cases (withFault_cases (Option.some.inj done)) with same | ⟨n, did⟩
  · exact same
  · simp only [GPU.World.perform] at did
    split at did <;> cases did
    rfl

theorem Still.onMigration (still : Still o) : o.onMigration = false := by
  cases o <;> first | rfl | exact still.elim

theorem Still.onGuest (still : Still o) : o.onGuest = false := by
  cases o <;> first | rfl | exact still.elim

theorem Still.gpus (still : Still o) (done : w.perform c o = .ok (w', a)) : w'.gpus = w.gpus := by
  cases o with
  | gpu g =>
    cases g with
    | get name =>
      simp only [World.perform] at done
      split at done <;> cases done
      next gpus answer did => exact get_exec did
    | _ => exact still.elim
  | _ => exact World.perform_gpus rfl done

theorem Still.around (still : Still o) (done : w.perform c o = .ok (w', a)) : Around w w' where
  migration mig there := ⟨mig, (World.perform_migration still.onMigration done).symm.trans there, rfl⟩
  guest g there := ⟨g, (World.perform_guest still.onGuest done).symm.trans there, rfl⟩
  versions := by
    rw [still.gpus done]
    exact Extends.refl _
  records _ _ _ _ := by rw [still.gpus done]

theorem heeds_perform (heeds : attentive w o c) (done : w.perform c o = .ok (w', a)) : Heeds o (.ok a) := by
  cases o with
  | check what =>
    cases what with
    | autoLive =>
      obtain ⟨-, rfl⟩ := Prod.mk.inj (Except.ok.inj done)
      exact heeds
    | _ => trivial
  | _ => trivial

theorem heeds_error (o : Op) (e : Err) : Heeds o (.error e) := by
  cases o with
  | check what => cases what <;> trivial
  | _ => trivial

end Still

section Rules

variable {p : Unit} {α β : Type} {mig : SwiftMigration} {know : Core → Prop} {owned : Prop} {w w' : Traced} {o : Op}

theorem Still.guard (still : Still o) (m : SwiftMigration) : Guard m w o := by
  cases o with
  | gpu g => cases g <;> trivial
  | _ => trivial

theorem Amid.rely (amid : Amid mig know owned w) (later : offlineSpec.rely p w w') : Amid mig know owned w' :=
  amid.around later.1 fun early => later.2.1.trans early

theorem On.rely (on : On mig know owned w) (later : offlineSpec.rely p w w') : On mig know owned w' :=
  on.around later.1 (fun early => later.2.1.trans early) (fun hurt => later.2.2.trans hurt)

theorem Amid.ends {Q : Traced → Prop} (amid : Amid mig know owned w)
    (holds : ∀ w', offlineSpec.rely p w w' → Amid mig know owned w' → Q w') :
    offlineSpec.inv w ∧ True ∧ ∀ w', offlineSpec.rely p w w' → offlineSpec.inv w' → Q w' :=
  ⟨amid.inv, trivial, fun w' later _ => holds w' later (amid.rely (p := p) later)⟩

theorem On.ends {Q : Traced → Prop} (on : On mig know owned w) (holds : ∀ w', On mig know owned w' → Q w') :
    offlineSpec.inv w ∧ True ∧ ∀ w', offlineSpec.rely p w w' → offlineSpec.inv w' → Q w' :=
  ⟨on.inv, trivial, fun w' later _ => holds w' (on.rely (p := p) later)⟩

theorem On.still {r : Except Err o.Res} (on : On mig know owned w) (still : Still o) (action : traced.step p w o r w') :
    On mig know owned w' ∧ Heeds o r := by
  obtain ⟨c, heeds, after, ⟨a, rfl, did⟩ | ⟨e, rfl, same | ⟨a, did⟩⟩⟩ := traced_outcome action
  · exact ⟨on.called after (still.around did), heeds_perform heeds did⟩
  · exact ⟨on.called after (same ▸ .refl _), heeds_error o e⟩
  · exact ⟨on.called after (still.around did), heeds_error o e⟩

abbrev Minds (P : Traced → Prop) (m : Act α) (R : α → Traced → Prop) : Prop :=
  Program.Leaves traced offlineSpec () P m (Results R Sheltered)

theorem leaves_still {m : Act α} {V : α → Prop} (yields : m.Yields Still Heeds V) :
    Program.Leaves traced offlineSpec () (On mig know owned) m
      (Results (fun value w => V value ∧ On mig know owned w) (On mig know owned)) := by
  intro w _ on
  refine wp_mono ?_ (wp_yields (P := On mig know owned) ?_ yields on)
  · rintro (e | value) w' ⟨on', values⟩
    · exact on'
    · exact ⟨values value rfl, on'⟩
  · intro o w still on
    refine ⟨fun m _ => ⟨still.guard m, fun _ => on.covered⟩, ?_⟩
    intro r w' action
    obtain ⟨on', heeds⟩ := on.still still action
    exact ⟨heeds, on'.ends fun _ => id⟩

theorem minds_still {m : Act α} {f : α → Act β} {V : α → Prop} {R : β → Traced → Prop} (yields : m.Yields Still Heeds V)
    (rest : ∀ value, V value → Minds (On mig know owned) (f value) R) : Minds (On mig know owned) (m >>= f) R :=
  results_bind (results_mono (leaves_still yields) (fun _ _ holds => holds) fun _ on => on.covered)
    fun value => leaves_known (rest value)

def Read (mig : SwiftMigration) (know : Core → Prop) (owned : Prop) : Option SwiftGuest → Traced → Prop
  | some guest, w => know guest.core ∧ On mig (· = guest.core) owned w
  | none, w => On mig (fun _ => False) owned w

theorem minds_readGuest : Minds (On mig know owned) readGuest (Read mig know owned) := by
  intro w _ on
  rw [readGuest, wp_lookup, wp_call]
  refine ⟨fun m _ => ⟨trivial, fun _ => on.covered⟩, ?_⟩
  intro r w' action
  have on' := (on.still (show Still .getGuest from trivial) action).1
  refine ⟨on'.inv, trivial, ?_⟩
  intro w'' later _
  have on'' := on'.rely later
  obtain ⟨c, -, done, -⟩ := traced_cases action
  obtain ⟨same, ⟨guest, present, rfl⟩ | ⟨gone, rfl⟩ | ⟨fault, rfl⟩⟩ :=
    World.exec_read (show w.cluster.perform c .getGuest = World.found w.cluster.guest fun guest => (w.cluster, guest) from rfl)
      done
  · refine ⟨on.guest guest present, ⟨on''.version, on''.offline, on''.settled, ?_, on''.owned⟩, on''.covered⟩
    intro g now
    obtain ⟨old, before, core⟩ := later.1.guest g now
    rw [same, present] at before
    cases before
    exact core
  · refine ⟨⟨on''.version, on''.offline, on''.settled, ?_, on''.owned⟩, on''.covered⟩
    intro g now
    obtain ⟨old, before, -⟩ := later.1.guest g now
    rw [same, gone] at before
    cases before
  · exact onFound_fault fault fun e => on''.covered

end Rules

/-! ## Writing the migration -/

section Writes

variable {p : Unit} {mig : SwiftMigration} {know : Core → Prop} {owned : Prop} {w : Traced} {s : SwiftMigrationStatus}

theorem On.reversion (on : On mig know owned w) (version : Version mig m) : On m know owned w where
  version m' there := version.symm.trans (on.version m' there)
  offline := version.offline on.offline
  settled := by
    rw [version.status, version.target]
    exact on.settled
  guest := on.guest
  owned := on.owned
  covered := on.covered

structure Renews (mig mig' : SwiftMigration) : Prop where
  name : mig'.name = mig.name
  target : mig'.target = mig.target
  allocatedTo : allocatedTo mig' = allocatedTo mig
  offline : Offline mig'

theorem steady_setMigration {cluster : World} {other : Option SwiftMigration} {mig' : SwiftMigration}
    (there : cluster.migration = some m) (version : Version mig m) (renews : Renews mig mig')
    (next : ∀ m', other = some m' → Version mig' m') : Steady cluster (cluster.setMigration other) where
  migration m' there' := by
    have version' := next m' there'
    refine ⟨m, there, ?_, ?_, ?_⟩
    · rw [version'.name, renews.name, version.name]
    · rw [version'.target, renews.target, version.target]
    · rw [version'.allocatedTo, renews.allocatedTo, version.allocatedTo]
  guest guest present := ⟨guest, present, rfl⟩
  records _ _ _ _ := Iff.rfl

theorem wp_rewrite_on {o : Op} {answer : Choice → SwiftMigration → o.Res}
    {other : Choice → SwiftMigration → Option SwiftMigration} (mig' : Choice → SwiftMigration) (on : On mig know owned w)
    (performs : ∀ c, w.cluster.perform c o =
      World.found w.cluster.migration fun m => (w.cluster.setMigration (other c m), answer c m))
    (guard : ∀ m, w.cluster.migration = some m → Version mig m → Guard m w o) (renews : ∀ c, Renews mig (mig' c))
    (next : ∀ c m m', Version mig m → other c m = some m' → Version (mig' c) m')
    (settled : ∀ c, (mig' c).status.phase = .resuming → ∀ guest, w.cluster.guest = some guest → guest.hasVFIODevices = true →
      guest.gpusOn mig.target) :
    wp traced offlineSpec p (issue o)
      (Results (fun a w' => ∃ c m, a = answer c m ∧ Version mig m ∧ On (mig' c) know owned w') Sheltered) w := by
  refine ⟨fun m there => ⟨guard m there (on.version m there), fun _ => on.covered⟩, ?_⟩
  intro r w' action
  obtain ⟨c, -, after, outcome⟩ := traced_outcome action
  have moved : ∀ a, w.cluster.perform c o = .ok (w'.cluster, a) →
      On (mig' c) know owned w' ∧ ∃ m, Version mig m ∧ a = answer c m := by
    intro a did
    rw [performs c] at did
    obtain ⟨m, there, equal⟩ := World.found_ok did
    obtain ⟨cluster, rfl⟩ := Prod.mk.inj equal
    have version := on.version m there
    have steady := steady_setMigration there version (renews c) (next c m · version)
    rw [cluster] at steady
    refine ⟨⟨⟨?_, (renews c).offline, ?_, ?_, ?_⟩, ?_⟩, m, version, rfl⟩
    · intro m' there'
      rw [← cluster] at there'
      exact next c m m' version there'
    · rw [← cluster, (renews c).target]
      exact settled c
    · rw [← cluster]
      exact on.guest
    · exact fun known => steady.owned (after_early after) (on.owned known)
    · exact steady.covered (after_hurt after) on.covered
  rcases outcome with ⟨a, rfl, did⟩ | ⟨e, rfl, same | ⟨a, did⟩⟩
  · obtain ⟨on', m, version, rfl⟩ := moved a did
    exact on'.ends fun w'' on'' => ⟨c, m, rfl, version, on''⟩
  · exact (on.called after (same ▸ .refl _)).ends fun w'' on'' => on''.covered
  · exact (moved a did).1.ends fun w'' on'' => on''.covered

theorem covered_ignoreNotFound {α : Type} {act : Act α} {R : α → Traced → Prop} (covers : ∀ a w, R a w → Sheltered w)
    (once : wp traced offlineSpec p act (Results R Sheltered) w) :
    wp traced offlineSpec p (ignoreNotFound act) (Results (fun _ => Sheltered) Sheltered) w := by
  rw [ignoreNotFound, wp_bind, wp_lookup]
  refine wp_mono ?_ once
  rintro ((_ | _ | _ | _ | _ | _) | a) w covered <;> first | exact covered | exact covers a w covered

theorem minds_persist (status : OfflineStatus mig s) :
    Minds (fun w => On mig know owned w ∧ StatusWrite mig w.cluster s) (persist mig s) fun _ => Sheltered := by
  rintro w - ⟨on, write⟩
  have writes : ∀ s', s'.phase = s.phase → s'.mode = s.mode → s'.destinationNode = s.destinationNode →
      wp traced offlineSpec () (ignoreNotFound (issue (.patchStatus mig.status s')))
        (Results (fun _ => Sheltered) Sheltered) w := by
    intro s' phase mode node
    have status' : ∀ m, Version mig m → OfflineStatus m s' := by
      intro m version
      constructor
      · rw [mode]
        exact status.mode
      · rw [node, version.target]
        exact status.node
      · rw [phase, node, version.target]
        exact status.moving
    have write' : ∀ m, Version mig m → StatusWrite m w.cluster s' := by
      intro m version
      cases write with
      | same same => exact .same (by rw [phase, same, version.status])
      | validate before next => exact .validate (by rw [version.status]; exact before) (phase.trans next)
      | prepare before next => exact .prepare (by rw [version.status]; exact before) (phase.trans next)
      | copy before next => exact .copy (by rw [version.status]; exact before) (phase.trans next)
      | resume before next started =>
        refine .resume (by rw [version.status]; exact before) (phase.trans next) ?_
        rw [version.target]
        exact started
      | complete before next => exact .complete (by rw [version.status]; exact before) (phase.trans next)
      | fail before next unmarked =>
        refine .fail (by rw [version.status]; exact before) (phase.trans next) ?_
        rw [version.name]
        exact unmarked
    refine covered_ignoreNotFound (fun _ _ ⟨_, _, _, _, on⟩ => on.covered)
      (wp_rewrite_on (fun c => { mig with status := s'.stamped c.time }) on (fun _ => rfl) ?_ (fun c => ?_) ?_ ?_)
    · intro m there version
      exact ⟨version.status.symm, status' m version, write' m version⟩
    · have fits := status' mig (.refl mig)
      exact ⟨rfl, rfl, rfl, on.offline.named, on.offline.placed, on.offline.mode, fits.mode, fits.node, fits.moving⟩
    · intro c m m' version same
      cases same
      rw [Version, World.withStatus, version.status, SwiftMigrationStatus.merge_self, ← version]
    · intro c resuming guest there vfio
      have resuming' : s.phase = .resuming := phase.symm.trans resuming
      cases write with
      | same same => exact on.settled (same.symm.trans resuming') guest there vfio
      | resume _ _ started => exact (started guest there).2.2 vfio
      | validate _ next | prepare _ next | copy _ next | complete _ next | fail _ next _ =>
        cases resuming'.symm.trans next
  unfold persist
  split
  · exact on.covered
  · apply writes <;> split <;> rfl

theorem version_withFinalizer (version : Version mig m) (finalizer : Bool) :
    Version { mig with finalizer := finalizer } (World.withFinalizer m finalizer) := by
  rw [Version, World.withFinalizer, ← version]

theorem wp_patchFinalizer (finalizer : Bool) (on : On mig know owned w)
    (guard : ∀ m, Version mig m → Guard m w (.patchFinalizer finalizer)) :
    wp traced offlineSpec p (issue (.patchFinalizer finalizer))
      (Results (fun mig' w' => mig'.status = mig.status ∧ On mig' know owned w') Sheltered) w := by
  refine wp_mono ?_ (wp_rewrite_on (fun _ => { mig with finalizer := finalizer }) on (fun _ => rfl) (fun m _ => guard m)
    (fun _ => ?_) ?_ fun _ => on.settled)
  · rintro (e | _) w' result
    · exact result
    · obtain ⟨_, m, rfl, version, on'⟩ := result
      have version' := version_withFinalizer version finalizer
      exact ⟨version'.status, on'.reversion version'⟩
  · exact ⟨rfl, rfl, rfl, on.offline.named, on.offline.placed, on.offline.mode, on.offline.status.mode,
      on.offline.status.node, on.offline.status.moving⟩
  · intro _ m m' version same
    cases World.remaining_eq same
    exact version_withFinalizer version finalizer

theorem minds_removeFinalizer : Minds (fun w => On mig know owned w ∧ (isTerminalPhase mig.status.phase = true ∨
    ∀ guest, w.cluster.guest = some guest → guest.inProgress ≠ mig.name)) (removeFinalizer mig) fun _ => Sheltered := by
  rintro w - ⟨on, done⟩
  unfold removeFinalizer
  split
  · refine covered_ignoreNotFound (fun _ _ after => after.2.covered) (wp_patchFinalizer false on fun m version => ?_)
    show _ ∨ ∀ guest : SwiftGuest, _ → guest.inProgress ≠ m.name
    rw [version.status, version.name]
    exact done
  · exact on.covered

theorem minds_ensureFinalizer : Minds (On mig know owned) (ensureFinalizer mig) fun mig' w =>
    mig'.status = mig.status ∧ On mig' know owned w := by
  intro w _ on
  unfold ensureFinalizer
  split
  · exact ⟨rfl, on⟩
  · exact wp_patchFinalizer true on fun _ _ => trivial

theorem minds_retention : Minds (On mig know owned) (handleTerminalRetention mig) fun _ => Sheltered := by
  unfold handleTerminalRetention
  split
  · exact results_pure fun _ on => on.covered
  · refine minds_still (Prog.yields_call trivial fun _ _ => trivial) fun isOver _ w _ on => ?_
    split
    · refine covered_ignoreNotFound (fun _ _ ⟨_, _, _, _, on⟩ => on.covered)
        (wp_rewrite_on (fun _ => mig) on (fun _ => rfl) (fun _ _ _ => trivial) (fun _ => ⟨rfl, rfl, rfl, on.offline⟩) ?_
          fun _ => on.settled)
      intro _ m m' version same
      cases World.remaining_eq same
      exact version
    · exact on.covered

end Writes

section Nodes

variable {p : Unit} {α : Type} {mig : SwiftMigration} {know : Core → Prop} {owned : Prop} {w w' : Traced} {node : String}

theorem allocatedTo_ne_empty (mig : SwiftMigration) : allocatedTo mig ≠ "" := by
  intro empty
  have length := congrArg String.length empty
  simp [allocatedTo] at length

def Holds (mig : SwiftMigration) (w : World) (node : String) (addresses : List String) : Prop :=
  (∃ m, w.migration = some m) → ∀ address, address ∈ recordsFor w.gpus node (allocatedTo mig) ↔ address ∈ addresses

theorem Holds.around {cluster cluster' : World} {addresses : List String} (holds : Holds mig cluster node addresses)
    (version : ∀ m, cluster.migration = some m → Version mig m) (around : Around cluster cluster') :
    Holds mig cluster' node addresses := by
  intro ⟨m, there⟩ address
  obtain ⟨old, before, edited⟩ := around.edited there
  have same := around.records m there node address
  rw [edited.allocatedTo, (version old before).allocatedTo] at same
  rw [same]
  exact holds ⟨old, before⟩ address

theorem sheltered_rely (covered : Sheltered w) (later : offlineSpec.rely p w w') : Sheltered w' :=
  later.1.steady.covered (fun hurt => later.2.2.trans hurt) covered

theorem get_current {gpus gpus' : GPU.World} {c : GPU.Choice} {answer : Except GPU.Err GPU.SwiftGPUNode}
    (calm : c.fault = none)
    (current : c.version = if gpus.versions node = [] then none else some ((gpus.versions node).length - 1))
    (done : gpus.exec c (.get node) = some (gpus', answer)) (id : String) :
    (answer = .error .notFound ∧ recordsFor gpus node id = []) ∨
      ∃ n, answer = .ok n ∧ n.name = node ∧ (gpus.versions node)[n.resourceVersion]? = some n.status ∧
        recordsFor gpus node id = (n.status.existing id).map fun g => g.pciAddress := by
  have result : withFault gpus none (gpus.perform c (.get node)) = (gpus', answer) := by
    rw [← calm]
    exact Option.some.inj done
  by_cases empty : gpus.versions node = []
  · left
    rw [if_pos empty] at current
    simp only [GPU.World.perform, current] at result
    cases result
    exact ⟨rfl, by simp [recordsFor, empty]⟩
  · right
    rw [if_neg empty] at current
    obtain ⟨st, last⟩ : ∃ st, (gpus.versions node)[(gpus.versions node).length - 1]? = some st := by
      refine ⟨(gpus.versions node).getLast empty, ?_⟩
      rw [← List.getLast?_eq_getElem?, List.getLast?_eq_some_getLast empty]
    simp only [GPU.World.perform, current, Option.bind_some, GPU.World.read, last, Option.map_some] at result
    cases result
    refine ⟨_, rfl, rfl, last, ?_⟩
    rw [recordsFor, List.getLast?_eq_getElem?, last]

theorem wp_get {Q : Except Err (Except GPU.Err GPU.SwiftGPUNode) → Traced → Prop} (amid : Amid mig know owned w)
    (found : ∀ n w', Amid mig know owned w' → Around w.cluster w'.cluster → (Sheltered w → Sheltered w') → n.name = node →
      (w'.cluster.gpus.versions node)[n.resourceVersion]? = some n.status →
      Holds mig w'.cluster node ((n.status.existing (allocatedTo mig)).map fun g => g.pciAddress) → Q (.ok (.ok n)) w')
    (absent : ∀ w', On mig know owned w' → Around w.cluster w'.cluster → Holds mig w'.cluster node [] →
      Q (.ok (.error .notFound)) w') (error : ∀ e w', On mig know owned w' → Q (.error e) w') :
    wp traced offlineSpec p (issue (.gpu (.get node))) Q w := by
  refine ⟨fun m _ => ⟨trivial, nofun⟩, ?_⟩
  intro r w' action
  have still : Still (.gpu (.get node)) := trivial
  obtain ⟨c, heeds, after, ⟨answer, rfl, did⟩ | ⟨e, rfl, same | ⟨a, did⟩⟩⟩ := traced_outcome action
  · have amid' := amid.around (still.around did) (after_early after)
    refine amid'.ends fun w'' later amid'' => ?_
    have same : w'.cluster.gpus = w.cluster.gpus := still.gpus did
    have covering : Sheltered w → Sheltered w' := (still.around did).steady.covered (after_hurt after)
    have around := (still.around did).trans later.1
    simp only [World.perform] at did
    split at did
    · next gpus' answer' read =>
      obtain ⟨-, rfl⟩ := Prod.mk.inj (Except.ok.inj did)
      rcases get_current heeds.1 heeds.2 read (allocatedTo mig) with ⟨rfl, none⟩ | ⟨n, rfl, named, seen, holds⟩
      · refine absent w'' ⟨amid'', sheltered_rely (p := p) (after_failure after rfl) later⟩ around ?_
        refine Holds.around ?_ amid'.version later.1
        intro _ address
        rw [same, none]
      · refine found n w'' amid'' around ?_ named ?_ ?_
        · exact fun covered => sheltered_rely (p := p) (covering covered) later
        · rw [← same] at seen
          exact later.1.versions.getElem? seen
        · refine Holds.around ?_ amid'.version later.1
          intro _ address
          rw [same, holds]
    · cases did
  · exact On.ends ⟨amid.around (same ▸ .refl _) (after_early after), after_failure after rfl⟩ (error e)
  · exact On.ends ⟨amid.around (still.around did) (after_early after), after_failure after rfl⟩ (error e)

theorem recordsFor_push (gpus : GPU.World) (node other id : String) (st : GPU.SwiftGPUNodeStatus) :
    recordsFor (gpus.push node st) other id =
      if other = node then (st.existing id).map fun g => g.pciAddress else recordsFor gpus other id := by
  unfold recordsFor GPU.World.push
  by_cases same : other = node
  · subst same
    simp
  · simp [same]

variable {wanted : GPU.SwiftGPUNodeStatus}

theorem update_perform {w w' : World} {c : Choice} {version : Nat} {answer : Except GPU.Err Unit}
    (calm : c.gpu.fault = none) (done : w.perform c (.gpu (.update node version wanted)) = .ok (w', answer)) :
    (answer = .ok () ∧ (w.gpus.versions node).length = version + 1 ∧ w' = { w with gpus := w.gpus.push node wanted }) ∨
      ∃ e, answer = .error e ∧ w' = w := by
  simp only [World.perform, GPU.World.exec, calm, GPU.World.perform] at done
  split at done
  · next current =>
    cases done
    exact .inl ⟨rfl, current, rfl⟩
  · cases done
    exact .inr ⟨_, rfl, rfl⟩

variable {st : GPU.SwiftGPUNodeStatus}

theorem Amid.push (amid : Amid mig know owned w)
    (pushed : w'.cluster = { w.cluster with gpus := w.cluster.gpus.push node st }) : Amid mig know False w' where
  version := by
    rw [pushed]
    exact amid.version
  offline := amid.offline
  settled := by
    rw [pushed]
    exact amid.settled
  guest := by
    rw [pushed]
    exact amid.guest
  owned := False.elim

theorem wp_update {version : Nat} {Q : Except Err (Except GPU.Err Unit) → Traced → Prop} (amid : Amid mig know owned w)
    (guard : ∀ m st, w.cluster.migration = some m → Version mig m →
      (w.cluster.gpus.versions node)[version]? = some st → NodeWrite m w.cluster node st wanted)
    (ok : ∀ w', Amid mig know False w' →
      Holds mig w'.cluster node ((wanted.existing (allocatedTo mig)).map fun g => g.pciAddress) →
      (∀ other addresses, other ≠ node → Holds mig w.cluster other addresses → Holds mig w'.cluster other addresses) →
      Q (.ok (.ok ())) w') (refused : ∀ e w', On mig know False w' → Q (.ok (.error e)) w')
    (error : ∀ e w', On mig know False w' → Q (.error e) w') :
    wp traced offlineSpec p (issue (.gpu (.update node version wanted))) Q w := by
  refine ⟨fun m there => ⟨fun st seen => guard m st there (amid.version m there) seen, nofun⟩, ?_⟩
  intro r w' action
  obtain ⟨c, heeds, after, outcome⟩ := traced_outcome action
  have same : w'.cluster = w.cluster → Amid mig know False w' := fun unchanged =>
    amid.unclaimed.around (unchanged ▸ .refl _) (after_early after)
  have fell : ∀ answer, w.cluster.perform c (.gpu (.update node version wanted)) = .ok (w'.cluster, answer) →
      Amid mig know False w' := by
    intro answer did
    rcases update_perform heeds did with ⟨-, -, pushed⟩ | ⟨e, -, unchanged⟩
    · exact amid.push pushed
    · exact same unchanged
  rcases outcome with ⟨answer, rfl, did⟩ | ⟨e, rfl, unchanged | ⟨a, did⟩⟩
  · have amid' := fell answer did
    refine amid'.ends fun w'' later amid'' => ?_
    rcases update_perform heeds did with ⟨rfl, -, pushed⟩ | ⟨e, rfl, -⟩
    · refine ok w'' amid'' ?_ ?_
      · refine Holds.around ?_ amid'.version later.1
        intro _ address
        rw [pushed]
        rw [recordsFor_push, if_pos rfl]
      · intro other addresses apart holds
        refine Holds.around ?_ amid'.version later.1
        intro present address
        rw [pushed] at present ⊢
        rw [recordsFor_push, if_neg apart]
        exact holds present address
    · exact refused e w'' ⟨amid'', sheltered_rely (p := p) (after_failure after rfl) later⟩
  · exact On.ends ⟨same unchanged, after_failure after rfl⟩ (error e)
  · exact On.ends ⟨fell a did, after_failure after rfl⟩ (error e)

theorem existing_clear (st : GPU.SwiftGPUNodeStatus) {id : String} (named : id ≠ "") : (st.clear id).existing id = [] := by
  simp only [GPU.SwiftGPUNodeStatus.existing, GPU.clear_gpus, List.filter_eq_nil_iff, List.mem_map, forall_exists_index,
    and_imp, forall_apply_eq_imp_iff₂, decide_eq_true_eq]
  intro g _
  unfold GPU.clearGPU
  split
  · exact named.symm
  · assumption

theorem existing_of_not_holds {id : String} (none : st.holds id = false) : st.existing id = [] := by
  simp only [GPU.SwiftGPUNodeStatus.holds, Bool.or_eq_false_iff, List.any_eq_false, decide_eq_true_eq] at none
  simp only [GPU.SwiftGPUNodeStatus.existing, List.filter_eq_nil_iff, decide_eq_true_eq]
  exact none.1

structure Left (mig : SwiftMigration) (know : Core → Prop) (node : String) (w w' : Traced) : Prop where
  amid : Amid mig know False w'
  none : node ≠ "" → Holds mig w'.cluster node []
  others : ∀ other addresses, other ≠ node → Holds mig w.cluster other addresses → Holds mig w'.cluster other addresses

def Released (mig : SwiftMigration) (know : Core → Prop) (node : String) (w : Traced) (r : Except Err Unit)
    (w' : Traced) : Prop :=
  match r with
  | .ok _ => Left mig know node w w'
  | .error _ => On mig know False w'

@[simp] theorem onGPUs_pure (a : α) : onGPUs (pure a) = pure a := by
  rfl

def onAnswer {β : Type} (Q : Except Err α → Traced → Prop) (next : β → Traced → Prop) :
    Except Err (Except GPU.Err β) → Traced → Prop
  | .ok (.ok b), w => next b w
  | .ok (.error e), w => Q (.error (.gpu e)) w
  | .error e, w => Q (.error e) w

theorem wp_onGPUs_issue (o : GPU.Op) (f : o.Res → GPU.Act α) (Q : Except Err α → Traced → Prop) :
    wp traced offlineSpec p (onGPUs (GPU.issue o >>= f)) Q =
      wp traced offlineSpec p (issue (.gpu o)) (onAnswer Q fun a => wp traced offlineSpec p (onGPUs (f a)) Q) := by
  rw [onGPUs_bind, onGPUs_issue, wp_bind, wp_bind]
  congr 1
  funext r w
  rcases r with e | e | a <;> rfl

theorem wp_onGPUs_attempt (o : GPU.Op) (f : Except GPU.Err o.Res → GPU.Act α) (Q : Except Err α → Traced → Prop) :
    wp traced offlineSpec p (onGPUs ((GPU.issue o).attempt >>= f)) Q =
      wp traced offlineSpec p (issue (.gpu o)) (onOk (fun r => wp traced offlineSpec p (onGPUs (f r)) Q) Q) := by
  rw [onGPUs_bind, onGPUs_attempt, wp_bind, wp_bind]
  congr 1

theorem wp_onGPUs_call (o : GPU.Op) (Q : Except Err o.Res → Traced → Prop) :
    wp traced offlineSpec p (onGPUs (GPU.issue o)) Q =
      wp traced offlineSpec p (issue (.gpu o)) (onAnswer Q fun a => Q (.ok a)) := by
  rw [onGPUs_issue, wp_bind]
  congr 1
  funext r w
  rcases r with e | e | a <;> rfl

theorem wp_releaseFromNodeFor (amid : Amid mig know owned w)
    (write : ∀ w' m st, Amid mig know owned w' → w'.cluster.migration = some m → Version mig m →
      NodeWrite m w'.cluster node st (st.clear (allocatedTo m))) :
    wp traced offlineSpec p (onGPUs (GPU.releaseFromNodeFor (allocatedTo mig) node)) (Released mig know node w) w := by
  unfold GPU.releaseFromNodeFor
  by_cases unnamed : node = ""
  · rw [if_pos unnamed, onGPUs_pure]
    exact ⟨amid.unclaimed, fun named => absurd unnamed named, fun _ _ _ holds => holds⟩
  · rw [if_neg unnamed, wp_onGPUs_attempt]
    refine wp_get amid ?_ ?_ ?_
    · intro n w1 amid1 around _ named seen holds
      show wp traced offlineSpec p (onGPUs (GPU.clearOn (allocatedTo mig) n)) _ w1
      unfold GPU.clearOn
      split
      · rw [wp_onGPUs_call, named]
        refine wp_update amid1 ?_ ?_ ?_ ?_
        · intro m st there version seen'
          rw [seen] at seen'
          cases seen'
          rw [← version.allocatedTo]
          exact write w1 m n.status amid1 there version
        · intro w2 amid2 cleared others
          rw [existing_clear n.status (allocatedTo_ne_empty mig)] at cleared
          refine ⟨amid2, fun _ => cleared, ?_⟩
          intro other addresses apart held
          exact others other addresses apart (held.around amid.version around)
        · intro e w2 on2
          exact on2
        · intro e w2 on2
          exact on2
      · next nothing =>
        rw [existing_of_not_holds (by simpa using nothing)] at holds
        exact ⟨amid1.unclaimed, fun _ => holds, fun _ _ _ held => held.around amid.version around⟩
    · intro w1 on1 around none
      exact ⟨on1.toAmid.unclaimed, fun _ => none, fun _ _ _ held => held.around amid.version around⟩
    · intro e w1 on1
      exact on1.weaken (fun _ => id) False.elim

def Reserved (mig : SwiftMigration) (know : Core → Prop) (r : Except Err GPU.Allocation) (w' : Traced) : Prop :=
  match r with
  | .ok al => Amid mig know False w' ∧ ∃ addresses, Holds mig w'.cluster mig.target addresses ∧
      ∀ g ∈ al.gpus, g.pciAddress ∈ addresses
  | .error _ => On mig know False w'

theorem mem_existing_mark {selected : List GPU.GPUDevice} {part : Int} {id : String}
    {g : GPU.GPUDevice} (chosen : g ∈ selected) (listed : g ∈ st.gpus) :
    g.pciAddress ∈ ((st.mark selected part id).existing id).map fun g => g.pciAddress := by
  have marked : GPU.markGPU selected id g = _ := GPU.markGPU_chosen ⟨g, chosen, rfl⟩
  refine List.mem_map.mpr ⟨GPU.markGPU selected id g, List.mem_filter.mpr ⟨?_, ?_⟩, ?_⟩
  · exact List.mem_map_of_mem listed
  · rw [marked]
    simp
  · rw [marked]

theorem wp_reserveOnNode (on : On mig know owned w) (profile : GPU.SwiftGPUProfileSpec)
    (phase : mig.status.phase = .preparing ∨ mig.status.phase = .stopAndCopy)
    (vfio : ∀ core, know core → core.vfio = true) :
    wp traced offlineSpec p (onGPUs (GPU.reserveOnNode (allocatedTo mig) profile mig.target)) (Reserved mig know) w := by
  unfold GPU.reserveOnNode
  rw [wp_onGPUs_issue]
  refine wp_get on.toAmid ?_ ?_ ?_
  · intro n w1 amid1 _ sheltered named seen holds
    have on1 : On mig know False w1 := ⟨amid1.unclaimed, sheltered on.covered⟩
    show wp traced offlineSpec p (onGPUs _) _ w1
    cases found : GPU.held (allocatedTo mig) n with
    | some al =>
      refine ⟨on1.toAmid, _, holds, ?_⟩
      intro g member
      rw [(GPU.held_spec found).2] at member
      exact List.mem_map_of_mem member
    | none =>
      have refused : ∀ e, wp traced offlineSpec p (onGPUs (.fail e)) (Reserved mig know) w1 := by
        intro e
        exact on1
      dsimp only
      split
      · exact refused _
      split
      · exact refused _
      split
      · exact refused _
      split
      · exact refused _
      split
      · exact refused _
      next selection chosen =>
        obtain ⟨selected, numas, part⟩ := selection
        show wp traced offlineSpec p (onGPUs (GPU.issue _ >>= _)) _ w1
        rw [wp_onGPUs_issue, named]
        refine wp_update on1.toAmid ?_ ?_ ?_ ?_
        · intro m st there version seen'
          rw [seen] at seen'
          cases seen'
          rw [← version.allocatedTo]
          refine .reserve version.target.symm ?_ ?_
          · rw [version.status]
            exact phase
          · intro guest present
            exact vfio _ (on1.guest guest present)
        · intro w2 amid2 marked _
          refine ⟨amid2, _, marked, ?_⟩
          intro g member
          exact mem_existing_mark member ((GPU.select_spec chosen).1 g member).1
        · intro e w2 on2
          exact on2
        · intro e w2 on2
          exact on2
  · intro w1 on1 _ _
    exact on1.weaken (fun _ => id) False.elim
  · intro e w1 on1
    exact on1.weaken (fun _ => id) False.elim

end Nodes

section Guest

variable {p : Unit} {mig : SwiftMigration} {know : Core → Prop} {owned : Prop} {w w' : Traced}

theorem patched_base {α : Type} [DecidableEq α] {current base wanted : α} (same : current = base) :
    patched current base wanted = wanted := by
  rw [same, patched_self]

theorem SwiftGuest.merge_core {guest base wanted : SwiftGuest} (same : guest.core = base.core)
    (gpu : wanted.gpu = base.gpu) (vfio : wanted.hasVFIODevices = base.hasVFIODevices) :
    (guest.merge base wanted).core = wanted.core := by
  have kept : (guest.merge base wanted).hasVFIODevices = guest.hasVFIODevices := rfl
  rw [core, kept, core, Core.mk.injEq]
  refine ⟨?_, ?_, ?_, ?_, ?_⟩
  · exact patched_base (congrArg Core.inProgress same)
  · exact patched_base (congrArg Core.runPolicy same)
  · exact patched_base (congrArg Core.nodeName same)
  · rw [gpu]
    exact congrArg Core.gpu same
  · rw [vfio]
    exact congrArg Core.vfio same

theorem Amid.sheltered (amid : Amid mig know owned w) (safe : ∀ guest, w.cluster.guest = some guest →
    guest.inProgress = mig.name ∨ guest.hasVFIODevices = false ∨ guest.gpusOn mig.target) : Sheltered w := by
  refine .inr (Bool.eq_false_iff.mpr fun lies => ?_)
  obtain ⟨m, there, guest, present, vfio, unmarked, away, -⟩ := exposed_iff.mp lies
  have version := amid.version m there
  rw [version.name] at unmarked
  rw [version.target] at away
  rcases safe guest present with own | without | on
  · exact unmarked own
  · exact absurd (vfio.symm.trans without) (by simp)
  · exact away on

theorem Holds.sheltered (amid : Amid mig know owned w) (none : Holds mig w.cluster mig.target []) : Sheltered w := by
  refine .inr (Bool.eq_false_iff.mpr fun lies => ?_)
  obtain ⟨m, there, guest, present, -, -, -, held⟩ := exposed_iff.mp lies
  have version := amid.version m there
  rw [version.target, version.allocatedTo] at held
  obtain ⟨address, member⟩ := List.exists_mem_of_ne_nil _ held
  exact absurd ((none ⟨m, there⟩ address).mp member) (by simp)

theorem sheltered_pinned {o : Op} {r : Except Err o.Res} {cluster : World}
    (version : ∀ m, cluster.migration = some m → Version mig m)
    (there : ∀ guest, cluster.guest = some guest → guest.nodeName = mig.target) :
    Sheltered (w.after cluster o r) := by
  cases lies : exposed cluster with
  | false => exact .inr lies
  | true =>
    obtain ⟨m, present, guest, here, -⟩ := exposed_iff.mp lies
    have named : guest.nodeName = m.target := (there guest here).trans (version m present).target.symm
    have pins : pinned cluster = true := by simp [pinned, present, here, named]
    exact .inl (by simp [Traced.after, lies, pins])

theorem wp_patchGuest {base wanted : SwiftGuest} {Q : Except Err SwiftGuest → Traced → Prop}
    (amid : Amid mig (· = base.core) owned w) (gpu : wanted.gpu = base.gpu)
    (vfio : wanted.hasVFIODevices = base.hasVFIODevices)
    (write : ∀ m, w.cluster.migration = some m → Version mig m → GuestWrite m w base wanted)
    (ok : ∀ guest w', guest.core = wanted.core → Amid mig (· = wanted.core) False w' →
      (wanted.nodeName = mig.target → Sheltered w') → Q (.ok guest) w')
    (gone : ∀ w', On mig (fun _ => False) False w' → Q (.error .notFound) w')
    (error : ∀ (fault : Fault) w', On mig (fun core => core = base.core ∨ core = wanted.core) False w' →
      Q (.error fault.err) w') : wp traced offlineSpec p (issue (.patchGuest base wanted)) Q w := by
  refine ⟨fun m there => ⟨fun guest present => ⟨amid.guest guest present, write m there (amid.version m there)⟩, nofun⟩, ?_⟩
  intro r w' action
  obtain ⟨c, -, done, after⟩ := traced_cases action
  have same : w'.cluster = w.cluster → Amid mig (· = base.core) False w' := fun unchanged =>
    amid.unclaimed.around (unchanged ▸ .refl _) (after_early after)
  have moved : ∀ guest, w.cluster.perform c (.patchGuest base wanted) = .ok (w'.cluster, guest) →
      guest.core = wanted.core ∧ Amid mig (· = wanted.core) False w' := by
    intro guest did
    obtain ⟨old, present, equal⟩ := World.found_ok did
    obtain ⟨cluster, rfl⟩ := Prod.mk.inj equal
    have core := SwiftGuest.merge_core (amid.guest old present) gpu vfio
    refine ⟨core, ?_⟩
    refine ⟨?_, amid.offline, ?_, ?_, False.elim⟩
    · rw [← cluster]
      exact amid.version
    · rw [← cluster]
      intro resuming g there hasVFIO
      cases there
      have before := amid.settled resuming old present hasVFIO
      exact before
    · rw [← cluster]
      intro g there
      cases there
      exact core
  rcases World.exec_cases done with ⟨guest, rfl, did⟩ | ⟨e, rfl, unchanged, refused⟩ | ⟨fault, rfl, unchanged | ⟨a, did⟩⟩
  · obtain ⟨core, amid'⟩ := moved guest did
    refine amid'.ends fun w'' later amid'' => ok guest w'' core amid'' fun named => ?_
    refine sheltered_rely (p := p) ?_ later
    rw [after]
    refine sheltered_pinned amid'.version ?_
    intro g there
    exact (congrArg Core.nodeName (amid'.guest g there)).trans named
  · have amid' := same unchanged
    simp only [World.perform, World.found] at refused
    split at refused <;> cases refused
    next absent =>
      refine On.ends ⟨⟨amid'.version, amid'.offline, amid'.settled, ?_, False.elim⟩, after_failure after rfl⟩ gone
      intro g there
      rw [unchanged, absent] at there
      cases there
  · exact On.ends ⟨(same unchanged).weaken (fun _ => .inl) id, after_failure after rfl⟩ (error fault)
  · exact On.ends ⟨(moved a did).2.weaken (fun _ => .inr) id, after_failure after rfl⟩ (error fault)

end Guest

end KubeSwift.Migration
