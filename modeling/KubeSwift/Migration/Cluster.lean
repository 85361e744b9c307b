import KubeSwift.GPU.Allocator
import KubeSwift.Migration.Objects

/-! # The cluster a migration runs in

One `SwiftMigration`, its guest, the pods and the `SwiftGPUNode` records, as the API server holds them. -/

namespace KubeSwift.Migration
open Program Prog

inductive Err
  | notFound | alreadyExists | conflict | api | gpu (e : GPU.Err) | text (message : String)
  deriving DecidableEq, Repr

inductive Timer
  | timeout | preparingReady | sourceReport | cancelAck | sourceCancel | retention
  deriving DecidableEq, Repr

/-- The checks whose inputs (nodes, classes, volumes, images) are not modelled. -/
inductive Check
  | sharedBase | autoLive | liveStorage | liveBackends | volumeDetach | sourceImages | targetNode | capacity
  | identity | gpuCapacity | buildPod | dstImages | volumeAttached
  deriving DecidableEq, Repr

inductive Verdict
  | pass | fail (message : String) (reason : FailureReason) | wait (detail : String)
  deriving DecidableEq, Repr

def Check.mayWait : Check → Bool
  | .volumeDetach | .capacity | .volumeAttached => true
  | _ => false

def Check.verdict (what : Check) : Verdict → Verdict
  | .wait detail => if what.mayWait then .wait detail else .pass
  | verdict => verdict

inductive Outside
  | launcherRBAC | frozenIntent | ovnIdentity | sourceInputs | nodeIdentities
  deriving DecidableEq, Repr

inductive Op
  | getMigration | getGuest | getPod (name : String) | getProfile (name : String)
  | clock (timer : Timer) | check (what : Check) | ensure (what : Outside)
  | patchFinalizer (present : Bool)
  | patchStatus (base wanted : SwiftMigrationStatus)
  | patchStatusLocked (version : Nat) (base wanted : SwiftMigrationStatus)
  | deleteMigration
  | patchGuest (base wanted : SwiftGuest) | patchGuestStatus (base wanted : SwiftGuest)
  | createPod (name : String) (pod : Pod) | patchPod (name : String) (base wanted : Pod)
  | deletePod (name : String) (force : Bool)
  | gpu (o : GPU.Op)
  deriving DecidableEq

-- A write answers with the object as it is after it. A failure of a GPU operation is an answer.
@[reducible] def Op.Res : Op → Type
  | .getMigration | .patchFinalizer _ | .patchStatus _ _ | .patchStatusLocked _ _ _ => SwiftMigration
  | .getGuest | .patchGuest _ _ | .patchGuestStatus _ _ => SwiftGuest
  | .getPod _ | .patchPod _ _ _ => Pod
  | .getProfile _ => GPU.SwiftGPUProfileSpec
  | .clock _ => Bool
  | .check _ => Verdict
  | .ensure _ | .deleteMigration | .createPod _ _ | .deletePod _ _ => Unit
  | .gpu o => Except GPU.Err o.Res

structure World where
  migration : Option SwiftMigration
  guest : Option SwiftGuest
  pods : String → Option Pod
  profiles : String → Option GPU.SwiftGPUProfileSpec
  gpus : GPU.World

/-- What the API server can answer to any request. It does not deny an object that exists. -/
inductive Fault
  | api | conflict
  deriving DecidableEq, Repr

def Fault.err : Fault → Err
  | .api => .api
  | .conflict => .conflict

structure Choice where
  fault : Option (Fault × Bool) := none
  tick : Bool := false
  verdict : Verdict := .pass
  uid : String := ""
  time : Nat := 0
  gpu : GPU.Choice := {}

namespace World

def setMigration (w : World) (mig : Option SwiftMigration) : World := { w with migration := mig }

def setGuest (w : World) (guest : SwiftGuest) : World := { w with guest := some guest }

def setPod (w : World) (name : String) (pod : Option Pod) : World :=
  { w with pods := Function.update w.pods name pod }

def found {α β : Type} (object : Option α) (f : α → β) : Except Err β :=
  match object with
  | some a => .ok (f a)
  | none => .error .notFound

def withStatus (time : Nat) (mig : SwiftMigration) (base wanted : SwiftMigrationStatus) : SwiftMigration :=
  { mig with status := (mig.status.merge base wanted).stamped time, resourceVersion := mig.resourceVersion + 1 }

def withFinalizer (mig : SwiftMigration) (present : Bool) : SwiftMigration :=
  { mig with finalizer := present, resourceVersion := mig.resourceVersion + 1 }

/-- An object that is being deleted goes with its last finalizer. -/
def remaining (mig : SwiftMigration) : Option SwiftMigration :=
  if mig.deleting ∧ !mig.finalizer then none else some mig

def perform (w : World) (c : Choice) : (o : Op) → Except Err (World × o.Res)
  | .getMigration => found w.migration fun mig => (w, mig)
  | .getGuest => found w.guest fun guest => (w, guest)
  | .getPod name => found (w.pods name) fun pod => (w, pod)
  | .getProfile name => found (w.profiles name) fun profile => (w, profile)
  | .clock _ => .ok (w, c.tick)
  | .check what => .ok (w, what.verdict c.verdict)
  | .ensure _ => .ok (w, ())
  | .patchFinalizer present => found w.migration fun mig =>
    (w.setMigration (remaining (withFinalizer mig present)), withFinalizer mig present)
  | .patchStatus base wanted => found w.migration fun mig =>
    (w.setMigration (some (withStatus c.time mig base wanted)), withStatus c.time mig base wanted)
  | .patchStatusLocked version base wanted =>
    match w.migration with
    | none => .error .notFound
    | some mig =>
      if mig.resourceVersion = version then
        .ok (w.setMigration (some (withStatus c.time mig base wanted)), withStatus c.time mig base wanted)
      else .error .conflict
  | .deleteMigration => found w.migration fun mig =>
    (w.setMigration (remaining { mig with deleting := true, resourceVersion := mig.resourceVersion + 1 }), ())
  | .patchGuest base wanted => found w.guest fun guest =>
    (w.setGuest (guest.merge base wanted), guest.merge base wanted)
  | .patchGuestStatus base wanted => found w.guest fun guest =>
    (w.setGuest (guest.mergeStatus base wanted), guest.mergeStatus base wanted)
  | .createPod name pod =>
    match w.pods name with
    | some _ => .error .alreadyExists
    | none => .ok (w.setPod name (some { pod with uid := c.uid }), ())
  | .patchPod name base wanted => found (w.pods name) fun pod =>
    (w.setPod name (some (pod.merge base wanted)), pod.merge base wanted)
  -- with a grace period the pod stays until its node lets it go
  | .deletePod name force => found (w.pods name) fun pod =>
    (w.setPod name (if force then none else some { pod with deleting := true }), ())
  | .gpu o =>
    match w.gpus.exec c.gpu o with
    | some (gpus, answer) => .ok ({ w with gpus }, answer)
    | none => .error .api

def exec (c : Choice) (w : World) (o : Op) : Option (World × Except Err o.Res) :=
  some (withFault w (c.fault.map fun (fault, effect) => (fault.err, effect)) (w.perform c o))

end World

def Op.onMigration : Op → Bool
  | .patchFinalizer _ | .patchStatus _ _ | .patchStatusLocked _ _ _ | .deleteMigration => true
  | _ => false

def Op.writesStatus : Op → Bool
  | .patchStatus _ _ | .patchStatusLocked _ _ _ => true
  | _ => false

def Op.onGuest : Op → Bool
  | .patchGuest _ _ | .patchGuestStatus _ _ => true
  | _ => false

def Op.onNodes : Op → Bool
  | .gpu _ => true
  | _ => false

namespace World

variable {w w' : World} {c : Choice} {o : Op} {a : o.Res}

theorem found_ok {α β : Type} {object : Option α} {f : α → β} {b : β} (answer : found object f = .ok b) :
    ∃ x, object = some x ∧ f x = b := by
  cases object with
  | none => cases answer
  | some x =>
    cases answer
    exact ⟨x, rfl, rfl⟩

theorem exec_cases {r : Except Err o.Res} (action : exec c w o = some (w', r)) :
    (∃ a, r = .ok a ∧ w.perform c o = .ok (w', a)) ∨ (∃ e, r = .error e ∧ w' = w ∧ w.perform c o = .error e) ∨
      ∃ fault : Fault, r = .error fault.err ∧ (w' = w ∨ ∃ a, w.perform c o = .ok (w', a)) := by
  have done : withFault w (c.fault.map fun (fault, effect) => (fault.err, effect)) (w.perform c o) = (w', r) :=
    Option.some.inj action
  cases fault : c.fault with
  | none =>
    rw [fault] at done
    rcases withFault_none done with effect | refused
    · exact .inl effect
    · exact .inr (.inl refused)
  | some reported =>
    obtain ⟨kind, effect⟩ := reported
    rw [fault] at done
    refine .inr (.inr ⟨kind, ?_⟩)
    generalize w.perform c o = outcome at done ⊢
    cases effect <;> cases outcome <;> cases done
    case true.ok.refl => exact ⟨rfl, .inr ⟨_, rfl⟩⟩
    all_goals exact ⟨rfl, .inl rfl⟩

theorem exec_read {β : Type} {object : Option β} {f : β → o.Res} {r : Except Err o.Res}
    (reads : w.perform c o = found object fun x => (w, f x)) (action : exec c w o = some (w', r)) :
    w' = w ∧ ((∃ x, object = some x ∧ r = .ok (f x)) ∨ (object = none ∧ r = .error .notFound) ∨
      ∃ fault : Fault, r = .error fault.err) := by
  simp only [exec, reads, Option.some.injEq] at action
  cases fault : c.fault with
  | none =>
    rw [fault] at action
    cases object with
    | none =>
      cases action
      exact ⟨rfl, .inr (.inl ⟨rfl, rfl⟩)⟩
    | some x =>
      cases action
      exact ⟨rfl, .inl ⟨x, rfl, rfl⟩⟩
  | some reported =>
    obtain ⟨kind, effect⟩ := reported
    rw [fault] at action
    cases effect <;> cases object <;> cases action <;> exact ⟨rfl, .inr (.inr ⟨kind, rfl⟩)⟩

theorem perform_getPod {name : String} {pod : Pod} (done : w.perform c (.getPod name) = .ok (w', pod)) :
    w' = w ∧ w.pods name = some pod := by
  obtain ⟨x, there, same⟩ := found_ok done
  obtain ⟨rfl, rfl⟩ := Prod.mk.inj same
  exact ⟨rfl, there⟩

theorem perform_getGuest {guest : SwiftGuest} (done : w.perform c .getGuest = .ok (w', guest)) :
    w' = w ∧ w.guest = some guest := by
  obtain ⟨x, there, same⟩ := found_ok done
  obtain ⟨rfl, rfl⟩ := Prod.mk.inj same
  exact ⟨rfl, there⟩

inductive PodStep (o : Op) (name : String) (before : Option Pod) : Option Pod → Prop
  | same : PodStep o name before before
  | patch {base wanted pod : Pod} (op : o = .patchPod name base wanted) (there : before = some pod) :
      PodStep o name before (some (pod.merge base wanted))
  | create {pod : Pod} {uid : String} (op : o = .createPod name pod) (absent : before = none) :
      PodStep o name before (some { pod with uid })
  | delete {force : Bool} {pod : Pod} (op : o = .deletePod name force) (there : before = some pod) :
      PodStep o name before (if force then none else some { pod with deleting := true })

theorem setPod_pods (w : World) (name other : String) (pod : Option Pod) :
    (w.setPod name pod).pods other = if other = name then pod else w.pods other := by
  by_cases same : other = name
  · subst same
    simp [setPod]
  · simp [setPod, same]

/-- The same object, with what the status and the metadata may have become. -/
structure Rewritten (o : Op) (old mig : SwiftMigration) : Prop where
  same : { mig with
    status := old.status, finalizer := old.finalizer, deleting := old.deleting,
    resourceVersion := old.resourceVersion } = old
  status : o.writesStatus = false → mig.status = old.status

theorem remaining_eq {mig left : SwiftMigration} (remains : remaining mig = some left) : left = mig := by
  unfold remaining at remains
  split at remains <;> cases remains
  rfl

inductive Effect (o : Op) (w : World) : World → Prop
  | none : Effect o w w
  | migration {other : Option SwiftMigration} (on : o.onMigration = true)
      (old : ∀ mig, other = some mig → ∃ old, w.migration = some old ∧ Rewritten o old mig) :
      Effect o w (w.setMigration other)
  | guest (on : o.onGuest = true) (other : SwiftGuest) : Effect o w (w.setGuest other)
  | pod {name : String} {pod : Option Pod} (step : PodStep o name (w.pods name) pod) : Effect o w (w.setPod name pod)
  | gpus (on : o.onNodes = true) (gpus : GPU.World) : Effect o w { w with gpus }

theorem perform_effect (done : w.perform c o = .ok (w', a)) : Effect o w w' := by
  cases o with
  | clock | check | ensure =>
    cases done
    exact .none
  | gpu =>
    simp only [perform] at done
    split at done <;> cases done
    exact .gpus rfl _
  | patchStatusLocked =>
    simp only [perform] at done
    split at done
    · cases done
    · split at done <;> cases done
      next old there _ =>
        refine .migration rfl ?_
        rintro _ ⟨⟩
        exact ⟨old, there, rfl, nofun⟩
  | createPod =>
    simp only [perform] at done
    split at done <;> cases done
    next absent => exact .pod (.create rfl absent)
  | patchPod | deletePod =>
    obtain ⟨pod, there, same⟩ := found_ok done
    cases same
    first
    | exact .pod (.patch rfl there)
    | exact .pod (.delete rfl there)
  | patchFinalizer | deleteMigration =>
    obtain ⟨mig, there, same⟩ := found_ok done
    cases same
    refine .migration rfl fun left remains => ?_
    cases remaining_eq remains
    exact ⟨mig, there, rfl, fun _ => rfl⟩
  | patchStatus =>
    obtain ⟨mig, there, same⟩ := found_ok done
    cases same
    refine .migration rfl ?_
    rintro _ ⟨⟩
    exact ⟨mig, there, rfl, nofun⟩
  | patchGuest | patchGuestStatus =>
    obtain ⟨guest, -, same⟩ := found_ok done
    cases same
    exact .guest rfl _
  | _ =>
    obtain ⟨x, -, same⟩ := found_ok done
    cases same
    exact .none

theorem perform_old {mig : SwiftMigration} (done : w.perform c o = .ok (w', a)) (here : w'.migration = some mig) :
    ∃ old, w.migration = some old ∧ Rewritten o old mig := by
  cases perform_effect done with
  | migration _ old => exact old mig here
  | _ => exact ⟨mig, here, rfl, fun _ => rfl⟩

theorem perform_migration (away : o.onMigration = false) (done : w.perform c o = .ok (w', a)) :
    w'.migration = w.migration := by
  cases perform_effect done with
  | migration on => simp [away] at on
  | _ => rfl

theorem perform_guest (away : o.onGuest = false) (done : w.perform c o = .ok (w', a)) : w'.guest = w.guest := by
  cases perform_effect done with
  | guest on => simp [away] at on
  | _ => rfl

theorem perform_gpus (away : o.onNodes = false) (done : w.perform c o = .ok (w', a)) : w'.gpus = w.gpus := by
  cases perform_effect done with
  | gpus on => simp [away] at on
  | _ => rfl

theorem perform_pods (done : w.perform c o = .ok (w', a)) (name : String) :
    PodStep o name (w.pods name) (w'.pods name) := by
  cases perform_effect done with
  | pod step =>
    rw [setPod_pods]
    split
    · next same => exact same ▸ step
    · exact .same
  | _ => exact .same

end World

def engine : Engine Unit Choice World Op Op.Res Err where
  exec _ := World.exec
  crash _ w := w

abbrev Act := Prog Op Op.Res Err

abbrev issue (o : Op) : Act o.Res := Prog.call o

def lookup {α : Type} (act : Act α) : Act (Option α) := do
  match ← act.attempt with
  | .ok a => pure (some a)
  | .error .notFound => pure none
  | .error e => .fail e

def readGuest : Act (Option SwiftGuest) := lookup (issue .getGuest)

def readPod (name : String) : Act (Option Pod) := lookup (issue (.getPod name))

def ignoreNotFound {α : Type} (act : Act α) : Act Unit := do
  let _ ← lookup act
  pure ()

section Lookup

variable {Pid W α : Type} {M : Machine Pid W Op Op.Res Err} {S : Spec Pid W Op} {p : Pid} {w : W}

def onFound (Q : Except Err (Option α) → W → Prop) : Except Err α → W → Prop
  | .ok a, w => Q (.ok (some a)) w
  | .error .notFound, w => Q (.ok none) w
  | .error e, w => Q (.error e) w

theorem wp_lookup (act : Act α) (Q : Except Err (Option α) → W → Prop) :
    wp M S p (lookup act) Q = wp M S p act (onFound Q) := by
  simp only [lookup, wp_bind, wp_attempt]
  congr 1
  funext r w
  rcases r with (_ | _ | _ | _ | _ | _) | a <;> rfl

theorem onFound_fault {Q : Except Err (Option α) → W → Prop} (fault : Fault) (error : ∀ e, Q (.error e) w) :
    onFound Q (.error fault.err) w := by
  cases fault <;> exact error _

theorem wp_ignoreNotFound {act : Act α} (once : wp M S p act (fun _ _ => True) w) :
    wp M S p (ignoreNotFound act) (fun _ _ => True) w := by
  rw [ignoreNotFound, wp_bind, wp_lookup]
  refine wp_mono ?_ once
  intro r w _
  rcases r with (_ | _ | _ | _ | _ | _) | a <;> trivial

end Lookup

def onGPUs {α : Type} (act : GPU.Act α) : Act α :=
  Prog.lift Op.gpu (fun _ answer => answer) Err.gpu act

theorem onGPUs_bind {α β : Type} (act : GPU.Act α) (f : α → GPU.Act β) :
    onGPUs (act >>= f) = onGPUs act >>= fun a => onGPUs (f a) :=
  Prog.lift_bind act f

theorem onGPUs_issue (o : GPU.Op) :
    onGPUs (GPU.issue o) = issue (.gpu o) >>= fun answer => Prog.ofExcept (answer.mapError Err.gpu) :=
  Prog.lift_call o

theorem onGPUs_attempt (o : GPU.Op) : onGPUs (GPU.issue o).attempt = issue (.gpu o) >>= fun answer => pure answer :=
  Prog.lift_attempt_call o

section Yields

variable {A : Op → Prop} {R : ∀ o : Op, Except Err o.Res → Prop} {α : Type}

theorem yields_lookup {act : Act α} {V : Option α → Prop} (yields : act.Yields A R (fun a => V (some a)))
    (absent : V none) : (lookup act).Yields A R V := by
  let U : Except Err α → Prop := fun
    | .ok a => V (some a)
    | .error _ => True
  have first : act.attempt.Yields A R U := yields_attempt yields fun _ => trivial
  refine yields_seq first ?_
  intro r found
  cases r with
  | ok a => exact found
  | error e => cases e <;> first | exact absent | trivial

theorem yields_readPod {name : String} {V : Option Pod → Prop} (issued : A (.getPod name))
    (answers : ∀ pod, V pod) : (readPod name).Yields A R V :=
  yields_lookup (yields_call issued fun pod _ => answers (some pod)) (answers none)

theorem yields_onPod {name : String} {β : Type} {f : Option Pod → Act β} {V : β → Prop} (issued : A (.getPod name))
    (rest : ∀ pod, (f pod).Yields A R V) : (readPod name >>= f).Yields A R V :=
  yields_then (yields_readPod issued fun _ => trivial) rest

theorem yields_ignoreNotFound {act : Act α} (yields : act.Yields A R (fun _ => True)) :
    (ignoreNotFound act).Yields A R (fun _ => True) :=
  yields_then (yields_lookup yields trivial) fun _ => trivial

theorem yields_onGPUs (act : GPU.Act α) (all : ∀ o, A (.gpu o)) : (onGPUs act).Yields A R (fun _ => True) :=
  yields_lift act all

end Yields

end KubeSwift.Migration
