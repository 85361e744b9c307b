import KubeSwift.Program.Handlers
import KubeSwift.GPU.Allocator
import KubeSwift.Sandbox.Artifacts
import KubeSwift.Sandbox.Slots

/-! # The GPUs of a warm pool's slots

A slot's GPU is a record in a node's status under the slot's name. The pool releases it once no pod of that name may
hold it, and goes only after that. -/

namespace KubeSwift.Sandbox.PoolGPU
open Program
open Workload (cutPrefix)

def slotSuffixLen := 5

def isSlotSuffix (suffix : String) : Bool :=
  suffix.toList.length = slotSuffixLen && suffix.toList.all fun c => ('a' ≤ c && c ≤ 'z') || ('0' ≤ c && c ≤ '9')

def isPoolSlotName (pool name : String) : Bool := ((cutPrefix name (pool ++ "-slot-")).map isSlotSuffix).getD false

def idPrefix (ns : String) : String := "sandbox:" ++ ns ++ "/"

def slotGPUAllocatedTo (ns slotName : String) : String := idPrefix ns ++ slotName

def slotOf (ns pool allocatedTo : String) : Option String :=
  (cutPrefix allocatedTo (idPrefix ns)).filter (isPoolSlotName pool)

structure State where
  slots : World
  created : List Nat
  sandboxes : List String
  gpus : GPU.World
  nodes : List String
  pools : String → List SwiftSandboxPool
  /-- What GPUs were allocated to for slots. No call reads it. -/
  warmed : List String

def ended (m : Manifest) : Bool := m.phase = .succeeded || m.phase = .failed

def State.podNow (st : State) (uid : Nat) : Option Manifest :=
  ((st.slots.versions uid).getLast?.map fun e => e.manifest).filter fun m => st.slots.live m.name = some uid

def State.podsNow (st : State) : List Manifest := st.created.filterMap st.podNow

def State.recorded (st : State) (node : String) : List String :=
  (((st.gpus.versions node).getLast?.map fun status => status.gpus).getD []).map fun g => g.allocatedTo

inductive Own
  | getPool (name : String)
  | patchFinalizers (name : String) (present : Bool)
  | listPods (pool : String)
  | getSandbox (name : String)
  | visit (names : List String)
  | deleteSlot (pod : Pod)
  /-- The pool's profile is read and GPUs are marked on some node, unless a node has a record already. -/
  | allocate (id : String)
  | createSandbox (name : String)

@[reducible] def Own.Res : Own → Type
  | .getPool _ => SwiftSandboxPool
  | .listPods _ => List Manifest
  | .getSandbox _ => Bool
  | .visit _ => List String
  | .patchFinalizers _ _ | .deleteSlot _ | .allocate _ | .createSandbox _ => Unit

inductive Call
  | slot (o : Op)
  | gpu (o : GPU.Op)
  | own (o : Own)

@[reducible] def Call.Res : Call → Type
  | .slot o => Except Err o.Res
  | .gpu o => Except GPU.Err o.Res
  | .own o => o.Res

/-- What the environment decides: for slot pods and nodes as before, whether another call fails, which version of a pool
is read, the order of a map, and the GPUs of an allocation. -/
structure Pick where
  slot : Choice
  gpu : GPU.Choice := {}
  fault : Option Bool := none
  version : Nat := 0
  order : List String := []
  place : Option (String × List GPU.GPUDevice × Int) := none
  gone : Bool := true

namespace State

def rewrite (st : State) (name : String) (f : Manifest → Manifest) : State :=
  { st with slots := st.slots.rewrite name f }

def forget (st : State) (name : String) : State :=
  { st with slots := { st.slots with live := Function.update st.slots.live name none } }

def perform (st : State) (c : Pick) : (o : Own) → Except Err (State × o.Res)
  | .getPool name =>
    match (st.pools name)[c.version]? with
    | some pool => .ok (st, pool)
    | none => .error .notFound
  | .patchFinalizers name present =>
    -- a pool that is gone is no error
    match (st.pools name).getLast? with
    | some pool => .ok ({ st with pools := append st.pools name { pool with gpuFinalizer := present } }, ())
    | none => .ok (st, ())
  | .listPods pool => .ok (st, st.podsNow.filter fun m => m.labels poolLabelKey = some pool)
  | .getSandbox name => .ok (st, st.sandboxes.contains name)
  | .visit names => .ok (st, if c.order.isPerm names then c.order else names)
  | .deleteSlot pod =>
    if st.slots.live pod.name = none then .error .notFound
    else if st.slots.current pod then
      let st := st.rewrite pod.name fun m => { m with deletionTimestamp := true }
      .ok (if c.gone then st.forget pod.name else st, ())
    else .error .conflict
  | .allocate id =>
    match c.place with
    | none => .error .noCapacity
    | some (node, gpus, partition) =>
      match (st.gpus.versions node).getLast? with
      | none => .error .noCapacity
      | some status =>
        let st := { st with warmed := id :: st.warmed }
        if status.existing id = [] then
          .ok ({ st with gpus := st.gpus.push node (status.mark gpus partition id) }, ())
        else .ok (st, ())
  | .createSandbox name => .ok ({ st with sandboxes := name :: st.sandboxes }, ())

def exec (c : Pick) (p : Actor) (st : State) : (o : Call) → Option (State × Except Err o.Res)
  | .slot o => (st.slots.exec c.slot p o).map fun done => ({ st with
      slots := done.1
      created := match o with
        | .create _ => c.slot.uid :: st.created
        | _ => st.created }, .ok done.2)
  | .gpu o => (st.gpus.exec c.gpu o).map fun done => ({ st with gpus := done.1 }, .ok done.2)
  | .own o => some (withFault st (c.fault.map fun effect => (.other, effect)) (st.perform c o))

end State

def poolEngine : Engine Actor Pick State Call Call.Res Err where
  exec p c st o := st.exec c p o
  crash _ st := st

abbrev Pass := Prog Call Call.Res Err

abbrev own (o : Own) : Pass o.Res := Prog.call (Call.own o)

def onGPUs {α : Type} (act : GPU.Act α) : Pass α := act.lift Call.gpu (fun _ answer => answer) fun _ => .other

/-- A sandbox of a slot's name owns the record. -/
def releaseOrphans (ns : String) : List String → Pass Unit
  | [] => return
  | name :: names => do
    if ← own (.getSandbox name) then releaseOrphans ns names
    else do
      onGPUs (GPU.deallocateForWorkload (slotGPUAllocatedTo ns name))
      releaseOrphans ns names

def reconcileSlotGPUGC (ns pool : String) : Pass Bool := do
  let pods ← own (.listPods pool)
  let live := (pods.filter fun m => !ended m).map fun m => m.name
  let nodes ← onGPUs (GPU.issue .list)
  let names := (nodes.flatMap fun n => n.status.gpus.map fun g => g.allocatedTo).filterMap (slotOf ns pool)
  let orphans ← own (.visit (names.filter fun name => !live.contains name).dedup)
  releaseOrphans ns orphans
  return names.any live.contains

def body (ns pool : String) : (o : Op) → Pass (Except Err o.Res)
  | .external (.getPool name) => (own (.getPool name)).attempt
  | .external (.patchFinalizers name present) => (own (.patchFinalizers name present)).attempt
  | .external (.allocateSlotGPU slot) => (own (.allocate (slotGPUAllocatedTo ns slot))).attempt
  | .external .reconcileSlotGPUGC => (reconcileSlotGPUGC ns pool).attempt
  | .delete pod => (own (.deleteSlot pod)).attempt
  | o => Prog.call (Call.slot o)

def reconcileGPUPool (ns : String) (hex : String → String) (pool : String) : Pass Unit :=
  (reconcile hex pool).handle (body ns pool) id

inductive Happening
  | slot (event : Event)
  | claim (name sandbox : String)
  | sandbox (name : String)
  | unsandbox (name : String)
  | edit (name : String) (pool : SwiftSandboxPool)
  /-- Anyone else writes a node's status (discovery, guests, sandboxes) but allocates nothing to a pool's slot. -/
  | node (name : String) (status : GPU.SwiftGPUNodeStatus)

namespace State

def staysEnded (st : State) : Event → Bool
  | .report name phase _ _ =>
    match (st.slots.live name).bind fun uid => (st.slots.versions uid).getLast? with
    | some e => !ended e.manifest || phase = .succeeded || phase = .failed
    | none => true
  | _ => true

def foreign (st : State) (node id : String) : Bool := (st.recorded node).contains id || !st.warmed.contains id

def happens (st : State) : Happening → State
  | .slot event => if st.staysEnded event then { st with slots := st.slots.event event } else st
  | .claim name sandbox => st.rewrite name fun m => { m with
      labels := (m.labels.set slotStateLabelKey slotStateClaimed).set sandboxLabelKey sandbox
      ownerReferences := [⟨"SwiftSandbox", sandbox, sandbox, true⟩] }
  | .sandbox name => { st with sandboxes := name :: st.sandboxes }
  | .unsandbox name => { st with sandboxes := st.sandboxes.filter fun other => other ≠ name }
  | .edit name pool => { st with pools := append st.pools name { pool with name } }
  | .node name status =>
    if name ≠ "" ∧ status.gpus.all fun g => st.foreign name g.allocatedTo then
      { st with
        gpus := st.gpus.push name status
        nodes := if st.nodes.contains name then st.nodes else name :: st.nodes }
    else st

end State

/-- New slots get a suffix of the right shape. A node that cannot be read is not said to be missing. -/
def Pick.honest (o : Call) (c : Pick) : Bool :=
  (match o with
    | .slot (.external .newSlotSuffix) =>
      match c.slot.answer .newSlotSuffix with
      | .ok suffix => isSlotSuffix suffix
      | .error _ => true
    | _ => true) &&
  match c.gpu.fault with
    | some (e, _) => e = .api
    | none => true

def poolMachine : Machine Actor State Call Call.Res Err :=
  poolEngine.machine (fun _ _ o c => c.honest o = true) (fun _ _ => True)

def pools (ns : String) (hex : String → String) : Setting Actor State Call Call.Res Err where
  env st st' := ∃ event, st' = st.happens event
  quiet _ _ := False
  offered p prog := ∃ pool, p = .pool pool ∧ prog = reconcileGPUPool ns hex pool

def emptyNamespace : State := ⟨⟨fun _ => [], fun _ => none⟩, [], [], ⟨fun _ => []⟩, [], fun _ => [], []⟩

end KubeSwift.Sandbox.PoolGPU
