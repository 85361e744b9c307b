import KubeSwift.Program.Concurrent
import KubeSwift.GPU.Inventory

/-! # The writers of `SwiftGPUNode` status

The API server keeps every version of a status. A read yields some version; a locked write succeeds only while the
version it was computed from is current. -/

namespace KubeSwift.GPU
open Program

inductive Err
  | noCapacity | fmVersionMismatch (required : String)
  | notFound | alreadyExists | conflict | api
  | notVfioReady (node : String) | notEnoughFree (node : String) (free need : Nat)
  | modelMismatch (node gpuModel model : String)
  | nodeVersionMismatch (node fmVersion required : String)
  | noFreePartition (node : String) (count : Nat) | cannotSelect (node : String) (count : Nat)
  deriving DecidableEq, Repr

structure KubeNode where
  unschedulable : Bool
  labels : List (String × String)
  deriving DecidableEq

structure NodeConstraint where
  requiredNode : String
  nodeSelector : List (String × String)
  deriving DecidableEq

structure SwiftGPUNode where
  name : String
  resourceVersion : Nat
  status : SwiftGPUNodeStatus
  deriving DecidableEq

structure World where
  versions : String → List SwiftGPUNodeStatus

inductive Op
  | list | get (name : String) | getNode (name : String)
  | update (name : String) (version : Nat) (status : SwiftGPUNodeStatus)
  | create (name : String) | patchPhase (name : String) (phase : Phase)
  deriving DecidableEq

@[reducible] def Op.Res : Op → Type
  | .list => List SwiftGPUNode
  | .get _ => SwiftGPUNode
  | .getNode _ => KubeNode
  | .update _ _ _ | .create _ | .patchPhase _ _ => Unit

structure Choice where
  fault : Option (Err × Bool) := none
  listing : List (String × Nat) := []
  version : Option Nat := none
  node : Option KubeNode := none

namespace World

def push (w : World) (name : String) (st : SwiftGPUNodeStatus) : World :=
  ⟨Function.update w.versions name (w.versions name ++ [st])⟩

def read (w : World) (name : String) (version : Nat) : Option SwiftGPUNode :=
  (w.versions name)[version]?.map fun st => ⟨name, version, st⟩

def perform (w : World) (c : Choice) : (o : Op) → Except Err (World × o.Res)
  | .list => .ok (w, c.listing.filterMap fun (name, version) => w.read name version)
  | .get name =>
    match c.version.bind (w.read name) with
    | some n => .ok (w, n)
    | none => .error .notFound
  | .getNode _ =>
    match c.node with
    | some node => .ok (w, node)
    | none => .error .notFound
  | .update name version st =>
    if (w.versions name).length = version + 1 then .ok (w.push name st, ()) else .error .conflict
  | .create name =>
    if w.versions name = [] then .ok (w.push name .empty, ()) else .error .alreadyExists
  | .patchPhase name phase =>
    match (w.versions name).getLast? with
    | some st => .ok (w.push name { st with phase }, ())
    | none => .error .notFound

def exec (c : Choice) (w : World) (o : Op) : Option (World × Except Err o.Res) :=
  some (withFault w c.fault (w.perform c o))

end World

def engine : Engine Nat Choice World Op Op.Res Err where
  exec _ := World.exec
  crash _ w := w

abbrev Act := Prog Op Op.Res Err

abbrev issue (o : Op) : Act o.Res := Prog.call o

structure Allocation where
  node : String
  gpus : List GPUDevice
  numaNodes : List Int
  partitionID : Int
  deriving DecidableEq

def selects (selector labels : List (String × String)) : Bool := selector.all fun pair => labels.contains pair

def nodeUsable (n : SwiftGPUNode) (nc : NodeConstraint) : Act Bool :=
  if !n.status.vfioReady || (n.status.phase ≠ .unset && n.status.phase ≠ .ready) then pure false
  else if nc.requiredNode ≠ "" && n.name ≠ nc.requiredNode then pure false
  else do
    match ← (issue (.getNode n.name)).attempt with
    | .error .notFound => pure false
    | .error e => .fail e
    | .ok node => pure (!node.unschedulable && selects nc.nodeSelector node.labels)

def held (allocatedTo : String) (n : SwiftGPUNode) : Option Allocation :=
  let existing := n.status.existing allocatedTo
  if existing = [] then none
  else some ⟨n.name, existing, numaSetToSlice (existing.map fun g => g.numaNode),
    n.status.existingPartition allocatedTo⟩

-- The preferred node's record wins over the first one found.
def findHeld (allocatedTo preferredNode : String) : List SwiftGPUNode → Option Allocation → Option Allocation
  | [], fallback => fallback
  | n :: ns, fallback =>
    match held allocatedTo n with
    | none => findHeld allocatedTo preferredNode ns fallback
    | some found =>
      if preferredNode ≠ "" ∧ n.name = preferredNode then some found
      else findHeld allocatedTo preferredNode ns (fallback.or (some found))

def commit (n : SwiftGPUNode) (allocatedTo : String) (selection : List GPUDevice × List Int × Int) :
    Act Allocation := do
  let (gpus, numaNodes, partitionID) := selection
  issue (.update n.name n.resourceVersion (n.status.mark gpus partitionID allocatedTo))
  pure ⟨n.name, gpus, numaNodes, partitionID⟩

def allocateOn (allocatedTo : String) (profile : SwiftGPUProfileSpec) (nc : NodeConstraint) :
    List SwiftGPUNode → Bool → Act Allocation
  | [], mismatch =>
    .fail (if mismatch then .fmVersionMismatch (profile.requiredVersion.getD "") else .noCapacity)
  | n :: ns, mismatch =>
    if n.status.freeGPUs < profile.count then allocateOn allocatedTo profile nc ns mismatch
    else do
      let usable ← nodeUsable n nc
      if !usable then allocateOn allocatedTo profile nc ns mismatch
      else if !matchesModel n.status.gpuModel profile.model then allocateOn allocatedTo profile nc ns mismatch
      else if !fmVersionCompatible n.status profile then allocateOn allocatedTo profile nc ns true
      else match select n.status profile with
        | none => allocateOn allocatedTo profile nc ns mismatch
        | some selection => commit n allocatedTo selection

def findAndAllocateFor (allocatedTo preferredNode : String) (profile : SwiftGPUProfileSpec)
    (nc : NodeConstraint) : Act Allocation := do
  let nodes ← issue .list
  match findHeld allocatedTo preferredNode nodes none with
  | some found => pure found
  | none => allocateOn allocatedTo profile nc nodes false

def reserveOnNode (allocatedTo : String) (profile : SwiftGPUProfileSpec) (nodeName : String) : Act Allocation := do
  let n ← issue (.get nodeName)
  match held allocatedTo n with
  | some found => pure found
  | none =>
    if !n.status.vfioReady then .fail (.notVfioReady nodeName)
    else if n.status.freeGPUs < profile.count then
      .fail (.notEnoughFree nodeName n.status.freeGPUs profile.count)
    else if !matchesModel n.status.gpuModel profile.model then
      .fail (.modelMismatch nodeName n.status.gpuModel profile.model)
    else if !fmVersionCompatible n.status profile then
      .fail (.nodeVersionMismatch nodeName
        ((n.status.fabricManager.map fun fm => fm.version).getD "<no Fabric Manager reported>")
        (profile.requiredVersion.getD ""))
    else match select n.status profile with
      | none =>
        .fail (if profile.partitionMode = .shared then .noFreePartition nodeName profile.count
          else .cannotSelect nodeName profile.count)
      | some selection => commit n allocatedTo selection

def clearOn (allocatedTo : String) (n : SwiftGPUNode) : Act Unit :=
  if n.status.holds allocatedTo then issue (.update n.name n.resourceVersion (n.status.clear allocatedTo))
  else pure ()

def releaseFromNodeFor (allocatedTo nodeName : String) : Act Unit :=
  if nodeName = "" then pure ()
  else do
    match ← (issue (.get nodeName)).attempt with
    | .error .notFound => pure ()
    | .error e => .fail e
    | .ok n => clearOn allocatedTo n

def releaseEach (allocatedTo : String) : List String → Act Unit
  | [] => pure ()
  | name :: names => do
    releaseFromNodeFor allocatedTo name
    releaseEach allocatedTo names

def deallocateForWorkload (allocatedTo : String) : Act Unit := do
  let nodes ← issue .list
  releaseEach allocatedTo (nodes.map fun n => n.name)

-- `retry.RetryOnConflict` with its default of five attempts.
def publishWithin (name : String) : Nat → Discovered → Act Unit
  | 0, _ => .fail .conflict
  | attempts + 1, discovered => do
    let n ← issue (.get name)
    match ← (issue (.update name n.resourceVersion (mergeStatus discovered n.status))).attempt with
    | .ok _ => pure ()
    | .error .conflict => publishWithin name attempts (discovered.afterMerge n.status)
    | .error e => .fail e

def ensureNode (name : String) : Except Err SwiftGPUNode → Act SwiftGPUNode
  | .ok n => pure n
  | .error .notFound => do
    issue (.create name)
    issue (.get name)
  | .error e => .fail e

-- The first merge is thrown away, but what it wrote into the discovered partitions stays.
def publishStatus (name : String) (discovered : Discovered) : Act Unit := do
  let read ← (issue (.get name)).attempt
  let _ ← ensureNode name read
  publishWithin name 5 (discovered.afterMerge (match read with | .ok n => n.status | .error _ => .empty))

def reportError (name : String) : Act Unit := do
  let n ← issue (.get name)
  if n.status.phase = .error then pure () else issue (.patchPhase name .error)

end KubeSwift.GPU
