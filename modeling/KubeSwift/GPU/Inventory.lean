import Mathlib

/-! # A node's GPU inventory and the choice of GPUs from it

`api/gpu/v1alpha1`, and the pure functions of `swiftgpu` and `cmd/gpu-discovery`. -/

namespace KubeSwift.GPU

structure GPUHardware where
  index : Int
  pciAddress : String
  vendor : String
  model : String
  deviceID : String
  numaNode : Int
  iommuGroup : Int
  driver : String
  barSizes : List (Int × Int)
  deriving DecidableEq

structure GPUDevice extends GPUHardware where
  allocated : Bool
  allocatedTo : String
  deriving DecidableEq

structure FMPartitionStatus where
  id : Int
  gpuIndices : List Int
  active : Bool
  allocatedTo : String
  deriving DecidableEq

structure FabricManagerStatus where
  installed : Bool
  version : String
  running : Bool
  partitions : List FMPartitionStatus
  deriving DecidableEq

inductive Phase
  | unset | discovering | ready | error
  deriving DecidableEq, Repr

structure SwiftGPUNodeStatus where
  phase : Phase
  gpuCount : Nat
  freeGPUs : Nat
  gpuModel : String
  gpuVendor : String
  vfioReady : Bool
  gpus : List GPUDevice
  fabricManager : Option FabricManagerStatus
  deriving DecidableEq

def SwiftGPUNodeStatus.empty : SwiftGPUNodeStatus := ⟨.unset, 0, 0, "", "", false, [], none⟩

inductive PartitionMode
  | isolated | shared | full
  deriving DecidableEq, Repr

structure SwiftGPUProfileSpec where
  count : Nat
  model : String
  partitionMode : PartitionMode
  requiredVersion : Option String
  deriving DecidableEq

def containsText (s sub : String) : Bool := sub.toList <:+: s.toList

def matchesModel (model filter : String) : Bool := filter = "" || containsText model filter

def countFreeGPUs (gpus : List GPUDevice) : Nat := gpus.countP fun g => !g.allocated

def numaSetToSlice (numas : List Int) : List Int := numas.dedup.insertionSort (· ≤ ·)

def freeGPUsOf (gpus : List GPUDevice) (model : String) : List GPUDevice :=
  gpus.filter fun g => !g.allocated && matchesModel g.model model

def pickAcross (free : List GPUDevice) (count : Nat) : List Int → List GPUDevice
  | [] => []
  | numa :: numas =>
    let here := (free.filter fun g => g.numaNode = numa).take count
    here ++ pickAcross free (count - here.length) numas

def selectGPUs (gpus : List GPUDevice) (count : Nat) (model : String) : Option (List GPUDevice × List Int) :=
  let free := freeGPUsOf gpus model
  if free.length < count then none
  else
    let numaKeys := numaSetToSlice (free.map fun g => g.numaNode)
    match numaKeys.find? fun numa => count ≤ (free.filter fun g => g.numaNode = numa).length with
    | some numa => some ((free.filter fun g => g.numaNode = numa).take count, [numa])
    | none =>
      let picked := pickAcross free count numaKeys
      -- an empty slice that was never appended to is nil
      if picked = [] then none else some (picked, numaSetToSlice (picked.map fun g => g.numaNode))

/-- The entry of a map filled in list order: the last GPU with the index. -/
def byIndex (gpus : List GPUDevice) (idx : Int) : Option GPUDevice :=
  gpus.reverse.find? fun g => g.index = idx

def partitionMembers (gpus : List GPUDevice) (model : String) (p : FMPartitionStatus) : Option (List GPUDevice) :=
  p.gpuIndices.mapM fun idx =>
    (byIndex gpus idx).filter fun g => !g.allocated && matchesModel g.model model

structure PartitionChoice where
  gpus : Option (List GPUDevice)
  numaNodes : List Int
  partitionID : Int

-- `fallback` is the first choice whose members lie on several NUMA nodes; its id is negative while
-- there is none.
def choosePartition (gpus : List GPUDevice) (count : Nat) (model : String) :
    List FMPartitionStatus → PartitionChoice → PartitionChoice
  | [], fallback => fallback
  | p :: ps, fallback =>
    if p.gpuIndices.length ≠ count ∨ p.allocatedTo ≠ "" then choosePartition gpus count model ps fallback
    else
      match partitionMembers gpus model p with
      | none => choosePartition gpus count model ps fallback
      | some members =>
        let numas := numaSetToSlice (members.map fun g => g.numaNode)
        if numas.length = 1 then ⟨some members, numas, p.id⟩
        else if fallback.partitionID < 0 then
          choosePartition gpus count model ps ⟨some members, numas, p.id⟩
        else choosePartition gpus count model ps fallback

def selectPartitionGPUs (st : SwiftGPUNodeStatus) (count : Nat) (model : String) : PartitionChoice :=
  match st.fabricManager with
  | none => ⟨none, [], -1⟩
  | some fm =>
    if fm.running then choosePartition st.gpus count model fm.partitions ⟨none, [], -1⟩
    else ⟨none, [], -1⟩

def fmVersionCompatible (st : SwiftGPUNodeStatus) (profile : SwiftGPUProfileSpec) : Bool :=
  if profile.partitionMode ≠ .shared then true
  else match profile.requiredVersion with
    | none => true
    | some version => version = "" || (st.fabricManager.map fun fm => fm.version) = some version

def select (st : SwiftGPUNodeStatus) (profile : SwiftGPUProfileSpec) : Option (List GPUDevice × List Int × Int) :=
  if profile.partitionMode = .shared then
    let choice := selectPartitionGPUs st profile.count profile.model
    choice.gpus.map fun gpus => (gpus, choice.numaNodes, choice.partitionID)
  else (selectGPUs st.gpus profile.count profile.model).map fun (gpus, numas) => (gpus, numas, -1)

def markGPU (selected : List GPUDevice) (allocatedTo : String) (g : GPUDevice) : GPUDevice :=
  if selected.any fun s => s.pciAddress = g.pciAddress then { g with allocated := true, allocatedTo }
  else g

def markPartition (partitionID : Int) (allocatedTo : String) (p : FMPartitionStatus) : FMPartitionStatus :=
  if 0 ≤ partitionID ∧ p.id = partitionID then { p with allocatedTo } else p

def FabricManagerStatus.mapPartitions (f : FMPartitionStatus → FMPartitionStatus) (fm : FabricManagerStatus) :
    FabricManagerStatus :=
  { fm with partitions := fm.partitions.map f }

def SwiftGPUNodeStatus.mark (st : SwiftGPUNodeStatus) (selected : List GPUDevice) (partitionID : Int)
    (allocatedTo : String) : SwiftGPUNodeStatus :=
  let gpus := st.gpus.map (markGPU selected allocatedTo)
  { st with
    gpus
    fabricManager := st.fabricManager.map (·.mapPartitions (markPartition partitionID allocatedTo))
    freeGPUs := countFreeGPUs gpus }

def clearGPU (allocatedTo : String) (g : GPUDevice) : GPUDevice :=
  if g.allocatedTo = allocatedTo then { g with allocated := false, allocatedTo := "" } else g

def clearPartition (allocatedTo : String) (p : FMPartitionStatus) : FMPartitionStatus :=
  if p.allocatedTo = allocatedTo then { p with allocatedTo := "" } else p

def SwiftGPUNodeStatus.clear (st : SwiftGPUNodeStatus) (allocatedTo : String) : SwiftGPUNodeStatus :=
  let gpus := st.gpus.map (clearGPU allocatedTo)
  { st with
    gpus
    fabricManager := st.fabricManager.map (·.mapPartitions (clearPartition allocatedTo))
    freeGPUs := countFreeGPUs gpus }

def SwiftGPUNodeStatus.partitions (st : SwiftGPUNodeStatus) : List FMPartitionStatus :=
  (st.fabricManager.map fun fm => fm.partitions).getD []

def SwiftGPUNodeStatus.holds (st : SwiftGPUNodeStatus) (allocatedTo : String) : Bool :=
  (st.gpus.any fun g => g.allocatedTo = allocatedTo) ||
    st.partitions.any fun p => p.allocatedTo = allocatedTo

def SwiftGPUNodeStatus.existing (st : SwiftGPUNodeStatus) (allocatedTo : String) : List GPUDevice :=
  st.gpus.filter fun g => g.allocatedTo = allocatedTo

def SwiftGPUNodeStatus.existingPartition (st : SwiftGPUNodeStatus) (allocatedTo : String) : Int :=
  ((st.partitions.reverse.find? fun p => p.allocatedTo = allocatedTo).map fun p => p.id).getD (-1)

structure Discovered where
  gpus : List GPUHardware
  fabricManager : Option FabricManagerStatus
  vfioReady : Bool

def SwiftGPUNodeStatus.byAddress (st : SwiftGPUNodeStatus) (pciAddress : String) : Option GPUDevice :=
  st.gpus.reverse.find? fun g => g.pciAddress = pciAddress

def mergeGPU (existing : SwiftGPUNodeStatus) (dg : GPUHardware) : GPUDevice :=
  match existing.byAddress dg.pciAddress with
  | some eg => { dg with allocated := eg.allocated, allocatedTo := eg.allocatedTo }
  | none => { dg with allocated := false, allocatedTo := "" }

def mergePartition (existing : SwiftGPUNodeStatus) (p : FMPartitionStatus) : FMPartitionStatus :=
  match existing.partitions.reverse.find? fun e => e.id = p.id with
  | some e => { p with allocatedTo := e.allocatedTo }
  | none => p

def removedAllocated (discovered : Discovered) (existing : SwiftGPUNodeStatus) : Bool :=
  existing.gpus.any fun eg =>
    eg.allocated && !discovered.gpus.any fun dg => dg.pciAddress = eg.pciAddress

def mergeStatus (discovered : Discovered) (existing : SwiftGPUNodeStatus) : SwiftGPUNodeStatus :=
  let gpus := discovered.gpus.map (mergeGPU existing)
  { phase := if removedAllocated discovered existing then .error else .ready
    gpuCount := gpus.length
    freeGPUs := countFreeGPUs gpus
    gpuModel := (gpus.head?.map fun g => g.model).getD ""
    gpuVendor := (gpus.head?.map fun g => g.vendor).getD ""
    vfioReady := discovered.vfioReady
    gpus
    fabricManager := discovered.fabricManager.map (·.mapPartitions (mergePartition existing)) }

/-- The merge writes the partitions' allocations into the discovered list itself, where a second merge starts. -/
def Discovered.afterMerge (discovered : Discovered) (existing : SwiftGPUNodeStatus) : Discovered :=
  { discovered with
    fabricManager := discovered.fabricManager.map (·.mapPartitions (mergePartition existing)) }

end KubeSwift.GPU
