import KubeSwift.GPU.Allocator
import KubeSwift.GPU.Selection
import KubeSwift.Program.Sequential

/-! # The preflight check of a node (`GPUNodeHasCapacity`) against the reservation (`ReserveOnNode`) -/

namespace KubeSwift.GPU
open Program

def gpuNodeHasCapacity (profile : SwiftGPUProfileSpec) (nodeName : String) : Act Unit := do
  let n ← issue (.get nodeName)
  if !n.status.vfioReady then .fail (.notVfioReady nodeName)
  else if n.status.freeGPUs < profile.count then .fail (.notEnoughFree nodeName n.status.freeGPUs profile.count)
  else if !matchesModel n.status.gpuModel profile.model then
    .fail (.modelMismatch nodeName n.status.gpuModel profile.model)
  else if !fmVersionCompatible n.status profile then
    .fail (.nodeVersionMismatch nodeName
      ((n.status.fabricManager.map fun fm => fm.version).getD "<no Fabric Manager reported>")
      (profile.requiredVersion.getD ""))
  else if profile.partitionMode = .shared ∧ (selectPartitionGPUs n.status profile.count profile.model).gpus = none then
    .fail (.noFreePartition nodeName profile.count)
  else pure ()

def passesGates (st : SwiftGPUNodeStatus) (profile : SwiftGPUProfileSpec) : Bool :=
  st.vfioReady && profile.count ≤ st.freeGPUs && matchesModel st.gpuModel profile.model &&
    fmVersionCompatible st profile

def counts : List Nat := [1, 2, 4, 8]

structure Recording (st : SwiftGPUNodeStatus) : Prop where
  marked : ∀ g ∈ st.gpus, g.allocated = true ↔ g.allocatedTo ≠ ""
  free : st.freeGPUs = countFreeGPUs st.gpus

/-- Where both pass the checks they share, enough of the free GPUs match the profile's model themselves. -/
def Reservable (st : SwiftGPUNodeStatus) (profile : SwiftGPUProfileSpec) : Prop :=
  profile.partitionMode = .shared ∨
    (passesGates st profile → profile.count ≤ (freeGPUsOf st.gpus profile.model).length)

def calmly (w : World) (name : String) : Choice where
  version := some ((w.versions name).length - 1)

variable {st : SwiftGPUNodeStatus} {profile : SwiftGPUProfileSpec} {w : World} {id name : String}

theorem selectGPUs_isSome {gpus : List GPUDevice} {count : Nat} {model : String} (some_asked : 0 < count) :
    (selectGPUs gpus count model).isSome ↔ count ≤ (freeGPUsOf gpus model).length := by
  rcases selectGPUs_cases gpus count model with ⟨few | none_asked, refused⟩ | ⟨l, numas, enough, picked, taken⟩
  · simpa [refused] using few
  · omega
  · simp only [picked, Option.isSome_some, true_iff]
    rcases taken with ⟨numa, rfl⟩ | ⟨all, -⟩
    · exact enough.trans (List.length_filter_le ..)
    · exact enough.trans all.length_eq.le

theorem drive_get {α : Type} (newest : (w.versions name).getLast? = some st) (f : SwiftGPUNode → Act α)
    (rest : List Choice) : drive engine 0 (calmly w name :: rest) (issue (.get name) >>= f) w =
      drive engine 0 rest (f ⟨name, (w.versions name).length - 1, st⟩) w := by
  have found : w.read name ((w.versions name).length - 1) = some ⟨name, (w.versions name).length - 1, st⟩ := by
    rw [World.read, ← List.getLast?_eq_getElem?, newest, Option.map_some]
  have done : engine.exec 0 (calmly w name) w (.get name) = some (w, .ok ⟨name, (w.versions name).length - 1, st⟩) := by
    simp only [engine, World.exec, World.perform, calmly, Option.bind_some, found, withFault]
  exact drive_call done f rest

theorem drive_commit (newest : (w.versions name).getLast? = some st) (selection : List GPUDevice × List Int × Int) :
    (drive engine 0 [calmly w name] (commit ⟨name, (w.versions name).length - 1, st⟩ id selection) w).2 =
      some (.ok ⟨name, selection.1, selection.2.1, selection.2.2⟩) := by
  have some_version : 0 < (w.versions name).length :=
    List.length_pos_of_mem (List.mem_of_getLast? newest)
  have current : (w.versions name).length = (w.versions name).length - 1 + 1 := by omega
  have done : engine.exec 0 (calmly w name) w (.update name ((w.versions name).length - 1)
      (st.mark selection.1 selection.2.2 id)) = some (w.push name (st.mark selection.1 selection.2.2 id), .ok ()) := by
    simp only [engine, World.exec, World.perform, calmly, if_pos current, withFault]
  rw [commit, drive_call done]
  rfl

theorem gates_iff {α : Type} {choices : List Choice} {unready scarce other mismatch : Err} {rest : Act α} {a : α} :
    (drive engine 0 choices (if !st.vfioReady then .fail unready else if st.freeGPUs < profile.count then .fail scarce
      else if !matchesModel st.gpuModel profile.model then .fail other
      else if !fmVersionCompatible st profile then .fail mismatch else rest) w).2 = some (.ok a) ↔
      passesGates st profile ∧ (drive engine 0 choices rest w).2 = some (.ok a) := by
  by_cases gates : passesGates st profile = true
  · have open_gates := gates
    simp only [passesGates, Bool.and_eq_true, decide_eq_true_eq] at open_gates
    obtain ⟨⟨⟨ready, enough⟩, model⟩, version⟩ := open_gates
    simp [gates, ready, Nat.not_lt.mpr enough, model, version]
  · refine ⟨fun ok => ?_, fun both => absurd both.1 gates⟩
    refine absurd ?_ gates
    split at ok
    · simp at ok
    · split at ok
      · simp at ok
      · split at ok
        · simp at ok
        · split at ok
          · simp at ok
          · simp_all [passesGates]

theorem hasCapacity_iff (newest : (w.versions name).getLast? = some st) :
    (drive engine 0 [calmly w name] (gpuNodeHasCapacity profile name) w).2 = some (.ok ()) ↔ passesGates st profile ∧
        (profile.partitionMode = .shared → (selectPartitionGPUs st profile.count profile.model).gpus ≠ none) := by
  rw [gpuNodeHasCapacity, drive_get newest, gates_iff]
  refine and_congr_right fun _ => ?_
  split
  · next refused => exact ⟨nofun, fun viable => absurd refused.2 (viable refused.1)⟩
  · next passed => exact ⟨fun _ shared missing => passed ⟨shared, missing⟩, fun _ => rfl⟩

theorem reserve_iff (newest : (w.versions name).getLast? = some st) (new : st.holds id = false) :
    (∃ a, (drive engine 0 [calmly w name, calmly w name] (reserveOnNode id profile name) w).2 = some (.ok a)) ↔
      passesGates st profile ∧ (select st profile).isSome := by
  have none_held : held id ⟨name, (w.versions name).length - 1, st⟩ = none := by
    simp only [SwiftGPUNodeStatus.holds, Bool.or_eq_false_iff, List.any_eq_false] at new
    have empty : st.existing id = [] := List.filter_eq_nil_iff.mpr new.1
    rw [held, if_pos empty]
  rw [reserveOnNode, drive_get newest]
  simp only [none_held, gates_iff, exists_and_left]
  refine and_congr_right fun _ => ?_
  cases chosen : select st profile with
  | none => simp [drive]
  | some selection => simp [drive_commit newest]

/-- The preflight and the reservation agree exactly where, unless a partition is asked for, no node passes the checks
for the GPUs of another model alone. -/
theorem preflight_iff_reserve (newest : (w.versions name).getLast? = some st) (new : st.holds id = false)
    (asked : profile.count ∈ counts) :
    ((drive engine 0 [calmly w name] (gpuNodeHasCapacity profile name) w).2 = some (.ok ()) ↔
      ∃ a, (drive engine 0 [calmly w name, calmly w name] (reserveOnNode id profile name) w).2 = some (.ok a)) ↔
    Reservable st profile := by
  have some_asked : 0 < profile.count := by
    have all : ∀ n ∈ counts, 0 < n := by decide
    exact all _ asked
  rw [hasCapacity_iff newest, reserve_iff newest new, Reservable, select, and_congr_right_iff]
  by_cases shared : profile.partitionMode = .shared
  · simp [shared, Option.isSome_iff_ne_none]
  · simp [shared, selectGPUs_isSome some_asked]

private def card (index : Int) (address model holder : String) : GPUDevice where
  index := index
  pciAddress := address
  vendor := "NVIDIA"
  model := model
  deviceID := "10de:26b9"
  numaNode := 0
  iommuGroup := index
  driver := "vfio-pci"
  barSizes := []
  allocated := holder ≠ ""
  allocatedTo := holder

/-- The GPU the node is named after is held by another guest, and the free one is of another model. -/
private def mixed : SwiftGPUNodeStatus :=
  ⟨.ready, 2, 1, "L40S", "NVIDIA", true, [card 0 "0000:17:00.0" "L40S" "ns/b", card 1 "0000:65:00.0" "T4" ""], none⟩

private def oneOf (model : String) : SwiftGPUProfileSpec := ⟨1, model, .isolated, none⟩

private def nodeOf (st : SwiftGPUNodeStatus) : World := ⟨fun name => if name = "node" then [st] else []⟩

theorem preflight_accepts_unreservable : Recording mixed ∧ mixed.holds "ns/a" = false ∧ (oneOf "L40S").count ∈ counts ∧
      (drive engine 0 [calmly (nodeOf mixed) "node"] (gpuNodeHasCapacity (oneOf "L40S") "node") (nodeOf mixed)).2 =
        some (.ok ()) ∧
      (drive engine 0 [calmly (nodeOf mixed) "node", calmly (nodeOf mixed) "node"]
        (reserveOnNode "ns/a" (oneOf "L40S") "node") (nodeOf mixed)).2 = some (.error (.cannotSelect "node" 1)) :=
  ⟨⟨by decide, by decide⟩, by decide +kernel⟩

/-- With a third card that is free and of the model asked for, the two agree. -/
theorem preflight_iff_reserve_of_three :
    let st := { mixed with freeGPUs := 2, gpus := mixed.gpus ++ [card 2 "0000:ca:00.0" "L40S" ""] }
    (drive engine 0 [calmly (nodeOf st) "node"] (gpuNodeHasCapacity (oneOf "L40S") "node") (nodeOf st)).2 =
        some (.ok ()) ↔
      ∃ a, (drive engine 0 [calmly (nodeOf st) "node", calmly (nodeOf st) "node"]
        (reserveOnNode "ns/a" (oneOf "L40S") "node") (nodeOf st)).2 = some (.ok a) :=
  (preflight_iff_reserve rfl (by decide) (by decide)).mpr (.inr (by decide))

end KubeSwift.GPU
