import KubeSwift.GPU.Writers

/-! # Allocation records are consistent and exclusive -/

namespace KubeSwift.GPU
open Program

structure Inventory (st : SwiftGPUNodeStatus) : Prop where
  addresses : (st.gpus.map fun g => g.pciAddress).Nodup
  indices : (st.gpus.map fun g => g.index).Nodup
  partitionIDs : (st.partitions.map fun p => p.id).Nodup
  members : ∀ p ∈ st.partitions, p.gpuIndices.Nodup

structure Records (st : SwiftGPUNodeStatus) : Prop extends Inventory st where
  marked : ∀ g ∈ st.gpus, g.allocated = true ↔ g.allocatedTo ≠ ""
  free : st.freeGPUs = countFreeGPUs st.gpus
  covered : ∀ p ∈ st.partitions, p.allocatedTo ≠ "" →
    ∀ g ∈ st.gpus, g.index ∈ p.gpuIndices → g.allocatedTo = p.allocatedTo
  apart : ∀ p ∈ st.partitions, ∀ q ∈ st.partitions, p.allocatedTo ≠ "" → q.allocatedTo ≠ "" →
    ∀ i ∈ p.gpuIndices, i ∈ q.gpuIndices → p = q

structure Unused (st : SwiftGPUNodeStatus) : Prop extends Inventory st where
  gpus : ∀ g ∈ st.gpus, g.allocated = false ∧ g.allocatedTo = ""
  partitions : ∀ p ∈ st.partitions, p.allocatedTo = ""
  free : st.freeGPUs = st.gpus.length

section Version

variable {st st' : SwiftGPUNodeStatus} {selected : List GPUDevice} {numas : List Int} {part : Int}
  {profile : SwiftGPUProfileSpec} {id : String}

theorem Unused.records (unused : Unused st) : Records st where
  toInventory := unused.toInventory
  marked g member := by simp [unused.gpus g member]
  free := by
    rw [unused.free, countFreeGPUs, eq_comm, List.countP_eq_length]
    intro g member
    simp [unused.gpus g member]
  covered p member held := (held (unused.partitions p member)).elim
  apart p member _ _ held := (held (unused.partitions p member)).elim

variable {g : GPUDevice} {p : FMPartitionStatus}

variable (inventory : Inventory st)
include inventory

theorem Inventory.map {f : GPUDevice → GPUDevice} {h : FMPartitionStatus → FMPartitionStatus}
    (gpus : st'.gpus = st.gpus.map f) (partitions : st'.partitions = st.partitions.map h)
    (hardware : ∀ g, (f g).toGPUHardware = g.toGPUHardware) (ids : ∀ p, (h p).id = p.id)
    (indices : ∀ p, (h p).gpuIndices = p.gpuIndices) : Inventory st' := by
  constructor
  · have same : (fun g => g.pciAddress) ∘ f = fun g : GPUDevice => g.pciAddress :=
      funext fun g => congrArg GPUHardware.pciAddress (hardware g)
    rw [gpus, List.map_map, same]
    exact inventory.addresses
  · have same : (fun g => g.index) ∘ f = fun g : GPUDevice => g.index :=
      funext fun g => congrArg GPUHardware.index (hardware g)
    rw [gpus, List.map_map, same]
    exact inventory.indices
  · have same : (fun p => p.id) ∘ h = fun p : FMPartitionStatus => p.id := funext ids
    rw [partitions, List.map_map, same]
    exact inventory.partitionIDs
  · intro p' member
    rw [partitions, List.mem_map] at member
    obtain ⟨p, listed, rfl⟩ := member
    rw [indices]
    exact inventory.members p listed

theorem Inventory.chosen_free (chosen : select st profile = some (selected, numas, part))
    (member : g ∈ st.gpus) (taken : Chosen selected g) : g ∈ selected ∧ g.allocated = false := by
  obtain ⟨s, inSelected, same⟩ := taken
  obtain ⟨listed, free⟩ := (select_spec chosen).1 s inSelected
  have equal := List.inj_on_of_nodup_map inventory.addresses listed member same
  exact equal ▸ ⟨inSelected, free⟩

omit inventory

theorem markGPU_index : (markGPU selected id g).index = g.index :=
  congrArg GPUHardware.index markGPU_hardware

theorem clearGPU_index : (clearGPU id g).index = g.index :=
  congrArg GPUHardware.index clearGPU_hardware

theorem clearPartition_held (held : (clearPartition id p).allocatedTo ≠ "") :
    clearPartition id p = p ∧ p.allocatedTo ≠ id := by
  unfold clearPartition at held ⊢
  split at held
  · exact (held rfl).elim
  · next other => exact ⟨if_neg other, other⟩

theorem markPartition_cases (part : Int) (id : String) (p : FMPartitionStatus) :
    (p.id = part ∧ 0 ≤ part ∧ (markPartition part id p).allocatedTo = id) ∨ markPartition part id p = p := by
  unfold markPartition
  split
  · next own => exact .inl ⟨own.2, own.1, rfl⟩
  · exact .inr rfl

variable (chosen : select st profile = some (selected, numas, part))
include chosen

theorem Inventory.chosen_members (inventory : Inventory st) (listed : p ∈ st.partitions) (own : p.id = part)
    (nonneg : 0 ≤ part) {i : Int} (inside : i ∈ p.gpuIndices) : ∃ g ∈ st.gpus, g.index = i ∧ Chosen selected g := by
  obtain ⟨members, partition⟩ := select_spec chosen
  rcases partition with negative | ⟨p', listed', own', -, covered⟩
  · omega
  · have same := List.inj_on_of_nodup_map inventory.partitionIDs listed listed' (own.trans own'.symm)
    subst same
    obtain ⟨g, inSelected, index⟩ := covered i inside
    exact ⟨g, (members g inSelected).1, index, g, inSelected, rfl⟩

variable (records : Records st)
include records

theorem Records.unclaimed (member : g ∈ st.gpus) (taken : Chosen selected g) : g.allocatedTo = "" := by
  by_contra held
  have busy := (records.marked g member).mpr held
  rw [(records.toInventory.chosen_free chosen member taken).2] at busy
  cases busy

theorem Records.outside (listed : p ∈ st.partitions) (held : p.allocatedTo ≠ "") (member : g ∈ st.gpus) (inside : g.index ∈ p.gpuIndices) :
    ¬ Chosen selected g := by
  intro taken
  have owner := records.covered p listed held g member inside
  exact held (owner.symm.trans (records.unclaimed chosen member taken))

theorem Records.mark (named : id ≠ "") : Records (st.mark selected part id) := by
  have inventory := records.toInventory
  refine ⟨inventory.map mark_gpus mark_partitions (fun _ => markGPU_hardware) (fun _ => markPartition_id)
    fun _ => markPartition_indices, ?_, rfl, ?_, ?_⟩
  · intro g' member
    rw [mark_gpus, List.mem_map] at member
    obtain ⟨g, listed, rfl⟩ := member
    by_cases taken : Chosen selected g
    · rw [markGPU_chosen taken]
      simp [named]
    · rw [markGPU_other taken]
      exact records.marked g listed
  · intro p' member held g' memberG inside
    rw [mark_partitions, List.mem_map] at member
    rw [mark_gpus, List.mem_map] at memberG
    obtain ⟨p, listed, rfl⟩ := member
    obtain ⟨g, listedG, rfl⟩ := memberG
    rw [markGPU_index, markPartition_indices] at inside
    rcases markPartition_cases part id p with ⟨own, nonneg, marked⟩ | same
    · obtain ⟨g', listedG', index, taken⟩ := inventory.chosen_members chosen listed own nonneg inside
      have equal := List.inj_on_of_nodup_map inventory.indices listedG' listedG index
      rw [marked, markGPU_chosen (equal ▸ taken)]
    · rw [same] at held ⊢
      rw [markGPU_other (records.outside chosen listed held listedG inside)]
      exact records.covered p listed held g listedG inside
  · intro p' memberP q' memberQ heldP heldQ i inP inQ
    rw [mark_partitions, List.mem_map] at memberP memberQ
    obtain ⟨p, listedP, rfl⟩ := memberP
    obtain ⟨q, listedQ, rfl⟩ := memberQ
    rw [markPartition_indices] at inP inQ
    rcases markPartition_cases part id p with ⟨ownP, nonneg, -⟩ | sameP <;>
      rcases markPartition_cases part id q with ⟨ownQ, nonneg', -⟩ | sameQ
    · rw [List.inj_on_of_nodup_map inventory.partitionIDs listedP listedQ (ownP.trans ownQ.symm)]
    · rw [sameQ] at heldQ
      obtain ⟨g, listedG, index, taken⟩ := inventory.chosen_members chosen listedP ownP nonneg inP
      exact (records.outside chosen listedQ heldQ listedG (index ▸ inQ) taken).elim
    · rw [sameP] at heldP
      obtain ⟨g, listedG, index, taken⟩ := inventory.chosen_members chosen listedQ ownQ nonneg' inQ
      exact (records.outside chosen listedP heldP listedG (index ▸ inP) taken).elim
    · rw [sameP] at heldP
      rw [sameQ] at heldQ
      rw [records.apart p listedP q listedQ heldP heldQ i inP inQ]

omit chosen

theorem Records.clear : Records (st.clear id) := by
  refine ⟨records.toInventory.map clear_gpus clear_partitions (fun _ => clearGPU_hardware)
    (fun _ => clearPartition_id) fun _ => clearPartition_indices, ?_, rfl, ?_, ?_⟩
  · intro g' member
    rw [clear_gpus, List.mem_map] at member
    obtain ⟨g, listed, rfl⟩ := member
    by_cases own : g.allocatedTo = id
    · rw [clearGPU_own own]
      simp
    · rw [clearGPU_other own]
      exact records.marked g listed
  · intro p' member held g' memberG inside
    rw [clear_partitions, List.mem_map] at member
    rw [clear_gpus, List.mem_map] at memberG
    obtain ⟨p, listed, rfl⟩ := member
    obtain ⟨g, listedG, rfl⟩ := memberG
    rw [clearGPU_index, clearPartition_indices] at inside
    obtain ⟨same, kept⟩ := clearPartition_held held
    rw [same] at held ⊢
    have owner := records.covered p listed held g listedG inside
    rw [clearGPU_other (owner ▸ kept)]
    exact owner
  · intro p' memberP q' memberQ heldP heldQ i inP inQ
    rw [clear_partitions, List.mem_map] at memberP memberQ
    obtain ⟨p, listedP, rfl⟩ := memberP
    obtain ⟨q, listedQ, rfl⟩ := memberQ
    rw [clearPartition_indices] at inP inQ
    rw [(clearPartition_held heldP).1] at heldP
    rw [(clearPartition_held heldQ).1] at heldQ
    rw [records.apart p listedP q listedQ heldP heldQ i inP inQ]

theorem Records.step (step : AllocatorStep st st') : Records st' := by
  cases step with
  | allocate named _ chosen => exact records.mark chosen named
  | release _ => exact records.clear

end Version

abbrev Runs (w : World) (s : System Nat (World × Answers) Op Op.Res Err (Option (String × Allocation))) : Prop :=
  Reachable (recording fun _ _ => True) (fun prog => ∃ c : NamedCall, prog = c.1.prog) (w, fun _ => []) s

structure Fresh (w : World) : Prop where
  single : ∀ name, (w.versions name).length ≤ 1
  unused : ∀ name st, st ∈ w.versions name → Unused st

theorem Fresh.chain {w : World} (fresh : Fresh w) :
    Chain (fun _ => Unused) (fun _ old st => AllocatorStep old st ∧ True) w.versions where
  first name st seen := fresh.unused name st (List.mem_of_getElem? seen)
  step name v old st seen next := by
    have bound := (List.getElem?_eq_some_iff.mp next).1
    have single := fresh.single name
    omega

theorem runs_sound {w : World} {s : System Nat (World × Answers) Op Op.Res Err (Option (String × Allocation))}
    (fresh : Fresh w) (runs : Runs w s) :
    Sound (recording fun _ _ => True) (writeSpec (fun _ => Unused) AllocatorStep fun _ _ => True)
      (fun _ _ => True) HandedTo s := by
  refine sound_reachable (w := (w, fun _ => [])) compatible_writeSpec ?_ fresh.chain (fun _ _ _ _ => trivial) runs
  intro p prog w' offered inv _
  obtain ⟨⟨c, named⟩, rfl⟩ := offered
  exact c.writes (fun _ _ same => same) named inv

def Recorded (address id : String) (st : SwiftGPUNodeStatus) : Prop :=
  ∃ g ∈ st.gpus, g.pciAddress = address ∧ g.allocatedTo = id

theorem Recorded.step {st st' : SwiftGPUNodeStatus} {address id : String} (records : Records st) (named : id ≠ "")
    (recorded : Recorded address id st) (step : AllocatorStep st st') :
    Recorded address id st' ∨ st' = st.clear id := by
  obtain ⟨g, listed, at_, own⟩ := recorded
  cases step with
  | @allocate id' profile selected numas part _ _ chosen =>
    have untaken : ¬ Chosen selected g := by
      intro taken
      have unclaimed := records.unclaimed chosen listed taken
      exact named (own.symm.trans unclaimed)
    refine .inl ⟨g, ?_, at_, own⟩
    rw [mark_gpus, List.mem_map]
    exact ⟨g, listed, markGPU_other untaken⟩
  | @release id' _ =>
    by_cases same : id' = id
    · exact .inr (by rw [same])
    · refine .inl ⟨g, ?_, at_, own⟩
      rw [clear_gpus, List.mem_map]
      exact ⟨g, listed, clearGPU_other (own ▸ Ne.symm same)⟩

private def gpu (index : Int) (address : String) : GPUDevice where
  index := index
  pciAddress := address
  vendor := "NVIDIA"
  model := "L40S"
  deviceID := "10de:26b9"
  numaNode := 0
  iommuGroup := index
  driver := "vfio-pci"
  barSizes := []
  allocated := false
  allocatedTo := ""

private def twoGPUs : SwiftGPUNodeStatus :=
  ⟨.ready, 2, 2, "L40S", "NVIDIA", true, [gpu 0 "0000:17:00.0", gpu 1 "0000:65:00.0"], none⟩

private def oneNode : World := ⟨fun name => if name = "node" then [twoGPUs] else []⟩

private theorem oneNode_fresh : Fresh oneNode where
  single name := by
    show (if name = "node" then [twoGPUs] else []).length ≤ 1
    split <;> simp
  unused name st member := by
    change st ∈ (if name = "node" then [twoGPUs] else []) at member
    split at member
    · rw [List.mem_singleton] at member
      subst member
      exact ⟨⟨by decide, by decide, by decide, by decide⟩, by decide, by decide, by decide⟩
    · cases member

private def oneGPU : SwiftGPUProfileSpec := ⟨1, "", .isolated, none⟩

private def allocating : NamedCall := ⟨.findAndAllocateFor "ns/a" "" oneGPU ⟨"", []⟩, by decide⟩

private def releasing : NamedCall := ⟨.releaseFromNodeFor "ns/a" "node", by decide⟩

private def seeing (version : Nat) : Choice where
  listing := [("node", version)]
  version := some version
  node := some ⟨false, []⟩

private theorem reached_runs (moves : List (Move Nat Choice NamedCall))
    {P : System Nat (World × Answers) Op Op.Res Err (Option (String × Allocation)) → Prop} [DecidablePred P]
    (view : (engine.recorded.play (fun c : NamedCall => c.1.prog) (fun _ _ _ _ => true) moves
      ⟨(oneNode, fun _ => []), fun _ => .idle⟩).map (fun s => decide (P s)) = some true) : ∃ s, Runs oneNode s ∧ P s :=
  exists_of_moves _ moves (fun _ _ _ _ _ _ _ _ _ _ _ _ _ => trivial) (fun _ _ _ => trivial) view

private def firstGPU (allocatedTo : String) : Allocation :=
  ⟨"node", [{ gpu 0 "0000:17:00.0" with allocated := allocatedTo ≠ "", allocatedTo }], [0], -1⟩

private def allocated : List (Move Nat Choice NamedCall) :=
  .start 0 allocating :: List.replicate 3 (.op 0 (seeing 0))

private def readLate : List (Move Nat Choice NamedCall) :=
  allocated ++ [.start 1 releasing, .op 1 (seeing 1), .op 1 (seeing 1), .start 2 allocating, .op 2 (seeing 1)]

end KubeSwift.GPU
