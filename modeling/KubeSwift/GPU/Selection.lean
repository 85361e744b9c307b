import KubeSwift.GPU.Inventory
import KubeSwift.Program.Groups

/-! # What a selection takes, and what marking and clearing leave -/

namespace KubeSwift.GPU
open Program (group flatMap_group_perm)

variable {st : SwiftGPUNodeStatus} {gpus selected : List GPUDevice} {count : Nat} {model : String}
  {numas : List Int} {part : Int} {profile : SwiftGPUProfileSpec}

variable {g : GPUDevice}

theorem mem_freeGPUsOf (member : g ∈ freeGPUsOf gpus model) : g ∈ gpus ∧ g.allocated = false := by
  obtain ⟨listed, free⟩ := List.mem_filter.mp member
  rw [Bool.and_eq_true, Bool.not_eq_true'] at free
  exact ⟨listed, free.1⟩

abbrev onNUMA (free : List GPUDevice) (numa : Int) : List GPUDevice := group (·.numaNode) free numa

theorem pickAcross_eq (free : List GPUDevice) (count : Nat) (keys : List Int) :
    pickAcross free count keys = (keys.flatMap (onNUMA free)).take count := by
  induction keys generalizing count with
  | nil => rw [pickAcross, List.flatMap_nil, List.take_nil]
  | cons numa keys ih =>
    rw [pickAcross, ih, List.flatMap_cons, List.take_append, List.length_take]
    congr 2
    show count - min count (onNUMA free numa).length = _
    omega

/-- Every branch of the selection takes the head of one list. -/
theorem selectGPUs_cases (gpus : List GPUDevice) (count : Nat) (model : String) :
    let free := freeGPUsOf gpus model
    (free.length < count ∨ count = 0) ∧ selectGPUs gpus count model = none ∨
    ∃ l numas, count ≤ l.length ∧ selectGPUs gpus count model = some (l.take count, numas) ∧
      ((∃ numa, l = onNUMA free numa) ∨ l.Perm free ∧ ∀ numa, (onNUMA free numa).length < count) := by
  intro free
  unfold selectGPUs
  dsimp only
  split
  · next few => exact .inl ⟨.inl few, rfl⟩
  next enough =>
    split
    · next numa found => exact .inr ⟨_, [numa], of_decide_eq_true (List.find?_some found :), rfl, .inl ⟨numa, rfl⟩⟩
    next none_full =>
      let keys := numaSetToSlice (free.map fun g => g.numaNode)
      have listed (g) (member : g ∈ free) : g.numaNode ∈ keys := by
        refine (List.mem_insertionSort _).mpr (List.mem_dedup.mpr ?_)
        exact List.mem_map_of_mem member
      have all : (keys.flatMap (onNUMA free)).Perm free :=
        flatMap_group_perm (((List.perm_insertionSort _ _).nodup_iff).mpr (List.nodup_dedup _)) listed
      rw [pickAcross_eq]
      split
      · next empty =>
        refine .inl ⟨.inr ((List.take_eq_nil_iff.mp empty).elim id fun none_free => ?_), rfl⟩
        have none_left : 0 = (freeGPUsOf gpus model).length := (none_free ▸ all :).length_eq
        omega
      next some_picked =>
        have asked : 0 < count := by
          by_contra none_asked
          exact some_picked (by rw [Nat.eq_zero_of_not_pos none_asked, List.take_zero])
        refine .inr ⟨_, _, all.length_eq.symm ▸ Nat.not_lt.mp enough, rfl, .inr ⟨all, fun numa => ?_⟩⟩
        by_cases key : numa ∈ keys
        · exact Nat.not_le.mp fun room => List.find?_eq_none.mp none_full numa key (decide_eq_true room)
        · have empty : onNUMA free numa = [] := by
            refine List.filter_eq_nil_iff.mpr fun g member same => key ?_
            exact of_decide_eq_true same ▸ listed g member
          rwa [empty]

theorem selectGPUs_free (chosen : selectGPUs gpus count model = some (selected, numas)) (member : g ∈ selected) :
    g ∈ freeGPUsOf gpus model := by
  rcases selectGPUs_cases gpus count model with ⟨-, none⟩ | ⟨l, _, -, picked, whole⟩
  · rw [none] at chosen
    cases chosen
  · rw [picked] at chosen
    cases chosen
    have here := List.mem_of_mem_take member
    rcases whole with ⟨numa, rfl⟩ | whole
    · exact List.mem_of_mem_filter here
    · exact whole.1.subset here

/-- `selectGPUs` finds what it is asked for whenever it is there, on one NUMA node if one has it all. -/
theorem selectGPUs_complete (distinct : (gpus.map (·.pciAddress)).Nodup) (asked : 1 ≤ count) :
    (selectGPUs gpus count model = none ↔ (freeGPUsOf gpus model).length < count) ∧
    ∀ selected numas, selectGPUs gpus count model = some (selected, numas) →
      selected.length = count ∧ (selected.map (·.pciAddress)).Nodup ∧
      (∀ g ∈ selected, g ∈ freeGPUsOf gpus model) ∧
      ((∃ numa, count ≤ (onNUMA (freeGPUsOf gpus model) numa).length) → ∃ numa, ∀ g ∈ selected, g.numaNode = numa) := by
  have nodup : ((freeGPUsOf gpus model).map (·.pciAddress)).Nodup := distinct.sublist (List.filter_sublist.map _)
  rcases selectGPUs_cases gpus count model with ⟨few, none⟩ | ⟨l, numas, enough, picked, whole⟩
  · rw [none]
    exact ⟨iff_of_true rfl (few.resolve_right (by omega)), nofun⟩
  · have within : l.length ≤ (freeGPUsOf gpus model).length ∧ (l.map (·.pciAddress)).Nodup := by
      rcases whole with ⟨numa, rfl⟩ | whole
      · exact ⟨List.length_filter_le _ _, nodup.sublist (List.filter_sublist.map _)⟩
      · exact ⟨whole.1.length_eq.le, (whole.1.map _).nodup_iff.mpr nodup⟩
    refine ⟨iff_of_false (by simp [picked]) (by omega), fun selected numas chosen => ?_⟩
    have free (g) := selectGPUs_free chosen (g := g)
    rw [picked] at chosen
    cases chosen
    refine ⟨List.length_take_of_le enough, within.2.sublist ((List.take_sublist _ _).map _), free, fun ⟨numa, room⟩ => ?_⟩
    rcases whole with ⟨numa, rfl⟩ | whole
    · exact ⟨numa, fun g member => of_decide_eq_true (List.mem_filter.mp (List.mem_of_mem_take member)).2⟩
    · exact absurd room (Nat.not_le.mpr (whole.2 numa))

def threeGPUs : List GPUDevice := [("a", 0), ("b", 1), ("c", 1)].map fun (address, numa) =>
  ⟨⟨0, address, "", "", "", numa, 0, "", []⟩, false, ""⟩

theorem selectGPUs_complete_of_three : ∃ selected numas, selectGPUs threeGPUs 2 "" = some (selected, numas) ∧
    selected.length = 2 ∧ ∃ numa, ∀ g ∈ selected, g.numaNode = numa := by
  obtain ⟨refused, found⟩ := @selectGPUs_complete threeGPUs 2 "" (by decide) (by decide)
  cases chosen : selectGPUs threeGPUs 2 "" with
  | none => exact absurd (refused.mp chosen) (by decide)
  | some picked =>
    obtain ⟨count, -, -, tight⟩ := found _ _ chosen
    exact ⟨_, _, rfl, count, tight ⟨1, by decide⟩⟩

theorem byIndex_mem {idx : Int} (found : byIndex gpus idx = some g) : g ∈ gpus ∧ g.index = idx := by
  have index := List.find?_some found
  have member := List.mem_of_find?_eq_some found
  exact ⟨List.mem_reverse.mp member, by simpa using index⟩

theorem partitionMembers_free {p : FMPartitionStatus} (viable : partitionMembers gpus model p = some selected) :
    (∀ g ∈ selected, g ∈ gpus ∧ g.allocated = false) ∧ ∀ i ∈ p.gpuIndices, ∃ g ∈ selected, g.index = i := by
  unfold partitionMembers at viable
  generalize p.gpuIndices = indices at viable
  induction indices generalizing selected with
  | nil =>
    cases viable
    exact ⟨nofun, nofun⟩
  | cons i indices ih =>
    rw [List.mapM_cons] at viable
    obtain ⟨g, found, rest⟩ := Option.bind_eq_some_iff.mp viable
    obtain ⟨others, more, same⟩ := Option.bind_eq_some_iff.mp rest
    cases same
    obtain ⟨named, free⟩ := Option.filter_eq_some_iff.mp found
    obtain ⟨listed, index⟩ := byIndex_mem named
    rw [Bool.and_eq_true, Bool.not_eq_true'] at free
    obtain ⟨allFree, covered⟩ := ih more
    constructor
    · intro g' member
      cases List.mem_cons.mp member with
      | inl here => exact here ▸ ⟨listed, free.1⟩
      | inr later => exact allFree g' later
    · intro j member
      cases List.mem_cons.mp member with
      | inl here => exact ⟨g, List.mem_cons_self, index.trans here.symm⟩
      | inr later =>
        obtain ⟨g', inOthers, at_⟩ := covered j later
        exact ⟨g', List.mem_cons_of_mem _ inOthers, at_⟩

def Viable (gpus : List GPUDevice) (model : String) (ps : List FMPartitionStatus) (selected : List GPUDevice)
    (part : Int) : Prop :=
  ∃ p ∈ ps, p.id = part ∧ p.allocatedTo = "" ∧ partitionMembers gpus model p = some selected

theorem choosePartition_viable (all ps : List FMPartitionStatus) (within : ∀ p ∈ ps, p ∈ all)
    (fallback : PartitionChoice)
    (sound : ∀ members, fallback.gpus = some members → Viable gpus model all members fallback.partitionID)
    {members : List GPUDevice} (chosen : (choosePartition gpus count model ps fallback).gpus = some members) :
    Viable gpus model all members (choosePartition gpus count model ps fallback).partitionID := by
  induction ps generalizing fallback with
  | nil => exact sound members chosen
  | cons p ps ih =>
    have tail : ∀ q ∈ ps, q ∈ all := fun q member => within q (List.mem_cons_of_mem _ member)
    rw [choosePartition] at chosen ⊢
    split at chosen
    · next skipped =>
      rw [if_pos skipped]
      exact ih tail fallback sound chosen
    · next taken =>
      rw [if_neg taken]
      have free : p.allocatedTo = "" := by
        by_contra held
        exact taken (.inr held)
      cases viable : partitionMembers gpus model p with
      | none =>
        simp only [viable] at chosen ⊢
        exact ih tail fallback sound chosen
      | some found =>
        have here : Viable gpus model all found p.id :=
          ⟨p, within p List.mem_cons_self, rfl, free, viable⟩
        simp only [viable] at chosen ⊢
        split at chosen
        · next single =>
          rw [if_pos single]
          cases chosen
          exact here
        · next several =>
          rw [if_neg several]
          split at chosen
          · next first =>
            rw [if_pos first]
            refine ih tail _ ?_ chosen
            intro _ same
            cases same
            exact here
          · next kept =>
            rw [if_neg kept]
            exact ih tail fallback sound chosen

theorem selectPartitionGPUs_viable {members : List GPUDevice}
    (chosen : (selectPartitionGPUs st count model).gpus = some members) :
    Viable st.gpus model st.partitions members (selectPartitionGPUs st count model).partitionID := by
  unfold selectPartitionGPUs SwiftGPUNodeStatus.partitions at *
  cases managed : st.fabricManager with
  | none => simp [managed] at chosen
  | some fm =>
    simp only [managed, Option.map_some, Option.getD_some] at chosen ⊢
    split at chosen
    · next running =>
      rw [if_pos running]
      exact choosePartition_viable fm.partitions fm.partitions (fun _ => id) _ (fun _ absurd => by cases absurd) chosen
    · cases chosen

theorem select_spec (chosen : select st profile = some (selected, numas, part)) :
    (∀ g ∈ selected, g ∈ st.gpus ∧ g.allocated = false) ∧
      (part < 0 ∨ ∃ p ∈ st.partitions, p.id = part ∧ p.allocatedTo = "" ∧
        ∀ i ∈ p.gpuIndices, ∃ g ∈ selected, g.index = i) := by
  unfold select at chosen
  split at chosen
  · obtain ⟨members, found, same⟩ := Option.map_eq_some_iff.mp chosen
    cases same
    obtain ⟨p, listed, id, free, viable⟩ := selectPartitionGPUs_viable found
    obtain ⟨allFree, covered⟩ := partitionMembers_free viable
    exact ⟨allFree, .inr ⟨p, listed, id, free, covered⟩⟩
  · obtain ⟨⟨members, keys⟩, found, same⟩ := Option.map_eq_some_iff.mp chosen
    cases same
    exact ⟨fun g member => mem_freeGPUsOf (selectGPUs_free found member), .inl (by decide)⟩

section Marking

variable {allocatedTo : String} {g : GPUDevice} {p : FMPartitionStatus}

@[simp] theorem mark_gpus : (st.mark selected part allocatedTo).gpus = st.gpus.map (markGPU selected allocatedTo) :=
  rfl

@[simp] theorem clear_gpus : (st.clear allocatedTo).gpus = st.gpus.map (clearGPU allocatedTo) := rfl

@[simp] theorem mark_partitions : (st.mark selected part allocatedTo).partitions =
    st.partitions.map (markPartition part allocatedTo) := by
  cases managed : st.fabricManager <;>
    simp [SwiftGPUNodeStatus.mark, SwiftGPUNodeStatus.partitions, FabricManagerStatus.mapPartitions, managed]

@[simp] theorem clear_partitions :
    (st.clear allocatedTo).partitions = st.partitions.map (clearPartition allocatedTo) := by
  cases managed : st.fabricManager <;>
    simp [SwiftGPUNodeStatus.clear, SwiftGPUNodeStatus.partitions, FabricManagerStatus.mapPartitions, managed]

@[simp] theorem markGPU_hardware : (markGPU selected allocatedTo g).toGPUHardware = g.toGPUHardware := by
  unfold markGPU
  split <;> rfl

@[simp] theorem clearGPU_hardware : (clearGPU allocatedTo g).toGPUHardware = g.toGPUHardware := by
  unfold clearGPU
  split <;> rfl

@[simp] theorem markPartition_id : (markPartition part allocatedTo p).id = p.id := by
  unfold markPartition
  split <;> rfl

@[simp] theorem markPartition_indices : (markPartition part allocatedTo p).gpuIndices = p.gpuIndices := by
  unfold markPartition
  split <;> rfl

@[simp] theorem clearPartition_id : (clearPartition allocatedTo p).id = p.id := by
  unfold clearPartition
  split <;> rfl

@[simp] theorem clearPartition_indices : (clearPartition allocatedTo p).gpuIndices = p.gpuIndices := by
  unfold clearPartition
  split <;> rfl

def Chosen (selected : List GPUDevice) (g : GPUDevice) : Prop := ∃ s ∈ selected, s.pciAddress = g.pciAddress

theorem markGPU_chosen (chosen : Chosen selected g) :
    markGPU selected allocatedTo g = { g with allocated := true, allocatedTo } := by
  obtain ⟨s, member, same⟩ := chosen
  exact if_pos (List.any_eq_true.mpr ⟨s, member, by simpa using same⟩)

theorem markGPU_other (other : ¬ Chosen selected g) : markGPU selected allocatedTo g = g := by
  refine if_neg fun found => other ?_
  obtain ⟨s, member, same⟩ := List.any_eq_true.mp found
  exact ⟨s, member, by simpa using same⟩

theorem clearGPU_own (own : g.allocatedTo = allocatedTo) :
    clearGPU allocatedTo g = { g with allocated := false, allocatedTo := "" } :=
  if_pos own

theorem clearGPU_other (other : g.allocatedTo ≠ allocatedTo) : clearGPU allocatedTo g = g := if_neg other

end Marking

end KubeSwift.GPU
