import KubeSwift.GPU.Writers
import KubeSwift.Program.Tables

/-! # Discovery passes between allocations

As tables of owners, by PCI address and by partition id, every write rewrites the owners row by row; a discovery pass
also chooses the keys. -/

namespace KubeSwift.GPU
open Program

def gpuTable (st : SwiftGPUNodeStatus) : List (String × String) :=
  st.gpus.map fun g => (g.pciAddress, g.allocatedTo)

def partitionTable (ps : List FMPartitionStatus) : List (Int × String) := ps.map fun p => (p.id, p.allocatedTo)

def Discovered.partitions (d : Discovered) : List FMPartitionStatus :=
  (d.fabricManager.map fun fm => fm.partitions).getD []

section Tables

variable {st : SwiftGPUNodeStatus} {selected : List GPUDevice} {part : Int} {id : String} {d : Discovered}

theorem mem_gpuTable {a o : String} : (a, o) ∈ gpuTable st ↔ ∃ g ∈ st.gpus, g.pciAddress = a ∧ g.allocatedTo = o := by
  simp [gpuTable]

theorem mem_partitionTable {ps : List FMPartitionStatus} {i : Int} {o : String} :
    (i, o) ∈ partitionTable ps ↔ ∃ p ∈ ps, p.id = i ∧ p.allocatedTo = o := by
  simp [partitionTable]

theorem gpuTable_mark : gpuTable (st.mark selected part id) =
    rewrite (fun a o => if selected.any fun s => s.pciAddress = a then id else o) (gpuTable st) := by
  simp only [gpuTable, rewrite, mark_gpus, List.map_map]
  apply List.map_congr_left
  intro g _
  simp only [Function.comp, markGPU]
  split <;> rfl

theorem gpuTable_clear : gpuTable (st.clear id) = rewrite (fun _ o => if o = id then "" else o) (gpuTable st) := by
  simp only [gpuTable, rewrite, clear_gpus, List.map_map]
  apply List.map_congr_left
  intro g _
  simp only [Function.comp, clearGPU]
  split <;> rfl

theorem lookup_gpuTable (a : String) : lookup (gpuTable st) a = (st.byAddress a).map fun g => g.allocatedTo := by
  simp only [lookup, gpuTable, SwiftGPUNodeStatus.byAddress, ← List.map_reverse, List.find?_map, Option.map_map]
  rfl

theorem gpuTable_merge : gpuTable (mergeStatus d st) =
    rewrite (fun a o => (lookup (gpuTable st) a).getD o) (d.gpus.map fun g => (g.pciAddress, "")) := by
  simp only [gpuTable, rewrite, mergeStatus, List.map_map]
  apply List.map_congr_left
  intro g _
  show _ = (g.pciAddress, (lookup (gpuTable st) g.pciAddress).getD "")
  rw [lookup_gpuTable]
  simp only [Function.comp, mergeGPU]
  cases st.byAddress g.pciAddress <;> rfl

theorem partitionTable_mark : partitionTable (st.mark selected part id).partitions =
    rewrite (fun i o => if 0 ≤ part ∧ i = part then id else o) (partitionTable st.partitions) := by
  simp only [partitionTable, rewrite, mark_partitions, List.map_map]
  apply List.map_congr_left
  intro p _
  simp only [Function.comp, markPartition]
  split <;> rfl

theorem partitionTable_clear : partitionTable (st.clear id).partitions =
    rewrite (fun _ o => if o = id then "" else o) (partitionTable st.partitions) := by
  simp only [partitionTable, rewrite, clear_partitions, List.map_map]
  apply List.map_congr_left
  intro p _
  simp only [Function.comp, clearPartition]
  split <;> rfl

theorem partitionTable_mergePartition (ps : List FMPartitionStatus) : partitionTable (ps.map (mergePartition st)) =
      rewrite (fun i o => (lookup (partitionTable st.partitions) i).getD o) (partitionTable ps) := by
  simp only [partitionTable, rewrite, List.map_map]
  apply List.map_congr_left
  intro p _
  simp only [Function.comp, mergePartition, lookup, ← List.map_reverse, List.find?_map, Option.map_map]
  change _ = (p.id, ((st.partitions.reverse.find? fun e => e.id = p.id).map fun e => e.allocatedTo).getD _)
  cases st.partitions.reverse.find? fun e => e.id = p.id <;> rfl

theorem mergeStatus_partitions : (mergeStatus d st).partitions = d.partitions.map (mergePartition st) := by
  cases fm : d.fabricManager <;>
    simp [mergeStatus, SwiftGPUNodeStatus.partitions, Discovered.partitions, FabricManagerStatus.mapPartitions, fm]

theorem afterMerge_partitions : (d.afterMerge st).partitions = d.partitions.map (mergePartition st) := by
  cases fm : d.fabricManager <;>
    simp [Discovered.afterMerge, Discovered.partitions, FabricManagerStatus.mapPartitions, fm]

end Tables

structure Consistent (st : SwiftGPUNodeStatus) : Prop where
  gpus : Coherent (gpuTable st)
  partitions : Coherent (partitionTable st.partitions)
  marked : ∀ g ∈ st.gpus, g.allocated = true ↔ g.allocatedTo ≠ ""

structure Lists (d : Discovered) (st : SwiftGPUNodeStatus) : Prop where
  gpus : removedAllocated d st = false
  partitions : ∀ p ∈ st.partitions, p.allocatedTo ≠ "" → ∃ q ∈ d.partitions, q.id = p.id

def MergesAll (old st : SwiftGPUNodeStatus) : Prop := ∀ d, st = mergeStatus d old → Lists d old

inductive NodeStep (st : SwiftGPUNodeStatus) : SwiftGPUNodeStatus → Prop
  | allocator {st' : SwiftGPUNodeStatus} (step : AllocatorStep st st') : NodeStep st st'
  | merge {d : Discovered} (coherent : Coherent (partitionTable d.partitions)) : NodeStep st (mergeStatus d st)
  | phase (phase : Phase) : NodeStep st { st with phase }

section Version

variable {st st' : SwiftGPUNodeStatus} {selected : List GPUDevice} {numas : List Int} {part : Int}
  {profile : SwiftGPUProfileSpec} {id : String} {d : Discovered}

variable (consistent : Consistent st)
include consistent

theorem Consistent.mark (named : id ≠ "") : Consistent (st.mark selected part id) where
  gpus := gpuTable_mark ▸ consistent.gpus.rewrite _
  partitions := partitionTable_mark ▸ consistent.partitions.rewrite _
  marked g' member := by
    rw [mark_gpus, List.mem_map] at member
    obtain ⟨g, listed, rfl⟩ := member
    by_cases chosen : Chosen selected g
    · rw [markGPU_chosen chosen]
      simp [named]
    · rw [markGPU_other chosen]
      exact consistent.marked g listed

theorem Consistent.clear : Consistent (st.clear id) where
  gpus := gpuTable_clear ▸ consistent.gpus.rewrite _
  partitions := partitionTable_clear ▸ consistent.partitions.rewrite _
  marked g' member := by
    rw [clear_gpus, List.mem_map] at member
    obtain ⟨g, listed, rfl⟩ := member
    by_cases own : g.allocatedTo = id
    · rw [clearGPU_own own]
      simp
    · rw [clearGPU_other own]
      exact consistent.marked g listed

theorem Consistent.merge (coherent : Coherent (partitionTable d.partitions)) : Consistent (mergeStatus d st) where
  gpus := by
    rw [gpuTable_merge]
    apply Coherent.rewrite
    apply coherent_const (a := "")
    simp
  partitions := by
    rw [mergeStatus_partitions, partitionTable_mergePartition]
    exact coherent.rewrite _
  marked g' member := by
    obtain ⟨dg, listed, rfl⟩ := List.mem_map.mp member
    unfold mergeGPU
    cases found : st.byAddress dg.pciAddress with
    | none => simp
    | some g => exact consistent.marked g (List.mem_reverse.mp (List.mem_of_find?_eq_some found))

theorem Consistent.step (step : NodeStep st st') : Consistent st' := by
  cases step with
  | allocator step =>
    cases step with
    | allocate named _ _ => exact consistent.mark named
    | release _ => exact consistent.clear
  | merge coherent => exact consistent.merge coherent
  | phase _ => exact { consistent with }

theorem Consistent.unchosen (chosen : select st profile = some (selected, numas, part))
    {a : String} (named : id ≠ "") (record : (a, id) ∈ gpuTable st) :
    ¬ (selected.any fun s => s.pciAddress = a) := by
  intro taken
  obtain ⟨s, member, at_⟩ := List.any_eq_true.mp taken
  obtain ⟨listed, free⟩ := (select_spec chosen).1 s member
  have at_ : s.pciAddress = a := of_decide_eq_true at_
  have row : (a, s.allocatedTo) ∈ gpuTable st := mem_gpuTable.mpr ⟨s, listed, at_, rfl⟩
  have own : s.allocatedTo = id := consistent.gpus a _ _ row record
  have marked := (consistent.marked s listed).mpr (own ▸ named)
  simp [free] at marked

theorem gpuRecord_step {a : String} (named : id ≠ "") (record : (a, id) ∈ gpuTable st)
    (step : NodeStep st st') (all : MergesAll st st') : (a, id) ∈ gpuTable st' ∨ st' = st.clear id := by
  cases step with
  | allocator step =>
    cases step with
    | allocate _ _ chosen =>
      rw [gpuTable_mark, mem_rewrite]
      exact .inl ⟨id, record, if_neg (consistent.unchosen chosen named record)⟩
    | @release other _ =>
      by_cases same : other = id
      · exact .inr (by rw [same])
      · rw [gpuTable_clear, mem_rewrite]
        exact .inl ⟨id, record, if_neg (Ne.symm same)⟩
  | @merge d _ =>
    obtain ⟨g, listed, at_, own⟩ := mem_gpuTable.mp record
    have allocated := (consistent.marked g listed).mpr (own ▸ named)
    have seen := (all d rfl).gpus
    simp only [removedAllocated, List.any_eq_false, Bool.and_eq_true, Bool.not_eq_true'] at seen
    have listedAgain : ∃ dg ∈ d.gpus, dg.pciAddress = a := by
      by_contra missing
      apply seen g listed
      refine ⟨allocated, ?_⟩
      intro dg member same
      exact missing ⟨dg, member, (of_decide_eq_true same).trans at_⟩
    obtain ⟨dg, member, same⟩ := listedAgain
    rw [gpuTable_merge, mem_rewrite]
    refine .inl ⟨"", List.mem_map.mpr ⟨dg, member, by rw [same]⟩, ?_⟩
    rw [consistent.gpus.lookup record]
    rfl
  | phase _ => exact .inl record

theorem partitionRecord_step {i : Int} (named : id ≠ "")
    (record : (i, id) ∈ partitionTable st.partitions) (step : NodeStep st st') (all : MergesAll st st') :
    (i, id) ∈ partitionTable st'.partitions ∨ st' = st.clear id := by
  cases step with
  | allocator step =>
    cases step with
    | @allocate _ _ _ _ part _ _ chosen =>
      rw [partitionTable_mark, mem_rewrite]
      refine .inl ⟨id, record, if_neg ?_⟩
      intro taken
      obtain ⟨nonneg, rfl⟩ := taken
      -- the partition the selection took is free, so its row is another's
      rcases (select_spec chosen).2 with negative | ⟨p, listed, at_, free, -⟩
      · omega
      · have row : (i, p.allocatedTo) ∈ partitionTable st.partitions :=
          mem_partitionTable.mpr ⟨p, listed, at_, rfl⟩
        have own := consistent.partitions i _ _ row record
        exact named (own.symm.trans free)
    | @release other _ =>
      by_cases same : other = id
      · exact .inr (by rw [same])
      · rw [partitionTable_clear, mem_rewrite]
        exact .inl ⟨id, record, if_neg (Ne.symm same)⟩
  | @merge d _ =>
    obtain ⟨p, listed, at_, own⟩ := mem_partitionTable.mp record
    obtain ⟨q, member, same⟩ := (all d rfl).partitions p listed (own ▸ named)
    rw [mergeStatus_partitions, partitionTable_mergePartition, mem_rewrite]
    refine .inl ⟨q.allocatedTo, mem_partitionTable.mpr ⟨q, member, same.trans at_, rfl⟩, ?_⟩
    rw [consistent.partitions.lookup record]
    rfl
  | phase _ => exact .inl record

end Version

abbrev Finding := { d : Discovered // ∀ p ∈ d.partitions, p.allocatedTo = "" }

inductive Job
  | call (c : NamedCall)
  | publishStatus (name : String) (found : Finding)
  | reportError (name : String)

def Job.prog : Job → Act (Option (String × Allocation))
  | .call c => c.1.prog
  | .publishStatus name found => do
    GPU.publishStatus name found.1
    pure none
  | .reportError name => do
    GPU.reportError name
    pure none

section Passes

variable {p : Nat} {s : World × Answers} {name : String} {d : Discovered}

theorem mergesAll_of_listed {old st : SwiftGPUNodeStatus}
    (gpus : ∀ g ∈ old.gpus, g.allocated = true → ∃ g' ∈ st.gpus, g'.pciAddress = g.pciAddress)
    (partitions : ∀ q ∈ old.partitions, q.allocatedTo ≠ "" → ∃ q' ∈ st.partitions, q'.id = q.id) :
    MergesAll old st := by
  intro d same
  subst same
  constructor
  · unfold removedAllocated
    rw [List.any_eq_false]
    intro g listed missing
    simp only [Bool.and_eq_true, Bool.not_eq_true', List.any_eq_false] at missing
    obtain ⟨g', member, at_⟩ := gpus g listed missing.1
    obtain ⟨dg, found, rfl⟩ := List.mem_map.mp member
    have here : (mergeGPU old dg).pciAddress = dg.pciAddress := by
      unfold mergeGPU
      split <;> rfl
    exact missing.2 dg found (decide_eq_true (here.symm.trans at_))
  · intro q listed named
    obtain ⟨q', member, at_⟩ := partitions q listed named
    rw [mergeStatus_partitions, List.mem_map] at member
    obtain ⟨dq, found, rfl⟩ := member
    refine ⟨dq, found, ?_⟩
    rw [← at_]
    unfold mergePartition
    split <;> rfl

abbrev nodeSpec : Spec Nat (World × Answers) Op := writeSpec (fun _ => Consistent) NodeStep MergesAll

theorem consistent_version (inv : nodeSpec.inv s) {v : Nat} {st : SwiftGPUNodeStatus}
    (seen : (s.1.versions name)[v]? = some st) : Consistent st :=
  Chain.every inv (P := fun _ => Consistent) (fun _ _ first => first) (fun _ _ _ before next => before.step next.1) seen

abbrev Keeps {α : Type} (p : Nat) (P : World × Answers → Prop) (m : Act α) : Prop :=
  Writes (fun _ => Consistent) NodeStep MergesAll p P m fun _ _ => True

theorem keeps_publishWithin (attempts : Nat) (coherent : Coherent (partitionTable d.partitions)) :
    Keeps p (fun _ => True) (publishWithin name attempts d) := by
  induction attempts generalizing d with
  | zero => exact gives_fail
  | succ attempts ih =>
    refine gives_bind writes_get fun n => gives_known fun named => ?_
    refine gives_bind (gives_attempt (named ▸ writes_update (NodeStep.merge coherent))) fun r =>
      gives_pre (fun _ _ => trivial) ?_
    split
    · exact gives_done
    · apply ih
      rw [afterMerge_partitions, partitionTable_mergePartition]
      exact coherent.rewrite _
    · exact gives_fail

theorem keeps_get : Keeps p (fun _ => True) (issue (.get name)) := gives_post (fun _ _ _ => trivial) writes_get

theorem keeps_ensureNode {r : Except Err SwiftGPUNode} : Keeps p (fun _ => True) (ensureNode name r) := by
  unfold ensureNode
  split
  · exact gives_done
  · exact gives_bind (writes_issue (fun _ _ => ⟨nofun, nofun, nofun⟩) fun _ _ _ _ _ _ _ _ _ => trivial) fun _ => keeps_get
  · exact gives_fail

theorem keeps_publishStatus (found : Finding) : Keeps p (fun _ => True) (publishStatus name found.1) := by
  have coherent : Coherent (partitionTable found.1.partitions) := by
    apply coherent_const (a := "")
    intro row member
    obtain ⟨q, listed, rfl⟩ := List.mem_map.mp member
    exact found.2 q listed
  refine gives_bind (gives_attempt keeps_get) fun read => gives_pre (fun _ _ => trivial) ?_
  refine gives_bind keeps_ensureNode fun _ => keeps_publishWithin 5 ?_
  rw [afterMerge_partitions, partitionTable_mergePartition]
  exact coherent.rewrite _

theorem keeps_reportError : Keeps p (fun _ => True) (reportError name) := by
  have rephases : ∀ old : SwiftGPUNodeStatus, NodeStep old { old with phase := .error } ∧
      MergesAll old { old with phase := .error } := by
    intro old
    refine ⟨.phase _, mergesAll_of_listed ?_ ?_⟩
    · exact fun g listed _ => ⟨g, listed, rfl⟩
    · exact fun q listed _ => ⟨q, listed, rfl⟩
  refine gives_bind keeps_get fun n => ?_
  split
  · exact gives_done
  · exact writes_issue (fun _ _ => rephases) fun _ _ _ _ _ _ _ _ _ => trivial

theorem Job.writes (job : Job) (inv : nodeSpec.inv s) :
    wp (recording MergesAll) nodeSpec p job.prog (fun _ _ => True) s := by
  cases job with
  | call c => exact wp_mono (fun _ _ _ => trivial) (c.1.writes (fun _ _ => .allocator) c.2 inv)
  | publishStatus name found =>
    exact wp_of_ensures (gives_bind (keeps_publishStatus found) (fun _ => gives_done) s inv trivial)
  | reportError name => exact wp_of_ensures (gives_bind keeps_reportError (fun _ => gives_done) s inv trivial)

end Passes

abbrev RunsJobs (G : SwiftGPUNodeStatus → SwiftGPUNodeStatus → Prop) (w : World)
    (s : System Nat World Op Op.Res Err (Option (String × Allocation))) : Prop :=
  Reachable (guarded G) (fun prog => ∃ job : Job, prog = job.prog) w s

structure Begins (w : World) : Prop where
  single : ∀ name, (w.versions name).length ≤ 1
  consistent : ∀ name st, st ∈ w.versions name → Consistent st

/-- While every pass that lands lists what is allocated, what a version records for a workload every later one
records for it and for nobody else, or the workload released it in between. -/
theorem discovery_keeps_allocations {w : World} {s : System Nat World Op Op.Res Err (Option (String × Allocation))}
    (begins : Begins w) (runs : RunsJobs MergesAll w s) {name : String} {v n : Nat} {st st' : SwiftGPUNodeStatus}
    (seen : (s.world.versions name)[v]? = some st) (later : (s.world.versions name)[v + n]? = some st') :
    (∀ g ∈ st.gpus, g.allocatedTo ≠ "" → ((∃ g' ∈ st'.gpus, g'.pciAddress = g.pciAddress) ∧
        ∀ g' ∈ st'.gpus, g'.pciAddress = g.pciAddress → g'.allocatedTo = g.allocatedTo) ∨
      ReleasedBetween (s.world.versions name) v n g.allocatedTo) ∧
    (∀ q ∈ st.partitions, q.allocatedTo ≠ "" → ((∃ q' ∈ st'.partitions, q'.id = q.id) ∧
        ∀ q' ∈ st'.partitions, q'.id = q.id → q'.allocatedTo = q.allocatedTo) ∨
      ReleasedBetween (s.world.versions name) v n q.allocatedTo) := by
  obtain ⟨answers, recorded⟩ := recorded_of_reachable runs
  have chain : nodeSpec.inv (s.world, answers) := by
    refine (sound_reachable (M := recording MergesAll) (P := fun _ _ => True) (Q := fun _ _ _ => True) compatible_writeSpec
      ?_ ?_ (fun _ _ _ _ => trivial) recorded).inv
    · intro p prog w' offered inv _
      obtain ⟨job, rfl⟩ := offered
      exact job.writes inv
    · constructor
      · exact fun name st first => begins.consistent name st (List.mem_of_getElem? first)
      · intro name v old st _ next
        have bound : v + 1 < (w.versions name).length := (List.getElem?_eq_some_iff.mp next).1
        have single := begins.single name
        omega
  have consistent := consistent_version chain later
  constructor
  · intro g listed named
    have kept := Chain.kept_or_broken chain (P := fun st => (g.pciAddress, g.allocatedTo) ∈ gpuTable st)
      (R := fun a b => b = a.clear g.allocatedTo)
      (fun u a b found record next => gpuRecord_step (consistent_version chain found) named record next.1 next.2)
      seen (mem_gpuTable.mpr ⟨g, listed, rfl, rfl⟩) later
    rcases kept with record | ⟨u, a, b, after, before, found, next, rfl⟩
    · left
      obtain ⟨g', listed', at_, -⟩ := mem_gpuTable.mp record
      refine ⟨⟨g', listed', at_⟩, ?_⟩
      intro g'' listed'' at_
      exact consistent.gpus _ _ _ (mem_gpuTable.mpr ⟨g'', listed'', at_, rfl⟩) record
    · exact .inr ⟨u, a, after, before, found, next⟩
  · intro q listed named
    have kept := Chain.kept_or_broken chain (P := fun st => (q.id, q.allocatedTo) ∈ partitionTable st.partitions)
      (R := fun a b => b = a.clear q.allocatedTo)
      (fun u a b found record next => partitionRecord_step (consistent_version chain found) named record next.1 next.2)
      seen (mem_partitionTable.mpr ⟨q, listed, rfl, rfl⟩) later
    rcases kept with record | ⟨u, a, b, after, before, found, next, rfl⟩
    · left
      obtain ⟨q', listed', at_, -⟩ := mem_partitionTable.mp record
      refine ⟨⟨q', listed', at_⟩, ?_⟩
      intro q'' listed'' at_
      exact consistent.partitions _ _ _ (mem_partitionTable.mpr ⟨q'', listed'', at_, rfl⟩) record
    · exact .inr ⟨u, a, after, before, found, next⟩

private def board : GPUHardware :=
  ⟨0, "0000:17:00.0", "NVIDIA", "L40S", "10de:26b9", 0, 17, "vfio-pci", []⟩

private def passing (gpus : List GPUHardware) : Job := .publishStatus "node" ⟨⟨gpus, none, true⟩, nofun⟩

private def taking (id : String) (named : id ≠ "") : Job :=
  .call ⟨.findAndAllocateFor id "" ⟨1, "", .isolated, none⟩ ⟨"", []⟩, named⟩

private def noNodes : World := ⟨fun _ => []⟩

private theorem noNodes_begins : Begins noNodes where
  single _ := Nat.zero_le 1
  consistent _ _ member := by cases member

private def at_ (version : Nat) : Choice where
  listing := [("node", version)]
  version := some version
  node := some ⟨false, []⟩

private def allocates : List (Move Nat Choice Job) :=
  [.start 0 (passing [board]), .op 0 {}, .op 0 {}, .op 0 (at_ 0), .op 0 (at_ 0), .op 0 {},
    .start 1 (taking "ns/a" (by decide)), .op 1 (at_ 1), .op 1 (at_ 1), .op 1 {}]

private def passes (p : Nat) (gpus : List GPUHardware) (version : Nat) : List (Move Nat Choice Job) :=
  [.start p (passing gpus), .op p (at_ version), .op p (at_ version), .op p {}]

private def reappears : List (Move Nat Choice Job) :=
  allocates ++ passes 2 [] 2 ++ passes 3 [board] 3 ++
    [.start 4 (taking "ns/b" (by decide)), .op 4 (at_ 4), .op 4 (at_ 4), .op 4 {}]

private def listsAll (w : World) : Op → Bool
  | .update name v st =>
    match (w.versions name)[v]? with
    | some old =>
      (old.gpus.all fun g => !g.allocated || st.gpus.any fun g' => g'.pciAddress = g.pciAddress) &&
        old.partitions.all fun q => q.allocatedTo = "" || st.partitions.any fun q' => q'.id = q.id
    | none => true
  | _ => true

private theorem listsAll_spec {w : World} {o : Op} {c : Choice} (lists : listsAll w o = true) :
    Landing MergesAll w o c := by
  rintro name v st old rfl - - seen
  simp only [listsAll, seen, Bool.and_eq_true, List.all_eq_true, Bool.or_eq_true, Bool.not_eq_true',
    List.any_eq_true, decide_eq_true_eq] at lists
  apply mergesAll_of_listed
  · intro g listed allocated
    have row := lists.1 g listed
    rw [allocated] at row
    simpa using row
  · intro q listed named
    exact (lists.2 q listed).resolve_left named

theorem discovery_keeps_allocation_of_one :
    ∃ s, RunsJobs MergesAll noNodes s ∧ ∃ st st', (s.world.versions "node")[2]? = some st ∧
      (s.world.versions "node")[2 + 1]? = some st' ∧ ∃ g ∈ st.gpus, g.allocatedTo = "ns/a" ∧
      ∀ g' ∈ st'.gpus, g'.pciAddress = g.pciAddress → g'.allocatedTo = "ns/a" := by
  have reached : ∃ s, RunsJobs MergesAll noNodes s ∧ ∃ st ∈ (s.world.versions "node")[2]?,
      ∃ st' ∈ (s.world.versions "node")[2 + 1]?, st' ≠ st.clear "ns/a" ∧ ∃ g ∈ st.gpus, g.allocatedTo = "ns/a" :=
    exists_of_moves (fun _ w o _ => listsAll w o) (allocates ++ passes 2 [board] 2) (fun _ _ _ _ => listsAll_spec)
      (fun _ _ _ => trivial) (by decide)
  obtain ⟨s, runs, st, seen, st', later, unreleased, g, listed, own⟩ := reached
  refine ⟨s, runs, st, st', seen, later, g, listed, own, ?_⟩
  rcases (discovery_keeps_allocations noNodes_begins runs seen later).1 g listed (by simp [own]) with kept | released
  · exact own ▸ kept.2
  · obtain ⟨u, a, after, before, found, next⟩ := released
    obtain rfl : u = 2 := by omega
    cases seen.symm.trans found
    rw [own] at next
    exact (unreleased (Option.some.inj (later.symm.trans next))).elim

private def theGPU : Allocation := ⟨"node", [⟨board, false, ""⟩], [0], -1⟩

/-- Without the condition a GPU is handed to a second workload while the first never released it. -/
theorem discovery_gives_away_gpu : ∃ s, Begins noNodes ∧ RunsJobs (fun _ _ => True) noNodes s ∧
      (s.procs 1).result = some (.ok (some ("ns/a", theGPU))) ∧
      (s.procs 4).result = some (.ok (some ("ns/b", theGPU))) ∧
      ¬ ReleasedBetween (s.world.versions "node") 0 5 "ns/a" := by
  have reached : ∃ s, RunsJobs (fun _ _ => True) noNodes s ∧ (s.procs 1).result = some (.ok (some ("ns/a", theGPU))) ∧
      (s.procs 4).result = some (.ok (some ("ns/b", theGPU))) ∧ ∀ u < 5, ∀ a ∈ (s.world.versions "node")[u]?,
        (s.world.versions "node")[u + 1]? ≠ some (a.clear "ns/a") :=
    exists_of_moves (fun _ _ _ _ => true) reappears (fun _ _ _ _ _ _ _ _ _ _ _ _ _ => trivial) (fun _ _ _ => trivial) (by decide)
  obtain ⟨s, runs, first, second, unreleased⟩ := reached
  refine ⟨s, noNodes_begins, runs, first, second, ?_⟩
  rintro ⟨u, a, -, before, found, next⟩
  exact unreleased u before a found next

end KubeSwift.GPU
