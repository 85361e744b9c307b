import KubeSwift.Program.Groups

/-! # vCPU placement

`plan_with_topology` of `cpuset.rs`: the CPUs are grouped into physical cores, ordered by the sibling policy, and the
first ones given to the vCPUs. -/

namespace KubeSwift.Launcher
open Program

inductive SmtPolicy where
  | spread
  | pack
  deriving DecidableEq

structure VcpuAffinity where
  vcpu : Nat
  hostCpus : List Nat
  deriving DecidableEq

variable (available : List Nat) (siblings : Nat → List Nat)

/-- The lowest sibling of a CPU that is available. -/
def coreKey (cpu : Nat) : Nat :=
  (((siblings cpu).filter (· ∈ available)).insertionSort (· ≤ ·)).head?.getD cpu

def cores : List (List Nat) :=
  let keys := (available.map (coreKey available siblings)).dedup.insertionSort (· ≤ ·)
  let byCore := keys.map fun key => ((group (coreKey available siblings) available key).insertionSort (· ≤ ·)).dedup
  byCore.insertionSort fun c d => c.headD 0 ≤ d.headD 0

def order (policy : SmtPolicy) (cores : List (List Nat)) : List Nat :=
  match policy with
  | .spread => rounds cores ((cores.map List.length).max?.getD 0)
  | .pack => cores.flatten

def planWithTopology (vcpus : Nat) (policy : SmtPolicy) : Except String (List VcpuAffinity) :=
  if vcpus = 0 then .error "cannot pin a guest with 0 vCPUs"
  -- `available.len() as u32` keeps the low 32 bits
  else if available.length % 2 ^ 32 < vcpus then
    .error (s!"cpuPinning=static needs at least {vcpus} CPUs in the launcher pod's cpuset, found {available.length} " ++
      s!"({available}). Reduce the class's cpu, or give the pod more CPUs.")
  else
    .ok <| ((order policy (cores available siblings)).take vcpus).zipIdx.map fun (cpu, i) => ⟨i % 2 ^ 32, [cpu]⟩

/-- The CPUs of a list on the core of one CPU. -/
def threads (cpus : List Nat) (cpu : Nat) : List Nat := cpus.filter (· ∈ siblings cpu)

def Balanced (cpus : List Nat) (policy : SmtPolicy) : Prop := ∀ a ∈ available, ∀ b ∈ available,
  match policy with
  | .spread => (threads siblings cpus a).length ≤ (threads siblings cpus b).length + 1 ∨ threads siblings available b ⊆ cpus
  | .pack => Partly cpus (threads siblings available a) → Partly cpus (threads siblings available b) → b ∈ siblings a

variable {available siblings}

theorem length_le_depth {cores : List (List Nat)} {core : List Nat} (listed : core ∈ cores) :
    core.length ≤ (cores.map List.length).max?.getD 0 :=
  List.le_max?_getD_of_mem (List.mem_map_of_mem listed)

theorem order_perm {policy : SmtPolicy} {cores : List (List Nat)} : (order policy cores).Perm cores.flatten := by
  cases policy with
  | spread => exact rounds_perm fun _ => length_le_depth
  | pack => exact .refl _

section Siblings

variable (nodup : available.Nodup)
include nodup

theorem core_perm (key : Nat) : (((group (coreKey available siblings) available key).insertionSort (· ≤ ·)).dedup).Perm
    (group (coreKey available siblings) available key) := by
  have sorted := List.perm_insertionSort (· ≤ ·) (group (coreKey available siblings) available key)
  rwa [List.dedup_eq_self.mpr (sorted.nodup_iff.mpr (nodup.filter _))]

theorem cores_perm : (cores available siblings).flatten.Perm available := by
  refine (List.perm_insertionSort _ _).flatten.trans ?_
  rw [← List.flatMap_def]
  refine (List.Perm.flatMap_left _ fun key _ => core_perm nodup key).trans ?_
  refine flatMap_group_perm ((List.perm_insertionSort _ _).nodup_iff.mpr (List.nodup_dedup _)) fun cpu member => ?_
  exact (List.mem_insertionSort _).mpr (List.mem_dedup.mpr (List.mem_map_of_mem member))

variable (equivalence : Equivalence fun a b => b ∈ siblings a)
include equivalence

omit nodup in
theorem coreKey_spec {cpu : Nat} (listed : cpu ∈ available) : coreKey available siblings cpu ∈ siblings cpu ∧
    coreKey available siblings cpu ∈ available ∧
      ∀ other ∈ siblings cpu, other ∈ available → coreKey available siblings cpu ≤ other := by
  have sorted := List.pairwise_insertionSort (· ≤ ·) ((siblings cpu).filter (· ∈ available))
  have same {other : Nat} :
      other ∈ ((siblings cpu).filter (· ∈ available)).insertionSort (· ≤ ·) ↔ other ∈ siblings cpu ∧ other ∈ available := by
    rw [List.mem_insertionSort, List.mem_filter, decide_eq_true_iff]
  rw [coreKey]
  cases found : ((siblings cpu).filter (· ∈ available)).insertionSort (· ≤ ·) with
  | nil => exact (List.not_mem_nil (found ▸ same.mpr ⟨equivalence.refl cpu, listed⟩)).elim
  | cons key rest =>
    rw [found] at sorted same
    obtain ⟨mine, member⟩ := same.mp List.mem_cons_self
    refine ⟨mine, member, fun other sibling listed => ?_⟩
    obtain rfl | later := List.mem_cons.mp (same.mpr ⟨sibling, listed⟩)
    · exact le_rfl
    · exact List.rel_of_pairwise_cons sorted later

omit nodup in
theorem coreKey_eq {a b : Nat} (first : a ∈ available) (second : b ∈ available) :
    coreKey available siblings b = coreKey available siblings a ↔ b ∈ siblings a := by
  obtain ⟨mine, listed, least⟩ := coreKey_spec equivalence first
  obtain ⟨mine', listed', least'⟩ := coreKey_spec equivalence second
  constructor
  · intro same
    exact equivalence.trans mine (equivalence.symm (same ▸ mine'))
  · intro sibling
    exact le_antisymm (least' _ (equivalence.trans (equivalence.symm sibling) mine) listed)
      (least _ (equivalence.trans sibling mine') listed')

theorem exists_core {cpu : Nat} (listed : cpu ∈ available) :
    ∃ core ∈ cores available siblings, core.Perm (threads siblings available cpu) := by
  refine ⟨_, (List.mem_insertionSort _).mpr (List.mem_map_of_mem ((List.mem_insertionSort _).mpr
    (List.mem_dedup.mpr (List.mem_map_of_mem listed)))), (core_perm nodup _).trans ?_⟩
  rw [group, threads, List.filter_congr fun other member => decide_eq_decide.mpr (coreKey_eq equivalence listed member)]

theorem order_balanced {policy : SmtPolicy} {cpus : List Nat} (walked : cpus <+: order policy (cores available siblings)) :
    Balanced available siblings cpus policy := by
  intro a first b second
  have distinct : (cores available siblings).flatten.Nodup := (cores_perm nodup).nodup_iff.mpr nodup
  obtain ⟨core, listed, same⟩ := exists_core nodup equivalence first
  obtain ⟨core', listed', same'⟩ := exists_core nodup equivalence second
  cases policy with
  | spread =>
    have planned {cpu : Nat} {core : List Nat} (same : core.Perm (threads siblings available cpu)) :
        threads siblings cpus cpu = cpus.filter (· ∈ core) := by
      refine List.filter_congr fun other member => decide_eq_decide.mpr ?_
      have known := (order_perm.trans (cores_perm nodup)).subset (walked.subset member)
      rw [same.mem_iff, threads, List.mem_filter, decide_eq_true_iff, and_iff_right known]
    obtain few | all := rounds_balanced distinct (fun _ => length_le_depth) walked listed listed'
    · exact .inl (by rwa [planned same, planned same'])
    · exact .inr (List.Subset.trans same'.symm.subset all)
  | pack =>
    intro left right
    cases flatten_partly distinct walked listed listed' (left.of_perm same) (right.of_perm same')
    have here : b ∈ threads siblings available b := List.mem_filter.mpr ⟨second, decide_eq_true (equivalence.refl b)⟩
    exact of_decide_eq_true (List.mem_filter.mp ((same'.symm.trans same).subset here)).2

end Siblings

/-- Below `2 ^ 32` CPUs, a plan is refused only for no vCPU or more vCPUs than CPUs, and otherwise gives the vCPUs in turn
one listed CPU each, placed as the policy says. -/
theorem planWithTopology_exact {vcpus : Nat} {policy : SmtPolicy} (nodup : available.Nodup)
    (equivalence : Equivalence fun a b => b ∈ siblings a) (fits : available.length < 2 ^ 32) :
    ((∃ e, planWithTopology available siblings vcpus policy = .error e) ↔ vcpus = 0 ∨ available.length < vcpus) ∧
      ∀ plan, planWithTopology available siblings vcpus policy = .ok plan → plan.map (·.vcpu) = List.range vcpus ∧
        ∃ cpus, plan.map (·.hostCpus) = cpus.map ([·]) ∧ cpus.Nodup ∧ cpus ⊆ available ∧
          Balanced available siblings cpus policy := by
  rw [planWithTopology, Nat.mod_eq_of_lt fits]
  split
  · exact ⟨iff_of_true ⟨_, rfl⟩ (.inl ‹_›), nofun⟩
  split
  · exact ⟨iff_of_true ⟨_, rfl⟩ (.inr ‹_›), nofun⟩
  refine ⟨iff_of_false nofun (by omega), fun plan made => ?_⟩
  cases made
  have whole : (order policy (cores available siblings)).Perm available := order_perm.trans (cores_perm nodup)
  have walked := List.take_prefix vcpus (order policy (cores available siblings))
  refine ⟨?_, _, ?_, walked.sublist.nodup (whole.nodup_iff.mpr nodup), fun _ member => whole.subset (walked.subset member),
    order_balanced nodup equivalence walked⟩
  · have count : ((order policy (cores available siblings)).take vcpus).length = vcpus := by
      rw [List.length_take, whole.length_eq]
      omega
    have numbers := List.zipIdx_map_snd 0 ((order policy (cores available siblings)).take vcpus)
    rw [count, ← List.range_eq_range'] at numbers
    rw [← numbers, List.map_map]
    refine List.map_congr_left fun entry member => Nat.mod_eq_of_lt ?_
    have := List.mem_range.mp (numbers ▸ List.mem_map_of_mem member)
    omega
  · rw [← List.zipIdx_map_fst 0 ((order policy (cores available siblings)).take vcpus), List.map_map, List.map_map]
    simp [Function.comp_def]

theorem planWithTopology_exact_of_two :
    planWithTopology [3, 5] (fun cpu => [cpu]) 1 .pack = .ok [⟨0, [3]⟩] ∧ ∃ cpus, [[3]] = cpus.map ([·]) ∧ cpus.Nodup ∧
      cpus ⊆ [3, 5] ∧ Balanced [3, 5] (fun cpu => [cpu]) cpus .pack := by
  have made : planWithTopology [3, 5] (fun cpu => [cpu]) 1 .pack = .ok [⟨0, [3]⟩] := by decide +kernel
  have equivalence : Equivalence fun a b : Nat => b ∈ [a] := by simpa [eq_comm] using eq_equivalence
  exact ⟨made, ((planWithTopology_exact (by decide) equivalence (by decide)).2 _ made).2⟩

/-- With every 32-bit CPU number listed the truncated count is 0, and one vCPU is refused. -/
theorem full_cpuset_refused : ∃ available siblings vcpus policy, available.Nodup ∧
    (Equivalence fun a b => b ∈ siblings a) ∧ 0 < vcpus ∧ vcpus ≤ available.length ∧
      ∃ e, planWithTopology available siblings vcpus policy = .error e := by
  refine ⟨List.range (2 ^ 32), fun cpu => [cpu], 1, .spread, List.nodup_range, ?_, Nat.one_pos, ?_, ?_⟩
  · simpa [eq_comm] using eq_equivalence
  · rw [List.length_range]
    decide
  · rw [planWithTopology, List.length_range]
    exact ⟨_, rfl⟩

end KubeSwift.Launcher
