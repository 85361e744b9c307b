import KubeSwift.Sandbox.Slots

/-! # What the passes over slots ask for -/

namespace KubeSwift.Sandbox
open Program Prog

def PoolAsks (hex : String → String) (pool : SwiftSandboxPool) (given : String → Prop) (seen : Pod → Prop) : Op → Prop
  | .create m => ∃ suffix egress, given suffix ∧ m = warmSlot hex pool (pool.name ++ "-slot-" ++ suffix) egress
  | .external (.allocateSlotGPU slot) => ∃ suffix, given suffix ∧ slot = pool.name ++ "-slot-" ++ suffix
  | .external (.patchFinalizers _ present) => present = true
  | .update _ => False
  | .delete pod => seen pod ∧ pod.warm = true
  | _ => True

def CheckoutAsks (sb : SwiftSandbox) (inject : Option ExecInject) (seen : Pod → Prop) : Op → Prop
  | .update claimed => ∃ pod, seen pod ∧ pod.warm = true ∧ claim sb pod inject = .ok claimed
  | .delete _ | .create _ => False
  | _ => True

def Told (given : String → Prop) (seen : Pod → Prop) : (o : Op) → Except Err o.Res → Prop
  | .external .newSlotSuffix, r => ∀ suffix, r = .ok suffix → given suffix
  | .list selector, r => ∀ pods, r = .ok pods → ∀ pod ∈ pods, seen pod ∧ ∀ kv ∈ selector, pod.labels kv.1 = some kv.2
  | .get _, r => ∀ pod, r = .ok pod → seen pod
  | _, _ => True

section Pool

variable {hex : String → String} {pool : SwiftSandboxPool} {given : String → Prop} {seen : Pod → Prop} {pod : Pod}
  {egress : String} {timeout now : Nat} {census : Census} {α β : Type}

abbrev Tends (hex : String → String) (pool : SwiftSandboxPool) (given : String → Prop) (seen : Pod → Prop) {α : Type}
    (m : Act α) (V : α → Prop) : Prop :=
  m.Yields (PoolAsks hex pool given seen) (Told given seen) V

theorem tends_issue {o : Op} (asks : PoolAsks hex pool given seen o) :
    Tends hex pool given seen (issue o) fun _ => True := yields_call asks fun _ _ => trivial

theorem tends_before {c : Prop} [Decidable c] {m : Act α} {f : α → Act β} {V : β → Prop} (a : α)
    (whenTrue : c → Tends hex pool given seen m fun _ => True) (rest : ∀ b, Tends hex pool given seen (f b) V) :
    Tends hex pool given seen (if c then m >>= f else f a) V :=
  yields_ite (fun holds => yields_then (whenTrue holds) rest) fun _ => rest a

theorem tends_deleteWarmSlot (known : seen pod) (warm : pod.warm = true) :
    Tends hex pool given seen (deleteWarmSlot pod) fun _ => True := by
  refine yields_then (yields_attempt (tends_issue ⟨known, warm⟩) fun _ => trivial) ?_
  intro r
  split <;> trivial

variable {pods : List Pod}

theorem tends_deleteAll (known : ∀ pod ∈ pods, seen pod ∧ pod.warm = true) :
    Tends hex pool given seen (deleteAll pods) fun _ => True := by
  induction pods with
  | nil => trivial
  | cons pod rest ih =>
    obtain ⟨here, warm⟩ := known pod (by simp)
    exact yields_then (tends_deleteWarmSlot here warm) fun _ => ih fun other member => known other (by simp [member])

theorem tends_deleteWarmSlots : Tends hex pool given seen (deleteWarmSlots pool) fun _ => True := by
  refine yields_seq (yields_call trivial fun pods told => told pods rfl) ?_
  intro pods told
  refine tends_deleteAll fun pod member => ?_
  obtain ⟨known, labels⟩ := told pod (List.mem_filter.mp member).1
  have state : pod.labels slotStateLabelKey = some slotStateWarm :=
    labels (slotStateLabelKey, slotStateWarm) (by simp)
  exact ⟨known, by simp [Manifest.warm, StringMap.value, state]⟩

theorem tends_reconcileSlotGPUGC : Tends hex pool given seen (reconcileSlotGPUGC pool) fun _ => True :=
  yields_ite (fun _ => trivial) fun _ => tends_issue trivial

def Census.Sound (seen : Pod → Prop) (census : Census) : Prop := ∀ pod ∈ census.warmPods, seen pod ∧ pod.warm = true

theorem tends_censusSlot (sound : census.Sound seen) (known : seen pod) :
    Tends hex pool given seen (censusSlot pool egress timeout now census pod) (Census.Sound seen) := by
  refine yields_ite (fun _ => sound) fun _ => yields_ite (fun _ => ?_) fun _ => ?_
  · exact tends_before () (fun warm => tends_deleteWarmSlot known warm) fun _ => sound
  refine tends_before () (fun _ => tends_issue trivial) fun _ => ?_
  refine yields_ite (fun stale => ?_) fun _ => yields_ite (fun stale => ?_) fun _ => ?_
  · simp only [Bool.and_eq_true] at stale
    exact yields_then (tends_deleteWarmSlot known stale.1) fun _ => sound
  · simp only [Bool.and_eq_true] at stale
    exact yields_then (tends_deleteWarmSlot known stale.1) fun _ => sound
  · refine yields_ite (fun warm => ?_) fun _ => sound
    intro other member
    rcases List.mem_append.mp member with before | here
    · exact sound other before
    · rw [List.mem_singleton] at here
      exact here ▸ ⟨known, warm⟩

theorem tends_census (sound : census.Sound seen) (known : ∀ pod ∈ pods, seen pod) :
    Tends hex pool given seen (pods.foldlM (censusSlot pool egress timeout now) census) (Census.Sound seen) := by
  induction pods generalizing census with
  | nil => exact sound
  | cons pod rest ih =>
    refine yields_seq (tends_censusSlot sound (known pod (by simp))) ?_
    exact fun census' sound' => ih sound' fun other member => known other (by simp [member])

theorem mem_inFront {first : α → Bool} {a : α} {l : List α} (member : a ∈ inFront first l) : a ∈ l := by
  rcases List.mem_append.mp member with here | here
  all_goals exact (List.mem_filter.mp here).1

theorem mem_pickWarmToDrain {warm : List Pod} {n : Nat} (member : pod ∈ pickWarmToDrain warm n) : pod ∈ warm := by
  unfold pickWarmToDrain at member
  split at member
  · exact member
  · exact mem_inFront (List.mem_of_mem_take member)

theorem tends_createWarmSlot : Tends hex pool given seen (createWarmSlot hex pool egress) fun _ => True := by
  refine yields_seq (U := given) (yields_call trivial fun suffix told => told suffix rfl) ?_
  intro suffix fresh
  refine tends_before () (fun _ => tends_issue ⟨suffix, fresh, rfl⟩) fun _ => ?_
  refine yields_next trivial fun _ => yields_next trivial fun _ => ?_
  refine tends_before true (fun _ => tends_issue trivial) fun policy => ?_
  refine yields_ite (fun _ => ?_) fun _ => trivial
  have creates : Tends hex pool given seen (issue (.create (warmSlot hex pool (pool.name ++ "-slot-" ++ suffix) egress)))
      fun _ => True := tends_issue ⟨suffix, egress, fresh, rfl⟩
  refine yields_then (yields_attempt creates fun _ => trivial) ?_
  intro r
  split
  · exact tends_issue trivial
  · trivial
  · trivial

theorem tends_warmSlots (n : Nat) : Tends hex pool given seen (warmSlots hex pool egress n) fun _ => True := by
  induction n with
  | zero => trivial
  | succ n ih =>
    refine yields_then (yields_attempt tends_createWarmSlot fun _ => trivial) ?_
    intro r
    cases r with
    | ok _ => exact ih
    | error e => exact yields_ite (fun _ => trivial) fun _ => yields_ite (fun _ => trivial) fun _ => trivial

theorem tends_resolve : Tends hex pool given seen (resolve pool) fun _ => True := by
  have asks : ∀ {call : External}, PoolAsks hex pool given seen (.external call) →
      Tends hex pool given seen (ask call).attempt fun _ => True :=
    fun asks => yields_attempt (tends_issue asks) fun _ => trivial
  refine yields_then (asks trivial) ?_
  intro auth
  cases auth with
  | error _ => trivial
  | ok _ =>
    refine yields_then (asks trivial) fun image => yields_ite (fun _ => ?_) fun _ => ?_
    · refine yields_then (asks trivial) fun modelAuth => ?_
      cases modelAuth with
      | error _ => trivial
      | ok _ =>
        refine yields_then (asks trivial) fun model => ?_
        cases image <;> cases model <;> trivial
    · cases image <;> trivial

theorem tends_replenish {egressWait : Option String} (sound : census.Sound seen) :
    Tends hex pool given seen (replenish hex pool egress egressWait census) fun _ => True := by
  have blocks : ∀ want, Tends hex pool given seen (blocked egressWait want) fun _ => True := by
    intro want
    refine yields_ite (fun _ => trivial) fun _ => ?_
    cases egressWait with
    | some reason => trivial
    | none => exact yields_next trivial fun _ => trivial
  have drains : Tends hex pool given seen (drain pool census) fun _ => True :=
    yields_then (tends_deleteAll fun pod member => sound pod (mem_pickWarmToDrain member)) fun _ => tends_issue trivial
  have warms : ∀ want resolved,
      Tends hex pool given seen (warmAndDrain hex pool egress census want resolved) fun _ => True := by
    intro want resolved
    unfold warmAndDrain
    split
    · exact tends_issue trivial
    · trivial
    · refine yields_then (tends_warmSlots want) fun warmed => ?_
      cases warmed with
      | conflict => exact tends_issue trivial
      | done | stopped => exact drains
  refine yields_then (blocks _) fun reason => ?_
  cases reason with
  | some reason => exact tends_issue trivial
  | none => exact yields_then (yields_ite (fun _ => tends_resolve) fun _ => trivial) fun resolved => warms _ resolved

theorem tends_reconcilePool : Tends hex pool given seen (reconcilePool hex pool) fun _ => True := by
  unfold reconcilePool
  refine tends_before () (fun _ => tends_issue (o := .external (.patchFinalizers _ true)) rfl) fun _ => ?_
  refine yields_next trivial fun terminating => yields_ite (fun _ => trivial) fun _ => ?_
  refine yields_next trivial fun _ => yields_next trivial fun egress => ?_
  refine yields_seq (U := fun pods => ∀ pod ∈ pods, seen pod)
    (yields_call trivial fun pods told pod member => (told pods rfl pod member).1) fun pods known => ?_
  refine yields_next trivial fun timeout => yields_next trivial fun now => ?_
  refine yields_seq (tends_census nofun known) fun census sound => ?_
  refine yields_then (yields_attempt (tends_issue trivial) fun _ => trivial) fun _ => ?_
  exact yields_then tends_reconcileSlotGPUGC fun _ => tends_replenish sound

end Pool

theorem eligible_warm {hex : String → String} {sb : SwiftSandbox} {profile : String} {need : Bool} {pod : Pod}
    (takes : eligible hex sb profile need pod = true) : pod.warm = true := by
  unfold eligible at takes
  by_contra cold
  simp [cold] at takes

section Checkout

variable {hex : String → String} {sb : SwiftSandbox} {profile : String} {need : Bool} {inject : Option ExecInject}
  {given : String → Prop} {seen : Pod → Prop} {pod : Pod}

abbrev Checks (sb : SwiftSandbox) (inject : Option ExecInject) (given : String → Prop) (seen : Pod → Prop) {α : Type}
    (m : Act α) (V : α → Prop) : Prop :=
  m.Yields (CheckoutAsks sb inject seen) (Told given seen) V

theorem checks_claimSlot (known : seen pod) (warm : pod.warm = true) :
    Checks sb inject given seen (claimSlot sb pod inject) fun _ => True := by
  unfold claimSlot
  cases done : claim sb pod inject with
  | error e => trivial
  | ok claimed =>
    exact yields_next ⟨pod, known, warm, done⟩ fun _ => trivial

theorem checks_rereadSlot :
    Checks sb inject given seen (rereadSlot pod) fun fresh => ∀ pod', fresh = some pod' → seen pod' := by
  refine yields_seq (U := fun r => ∀ fresh, r = .ok fresh → seen fresh)
    (yields_attempt (yields_call trivial fun fresh told other same => ?_) fun _ => nofun) fun found known => ?_
  · cases same
    exact told fresh rfl
  split
  · exact fun _ => nofun
  · trivial
  · next fresh =>
    intro pod' same
    split at same
    · cases same
    · cases same
      exact known fresh rfl

theorem checks_claimLoop {attempts : Nat} (known : seen pod) :
    Checks sb inject given seen (claimLoop hex sb profile need inject attempts pod) fun _ => True := by
  induction attempts generalizing pod with
  | zero => trivial
  | succ attempts ih =>
    refine yields_ite (fun takes => ?_) fun _ => trivial
    refine yields_then (yields_attempt (checks_claimSlot known (eligible_warm takes)) fun _ => trivial) fun r => ?_
    split
    · trivial
    · refine yields_seq checks_rereadSlot fun fresh known' => ?_
      cases fresh with
      | none => trivial
      | some pod' => exact ih (known' pod' rfl)
    · trivial

theorem checks_claimFirst (known : ∀ pod ∈ pods, seen pod) :
    Checks sb inject given seen (claimFirst hex sb profile need inject pods) fun _ => True := by
  induction pods with
  | nil => trivial
  | cons pod rest ih =>
    refine yields_then (checks_claimLoop (known pod (by simp))) fun claimed => ?_
    cases claimed with
    | some claimed => trivial
    | none => exact ih fun other member => known other (by simp [member])

theorem checks_tryClaimWarmSlot :
    Checks sb inject given seen (tryClaimWarmSlot hex sb profile inject) fun _ => True := by
  have chosen : ∀ need, Checks sb inject given seen (do
      let pods ← issue (.list [(poolLabelKey, sb.poolRef), (slotStateLabelKey, slotStateWarm)])
      let prepared ← ask .preparedNodes
      claimFirst hex sb profile need inject
        (if prepared.isEmpty then pods else inFront (fun p => prepared.contains p.nodeName) pods)) fun _ => True := by
    intro need
    refine yields_seq (U := fun pods => ∀ pod ∈ pods, seen pod)
      (yields_call trivial fun pods told pod member => (told pods rfl pod member).1) fun pods known => ?_
    refine yields_next trivial fun prepared => checks_claimFirst fun pod member => ?_
    split at member
    · exact known pod member
    · exact known pod (mem_inFront member)
  exact yields_ite (fun _ => chosen _) fun _ => yields_next trivial fun decisions => chosen _

end Checkout

end KubeSwift.Sandbox
