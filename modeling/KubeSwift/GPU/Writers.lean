import KubeSwift.GPU.Selection
import KubeSwift.GPU.Allocator
import KubeSwift.Program.Triples
import KubeSwift.Program.Versions

/-! # What the writers of a node's status append to its versions -/

namespace KubeSwift.GPU
open Program

inductive AllocatorStep (st : SwiftGPUNodeStatus) : SwiftGPUNodeStatus → Prop
  | allocate {id : String} {profile : SwiftGPUProfileSpec} {selected : List GPUDevice} {numas : List Int}
      {part : Int} (named : id ≠ "") (none : st.existing id = [])
      (chosen : select st profile = some (selected, numas, part)) :
      AllocatorStep st (st.mark selected part id)
  | release {id : String} (named : id ≠ "") : AllocatorStep st (st.clear id)

def Choice.lands (c : Choice) : Bool := c.fault.all fun fault => fault.2

/-- An update that takes effect keeps to `G`. -/
def Landing (G : SwiftGPUNodeStatus → SwiftGPUNodeStatus → Prop) (w : World) (o : Op) (c : Choice) : Prop :=
  ∀ name v st old, o = .update name v st → c.lands = true → (w.versions name).length = v + 1 →
    (w.versions name)[v]? = some old → G old st

def guarded (G : SwiftGPUNodeStatus → SwiftGPUNodeStatus → Prop) : Machine Nat World Op Op.Res Err :=
  engine.machine (fun _ => Landing G) (fun _ _ => True)

abbrev Answers := Nat → List (Answer Op Op.Res Err)

def recording (G : SwiftGPUNodeStatus → SwiftGPUNodeStatus → Prop) : Machine Nat (World × Answers) Op Op.Res Err :=
  engine.recorded.machine (fun _ s => Landing G s.1) (fun _ _ => True)

def writeSpec (first : String → SwiftGPUNodeStatus → Prop)
    (step G : SwiftGPUNodeStatus → SwiftGPUNodeStatus → Prop) : Spec Nat (World × Answers) Op where
  inv s := Chain first (fun _ old st => step old st ∧ G old st) s.1.versions
  rely p s s' := Extends s.1.versions s'.1.versions ∧ s'.2 p = s.2 p
  guar p s s' := Extends s.1.versions s'.1.versions ∧ s.2 p ⊆ s'.2 p ∧ ∀ q, q ≠ p → s'.2 q = s.2 q
  pre _ s o := match o with
    | .update name v st => ∀ old, (s.1.versions name)[v]? = some old → step old st
    | .create name => first name .empty
    | .patchPhase _ phase => ∀ old, step old { old with phase } ∧ G old { old with phase }
    | _ => True

section Writers

variable {first : String → SwiftGPUNodeStatus → Prop}
  {step G : SwiftGPUNodeStatus → SwiftGPUNodeStatus → Prop} {p : Nat} {α : Type}

theorem compatible_writeSpec : Compatible (recording G) (writeSpec first step G) where
  refl _ s := ⟨Extends.refl s.1.versions, rfl⟩
  trans _ _ _ _ before after := ⟨before.1.trans after.1, after.2.trans before.2⟩
  guar _ q _ _ other _ _ kept := ⟨kept.1, kept.2.2 q other⟩
  crash _ _ _ _ _ _ dies := dies.2 ▸ ⟨Extends.refl _, rfl⟩

variable {w w' : World} {s : World × Answers} {c : Choice} {o : Op}

theorem World.exec_lands {r : Except Err o.Res} (action : World.exec c w o = some (w', r)) :
    (∃ a, r = .ok a ∧ w.perform c o = .ok (w', a) ∧ c.lands = true) ∨
    ∃ e, r = .error e ∧ (w' = w ∨ c.lands = true ∧ ∃ a, w.perform c o = .ok (w', a)) := by
  have done : withFault w c.fault (w.perform c o) = (w', r) := Option.some.inj action
  cases fault : c.fault with
  | none =>
    have lands : c.lands = true := by simp [Choice.lands, fault]
    rw [fault] at done
    rcases withFault_none done with ⟨a, same, did⟩ | ⟨e, failed, same, -⟩
    · exact .inl ⟨a, same, did, lands⟩
    · exact .inr ⟨e, failed, .inl same⟩
  | some reported =>
    rw [fault] at done
    obtain ⟨failed, same | ⟨took, did⟩⟩ := withFault_some done
    · exact .inr ⟨_, failed, .inl same⟩
    · exact .inr ⟨_, failed, .inr ⟨by simp [Choice.lands, fault, took], did⟩⟩

theorem World.perform_kept {a : o.Res} (inv : (writeSpec first step G).inv s)
    (pre : (writeSpec first step G).pre p s o) (spared : Landing G s.1 o c) (lands : c.lands = true)
    (done : s.1.perform c o = .ok (w', a)) :
    Chain first (fun _ old st => step old st ∧ G old st) w'.versions ∧ Extends s.1.versions w'.versions := by
  cases o with
  | list | get | getNode =>
    have same : w' = s.1 := by
      simp only [perform] at done
      first
        | (cases done; rfl)
        | (split at done <;> cases done; rfl)
    subst same
    exact ⟨inv, Extends.refl _⟩
  | update name v st =>
    simp only [perform] at done
    split at done <;> cases done
    next current =>
      refine ⟨Chain.append inv current ?_, extends_append s.1.versions name st⟩
      exact fun old seen => ⟨pre old seen, spared name v st old rfl lands current seen⟩
  | create name =>
    simp only [perform] at done
    split at done <;> cases done
    next absent => exact ⟨Chain.create inv absent pre, extends_append s.1.versions name _⟩
  | patchPhase name phase =>
    simp only [perform] at done
    split at done <;> cases done
    next st last =>
      have current : (s.1.versions name).length = (s.1.versions name).length - 1 + 1 := by
        cases empty : s.1.versions name with
        | nil => simp [empty] at last
        | cons => simp
      refine ⟨Chain.append inv current ?_, extends_append s.1.versions name _⟩
      intro old seen
      rw [List.getLast?_eq_getElem?, seen] at last
      cases last
      exact pre _

variable (first step G p) in
abbrev Writes (P : World × Answers → Prop) (m : Act α) (V : α → World × Answers → Prop) : Prop :=
  Gives (recording G) (writeSpec first step G) p P m V

variable {P : World × Answers → Prop}

theorem writes_issue {V : o.Res → World × Answers → Prop} (pre : ∀ s, P s → (writeSpec first step G).pre p s o)
    (ok : ∀ c s w' s' a, P s → s.1.perform c o = .ok (w', a) → Extends w'.versions s'.1.versions →
      s'.2 p = ⟨o, .ok a⟩ :: s.2 p → V a s') : Writes first step G p P (issue o) V := by
  intro s inv here
  refine (wp_call o _ s).mpr ⟨pre s here, ?_⟩
  rintro r s' ⟨c, spared, ran⟩
  simp only [Engine.recorded] at ran
  obtain ⟨⟨w', r'⟩, action, same⟩ := Option.map_eq_some_iff.mp ran
  obtain ⟨rfl, rfl⟩ := Prod.mk.inj same
  have others : s.2 p ⊆ Function.update s.2 p (⟨o, r'⟩ :: s.2 p) p ∧
      ∀ q, q ≠ p → Function.update s.2 p (⟨o, r'⟩ :: s.2 p) q = s.2 q := by
    rw [Function.update_self]
    exact ⟨List.subset_cons_self _ _, fun q other => Function.update_of_ne other _ _⟩
  rcases World.exec_lands action with ⟨a, rfl, done, lands⟩ | ⟨e, rfl, rfl | ⟨lands, a, done⟩⟩
  · obtain ⟨inv', extended⟩ := World.perform_kept inv (pre s here) spared lands done
    refine ⟨inv', ⟨extended, others⟩, ?_⟩
    rintro s'' ⟨later, same⟩ - _ ⟨⟩
    exact ok c s w' s'' a here done later (same.trans (Function.update_self _ _ _))
  · exact ⟨inv, ⟨Extends.refl _, others⟩, fun _ _ _ _ same => by cases same⟩
  · obtain ⟨inv', extended⟩ := World.perform_kept inv (pre s here) spared lands done
    exact ⟨inv', ⟨extended, others⟩, fun _ _ _ _ same => by cases same⟩

/-- The node is one that a read was answered with. -/
def Seen (n : SwiftGPUNode) (answers : List (Answer Op Op.Res Err)) : Prop :=
  (∃ nodes, ⟨.list, .ok nodes⟩ ∈ answers ∧ n ∈ nodes) ∨ ⟨.get n.name, .ok n⟩ ∈ answers

def Read (p : Nat) (n : SwiftGPUNode) (s : World × Answers) : Prop :=
  (s.1.versions n.name)[n.resourceVersion]? = some n.status ∧ Seen n (s.2 p)

variable {n : SwiftGPUNode}

theorem Read.later {s' : World × Answers} (read : Read p n s) (later : Extends s.1.versions s'.1.versions)
    (grows : s.2 p ⊆ s'.2 p) : Read p n s' := by
  refine ⟨later.getElem? read.1, ?_⟩
  rcases read.2 with ⟨nodes, listed, member⟩ | got
  · exact .inl ⟨nodes, grows listed, member⟩
  · exact .inr (grows got)

theorem World.read_spec {name : String} {v : Nat} (found : w.read name v = some n) :
    n.name = name ∧ (w.versions n.name)[n.resourceVersion]? = some n.status := by
  obtain ⟨st, seen, rfl⟩ := Option.map_eq_some_iff.mp found
  exact ⟨rfl, seen⟩

theorem writes_list : Writes first step G p P (issue .list) fun nodes s => ∀ n ∈ nodes, Read p n s := by
  refine writes_issue (fun _ _ => trivial) ?_
  intro c s w' s' nodes _ done later answers n member
  refine ⟨later.getElem? ?_, .inl ⟨nodes, by simp [answers], member⟩⟩
  cases done
  obtain ⟨⟨name, v⟩, -, found⟩ := List.mem_filterMap.mp member
  exact (World.read_spec found).2

theorem writes_get {name : String} :
    Writes first step G p P (issue (.get name)) fun n s => n.name = name ∧ Read p n s := by
  refine writes_issue (fun _ _ => trivial) ?_
  intro c s w' s' n _ done later answers
  simp only [World.perform] at done
  split at done <;> cases done
  next found =>
    obtain ⟨v, -, read⟩ := Option.bind_eq_some_iff.mp found
    obtain ⟨named, seen⟩ := World.read_spec read
    refine ⟨named, later.getElem? seen, .inr ?_⟩
    rw [named, answers]
    exact List.mem_cons_self

theorem writes_update {st : SwiftGPUNodeStatus} (next : step n.status st) :
    Writes first step G p (Read p n) (issue (.update n.name n.resourceVersion st)) fun _ s =>
      (s.1.versions n.name)[n.resourceVersion + 1]? = some st ∧
        ⟨.update n.name n.resourceVersion st, .ok ()⟩ ∈ s.2 p := by
  refine writes_issue ?_ ?_
  · intro s read old seen
    rw [read.1] at seen
    cases seen
    exact next
  · intro c s w' s' _ read done later answers
    refine ⟨later.getElem? ?_, by simp [answers]⟩
    simp only [World.perform] at done
    split at done <;> cases done
    next current =>
      show (append s.1.versions n.name st n.name)[n.resourceVersion + 1]? = some st
      rw [append_self, ← current, List.getElem?_concat_length]

end Writers

def SameGPUs (a b : List GPUDevice) : Prop := ∀ address, address ∈ a.map (fun g => g.pciAddress) ↔
  address ∈ b.map (fun g => g.pciAddress)

variable {id : String}

theorem mark_existing {st : SwiftGPUNodeStatus} {selected : List GPUDevice} {part : Int} (none : st.existing id = [])
    (within : ∀ g ∈ selected, g ∈ st.gpus) : SameGPUs selected ((st.mark selected part id).existing id) := by
  intro address
  simp only [List.mem_map, SwiftGPUNodeStatus.existing, mark_gpus, List.mem_filter, decide_eq_true_eq]
  constructor
  · intro found
    obtain ⟨g, member, same⟩ := found
    have chosen : Chosen selected g := ⟨g, member, rfl⟩
    refine ⟨markGPU selected id g, ⟨⟨g, within g member, rfl⟩, ?_⟩, ?_⟩
    · rw [markGPU_chosen chosen]
    · rw [congrArg GPUHardware.pciAddress markGPU_hardware]
      exact same
  · intro found
    obtain ⟨g', ⟨⟨g, listed, rfl⟩, own⟩, same⟩ := found
    rw [congrArg GPUHardware.pciAddress markGPU_hardware] at same
    by_cases chosen : Chosen selected g
    · obtain ⟨s, member, address⟩ := chosen
      exact ⟨s, member, address.trans same⟩
    · rw [markGPU_other chosen] at own
      have before : g ∈ st.existing id := List.mem_filter.mpr ⟨listed, by simpa using own⟩
      rw [none] at before
      cases before

/-- What is handed out is what a version of the node records: one that a read of the process was answered with, or
the one that its update wrote. -/
def Handed (p : Nat) (id : String) (al : Allocation) (s : World × Answers) : Prop :=
  ∃ (v : Nat) (st : SwiftGPUNodeStatus), (s.1.versions al.node)[v]? = some st ∧ SameGPUs al.gpus (st.existing id) ∧
    (Seen ⟨al.node, v, st⟩ (s.2 p) ∨ ∃ u, v = u + 1 ∧ ⟨.update al.node u st, .ok ()⟩ ∈ s.2 p)

section Programs

variable {first : String → SwiftGPUNodeStatus → Prop}
  {step G : SwiftGPUNodeStatus → SwiftGPUNodeStatus → Prop} {p : Nat} {id : String} {s : World × Answers}

variable {n : SwiftGPUNode} {profile : SwiftGPUProfileSpec}

variable {nc : NodeConstraint}

theorem writes_nodeUsable : Writes first step G p (fun _ => True) (nodeUsable n nc) fun _ _ => True := by
  unfold nodeUsable
  split
  · exact gives_done
  split
  · exact gives_done
  refine gives_bind (gives_attempt (writes_issue (fun _ _ => trivial) fun _ _ _ _ _ _ _ _ _ => trivial)) fun r => ?_
  split
  · exact gives_done
  · exact gives_fail
  · exact gives_done

variable {al : Allocation}

theorem held_spec (found : held id n = some al) :
    al.node = n.name ∧ al.gpus = n.status.existing id := by
  unfold held at found
  dsimp only at found
  split at found <;> cases found
  exact ⟨rfl, rfl⟩

theorem held_none (none : held id n = none) : n.status.existing id = [] := by
  unfold held at none
  dsimp only at none
  split at none
  · assumption
  · cases none

theorem Handed.held (read : Read p n s) (found : GPU.held id n = some al) : Handed p id al s := by
  obtain ⟨node, gpus⟩ := held_spec found
  refine ⟨n.resourceVersion, n.status, ?_, fun address => by rw [gpus], .inl ?_⟩ <;> rw [node]
  · exact read.1
  · exact read.2

theorem findHeld_some {preferred : String} (nodes : List SwiftGPUNode) (fallback : Allocation) :
    findHeld id preferred nodes (some fallback) ≠ none := by
  induction nodes with
  | nil => nofun
  | cons n nodes ih =>
    rw [findHeld]
    cases held id n with
    | none => exact ih
    | some record =>
      dsimp only
      split
      · nofun
      · exact ih

theorem findHeld_spec (id preferred : String) (nodes : List SwiftGPUNode) (fallback : Option Allocation) :
    (∀ al, findHeld id preferred nodes fallback = some al →
      fallback = some al ∨ ∃ n ∈ nodes, held id n = some al) ∧
    (findHeld id preferred nodes fallback = none → ∀ n ∈ nodes, held id n = none) := by
  induction nodes generalizing fallback with
  | nil => exact ⟨fun al found => .inl found, fun _ n member => by cases member⟩
  | cons n nodes ih =>
    rw [findHeld]
    cases here : held id n with
    | none =>
      obtain ⟨some_, none_⟩ := ih fallback
      constructor
      · intro al found
        rcases some_ al found with first | ⟨n', member, record⟩
        · exact .inl first
        · exact .inr ⟨n', List.mem_cons_of_mem _ member, record⟩
      · intro none n' member
        cases List.mem_cons.mp member with
        | inl same => exact same ▸ here
        | inr later => exact none_ none n' later
    | some record =>
      dsimp only
      split
      · constructor
        · intro al found
          cases found
          exact .inr ⟨n, List.mem_cons_self, here⟩
        · nofun
      · obtain ⟨some_, none_⟩ := ih (fallback.or (some record))
        constructor
        · intro al found
          rcases some_ al found with first | ⟨n', member, record⟩
          · cases fallback with
            | none =>
              cases first
              exact .inr ⟨n, List.mem_cons_self, here⟩
            | some earlier => exact .inl first
          · exact .inr ⟨n', List.mem_cons_of_mem _ member, record⟩
        · intro none
          cases fallback <;> exact (findHeld_some nodes _ none).elim

variable (allocs : ∀ st st', AllocatorStep st st' → step st st')

include allocs

theorem writes_commit {selection : List GPUDevice × List Int × Int} (named : id ≠ "") (none : n.status.existing id = [])
    (chosen : select n.status profile = some selection) :
    Writes first step G p (Read p n) (commit n id selection) (Handed p id) := by
  obtain ⟨selected, numas, part⟩ := selection
  refine gives_bind (writes_update (allocs _ _ (.allocate named none chosen))) fun _ => gives_pure ?_
  rintro s ⟨written, own⟩
  exact ⟨_, _, written, mark_existing none fun g member => ((select_spec chosen).1 g member).1, .inr ⟨_, rfl, own⟩⟩

theorem writes_allocateOn (nodes : List SwiftGPUNode) (mismatch : Bool) (named : id ≠ "")
    (none : ∀ n ∈ nodes, held id n = none) :
    Writes first step G p (fun s => ∀ n ∈ nodes, Read p n s) (allocateOn id profile nc nodes mismatch)
      (Handed p id) := by
  induction nodes generalizing mismatch with
  | nil => exact gives_fail
  | cons n nodes ih =>
    have noneHere := held_none (none n List.mem_cons_self)
    have skip : ∀ mismatch, Writes first step G p (fun s => ∀ n' ∈ n :: nodes, Read p n' s)
        (allocateOn id profile nc nodes mismatch) (Handed p id) := by
      intro mismatch
      refine gives_pre ?_ (ih mismatch fun n' member => none n' (List.mem_cons_of_mem _ member))
      exact fun w read n' member => read n' (List.mem_cons_of_mem _ member)
    rw [allocateOn]
    split
    · exact skip mismatch
    refine gives_bind (gives_pre (fun w read => ⟨trivial, read⟩) (gives_frame ?_ writes_nodeUsable)) fun usable =>
      gives_pre (fun w holds => holds.2) ?_
    · intro s s' s'' ⟨extended, grows, _⟩ ⟨later, same⟩ read n' member
      exact (read n' member).later (extended.trans later) (same ▸ grows)
    split
    · exact skip mismatch
    split
    · exact skip mismatch
    split
    · exact skip true
    cases chosen : select n.status profile with
    | none => exact skip mismatch
    | some selection => exact gives_pre (fun w read => read n List.mem_cons_self) (writes_commit allocs named noneHere chosen)

theorem writes_findAndAllocateFor {preferred : String} (named : id ≠ "") : Writes first step G p (fun _ => True)
    (findAndAllocateFor id preferred profile nc) (Handed p id) := by
  refine gives_bind writes_list fun nodes => ?_
  obtain ⟨answered, absent⟩ := findHeld_spec id preferred nodes none
  cases found : findHeld id preferred nodes none with
  | some al =>
    rcases answered al found with earlier | ⟨n, member, record⟩
    · cases earlier
    · exact gives_pure fun w reads => Handed.held (reads n member) record
  | none => exact writes_allocateOn allocs nodes false named (absent found)

theorem writes_reserveOnNode {nodeName : String} (named : id ≠ "") : Writes first step G p (fun _ => True)
    (reserveOnNode id profile nodeName) (Handed p id) := by
  refine gives_bind writes_get fun n => gives_pre (fun w read => read.2) ?_
  cases found : held id n with
  | some al => exact gives_pure fun w read => Handed.held read found
  | none =>
    dsimp only
    split
    · exact gives_fail
    split
    · exact gives_fail
    split
    · exact gives_fail
    split
    · exact gives_fail
    cases chosen : select n.status profile with
    | none => exact gives_fail
    | some selection => exact writes_commit allocs named (held_none found) chosen

theorem writes_releaseFromNodeFor {nodeName : String} (named : id ≠ "") :
    Writes first step G p (fun _ => True) (releaseFromNodeFor id nodeName) fun _ _ => True := by
  unfold releaseFromNodeFor
  split
  · exact gives_done
  refine gives_bind (gives_attempt writes_get) fun r => ?_
  split
  · exact gives_done
  · exact gives_fail
  · next n =>
    unfold clearOn
    split
    · exact gives_pre (fun w read => (read n rfl).2)
        (gives_post (fun _ _ _ => trivial) (writes_update (allocs _ _ (.release named))))
    · exact gives_done

theorem writes_releaseEach (names : List String) (named : id ≠ "") :
    Writes first step G p (fun _ => True) (releaseEach id names) fun _ _ => True := by
  induction names with
  | nil => exact gives_done
  | cons name names ih => exact gives_bind (writes_releaseFromNodeFor allocs named) fun _ => ih

theorem writes_deallocateForWorkload (named : id ≠ "") :
    Writes first step G p (fun _ => True) (deallocateForWorkload id) fun _ _ => True :=
  gives_bind writes_list fun _ => gives_pre (fun _ _ => trivial) (writes_releaseEach allocs _ named)

end Programs

inductive Call
  | findAndAllocateFor (workload preferredNode : String) (profile : SwiftGPUProfileSpec) (nc : NodeConstraint)
  | reserveOnNode (workload : String) (profile : SwiftGPUProfileSpec) (nodeName : String)
  | releaseFromNodeFor (workload nodeName : String)
  | deallocateForWorkload (workload : String)

def Call.workload : Call → String
  | .findAndAllocateFor workload _ _ _ | .reserveOnNode workload _ _ | .releaseFromNodeFor workload _
  | .deallocateForWorkload workload => workload

def Call.prog : Call → Act (Option (String × Allocation))
  | .findAndAllocateFor workload preferredNode profile nc => do
    let al ← GPU.findAndAllocateFor workload preferredNode profile nc
    pure (some (workload, al))
  | .reserveOnNode workload profile nodeName => do
    let al ← GPU.reserveOnNode workload profile nodeName
    pure (some (workload, al))
  | .releaseFromNodeFor workload nodeName => do
    GPU.releaseFromNodeFor workload nodeName
    pure none
  | .deallocateForWorkload workload => do
    GPU.deallocateForWorkload workload
    pure none

abbrev NamedCall := { c : Call // c.workload ≠ "" }

def HandedTo (p : Nat) (r : Except Err (Option (String × Allocation))) (s : World × Answers) : Prop :=
  ∀ id al, r = .ok (some (id, al)) → Handed p id al s

theorem handedTo_some {p : Nat} {s : World × Answers} (handed : Handed p id al s) : HandedTo p (.ok (some (id, al))) s := by
  intro id' al' same
  cases same
  exact handed

theorem Call.writes {first : String → SwiftGPUNodeStatus → Prop}
    {step G : SwiftGPUNodeStatus → SwiftGPUNodeStatus → Prop} {p : Nat} {c : Call} {s : World × Answers}
    (allocs : ∀ st st', AllocatorStep st st' → step st st') (named : c.workload ≠ "")
    (inv : (writeSpec first step G).inv s) : wp (recording G) (writeSpec first step G) p c.prog (HandedTo p) s := by
  have gives : Writes first step G p (fun _ => True) c.prog fun a s => HandedTo p (.ok a) s := by
    cases c with
    | findAndAllocateFor workload preferredNode profile nc =>
      exact gives_bind (writes_findAndAllocateFor allocs named) fun _ => gives_pure fun _ => handedTo_some
    | reserveOnNode workload profile nodeName =>
      exact gives_bind (writes_reserveOnNode allocs named) fun _ => gives_pure fun _ => handedTo_some
    | releaseFromNodeFor workload nodeName =>
      exact gives_bind (writes_releaseFromNodeFor allocs named) fun _ => gives_pure fun _ _ => nofun
    | deallocateForWorkload workload =>
      exact gives_bind (writes_deallocateForWorkload allocs named) fun _ => gives_pure fun _ _ => nofun
  exact wp_mono (fun r _ handed id al same => handed _ same id al rfl) (gives s inv trivial)

def ReleasedBetween (versions : List SwiftGPUNodeStatus) (v n : Nat) (id : String) : Prop :=
  ∃ (u : Nat) (a : SwiftGPUNodeStatus), v ≤ u ∧ u < v + n ∧ versions[u]? = some a ∧
    versions[u + 1]? = some (a.clear id)

end KubeSwift.GPU
