import KubeSwift.Sandbox.Claims
import KubeSwift.Sandbox.PoolGPU

/-! # The GPUs of a pool's slots are released when they may be -/

namespace KubeSwift.Sandbox.PoolGPU
open Program
open Workload (cutPrefix cutPrefix_append)

theorem cutPrefix_some {s start rest : String} (cut : cutPrefix s start = some rest) : s = start ++ rest := by
  unfold cutPrefix at cut
  split at cut <;> cases cut
  next begins =>
    obtain ⟨tail, same⟩ := List.isPrefixOf_iff_prefix.mp begins
    apply String.toList_inj.mp
    rw [String.toList_append, String.toList_ofList, ← same, String.length, List.drop_left]

variable {name pool ns : String}

theorem isPoolSlotName_iff :
    isPoolSlotName pool name = true ↔ ∃ suffix, isSlotSuffix suffix = true ∧ name = pool ++ "-slot-" ++ suffix := by
  unfold isPoolSlotName
  constructor
  · intro shaped
    cases cut : cutPrefix name (pool ++ "-slot-") with
    | none => simp [cut] at shaped
    | some suffix =>
      refine ⟨suffix, ?_, cutPrefix_some cut⟩
      simpa [cut] using shaped
  · rintro ⟨suffix, shaped, rfl⟩
    simp [shaped]

theorem isPoolSlotName_unique {pool' : String} (one : isPoolSlotName pool name = true)
    (other : isPoolSlotName pool' name = true) : pool = pool' := by
  obtain ⟨suffix, shaped, rfl⟩ := isPoolSlotName_iff.mp one
  obtain ⟨suffix', shaped', same⟩ := isPoolSlotName_iff.mp other
  simp only [isSlotSuffix, Bool.and_eq_true, decide_eq_true_eq] at shaped shaped'
  have letters := congrArg String.toList same
  simp only [String.toList_append] at letters
  obtain ⟨front, -⟩ := List.append_inj' letters (shaped.1.trans shaped'.1.symm)
  obtain ⟨names, -⟩ := List.append_inj' front rfl
  exact String.toList_inj.mp names

theorem slotGPUAllocatedTo_inj {name' : String} (same : slotGPUAllocatedTo ns name = slotGPUAllocatedTo ns name') :
    name = name' := by
  have letters := congrArg String.toList same
  simp only [slotGPUAllocatedTo, String.toList_append] at letters
  exact String.toList_inj.mp (List.append_cancel_left letters)

theorem slotOf_eq_some {id : String} :
    slotOf ns pool id = some name ↔ id = slotGPUAllocatedTo ns name ∧ isPoolSlotName pool name = true := by
  unfold slotOf
  rw [Option.filter_eq_some_iff]
  constructor
  · rintro ⟨cut, shaped⟩
    exact ⟨cutPrefix_some cut, shaped⟩
  · rintro ⟨rfl, shaped⟩
    exact ⟨cutPrefix_append _ _, shaped⟩

def Shaped (m : Manifest) : Prop := ∃ pool, isPoolSlotName pool m.name = true ∧ m.labels poolLabelKey = some pool

def Asks (pool : String) : Op → Prop
  | .create m => isPoolSlotName pool m.name = true ∧ m.labels poolLabelKey = some pool
  | .external (.allocateSlotGPU slot) => isPoolSlotName pool slot = true
  | .external (.patchFinalizers _ present) => present = true
  | .update _ => False
  | _ => True

abbrev Given (suffix : String) : Prop := isSlotSuffix suffix = true

abbrev Proper (pool : String) {α : Type} (m : Act α) : Prop :=
  m.Yields (Asks pool) (Told Given fun _ => True) fun _ => True

variable {hex : String → String}

theorem Asks.of {pool : SwiftSandboxPool} {o : Op}
    (asks : PoolAsks hex pool Given (fun _ => True) o) : Asks pool.name o := by
  have named : ∀ {suffix}, isSlotSuffix suffix = true → isPoolSlotName pool.name (pool.name ++ "-slot-" ++ suffix) = true :=
    fun shaped => isPoolSlotName_iff.mpr ⟨_, shaped, rfl⟩
  cases o with
  | create m =>
    obtain ⟨suffix, egress, shaped, rfl⟩ := asks
    refine ⟨named shaped, ?_⟩
    simp [warmSlot, StringMap.set, poolLabelKey, slotStateLabelKey, slotNameLabelKey, sandboxLabelKey]
  | external call =>
    cases call with
    | allocateSlotGPU slot =>
      obtain ⟨suffix, shaped, rfl⟩ := asks
      exact named shaped
    | _ => exact asks
  | _ => trivial

theorem proper_of {α : Type} {pool : SwiftSandboxPool} {m : Act α}
    (tends : Tends hex pool Given (fun _ => True) m fun _ => True) : Proper pool.name m :=
  Prog.yields_weaken (fun _ => Asks.of) (fun _ _ told => told) tends

/-! ## What is kept -/

def SlotLive (st : State) (name : String) : Prop := ∃ uid m, st.podNow uid = some m ∧ m.name = name ∧ ended m = false

def LooseAt (ns : String) (st : State) (node name : String) : Prop :=
  slotGPUAllocatedTo ns name ∈ st.recorded node ∧ slotGPUAllocatedTo ns name ∈ st.warmed

structure Sound (ns : String) (st : State) : Prop where
  shaped : ∀ uid, ∀ e ∈ st.slots.versions uid, Shaped e.manifest
  created : ∀ uid, st.slots.versions uid ≠ [] → uid ∈ st.created
  nodes : ∀ node, st.gpus.versions node ≠ [] → node ∈ st.nodes ∧ node ≠ ""
  pools : ∀ name, ∀ pool ∈ st.pools name, pool.name = name
  warmed : ∀ name, slotGPUAllocatedTo ns name ∈ st.warmed → ∃ pool, isPoolSlotName pool name = true
  apart : ∀ name, slotGPUAllocatedTo ns name ∈ st.warmed → name ∉ st.sandboxes

structure Calm (ns pool : String) (st st' : State) : Prop where
  live : ∀ name, isPoolSlotName pool name = true → SlotLive st' name → SlotLive st name
  loose : ∀ node name, isPoolSlotName pool name = true → LooseAt ns st' node name → LooseAt ns st node name
  sandboxes : ∀ name, isPoolSlotName pool name = true → name ∈ st'.sandboxes → name ∈ st.sandboxes

theorem Calm.refl (st : State) : Calm ns pool st st :=
  ⟨fun _ _ live => live, fun _ _ _ loose => loose, fun _ _ member => member⟩

theorem Calm.trans {st st' st'' : State} (first : Calm ns pool st st') (second : Calm ns pool st' st'') :
    Calm ns pool st st'' :=
  ⟨fun name shaped live => first.live name shaped (second.live name shaped live),
    fun node name shaped loose => first.loose node name shaped (second.loose node name shaped loose),
    fun name shaped member => first.sandboxes name shaped (second.sandboxes name shaped member)⟩

abbrev Kept (ns : String) (st st' : State) : Prop :=
  Sound ns st' ∧ Extends st.gpus.versions st'.gpus.versions ∧ ∀ pool, Calm ns pool st st'

theorem Kept.refl {st : State} (sound : Sound ns st) : Kept ns st st := ⟨sound, Extends.refl _, fun _ => Calm.refl st⟩

theorem Kept.trans {st st' st'' : State} (first : Kept ns st st') (second : Kept ns st' st'') : Kept ns st st'' :=
  ⟨second.1, first.2.1.trans second.2.1, fun pool => (first.2.2 pool).trans (second.2.2 pool)⟩

def collecting (ns : String) : Spec Actor State Call where
  inv := Sound ns
  rely p st st' := Extends st.gpus.versions st'.gpus.versions ∧ ∀ pool, p = .pool pool → Calm ns pool st st'
  guar p st st' := Extends st.gpus.versions st'.gpus.versions ∧ ∀ pool, p ≠ .pool pool → Calm ns pool st st'
  pre _ st o := match o with
    | .gpu (.update node v status) => ∀ old, (st.gpus.versions node)[v]? = some old → ∀ g ∈ old.gpus, g ∉ status.gpus →
        ∀ name, g.allocatedTo = slotGPUAllocatedTo ns name → ¬ SlotLive st name ∧ name ∉ st.sandboxes
    | .own (.patchFinalizers pool false) =>
      ∀ node name, isPoolSlotName pool name = true → ¬ LooseAt ns st node name
    | _ => True

section Slots

variable {ns : String} {st : State}

theorem calm_slots {pool : String} {st' : State} (gpus : st'.gpus = st.gpus) (sandboxes : st'.sandboxes = st.sandboxes)
    (warmed : st'.warmed = st.warmed)
    (live : ∀ name, isPoolSlotName pool name = true → SlotLive st' name → SlotLive st name) : Calm ns pool st st' := by
  refine ⟨live, ?_, ?_⟩
  · intro node name _ loose
    rwa [LooseAt, State.recorded, gpus, warmed] at loose
  · intro name _ member
    rwa [sandboxes] at member

theorem getLast_push {w : World} {uid u : Nat} {e : Entry} :
    ((w.push uid e).versions u).getLast? = if u = uid then some e else (w.versions u).getLast? := by
  by_cases same : u = uid
  · subst same
    simp [World.push, append_self]
  · simp [World.push_of_ne same, same]

theorem rewrite_kept (ns name : String) (f : Manifest → Manifest) (sound : Sound ns st) (named : ∀ m, (f m).name = m.name)
    (label : ∀ m, (f m).labels poolLabelKey = m.labels poolLabelKey)
    (ends : ∀ uid e, st.slots.live name = some uid → (st.slots.versions uid).getLast? = some e →
      ended e.manifest = true → ended (f e.manifest) = true) :
    Kept ns st (st.rewrite name f) := by
  unfold State.rewrite World.rewrite
  split
  · exact .refl sound
  split
  · exact .refl sound
  next uid here _ e last =>
    have member : e ∈ st.slots.versions uid := List.mem_of_getLast? last
    refine ⟨⟨?_, ?_, sound.nodes, sound.pools, sound.warmed, sound.apart⟩, Extends.refl _, fun pool => calm_slots rfl rfl rfl ?_⟩
    · intro u a written
      rcases World.mem_push.mp written with before | ⟨rfl, rfl⟩
      · exact sound.shaped u a before
      · obtain ⟨pool, slot, labelled⟩ := sound.shaped u e member
        exact ⟨pool, (named _).symm ▸ slot, (label _).trans labelled⟩
    · intro u some
      by_cases same : u = uid
      · exact same ▸ sound.created uid (List.ne_nil_of_mem member)
      · exact sound.created u (World.push_of_ne (w := st.slots) same ▸ some)
    · rintro slot _ ⟨u, m, now, rfl, running⟩
      obtain ⟨found, alive⟩ := Option.filter_eq_some_iff.mp now
      obtain ⟨a, newest, rfl⟩ := Option.map_eq_some_iff.mp found
      rw [getLast_push] at newest
      by_cases same : u = uid
      · subst same
        simp only [if_true, Option.some.injEq] at newest
        subst newest
        refine ⟨u, e.manifest, Option.filter_eq_some_iff.mpr ⟨by simp [last], ?_⟩, (named _).symm, ?_⟩
        · exact named e.manifest ▸ alive
        · rw [← Bool.not_eq_true] at running ⊢
          exact fun isOver => running (ends u e here last isOver)
      · rw [if_neg same] at newest
        exact ⟨u, a.manifest, Option.filter_eq_some_iff.mpr ⟨by simp [newest], alive⟩, rfl, running⟩

theorem forget_kept (ns : String) (sound : Sound ns st) (name : String) : Kept ns st (st.forget name) := by
  refine ⟨{ sound with }, Extends.refl _, fun pool => calm_slots rfl rfl rfl ?_⟩
  rintro slot _ ⟨u, m, now, rfl, running⟩
  obtain ⟨found, alive⟩ := Option.filter_eq_some_iff.mp now
  refine ⟨u, m, Option.filter_eq_some_iff.mpr ⟨found, ?_⟩, rfl, running⟩
  by_cases same : m.name = name
  · simp [State.forget, same] at alive
  · simpa [State.forget, Function.update_of_ne same] using alive

theorem create_kept {pool : String} {m : Manifest} {c : Choice} {w : World} {a : Nat} (sound : Sound ns st)
    (slot : isPoolSlotName pool m.name = true) (label : m.labels poolLabelKey = some pool)
    (done : st.slots.perform c (.pool pool) (.create m) = .ok (w, a)) :
    Sound ns { st with slots := w, created := c.uid :: st.created } ∧
      ∀ other, pool ≠ other → Calm ns other st { st with slots := w, created := c.uid :: st.created } := by
  simp only [World.perform] at done
  split at done <;> cases done
  refine ⟨⟨?_, ?_, sound.nodes, sound.pools, sound.warmed, sound.apart⟩, fun other different => calm_slots rfl rfl rfl ?_⟩
  · intro u e written
    rcases World.mem_push.mp written with before | ⟨rfl, rfl⟩
    · exact sound.shaped u e before
    · exact ⟨pool, slot, label⟩
  · intro u some
    by_cases same : u = c.uid
    · simp [same]
    · exact List.mem_cons_of_mem _ (sound.created u (World.push_of_ne (w := st.slots) same ▸ some))
  · rintro name theirs ⟨u, m', now, rfl, running⟩
    obtain ⟨found, alive⟩ := Option.filter_eq_some_iff.mp now
    obtain ⟨e, newest, rfl⟩ := Option.map_eq_some_iff.mp found
    have newest : ((st.slots.push c.uid ⟨.pool pool, m⟩).versions u).getLast? = some e := newest
    rw [getLast_push] at newest
    by_cases same : u = c.uid
    · subst same
      simp only [if_true, Option.some.injEq] at newest
      subst newest
      exact (different (isPoolSlotName_unique slot theirs)).elim
    · rw [if_neg same] at newest
      refine ⟨u, e.manifest, Option.filter_eq_some_iff.mpr ⟨by simp [newest], ?_⟩, rfl, running⟩
      by_cases named : e.manifest.name = m.name
      · simp only [named, Function.update_self, decide_eq_true_eq, Option.some.injEq] at alive
        exact (same alive.symm).elim
      · simpa [Function.update_of_ne named] using alive

end Slots

/-! ## The calls of a pass -/

/-- What is read is up to date where it matters, and no sandbox has the name of a slot that a GPU was allocated to. -/
def Current (ns : String) (st : State) (o : Call) (c : Pick) : Bool :=
  match o with
  | .gpu .list => c.gpu.listing = st.nodes.map fun node => (node, (st.gpus.versions node).length - 1)
  | .gpu (.get node) => c.gpu.version = some ((st.gpus.versions node).length - 1)
  | .own (.getPool name) =>
    match (st.pools name)[c.version]? with
    | some pool => !(pool.deletionTimestamp && pool.gpuFinalizer) || pool.gpuProfileRef.isSome
    | none => true
  | .own (.allocate id) => st.sandboxes.all fun name => slotGPUAllocatedTo ns name ≠ id
  | .own (.createSandbox name) => !st.warmed.contains (slotGPUAllocatedTo ns name)
  | _ => true

def freshMachine (ns : String) : Machine Actor State Call Call.Res Err :=
  poolEngine.machine (fun _ st o c => c.honest o = true ∧ Current ns st o c = true) (fun _ _ => True)

def poolsApart (ns : String) (hex : String → String) : Setting Actor State Call Call.Res Err where
  env st st' := ∃ event, (∀ name, event = .sandbox name → ∀ pool, isPoolSlotName pool name = false) ∧
    st' = st.happens event
  quiet _ _ := False
  offered p prog := ∃ pool, p = .pool pool ∧ (prog = reconcileGPUPool ns hex pool ∨
    ∃ name, isPoolSlotName pool name = true ∧ prog = own (.createSandbox name))

def OwnFits (ns pool : String) : Own → Prop
  | .allocate id => ∃ name, isPoolSlotName pool name = true ∧ id = slotGPUAllocatedTo ns name
  | .createSandbox name => isPoolSlotName pool name = true
  | _ => True

section Pass

variable {ns pool : String} {st : State}

abbrev Spares (ns pool : String) (st st' : State) : Prop :=
  Extends st.gpus.versions st'.gpus.versions ∧ ∀ other, pool ≠ other → Calm ns other st st'

theorem Kept.spares {st' : State} (kept : Kept ns st st') : Sound ns st' ∧ Spares ns pool st st' :=
  ⟨kept.1, kept.2.1, fun other _ => kept.2.2 other⟩

variable {node : String} {status : GPU.SwiftGPUNodeStatus} {o : Own} {st' : State}

variable {other : String} {c : Pick} {α : Type}

theorem calm_sandbox {name : String} (apart : ¬ isPoolSlotName other name = true) :
    Calm ns other st { st with sandboxes := name :: st.sandboxes } := by
  refine ⟨fun _ _ live => live, fun _ _ _ loose => loose, ?_⟩
  intro slot theirs member
  rcases List.mem_cons.mp member with rfl | before
  · exact (apart theirs).elim
  · exact before

theorem sound_sandbox {name : String} (sound : Sound ns st) (free : slotGPUAllocatedTo ns name ∉ st.warmed) :
    Sound ns { st with sandboxes := name :: st.sandboxes } := by
  refine { sound with apart := ?_ }
  intro slot mine member
  rcases List.mem_cons.mp member with rfl | before
  · exact free mine
  · exact sound.apart slot mine before

theorem warm_kept {name : String} (sound : Sound ns st) (shaped : isPoolSlotName pool name = true)
    (free : name ∉ st.sandboxes) :
    Sound ns { st with warmed := slotGPUAllocatedTo ns name :: st.warmed } ∧
      Spares ns pool st { st with warmed := slotGPUAllocatedTo ns name :: st.warmed } := by
  have cases_mem : ∀ slot, slotGPUAllocatedTo ns slot ∈ slotGPUAllocatedTo ns name :: st.warmed →
      slot = name ∨ slotGPUAllocatedTo ns slot ∈ st.warmed :=
    fun slot member => (List.mem_cons.mp member).imp_left slotGPUAllocatedTo_inj
  refine ⟨{ sound with warmed := ?_, apart := ?_ }, Extends.refl _, ?_⟩
  · intro slot member
    rcases cases_mem slot member with rfl | before
    · exact ⟨pool, shaped⟩
    · exact sound.warmed slot before
  · intro slot member
    rcases cases_mem slot member with rfl | before
    · exact free
    · exact sound.apart slot before
  · refine fun other different => ⟨fun _ _ live => live, ?_, fun _ _ member => member⟩
    intro node slot theirs ⟨record, member⟩
    rcases cases_mem slot member with rfl | before
    · exact (different (isPoolSlotName_unique shaped theirs)).elim
    · exact ⟨record, before⟩

theorem recorded_push :
    State.recorded { st with gpus := st.gpus.push node status } other =
      if other = node then status.gpus.map (fun g => g.allocatedTo) else st.recorded other := by
  by_cases same : other = node
  · subst same
    simp [State.recorded, GPU.World.push]
  · simp [State.recorded, GPU.World.push, same]

theorem calm_push (less : ∀ name, isPoolSlotName other name = true → slotGPUAllocatedTo ns name ∈ st.warmed →
      slotGPUAllocatedTo ns name ∈ status.gpus.map (fun g => g.allocatedTo) →
      slotGPUAllocatedTo ns name ∈ st.recorded node) :
    Calm ns other st { st with gpus := st.gpus.push node status } := by
  refine ⟨fun _ _ live => live, ?_, fun _ _ member => member⟩
  intro node' name shaped ⟨record, mine⟩
  rw [recorded_push] at record
  refine ⟨?_, mine⟩
  split at record
  · next same => exact same ▸ less name shaped mine record
  · exact record

theorem sound_push (sound : Sound ns st) (there : st.gpus.versions node ≠ []) :
    Sound ns { st with gpus := st.gpus.push node status } := by
  refine { sound with nodes := ?_ }
  intro other some
  by_cases same : other = node
  · exact same ▸ sound.nodes node there
  · refine sound.nodes other ?_
    simpa [GPU.World.push, Function.update_of_ne same] using some

theorem recorded_last (last : (st.gpus.versions node).getLast? = some status) :
    st.recorded node = status.gpus.map fun g => g.allocatedTo := by
  simp [State.recorded, last]

theorem perform_kept {a : o.Res} (sound : Sound ns st) (fits : OwnFits ns pool o)
    (current : Current ns st (.own o) c = true) (done : st.perform c o = .ok (st', a)) :
    Sound ns st' ∧ Spares ns pool st st' := by
  cases o with
  | getPool name =>
    simp only [State.perform] at done
    split at done <;> cases done
    exact (Kept.refl sound).spares
  | patchFinalizers name present =>
    simp only [State.perform] at done
    split at done <;> cases done
    · next last latest =>
      refine ⟨{ sound with pools := ?_ }, Extends.refl _, fun _ _ => calm_slots rfl rfl rfl fun _ _ live => live⟩
      intro other version (member : version ∈ append st.pools name _ other)
      rcases mem_append_iff.mp member with before | ⟨rfl, rfl⟩
      · exact sound.pools other version before
      · exact sound.pools other last (List.mem_of_getLast? latest)
    · exact (Kept.refl sound).spares
  | listPods | getSandbox | visit =>
    cases done
    exact (Kept.refl sound).spares
  | deleteSlot pod =>
    simp only [State.perform] at done
    split at done
    · cases done
    split at done <;> cases done
    have kept := rewrite_kept ns pod.name (fun m => { m with deletionTimestamp := true })
      sound (fun _ => rfl) (fun _ => rfl) fun _ _ _ _ isOver => isOver
    split
    · exact (kept.trans (forget_kept ns kept.1 pod.name)).spares
    · exact kept.spares
  | allocate id =>
    obtain ⟨name, shaped, rfl⟩ := fits
    simp only [State.perform] at done
    split at done
    · cases done
    next node gpus partition _ =>
      split at done
      · cases done
      next status last =>
        have free : name ∉ st.sandboxes := by
          intro member
          simp only [Current, List.all_eq_true, decide_eq_true_eq] at current
          exact current name member rfl
        obtain ⟨sound', -, calm⟩ := warm_kept sound shaped free
        split at done <;> cases done
        · have there := List.ne_nil_of_mem (List.mem_of_getLast? last)
          refine ⟨sound_push sound' there, extends_append _ _ _, ?_⟩
          intro other different
          refine (calm other different).trans (calm_push ?_)
          intro slot theirs _ member
          show _ ∈ st.recorded node
          rw [recorded_last last]
          obtain ⟨g, marked, same⟩ := List.mem_map.mp member
          obtain ⟨h, listed, rfl⟩ := List.mem_map.mp marked
          unfold GPU.markGPU at same
          split at same
          · have own : name = slot := slotGPUAllocatedTo_inj same
            exact (different (isPoolSlotName_unique (own ▸ shaped) theirs)).elim
          · exact List.mem_map.mpr ⟨h, listed, same⟩
        · exact ⟨sound', Extends.refl _, calm⟩
  | createSandbox name =>
    cases done
    have free : slotGPUAllocatedTo ns name ∉ st.warmed := by simpa [Current] using current
    exact ⟨sound_sandbox sound free, Extends.refl _, fun other different =>
      calm_sandbox fun theirs => different (isPoolSlotName_unique fits theirs)⟩

abbrev Collects (ns pool : String) {α : Type} (P : State → Prop) (m : Pass α) (V : α → State → Prop) : Prop :=
  Gives (freshMachine ns) (collecting ns) (.pool pool) P m V

theorem idle_guar (p : Actor) (st : State) : (collecting ns).guar p st st := ⟨Extends.refl _, fun _ _ => Calm.refl st⟩

variable {P : State → Prop}

theorem collects_own (fits : OwnFits ns pool o)
    (pre : ∀ st, Sound ns st → P st → (collecting ns).pre (.pool pool) st (.own o)) :
    Collects ns pool P (own o) fun _ _ => True := by
  refine gives_performed (fun c st => st.perform c o) (fun c st st' r ran => withFault_cases (Option.some.inj ran))
    (idle_guar _) pre ?_
  intro c st st' a sound _ may done
  obtain ⟨sound', extended, calm⟩ := perform_kept sound fits may.2 done
  exact ⟨sound', ⟨extended, fun other different => calm other fun same => different (congrArg Actor.pool same)⟩, trivial⟩

section Stability

variable {name : String} {c : Prop}

instance stable_live : Stable (collecting ns) (.pool pool) fun st => isPoolSlotName pool name = true → SlotLive st name → c :=
  ⟨fun here later shaped live => here shaped ((later.2 pool rfl).live name shaped live)⟩

instance stable_loose : Stable (collecting ns) (.pool pool)
    fun st => isPoolSlotName pool name = true → LooseAt ns st node name → c :=
  ⟨fun here later shaped loose => here shaped ((later.2 pool rfl).loose node name shaped loose)⟩

instance stable_sandboxes : Stable (collecting ns) (.pool pool)
    fun st => isPoolSlotName pool name = true → name ∈ st.sandboxes → c :=
  ⟨fun here later shaped member => here shaped ((later.2 pool rfl).sandboxes name shaped member)⟩

instance stable_version {v : Nat} : Stable (collecting ns) (.pool pool)
    fun st => (st.gpus.versions node)[v]? = some status :=
  ⟨fun seen later => later.1.getElem? seen⟩

end Stability

variable [Stable (collecting ns) (.pool pool) P]

def Reads : Own → Prop
  | .getPool _ | .listPods _ | .getSandbox _ | .visit _ => True
  | _ => False

theorem perform_reads {a : o.Res} (reads : Reads o) (done : st.perform c o = .ok (st', a)) : st' = st := by
  cases o with
  | getPool name =>
    simp only [State.perform] at done
    split at done <;> cases done
    rfl
  | listPods | getSandbox | visit =>
    cases done
    rfl
  | patchFinalizers | deleteSlot | allocate | createSandbox => exact reads.elim

theorem collects_reads {U : o.Res → State → Prop} [∀ a, Stable (collecting ns) (.pool pool) (U a)] (reads : Reads o)
    (answers : ∀ c st a, Sound ns st → P st → Current ns st (.own o) c = true → st.perform c o = .ok (st, a) → U a st) :
    Collects ns pool P (own o) fun a st => P st ∧ U a st := by
  refine gives_performed (fun c st => st.perform c o) (fun c st st' r ran => withFault_cases (Option.some.inj ran))
    (idle_guar _) ?_ ?_
  · intro st _ _
    cases o with
    | getPool | listPods | getSandbox | visit => exact trivial
    | patchFinalizers | deleteSlot | allocate | createSandbox => exact reads.elim
  · intro c st st' a sound here may done
    cases perform_reads reads done
    exact ⟨sound, idle_guar _ st, here, answers c st a sound here may.2 done⟩

theorem onGPUs_bind {β : Type} (m : GPU.Act α) (f : α → GPU.Act β) :
    onGPUs (m >>= f) = onGPUs m >>= fun a => onGPUs (f a) :=
  Prog.lift_bind m f

variable {o : GPU.Op}

theorem collects_gpu {V : Except GPU.Err o.Res → State → Prop} [∀ r, Stable (collecting ns) (.pool pool) (V r)]
    (pre : ∀ st, Sound ns st → P st → (collecting ns).pre (.pool pool) st (.gpu o))
    (effect : ∀ c st w answer, Sound ns st → P st → Current ns st (.gpu o) c = true → c.honest (.gpu o) = true →
      withFault st.gpus c.gpu.fault (st.gpus.perform c.gpu o) = (w, answer) → Kept ns st { st with gpus := w } ∧
        V answer { st with gpus := w }) :
    Collects ns pool P (Prog.call (Call.gpu o)) fun answer st => P st ∧ V answer st := by
  refine gives_attempted (gives_tried pre ?_)
  rintro st r st' sound here ⟨c, ⟨honest, current⟩, action⟩
  cases outcome : withFault st.gpus c.gpu.fault (st.gpus.perform c.gpu o) with
  | mk w answer =>
    have made : poolEngine.exec (.pool pool) c st (.gpu o) = some ({ st with gpus := w }, .ok answer) := by
      simp only [poolEngine, State.exec, GPU.World.exec, outcome, Option.map_some]
    rw [made] at action
    cases action
    obtain ⟨⟨sound', extended, calm⟩, holds⟩ := effect c st w answer sound here current honest outcome
    refine ⟨sound', ⟨extended, fun other _ => calm other⟩, ?_⟩
    rintro _ ⟨⟩
    exact ⟨Stable.later (S := collecting ns) (p := .pool pool) here ⟨extended, fun other _ => calm other⟩, holds⟩

theorem gpu_reads {w : GPU.World} {answer : Except GPU.Err o.Res} (reads : o = .list ∨ ∃ node, o = .get node)
    (honest : c.honest (.gpu o) = true) (outcome : withFault st.gpus c.gpu.fault (st.gpus.perform c.gpu o) = (w, answer)) :
    w = st.gpus ∧ (answer = .error .api ∨ answer = (st.gpus.perform c.gpu o).map fun done => done.2) := by
  have unchanged : ∀ w' a, st.gpus.perform c.gpu o = .ok (w', a) → w' = st.gpus := by
    intro w' a done
    rcases reads with rfl | ⟨node, rfl⟩
    · cases done
      rfl
    · simp only [GPU.World.perform] at done
      split at done <;> cases done
      rfl
  refine ⟨?_, ?_⟩
  · rcases withFault_cases outcome with ⟨a, -, done⟩ | ⟨e, -, same | ⟨a, done⟩⟩
    · exact unchanged w a done
    · exact same
    · exact unchanged w a done
  · cases fault : c.gpu.fault with
    | none =>
      rw [fault] at outcome
      rcases withFault_none outcome with ⟨a, rfl, done⟩ | ⟨e, rfl, -, done⟩
      · exact .inr (by rw [done]; rfl)
      · exact .inr (by rw [done]; rfl)
    | some reported =>
      obtain ⟨e, effect⟩ := reported
      left
      simp only [Pick.honest, fault, Bool.and_eq_true, decide_eq_true_eq] at honest
      unfold withFault at outcome
      split at outcome <;> cases outcome
      all_goals simp_all

theorem collects_gpuReads {V : Except GPU.Err o.Res → State → Prop} [∀ r, Stable (collecting ns) (.pool pool) (V r)]
    (reads : o = .list ∨ ∃ node, o = .get node) (unread : ∀ st, V (.error .api) st)
    (answers : ∀ c st, Sound ns st → Current ns st (.gpu o) c = true →
      V ((st.gpus.perform c.gpu o).map fun done => done.2) st) :
    Collects ns pool P (Prog.call (Call.gpu o)) fun answer st => P st ∧ V answer st := by
  refine collects_gpu ?_ ?_
  · intro _ _ _
    rcases reads with rfl | ⟨node, rfl⟩ <;> exact trivial
  · intro c st w answer sound _ current honest outcome
    obtain ⟨rfl, answered⟩ := gpu_reads reads honest outcome
    refine ⟨.refl sound, ?_⟩
    rcases answered with rfl | rfl
    · exact unread _
    · exact answers c st sound current

/-! ## Collection -/

abbrev Vacant (pool name : String) (st : State) : Prop :=
  (isPoolSlotName pool name = true → SlotLive st name → False) ∧
    (isPoolSlotName pool name = true → name ∈ st.sandboxes → False)

abbrev Clean (ns pool node name : String) (st : State) : Prop :=
  isPoolSlotName pool name = true → LooseAt ns st node name → False

theorem clear_recorded {id : String} (named : id ≠ "") (member : other ∈ (status.clear id).gpus.map fun g => g.allocatedTo) :
    other ≠ id ∧ (other = "" ∨ other ∈ status.gpus.map fun g => g.allocatedTo) := by
  obtain ⟨g, cleared, rfl⟩ := List.mem_map.mp member
  obtain ⟨h, listed, rfl⟩ := List.mem_map.mp cleared
  unfold GPU.clearGPU
  split
  · exact ⟨fun same => named same.symm, .inl rfl⟩
  · next different => exact ⟨different, .inr (List.mem_map.mpr ⟨h, listed, rfl⟩)⟩

theorem slotGPUAllocatedTo_ne (ns name : String) : slotGPUAllocatedTo ns name ≠ "" := by
  intro empty
  have letters := congrArg String.toList empty
  simp [slotGPUAllocatedTo, idPrefix] at letters

variable {name : String}

variable (shaped : isPoolSlotName pool name = true)
include shaped

theorem collects_clear {v : Nat} :
    Collects ns pool (fun st => P st ∧ Vacant pool name st ∧ (st.gpus.versions node)[v]? = some status)
      (onGPUs (GPU.issue (.update node v (status.clear (slotGPUAllocatedTo ns name)))))
      fun _ st => P st ∧ Clean ns pool node name st := by
  rw [onGPUs, Prog.lift_call]
  refine gives_bind (collects_gpu (V := fun answer st => ∀ a, answer = .ok a → Clean ns pool node name st) ?_ ?_) ?_
  · intro st _ ⟨_, ⟨dead, ownerless⟩, read⟩ old seen g listed gone slot recorded
    rw [read] at seen
    cases seen
    have same : g.allocatedTo = slotGPUAllocatedTo ns name := by
      by_contra other
      exact gone (List.mem_map.mpr ⟨g, listed, by simp [GPU.clearGPU, other]⟩)
    cases slotGPUAllocatedTo_inj (recorded.symm.trans same)
    exact ⟨dead shaped, ownerless shaped⟩
  · intro c st w answer sound here _ _ outcome
    have writes : ∀ a, st.gpus.perform c.gpu (.update node v (status.clear (slotGPUAllocatedTo ns name))) = .ok (w, a) →
        Kept ns st { st with gpus := w } ∧ Clean ns pool node name { st with gpus := w } := by
      intro a done
      simp only [GPU.World.perform] at done
      split at done <;> cases done
      next latest =>
        have last : (st.gpus.versions node).getLast? = some status := by
          rw [List.getLast?_eq_getElem?, latest]
          exact here.2.2
        have there : st.gpus.versions node ≠ [] := by
          intro empty
          simp [empty] at latest
        refine ⟨⟨sound_push sound there, extends_append _ _ _, fun other => calm_push ?_⟩, ?_⟩
        · intro slot _ _ member
          rw [recorded_last last]
          rcases (clear_recorded (slotGPUAllocatedTo_ne ns name) member).2 with empty | before
          · exact (slotGPUAllocatedTo_ne ns slot empty).elim
          · exact before
        · rintro - ⟨record, -⟩
          rw [recorded_push, if_pos rfl] at record
          exact (clear_recorded (slotGPUAllocatedTo_ne ns name) record).1 rfl
    rcases withFault_cases outcome with ⟨a, rfl, done⟩ | ⟨e, rfl, rfl | ⟨a, done⟩⟩
    · exact ⟨(writes a done).1, fun _ _ => (writes a done).2⟩
    · exact ⟨.refl sound, nofun⟩
    · exact ⟨(writes a done).1, nofun⟩
  · intro answer
    refine gives_ofExcept fun st here a same => ⟨here.1.1, here.2 a ?_⟩
    cases answer <;> cases same
    rfl

theorem collects_releaseFromNodeFor :
    Collects ns pool (fun st => P st ∧ Vacant pool name st)
      (onGPUs (GPU.releaseFromNodeFor (slotGPUAllocatedTo ns name) node)) fun _ st => P st ∧ Clean ns pool node name st := by
  have unrecorded : ∀ {st : State}, st.recorded node = [] → Clean ns pool node name st := by
    intro st empty _ loose
    have record := loose.1
    simp [empty] at record
  unfold GPU.releaseFromNodeFor
  split
  · next nameless =>
    intro st sound here
    refine ensures_pure ⟨here.1, unrecorded ?_⟩
    cases versions : st.gpus.versions node with
    | nil => simp [State.recorded, versions]
    | cons => exact ((sound.nodes node (by simp [versions])).2 nameless).elim
  rw [onGPUs_bind, onGPUs, Prog.lift_attempt_call, bind_assoc]
  refine gives_bind (collects_gpuReads (o := .get node) (V := fun answer st =>
    (answer = .error .notFound → Clean ns pool node name st) ∧
    ∀ n, answer = .ok n → n.name = node ∧ (st.gpus.versions node)[n.resourceVersion]? = some n.status ∧
      (n.status.holds (slotGPUAllocatedTo ns name) = false → Clean ns pool node name st)) (.inr ⟨node, rfl⟩) ?_ ?_) ?_
  · exact fun _ => ⟨nofun, nofun⟩
  · intro c st sound current
    simp only [Current, decide_eq_true_eq] at current
    simp only [GPU.World.perform, current, Option.bind_some, GPU.World.read]
    cases last : (st.gpus.versions node)[(st.gpus.versions node).length - 1]? with
    | none =>
      refine ⟨fun _ => unrecorded ?_, nofun⟩
      simp [State.recorded, List.getLast?_eq_getElem?, last]
    | some status =>
      refine ⟨nofun, ?_⟩
      rintro _ ⟨⟩
      refine ⟨rfl, last, fun free _ loose => ?_⟩
      have record := loose.1
      rw [recorded_last (by rw [List.getLast?_eq_getElem?]; exact last)] at record
      obtain ⟨g, listed, same⟩ := List.mem_map.mp record
      simp only [GPU.SwiftGPUNodeStatus.holds, Bool.or_eq_false_iff, List.any_eq_false, decide_eq_true_eq] at free
      exact free.1 g listed same
  · intro answer
    rw [pure_bind]
    split
    · exact gives_pure fun _ here => ⟨here.1.1, here.2.1 rfl⟩
    · exact gives_fail
    · next n =>
      unfold GPU.clearOn
      split
      · rintro st sound ⟨⟨here, vacant⟩, -, got⟩
        obtain ⟨named, read, -⟩ := got n rfl
        rw [named]
        exact collects_clear shaped st sound ⟨here, vacant, read⟩
      · next free => exact gives_pure fun _ here => ⟨here.1.1, (here.2.2 n rfl).2.2 (by simpa using free)⟩

theorem collects_releaseEach {nodes : List String} :
    Collects ns pool (fun st => P st ∧ Vacant pool name st) (onGPUs (GPU.releaseEach (slotGPUAllocatedTo ns name) nodes))
      fun _ st => P st ∧ ∀ node, node ∈ nodes → Clean ns pool node name st := by
  induction nodes generalizing P with
  | nil => exact fun st _ here => ensures_pure ⟨here.1, nofun⟩
  | cons node rest ih =>
    rw [GPU.releaseEach, onGPUs_bind]
    refine gives_bind (gives_pre (fun st here => ⟨here, here.2⟩)
      (collects_releaseFromNodeFor (P := fun st => P st ∧ Vacant pool name st) shaped)) fun _ => ?_
    refine gives_pre (fun st here => ⟨⟨here.1.1, here.2⟩, here.1.2⟩)
      (gives_post ?_ (ih (P := fun st => P st ∧ Clean ns pool node name st)))
    rintro _ st ⟨⟨here, clean⟩, others⟩
    refine ⟨here, fun node' member => ?_⟩
    rcases List.mem_cons.mp member with rfl | later
    · exact clean
    · exact others node' later

omit shaped

theorem recorded_last_of_mem {id : String} (record : id ∈ st.recorded node) :
    ∃ status, (st.gpus.versions node).getLast? = some status ∧ id ∈ status.gpus.map fun g => g.allocatedTo := by
  unfold State.recorded at record
  cases last : (st.gpus.versions node).getLast? with
  | none => simp [last] at record
  | some status => exact ⟨status, rfl, by simpa [last] using record⟩

abbrev Lists (ns pool : String) (nodes : List GPU.SwiftGPUNode) (st : State) : Prop :=
  ∀ node name, isPoolSlotName pool name = true → LooseAt ns st node name →
    ∃ n ∈ nodes, n.name = node ∧ slotGPUAllocatedTo ns name ∈ n.status.gpus.map fun g => g.allocatedTo

theorem collects_list :
    Collects ns pool P (onGPUs (GPU.issue .list)) fun nodes st => P st ∧ Lists ns pool nodes st := by
  rw [onGPUs, Prog.lift_call]
  refine gives_bind (collects_gpuReads (V := fun answer st => ∀ nodes, answer = .ok nodes → Lists ns pool nodes st)
    (.inl rfl) (fun _ => nofun) ?_) fun answer => ?_
  · intro c st sound current nodes same node name _ loose
    simp only [Current, decide_eq_true_eq] at current
    obtain ⟨status, last, record⟩ := recorded_last_of_mem loose.1
    have there := List.ne_nil_of_mem (List.mem_of_getLast? last)
    refine ⟨⟨node, (st.gpus.versions node).length - 1, status⟩, ?_, rfl, record⟩
    cases same
    rw [current]
    refine List.mem_filterMap.mpr ⟨(node, (st.gpus.versions node).length - 1),
      List.mem_map.mpr ⟨node, (sound.nodes node there).1, rfl⟩, ?_⟩
    rw [List.getLast?_eq_getElem?] at last
    simp [GPU.World.read, last]
  · refine gives_ofExcept fun st here nodes same => ⟨here.1, here.2 nodes ?_⟩
    cases answer <;> cases same
    rfl

theorem collects_deallocateForWorkload (shaped : isPoolSlotName pool name = true) :
    Collects ns pool (fun st => P st ∧ Vacant pool name st)
      (onGPUs (GPU.deallocateForWorkload (slotGPUAllocatedTo ns name)))
      fun _ st => P st ∧ ∀ node, Clean ns pool node name st := by
  unfold GPU.deallocateForWorkload
  rw [onGPUs_bind]
  refine gives_bind (collects_list (P := fun st => P st ∧ Vacant pool name st)) fun nodes => ?_
  refine gives_pre (fun st here => ⟨⟨here.1.1, here.2⟩, here.1.2⟩)
    (gives_post ?_ (collects_releaseEach (P := fun st => P st ∧ Lists ns pool nodes st) shaped))
  rintro _ st ⟨⟨here, listed⟩, clean⟩
  refine ⟨here, fun node _ loose => ?_⟩
  obtain ⟨n, member, rfl, -⟩ := listed node name shaped loose
  exact clean n.name (List.mem_map.mpr ⟨n, member, rfl⟩) shaped loose

abbrev Dead (pool name : String) (st : State) : Prop := isPoolSlotName pool name = true → SlotLive st name → False

theorem collects_getSandbox :
    Collects ns pool P (own (.getSandbox name)) fun found st => P st ∧
      (found = true → ∀ node, Clean ns pool node name st) ∧
      (found = false → isPoolSlotName pool name = true → name ∈ st.sandboxes → False) := by
  refine collects_reads trivial ?_
  intro c st found sound _ _ done
  cases done
  refine ⟨fun known node _ loose => sound.apart name loose.2 (by simpa using known), fun unknown _ member => ?_⟩
  simp [member] at unknown

theorem collects_releaseOrphans {names : List String} (shaped : ∀ name ∈ names, isPoolSlotName pool name = true) :
    Collects ns pool (fun st => P st ∧ ∀ name, name ∈ names → Dead pool name st) (releaseOrphans ns names)
      fun _ st => P st ∧ ∀ name, name ∈ names → ∀ node, Clean ns pool node name st := by
  induction names generalizing P with
  | nil => exact gives_pure fun _ here => ⟨here.1, nofun⟩
  | cons slot rest ih =>
    have goes : Collects ns pool
        (fun st => (P st ∧ ∀ node, Clean ns pool node slot st) ∧ ∀ name, name ∈ rest → Dead pool name st)
        (releaseOrphans ns rest) fun _ st => P st ∧ ∀ name, name ∈ slot :: rest → ∀ node, Clean ns pool node name st := by
      refine gives_post ?_ (ih (P := fun st => P st ∧ ∀ node, Clean ns pool node slot st)
        fun name member => shaped name (by simp [member]))
      rintro _ st ⟨⟨here, clean⟩, released⟩
      refine ⟨here, fun name member => ?_⟩
      rcases List.mem_cons.mp member with rfl | later
      · exact clean
      · exact released name later
    refine gives_bind (collects_getSandbox (P := fun st => P st ∧ ∀ name, name ∈ slot :: rest → Dead pool name st))
      fun found => ?_
    cases found with
    | true =>
      refine gives_pre ?_ goes
      rintro st ⟨⟨here, dead⟩, owned, -⟩
      exact ⟨⟨here, owned rfl⟩, fun name member => dead name (by simp [member])⟩
    | false =>
      refine gives_bind (gives_pre ?_ (collects_deallocateForWorkload
        (P := fun st => P st ∧ ∀ name, name ∈ rest → Dead pool name st) (shaped slot (by simp)))) fun _ => ?_
      · rintro st ⟨⟨here, dead⟩, -, free⟩
        exact ⟨⟨here, fun name member => dead name (by simp [member])⟩, dead slot (by simp), free rfl⟩
      · exact gives_pre (fun st here => ⟨⟨here.1.1, here.2⟩, here.1.2⟩) goes

theorem collects_listPods : Collects ns pool (fun _ => True) (own (.listPods pool)) fun pods st => True ∧
    ∀ name, isPoolSlotName pool name = true → SlotLive st name →
      name ∈ (pods.filter fun m => !ended m).map fun m => m.name := by
  refine collects_reads trivial ?_
  intro c st pods sound _ _ done name shaped live
  cases done
  obtain ⟨uid, m, now, rfl, running⟩ := live
  obtain ⟨found, alive⟩ := Option.filter_eq_some_iff.mp now
  obtain ⟨e, last, rfl⟩ := Option.map_eq_some_iff.mp found
  have member : e ∈ st.slots.versions uid := List.mem_of_getLast? last
  obtain ⟨owner, theirs, label⟩ := sound.shaped uid e member
  cases isPoolSlotName_unique shaped theirs
  refine List.mem_map.mpr ⟨e.manifest, List.mem_filter.mpr ⟨List.mem_filter.mpr ⟨?_, by simp [label]⟩, by simp [running]⟩, rfl⟩
  exact List.mem_filterMap.mpr ⟨uid, sound.created uid (List.ne_nil_of_mem member), now⟩

theorem collects_visit {names : List String} :
    Collects ns pool P (own (.visit names)) fun order st => P st ∧ ∀ name, name ∈ order ↔ name ∈ names := by
  refine collects_reads trivial ?_
  intro c st order _ _ _ done name
  cases done
  split
  · next perm => exact (List.isPerm_iff.mp perm).mem_iff
  · rfl

theorem collects_reconcileSlotGPUGC : Collects ns pool (fun _ => True) (reconcileSlotGPUGC ns pool)
    fun held st => held = false → ∀ node name, Clean ns pool node name st := by
  refine gives_bind collects_listPods fun pods => ?_
  generalize (pods.filter fun m => !ended m).map (fun m => m.name) = live
  refine gives_bind collects_list fun nodes => ?_
  have slots : ∀ name ∈ (nodes.flatMap fun n => n.status.gpus.map fun g => g.allocatedTo).filterMap (slotOf ns pool),
      isPoolSlotName pool name = true := by
    intro name member
    obtain ⟨id, -, found⟩ := List.mem_filterMap.mp member
    exact (slotOf_eq_some.mp found).2
  have recorded : ∀ {st}, Lists ns pool nodes st → ∀ node name, isPoolSlotName pool name = true → LooseAt ns st node name →
      name ∈ (nodes.flatMap fun n => n.status.gpus.map fun g => g.allocatedTo).filterMap (slotOf ns pool) := by
    intro st listed node name shaped loose
    obtain ⟨n, member, -, record⟩ := listed node name shaped loose
    refine List.mem_filterMap.mpr ⟨slotGPUAllocatedTo ns name, ?_, slotOf_eq_some.mpr ⟨rfl, shaped⟩⟩
    exact List.mem_flatMap.mpr ⟨n, member, record⟩
  generalize (nodes.flatMap fun n => n.status.gpus.map fun g => g.allocatedTo).filterMap (slotOf ns pool) = names
    at recorded slots ⊢
  refine gives_bind (gives_pre (fun st here => ⟨here.1.2, fun node name shaped loose => recorded here.2 node name shaped loose⟩)
    (collects_visit (P := fun st => (∀ name, isPoolSlotName pool name = true → SlotLive st name → name ∈ live) ∧
      ∀ node name, isPoolSlotName pool name = true → LooseAt ns st node name → name ∈ names))) fun order => ?_
  intro st sound ⟨⟨counted, loosely⟩, members⟩
  have members : ∀ name, name ∈ order ↔ name ∈ names ∧ name ∉ live := fun name => (members name).trans (by simp)
  have shaped : ∀ name ∈ order, isPoolSlotName pool name = true := fun name member => slots name ((members name).mp member).1
  refine gives_bind (collects_releaseOrphans (P := fun st => ∀ node name, isPoolSlotName pool name = true →
    LooseAt ns st node name → name ∈ names) shaped) (fun _ => gives_pure ?_) st sound ⟨loosely, ?_⟩
  · intro st' ⟨loosely', released⟩ unheld node name mine loose
    have slot := loosely' node name mine loose
    have gone : name ∉ live := by
      intro member
      have held : names.any live.contains = true := List.any_eq_true.mpr ⟨name, slot, by simpa using member⟩
      rw [held] at unheld
      cases unheld
    exact released name ((members name).mpr ⟨slot, gone⟩) node mine loose
  · exact fun name member mine alive => ((members name).mp member).2 (counted name mine alive)

/-! ## A pass -/

theorem collects_slot {o : Op} (asks : Asks pool o) (kept : ∀ pod, o ≠ .delete pod) :
    Collects ns pool (fun _ => True) (Prog.call (Call.slot o)) fun answer _ => Told Given (fun _ => True) o answer := by
  have reads : ∀ {st : State} {c : Choice} {w' : World} {a : o.Res}, (∀ m, o ≠ .create m) →
      st.slots.perform c (.pool pool) o = .ok (w', a) → w' = st.slots := by
    intro st c w' a old done
    cases o with
    | external | list | get => exact World.perform_reads (by trivial) done
    | update => exact asks.elim
    | delete pod => exact (kept pod rfl).elim
    | create m => exact (old m rfl).elim
  refine gives_attempted (gives_tried (fun _ _ _ => trivial) ?_)
  rintro st r st' sound - ⟨c, ⟨honest, -⟩, action⟩
  obtain ⟨⟨w, answer⟩, inner, same⟩ := Option.map_eq_some_iff.mp action
  cases same
  have fresh : ∀ m, o = .create m → st.slots.versions c.slot.uid = [] := by
    intro m same
    subst same
    simp only [World.exec] at inner
    split at inner
    · assumption
    · cases inner
  have outcome : withFault st.slots c.slot.fault (st.slots.perform c.slot (.pool pool) o) = (w, answer) := by
    cases o with
    | create m =>
      simp only [World.exec, if_pos (fresh m rfl)] at inner
      exact Option.some.inj inner
    | external | list | get | update | delete => exact Option.some.inj inner
  have told : Told Given (fun _ => True) o answer := by
    rcases withFault_cases outcome with ⟨a, rfl, done⟩ | ⟨e, rfl, -⟩
    · refine World.perform_told (fun _ _ => trivial) ?_ done
      rintro rfl suffix reply
      simp only [Pick.honest, reply, Bool.and_eq_true] at honest
      exact honest.1
    · exact told_error
  by_cases new : ∃ m, o = .create m
  · obtain ⟨m, rfl⟩ := new
    -- a creation that failed leaves an UID behind that is no pod's
    have unborn : Sound ns { st with created := c.slot.uid :: st.created } ∧
        ∀ other, Calm ns other st { st with created := c.slot.uid :: st.created } :=
      ⟨{ sound with created := fun uid some => List.mem_cons_of_mem _ (sound.created uid some) },
        fun _ => calm_slots rfl rfl rfl fun _ _ live => live⟩
    have made : Sound ns { st with slots := w, created := c.slot.uid :: st.created } ∧
        ∀ other, pool ≠ other → Calm ns other st { st with slots := w, created := c.slot.uid :: st.created } := by
      rcases effect_of_cases (withFault_cases outcome) with rfl | ⟨a, done⟩
      · exact ⟨unborn.1, fun other _ => unborn.2 other⟩
      · exact create_kept sound asks.1 asks.2 done
    refine ⟨made.1, ⟨Extends.refl _, fun other different => made.2 other fun same => different (congrArg Actor.pool same)⟩, ?_⟩
    rintro _ ⟨⟩
    exact told
  · have old : ∀ m, o ≠ .create m := fun m same => new ⟨m, same⟩
    have same : w = st.slots := by
      rcases effect_of_cases (withFault_cases outcome) with same | ⟨a, done⟩
      · exact same
      · exact reads old done
    subst same
    have still : ∀ a, (.ok answer : Except Err (Except Err o.Res)) = .ok a → Told Given (fun _ => True) o a := by
      rintro _ ⟨⟩
      exact told
    cases o with
    | external | list | get | update | delete => exact ⟨sound, idle_guar _ st, still⟩
    | create m => exact (old m rfl).elim

theorem collects_body {o : Op} (asks : Asks pool o) :
    Collects ns pool (fun _ => True) (body ns pool o) fun answer _ => Told Given (fun _ => True) o answer := by
  cases o with
  | external call =>
    cases call with
    | getPool name =>
      refine gives_post (fun _ _ _ => trivial) (gives_attempt (collects_reads (o := .getPool name) (U := fun _ _ => True)
        trivial ?_))
      exact fun _ _ _ _ _ _ _ => trivial
    | patchFinalizers name present =>
      cases asks
      exact gives_post (fun _ _ _ => trivial) (gives_attempt (collects_own (o := .patchFinalizers name true) trivial
        fun _ _ _ => trivial))
    | allocateSlotGPU slot =>
      exact gives_post (fun _ _ _ => trivial) (gives_attempt (collects_own (o := .allocate _) ⟨slot, asks, rfl⟩
        fun _ _ _ => trivial))
    | reconcileSlotGPUGC => exact gives_post (fun _ _ _ => trivial) (gives_attempt collects_reconcileSlotGPUGC)
    | _ => exact collects_slot asks fun _ => nofun
  | delete pod =>
    exact gives_post (fun _ _ _ => trivial) (gives_attempt (collects_own (o := .deleteSlot pod) trivial fun _ _ _ => trivial))
  | update | list | get | create => exact collects_slot asks fun _ => nofun

theorem collects_proper {m : Act α} (proper : Proper pool m) :
    Collects ns pool (fun _ => True) (m.handle (body ns pool) id) fun _ _ => True := by
  intro st sound _
  refine wp_mono (fun _ _ _ _ _ => trivial) (wp_handle (P := Sound ns) ?_ proper sound)
  intro o st asks sound
  exact wp_inv sound (collects_body asks st sound trivial)

theorem collects_reconcileDeleted {obj : SwiftSandboxPool}
    (profile : obj.gpuFinalizer = true → obj.gpuProfileRef.isSome = true) :
    Collects ns obj.name (fun _ => True) ((reconcileDeleted obj).handle (body ns obj.name) id) fun _ _ => True := by
  unfold reconcileDeleted
  split
  swap
  · exact collects_proper trivial
  next finalizer =>
    rw [Prog.handle_bind]
    have tends : Tends id obj Given (fun _ => True) (deleteWarmSlots obj) fun _ => True := tends_deleteWarmSlots
    refine gives_bind (collects_proper (proper_of tends)) fun _ => ?_
    have gpu : obj.gpuProfileRef.isNone = false := by simpa using profile finalizer
    rw [Prog.handle_bind, Sandbox.reconcileSlotGPUGC, gpu, if_neg (by decide), Prog.handle_call, bind_assoc]
    refine gives_bind (gives_attempt collects_reconcileSlotGPUGC) fun answer => ?_
    refine gives_bind (U := fun held st => held = false → ∀ node name, Clean ns obj.name node name st)
      (gives_ofExcept fun _ here held same => here held ?_) fun held => ?_
    · cases answer <;> cases same
      rfl
    cases held with
    | true => exact gives_pre (fun _ _ => trivial) (collects_proper trivial)
    | false =>
      show Collects _ _ _ ((ask (.patchFinalizers obj.name false)).handle (body ns obj.name) id) _
      rw [Prog.handle_call]
      refine gives_bind (U := fun _ _ => True) (gives_post (fun _ _ _ => trivial) (gives_attempt (collects_own trivial ?_)))
        fun _ => gives_ofExcept fun _ _ _ _ => trivial
      exact fun st _ clean node name shaped => clean rfl node name shaped

theorem collects_reconcileGPUPool :
    Collects ns pool (fun _ => True) (reconcileGPUPool ns hex pool) fun _ _ => True := by
  unfold reconcileGPUPool reconcile
  rw [Prog.handle_bind, Prog.handle_attempt_call]
  refine gives_bind (gives_attempt (collects_reads (o := .getPool pool) (P := fun _ => True) (U := fun obj _ =>
    obj.name = pool ∧ (obj.deletionTimestamp = true → obj.gpuFinalizer = true → obj.gpuProfileRef.isSome = true))
    trivial ?_)) fun found => ?_
  · intro c st obj sound _ current done
    simp only [State.perform] at done
    split at done <;> cases done
    next found =>
      refine ⟨sound.pools pool obj (List.mem_of_getElem? found), fun deleted finalizer => ?_⟩
      simp only [Current, found, Bool.or_eq_true] at current
      simpa [deleted, finalizer] using current
  · split
    · exact gives_pre (fun _ _ => trivial) (collects_proper trivial)
    · exact gives_pre (fun _ _ => trivial) (collects_proper trivial)
    next obj =>
      intro st sound read
      obtain ⟨-, named, profile⟩ := read obj rfl
      split
      · next deleted => exact named ▸ collects_reconcileDeleted (profile deleted) st sound trivial
      · exact collects_proper (named ▸ proper_of tends_reconcilePool) st sound trivial

end Pass

/-! ## Whole runs -/

section Runs

variable {ns : String} {hex : String → String} {st : State}

theorem event_kept (ns : String) {event : Event} (sound : Sound ns st) (ends : st.staysEnded event = true) :
    Kept ns st { st with slots := st.slots.event event } := by
  cases event with
  | annotate name annotations =>
    exact rewrite_kept ns name (fun m => { m with
      annotations := annotations.foldl (fun m kv => m.set kv.1 kv.2) m.annotations }) sound (fun _ => rfl)
      (fun _ => rfl) fun _ _ _ _ isOver => isOver
  | report name phase containerStatuses nodeName =>
    refine rewrite_kept ns name (fun m => { m with phase, containerStatuses, nodeName }) sound (fun _ => rfl)
      (fun _ => rfl) ?_
    intro uid e here last isOver
    simp only [State.staysEnded, here, last, isOver, Option.bind_some, Bool.not_true, Bool.false_or, Bool.or_eq_true,
      decide_eq_true_eq] at ends
    simpa [ended] using ends
  | terminate name =>
    exact rewrite_kept ns name (fun m => { m with deletionTimestamp := true }) sound (fun _ => rfl) (fun _ => rfl)
      fun _ _ _ _ isOver => isOver
  | remove name => exact forget_kept ns sound name

theorem node_kept {name : String} {status : GPU.SwiftGPUNodeStatus} (sound : Sound ns st) (named : name ≠ "")
    (foreign : ∀ g ∈ status.gpus, st.foreign name g.allocatedTo = true) :
    Kept ns st { st with
      gpus := st.gpus.push name status
      nodes := if st.nodes.contains name then st.nodes else name :: st.nodes } := by
  refine ⟨{ sound with nodes := ?_ }, extends_append _ _ _, ?_⟩
  · intro node some
    by_cases same : node = name
    · subst same
      refine ⟨?_, named⟩
      split
      · next listed => simpa using listed
      · simp
    · have before : st.gpus.versions node ≠ [] := by
        simpa [GPU.World.push, Function.update_of_ne same] using some
      obtain ⟨listed, nonempty⟩ := sound.nodes node before
      refine ⟨?_, nonempty⟩
      split
      · exact listed
      · exact List.mem_cons_of_mem _ listed
  · intro pool
    have calm : Calm ns pool st { st with gpus := st.gpus.push name status } := by
      refine calm_push ?_
      intro slot _ mine member
      obtain ⟨g, listed, same⟩ := List.mem_map.mp member
      have known := foreign g listed
      simpa [State.foreign, same, mine] using known
    exact { calm with }

theorem happens_kept (ns : String) {event : Happening} (sound : Sound ns st)
    (apart : ∀ name, event = .sandbox name → ∀ pool, isPoolSlotName pool name = false) :
    Kept ns st (st.happens event) := by
  cases event with
  | slot event =>
    rw [State.happens]
    split
    · next ends => exact event_kept ns sound ends
    · exact .refl sound
  | claim name sandbox =>
    have label : ∀ m : Manifest, ((m.labels.set slotStateLabelKey slotStateClaimed).set sandboxLabelKey sandbox) poolLabelKey =
        m.labels poolLabelKey := by
      intro m
      rw [StringMap.set_of_ne _ _ (by decide), StringMap.set_of_ne _ _ (by decide)]
    exact rewrite_kept ns name (fun m => { m with
      labels := (m.labels.set slotStateLabelKey slotStateClaimed).set sandboxLabelKey sandbox
      ownerReferences := [⟨"SwiftSandbox", sandbox, sandbox, true⟩] }) sound (fun _ => rfl) label fun _ _ _ _ isOver => isOver
  | sandbox name =>
    have free : slotGPUAllocatedTo ns name ∉ st.warmed := by
      intro member
      obtain ⟨pool, shaped⟩ := sound.warmed name member
      simp [apart name rfl pool] at shaped
    exact ⟨sound_sandbox sound free, Extends.refl _, fun pool => calm_sandbox (by simp [apart name rfl pool])⟩
  | unsandbox name =>
    have fewer : ∀ slot, slot ∈ (st.sandboxes.filter fun other => other ≠ name) → slot ∈ st.sandboxes :=
      fun slot member => (List.mem_filter.mp member).1
    refine ⟨{ sound with apart := fun slot mine member => sound.apart slot mine (fewer slot member) }, Extends.refl _, ?_⟩
    exact fun _ => ⟨fun _ _ live => live, fun _ _ _ loose => loose, fun slot _ member => fewer slot member⟩
  | edit name pool =>
    refine ⟨{ sound with pools := ?_ }, Extends.refl _, fun _ => calm_slots rfl rfl rfl fun _ _ live => live⟩
    intro other version (member : version ∈ append st.pools name { pool with name } other)
    rcases mem_append_iff.mp member with before | ⟨rfl, rfl⟩
    · exact sound.pools other version before
    · rfl
  | node name status =>
    rw [State.happens]
    split
    · next proper => exact node_kept sound proper.1 fun g listed => List.all_eq_true.mp proper.2 g listed
    · exact .refl sound

theorem suits_collecting (ns : String) (hex : String → String) :
    Suits (freshMachine ns) (collecting ns) (poolsApart ns hex) where
  refl _ st := ⟨Extends.refl _, fun _ _ => Calm.refl st⟩
  trans _ _ _ _ first second := ⟨first.1.trans second.1, fun pool mine => (first.2 pool mine).trans (second.2 pool mine)⟩
  guar p q st st' other _ _ guar := ⟨guar.1, fun pool mine => guar.2 pool fun same => other (mine.trans same.symm)⟩
  crash _ _ st _ _ _ dies := dies.2 ▸ ⟨Extends.refl _, fun _ _ => Calm.refl st⟩
  env st st' sound moves := by
    obtain ⟨event, apart, rfl⟩ := moves
    obtain ⟨sound', extended, calm⟩ := happens_kept ns sound apart
    exact ⟨sound', fun _ => ⟨extended, fun pool _ => calm pool⟩⟩
  starts p prog st offer sound := by
    obtain ⟨pool, rfl, rfl | ⟨name, shaped, rfl⟩⟩ := offer
    · exact wp_of_ensures (collects_reconcileGPUPool st sound trivial)
    · exact wp_of_ensures (collects_own (o := .createSandbox name) (P := fun _ => True) shaped (fun _ _ _ => trivial) st sound
        trivial)

structure InTime (ns : String) (s : Loops Actor State Call Call.Res Err) : Prop where
  released : ∀ pool node v status old g name, s.pending (.pool pool) = some (.gpu (.update node v status)) →
    (s.world.gpus.versions node)[v]? = some old → g ∈ old.gpus → g ∉ status.gpus →
    g.allocatedTo = slotGPUAllocatedTo ns name → ¬ SlotLive s.world name ∧ name ∉ s.world.sandboxes
  finalized : ∀ pool, s.pending (.pool pool) = some (.own (.patchFinalizers pool false)) →
    ∀ node name, isPoolSlotName pool name = true → slotGPUAllocatedTo ns name ∈ s.world.warmed →
      slotGPUAllocatedTo ns name ∉ s.world.recorded node

/-- Whatever is done to pools, slots, sandboxes and nodes, and whatever fails: as long as a pool that is deleted with
the finalizer still has its profile, nodes are listed and read as they are, no sandbox has the name of a slot that a GPU
was allocated to, and none with a name of that shape is created while the pool's pass runs, GPUs are released only when
they may be and the finalizer goes only after them. -/
theorem slot_gpus_in_time {s : Loops Actor State Call Call.Res Err}
    (runs : LoopsReach (freshMachine ns) (poolsApart ns hex) emptyNamespace s) : InTime ns s := by
  have start : Sound ns emptyNamespace :=
    ⟨fun _ _ => nofun, fun _ some => (some rfl).elim, fun _ some => (some rfl).elim, fun _ _ => nofun, fun _ => nofun,
      fun _ => nofun⟩
  have suits := suits_collecting ns hex
  have sound := loopsSound_reach suits start runs
  refine ⟨?_, ?_⟩
  · intro pool node v status old g name pending seen listed gone recorded
    exact sound.pre suits.toCompatible pending old seen g listed gone name recorded
  · intro pool pending node name shaped mine record
    exact sound.pre suits.toCompatible pending node name shaped ⟨record, mine⟩

end Runs

/-! ## A profile that is removed, and a sandbox with a slot's name -/

private def slotGPU (allocatedTo : String) : GPU.GPUDevice :=
  ⟨⟨0, "0000:01:00.0", "", "", "", 0, 0, "", []⟩, allocatedTo ≠ "", allocatedTo⟩

private def nodeWith (allocatedTo : String) : GPU.SwiftGPUNodeStatus :=
  ⟨.ready, 1, if allocatedTo = "" then 1 else 0, "", "", true, [slotGPU allocatedTo], none⟩

private def gpuPool (deleted finalizer : Bool) (profile : Option String) : SwiftSandboxPool :=
  ⟨"pool", "uid-pool", deleted, finalizer, profile, false, false, 1, 0, "shape", ""⟩

private def reading (pool node : Nat) : Pick where
  slot := { answer := calmAnswers 0 }
  gpu := { listing := [("node", node)], version := some node }
  version := pool
  place := some ("node", [slotGPU ""], -1)

private def poolScript (check : Actor → State → Call → Pick → Bool) :
    Script Actor Pick State Call Call.Res Err Unit Happening where
  engine := poolEngine
  calls _ := reconcileGPUPool "ns" id "pool"
  event event st := st.happens event
  check := check
  pids := []

private def thePool : Actor := .pool "pool"

private def slot : String := "pool-slot-abcde"

private def warming : List (LoopMove Actor Pick Unit Happening) :=
  [.env (.node "node" (nodeWith "")), .env (.edit "pool" (gpuPool false false (some "profile"))), .start thePool ()] ++
    List.replicate 20 (.op thePool (reading 0 0)) ++ [.crash thePool]

private def profileRemoved : List (LoopMove Actor Pick Unit Happening) :=
  warming ++ [.env (.edit "pool" (gpuPool false true none)), .env (.edit "pool" (gpuPool true true none)),
    .start thePool ()] ++ List.replicate 2 (.op thePool (reading 3 1))

private def nodesBehind : List (LoopMove Actor Pick Unit Happening) :=
  warming ++ [.env (.edit "pool" (gpuPool true true (some "profile"))), .start thePool ()] ++
    List.replicate 5 (.op thePool (reading 2 0))

private def namesake : List (LoopMove Actor Pick Unit Happening) :=
  warming ++ [.env (.slot (.remove slot)), .start thePool ()] ++ List.replicate 12 (.op thePool (reading 1 1)) ++
    [.env (.sandbox slot)] ++ List.replicate 2 (.op thePool (reading 1 1))

private def overlooked : List (LoopMove Actor Pick Unit Happening) :=
  warming ++ [.env (.slot (.remove slot)), .env (.sandbox slot), .env (.edit "pool" (gpuPool true true (some "profile"))),
    .start thePool ()] ++ List.replicate 6 (.op thePool (reading 2 1))

private def finalizes (s : Loops Actor State Call Call.Res Err) : Bool :=
  match s.pending thePool with
  | some (.own (.patchFinalizers name false)) => name = "pool"
  | _ => false

variable {s : Loops Actor State Call Call.Res Err}

private theorem finalizes_pending (here : finalizes s = true) :
    s.pending thePool = some (.own (.patchFinalizers "pool" false)) := by
  unfold finalizes at here
  split at here
  · next name pending =>
    rw [decide_eq_true_eq] at here
    exact here ▸ pending
  · cases here

private def nodeCall (s : Loops Actor State Call Call.Res Err) : Option GPU.Op :=
  match s.pending thePool with
  | some (.gpu o) => some o
  | _ => none

private theorem nodeCall_pending (here : nodeCall s = some o) :
    s.pending thePool = some (.gpu o) := by
  unfold nodeCall at here
  split at here
  · next pending =>
    cases here
    exact pending
  · cases here

private def isHonest (_ : Actor) (_ : State) (o : Call) (c : Pick) : Bool := c.honest o

private theorem pools_fits : (poolScript isHonest).Fits (pools "ns" id) (fun _ _ o c => c.honest o = true)
    (K := fun p _ => p = thePool) where
  passes _ _ _ _ checked := checked
  offers p _ same := ⟨"pool", same, rfl⟩
  env event _ _ := ⟨event, rfl⟩

private theorem pending_of_finalizes {P : Loops Actor State Call Call.Res Err → Prop}
    (reached : ∃ s, LoopsReach poolMachine (pools "ns" id) emptyNamespace s ∧ finalizes s = true ∧ P s) :
    ∃ s, LoopsReach poolMachine (pools "ns" id) emptyNamespace s ∧
      s.pending thePool = some (.own (.patchFinalizers "pool" false)) ∧ P s := by
  obtain ⟨s, runs, finalizing, recorded⟩ := reached
  exact ⟨s, runs, finalizes_pending finalizing, recorded⟩

/-- A pool whose profile was removed loses its finalizer while a slot's GPU is recorded, and so does one whose nodes are
read from before the allocation, or for whose slot's name a sandbox was created since. A sandbox that was created during
the pass loses the GPU that is recorded for its name. -/
theorem slot_gpus_in_time_unmet :
    (∃ s, LoopsReach poolMachine (pools "ns" id) emptyNamespace s ∧
      s.pending thePool = some (.own (.patchFinalizers "pool" false)) ∧
      slotGPUAllocatedTo "ns" slot ∈ s.world.warmed ∧ slotGPUAllocatedTo "ns" slot ∈ s.world.recorded "node" ∧
      s.world.sandboxes = [] ∧
      (s.world.pools "pool").map (fun pool => pool.gpuProfileRef) = [some "profile", some "profile", none, none]) ∧
    (∃ s, LoopsReach poolMachine (pools "ns" id) emptyNamespace s ∧
      s.pending thePool = some (.own (.patchFinalizers "pool" false)) ∧
      slotGPUAllocatedTo "ns" slot ∈ s.world.warmed ∧ slotGPUAllocatedTo "ns" slot ∈ s.world.recorded "node" ∧
      s.world.sandboxes = [] ∧
      (s.world.pools "pool").map (fun pool => pool.gpuProfileRef) = [some "profile", some "profile", some "profile"]) ∧
    (∃ s, LoopsReach poolMachine (pools "ns" id) emptyNamespace s ∧
      s.pending thePool = some (.own (.patchFinalizers "pool" false)) ∧
      slotGPUAllocatedTo "ns" slot ∈ s.world.warmed ∧ slotGPUAllocatedTo "ns" slot ∈ s.world.recorded "node" ∧
      s.world.sandboxes = [slot]) ∧
    ∃ s, LoopsReach poolMachine (pools "ns" id) emptyNamespace s ∧
      s.pending thePool = some (.gpu (.update "node" 1 (nodeWith ""))) ∧
      s.world.recorded "node" = [slotGPUAllocatedTo "ns" slot] ∧ slot ∈ s.world.sandboxes := by
  refine ⟨?_, ?_, ?_, ?_⟩
  · exact pending_of_finalizes (exists_of_play pools_fits profileRemoved (by decide +kernel))
  · exact pending_of_finalizes (exists_of_play pools_fits nodesBehind (by decide +kernel))
  · exact pending_of_finalizes (exists_of_play pools_fits overlooked (by decide +kernel))
  · have reached : ∃ s, LoopsReach poolMachine (pools "ns" id) emptyNamespace s ∧
        nodeCall s = some (.update "node" 1 (nodeWith "")) ∧
        s.world.recorded "node" = [slotGPUAllocatedTo "ns" slot] ∧ slot ∈ s.world.sandboxes :=
      exists_of_play pools_fits namesake (by decide +kernel)
    obtain ⟨s, runs, releasing, recorded⟩ := reached
    exact ⟨s, runs, nodeCall_pending releasing, recorded⟩

private def isCurrent (_ : Actor) (st : State) (o : Call) (c : Pick) : Bool := c.honest o && Current "ns" st o c

private def releasedFirst : List (LoopMove Actor Pick Unit Happening) :=
  warming ++ [.env (.slot (.remove slot)), .env (.edit "pool" (gpuPool true true (some "profile"))), .start thePool ()] ++
    List.replicate 9 (.op thePool (reading 2 1))

private def creates : Happening → Bool
  | .sandbox _ => true
  | _ => false

private theorem apart_fits : (poolScript isCurrent).Fits (poolsApart "ns" id)
    (fun _ st o c => c.honest o = true ∧ Current "ns" st o c = true) (K := fun p _ => p = thePool) (V := (creates · = false)) where
  passes _ _ _ _ checked := (Bool.and_eq_true _ _).mp checked
  offers p _ same := ⟨"pool", same, .inl rfl⟩
  env event _ other := by
    refine ⟨event, ?_, rfl⟩
    rintro name rfl
    cases other

theorem slot_gpus_in_time_released :
    ∃ s, LoopsReach (freshMachine "ns") (poolsApart "ns" id) emptyNamespace s ∧
      s.pending thePool = some (.own (.patchFinalizers "pool" false)) ∧
      slotGPUAllocatedTo "ns" slot ∈ s.world.warmed ∧
      (s.world.gpus.versions "node").map (fun status => status.gpus.map fun g => g.allocatedTo) =
        [[""], [slotGPUAllocatedTo "ns" slot], [""]] ∧ InTime "ns" s := by
  have reached : ∃ s, LoopsReach (freshMachine "ns") (poolsApart "ns" id) emptyNamespace s ∧ finalizes s = true ∧
      slotGPUAllocatedTo "ns" slot ∈ s.world.warmed ∧
      (s.world.gpus.versions "node").map (fun status => status.gpus.map fun g => g.allocatedTo) =
        [[""], [slotGPUAllocatedTo "ns" slot], [""]] :=
    exists_of_play apart_fits releasedFirst (by decide +kernel)
  obtain ⟨s, runs, finalizing, mine, recorded⟩ := reached
  exact ⟨s, runs, finalizes_pending finalizing, mine, recorded, slot_gpus_in_time runs⟩

end KubeSwift.Sandbox.PoolGPU
