import KubeSwift.Migration.OfflinePass

/-! # What an offline migration leaves

Its guest's run policy, the GPUs its guest boots with, and the reservation on the target. -/

namespace KubeSwift.Migration
open Program

inductive Effect (w : Traced) (w' : World) : Prop
  | quiet (steady : Steady w.cluster w') (phase : ∀ mig m, w.cluster.migration = some mig → w'.migration = some m →
      m.status.phase = mig.status.phase)
  | status {mig m : SwiftMigration} {s : SwiftMigrationStatus} (there : w.cluster.migration = some mig)
      (sheltered : Sheltered w) (write : StatusWrite mig w.cluster s) (phase : m.status.phase = s.phase)
      (name : m.name = mig.name) (target : m.target = mig.target) (id : allocatedTo m = allocatedTo mig)
      (after : w' = w.cluster.setMigration (some m))
  | guest {mig : SwiftMigration} {base wanted old guest : SwiftGuest} (there : w.cluster.migration = some mig)
      (present : w.cluster.guest = some old) (same : old.core = base.core) (write : GuestWrite mig w base wanted)
      (core : guest.core = wanted.core) (after : w' = w.cluster.setGuest guest)
  | stamp {mig : SwiftMigration} {base wanted old guest : SwiftGuest} (there : w.cluster.migration = some mig)
      (present : w.cluster.guest = some old) (same : old.core = base.core) (stamp : Stamp mig w.cluster base wanted)
      (core : guest.core = wanted.core) (after : w' = w.cluster.setGuest guest)
  | node {mig : SwiftMigration} {node : String} {st wanted : GPU.SwiftGPUNodeStatus}
      (there : w.cluster.migration = some mig) (current : (w.cluster.gpus.versions node).getLast? = some st)
      (write : NodeWrite mig w.cluster node st wanted)
      (after : w' = { w.cluster with gpus := w.cluster.gpus.push node wanted })

namespace Effect

theorem refl (w : Traced) : Effect w w.cluster := by
  refine .quiet (Around.refl _).steady ?_
  intro mig m there there'
  rw [there] at there'
  cases there'
  rfl

theorem around {w : Traced} {w' : World} (around : Around w.cluster w') : Effect w w' := by
  refine .quiet around.steady ?_
  intro mig m there there'
  obtain ⟨old, before, version⟩ := around.edited there'
  rw [there] at before
  cases before
  rw [version.status]

variable {m : SwiftMigration}

theorem edit {w : Traced} {other : Option SwiftMigration} (there : w.cluster.migration = some m)
    (next : ∀ m', other = some m' → m'.status = m.status ∧ m'.name = m.name ∧ m'.target = m.target ∧
      allocatedTo m' = allocatedTo m) : Effect w (w.cluster.setMigration other) := by
  refine .quiet ⟨?_, ?_, ?_⟩ ?_
  · intro m' there'
    exact ⟨m, there, (next m' there').2⟩
  · intro guest present
    exact ⟨guest, present, rfl⟩
  · intro _ _ _ _
    exact Iff.rfl
  · intro mig m' before there'
    rw [there] at before
    cases before
    rw [(next m' there').1]

variable {w w' : Traced} {w₁ : World} {mig : SwiftMigration} {c : Choice} {o : Op} {a : o.Res}

theorem still (quiet : Still o) (done : w.cluster.perform c o = .ok (w₁, a)) : Effect w w₁ :=
  around (quiet.around done)

theorem perform (there : w.cluster.migration = some mig) (heeds : attentive w.cluster o c) (guard : Guard mig w o)
    (sheltered : o.covered = true → Sheltered w) (done : w.cluster.perform c o = .ok (w₁, a)) : Effect w w₁ := by
  cases o with
  | getGuest | getPod | getProfile | clock | check | ensure | patchPod | deletePod =>
    exact still (by trivial) done
  | getMigration =>
    obtain ⟨m, -, same⟩ := World.found_ok done
    cases same
    exact refl w
  | patchFinalizer | deleteMigration =>
    obtain ⟨m, here, same⟩ := World.found_ok done
    cases same
    refine edit here fun m' left => ?_
    cases World.remaining_eq left
    exact ⟨rfl, rfl, rfl, rfl⟩
  | patchStatus base wanted =>
    obtain ⟨m, here, same⟩ := World.found_ok done
    cases same
    rw [there] at here
    cases here
    obtain ⟨rfl, -, write⟩ := guard
    refine .status (m := World.withStatus c.time mig mig.status wanted) there (sheltered rfl) write ?_ rfl rfl rfl rfl
    rw [World.withStatus, SwiftMigrationStatus.merge_self]
    rfl
  | patchStatusLocked | createPod => exact guard.elim
  | patchGuest base wanted =>
    obtain ⟨old, present, equal⟩ := World.found_ok done
    cases equal
    obtain ⟨same, write⟩ := guard old present
    refine .guest there present same write ?_ rfl
    cases write <;> exact SwiftGuest.merge_core same rfl rfl
  | patchGuestStatus base wanted =>
    obtain ⟨old, present, equal⟩ := World.found_ok done
    cases equal
    obtain ⟨same, stamp⟩ := guard old present
    refine .stamp there present same stamp ?_ rfl
    obtain ⟨gpu, rfl, -⟩ := stamp.gpu
    exact SwiftGuest.mergeStatus_core same (some gpu)
  | gpu g =>
    cases g with
    | get name => exact still (by trivial) done
    | list | getNode | create | patchPhase => exact guard.elim
    | update node version wanted =>
      rcases update_perform heeds done with ⟨-, current, rfl⟩ | ⟨e, -, rfl⟩
      · have last : (w.cluster.gpus.versions node).getLast? = (w.cluster.gpus.versions node)[version]? := by
          rw [List.getLast?_eq_getElem?, current]
          rfl
        obtain ⟨st, seen⟩ : ∃ st, (w.cluster.gpus.versions node)[version]? = some st :=
          ⟨_, List.getElem?_eq_getElem (by omega)⟩
        exact .node there (last.trans seen) (guard st seen) rfl
      · exact refl w

theorem step {p : Unit} {r : Except Err o.Res} (there : w.cluster.migration = some mig) (pre : offlineSpec.pre p w o)
    (action : traced.step p w o r w') :
    Effect w w'.cluster ∧ (w.early = true → w'.early = true) ∧ (w.hurt = true → w'.hurt = true) := by
  obtain ⟨c, heeds, after, outcome⟩ := traced_outcome action
  obtain ⟨guard, sheltered⟩ := pre mig there
  refine ⟨?_, after_early after, after_hurt after⟩
  rcases outcome with ⟨a, -, did⟩ | ⟨e, -, same | ⟨a, did⟩⟩
  · exact perform there heeds guard sheltered did
  · rw [same]
    exact refl w
  · exact perform there heeds guard sheltered did

end Effect

variable {w : Traced} {mig : SwiftMigration}

theorem migration_gone {p : Unit} {w' : Traced} {o : Op} {r : Except Err o.Res} (gone : w.cluster.migration = none)
    (action : traced.step p w o r w') : w'.cluster.migration = none := by
  obtain ⟨c, -, -, outcome⟩ := traced_outcome action
  have moved : ∀ a, w.cluster.perform c o = .ok (w'.cluster, a) → w'.cluster.migration = none := by
    intro a did
    refine Option.eq_none_iff_forall_ne_some.mpr fun m here => ?_
    obtain ⟨old, was, -⟩ := World.perform_old did here
    cases gone.symm.trans was
  rcases outcome with ⟨a, -, did⟩ | ⟨e, -, same | ⟨a, did⟩⟩
  · exact moved a did
  · rw [same, gone]
  · exact moved a did

def Alike (mig m : SwiftMigration) : Prop :=
  m.name = mig.name ∧ m.target = mig.target ∧ allocatedTo m = allocatedTo mig

structure Unbroken (fine : Traced → Prop) (P : SwiftMigration → Core → GPU.World → Prop) : Prop where
  earlier : ∀ {w w' : Traced}, (w.early = true → w'.early = true) → (w.hurt = true → w'.hurt = true) → fine w' → fine w
  quiet : ∀ {mig m core gpus gpus'}, m.status.phase = mig.status.phase → Alike mig m →
    (∀ node address, address ∈ recordsFor gpus' node (allocatedTo mig) ↔
      address ∈ recordsFor gpus node (allocatedTo mig)) → P mig core gpus → P m core gpus'
  status : ∀ {w mig m guest s}, fine w → offlineSpec.inv w → Sheltered w → w.cluster.migration = some mig →
    w.cluster.guest = some guest → StatusWrite mig w.cluster s → m.status.phase = s.phase → Alike mig m →
    P mig guest.core w.cluster.gpus → P m guest.core w.cluster.gpus
  guest : ∀ {w mig guest base wanted}, fine w → offlineSpec.inv w → w.cluster.migration = some mig →
    w.cluster.guest = some guest → guest.core = base.core → GuestWrite mig w base wanted →
    P mig base.core w.cluster.gpus → P mig wanted.core w.cluster.gpus
  stamp : ∀ {w : Traced} {mig base wanted}, Stamp mig w.cluster base wanted → P mig base.core w.cluster.gpus →
    P mig wanted.core w.cluster.gpus
  node : ∀ {w mig guest node st wanted}, offlineSpec.inv w → w.cluster.migration = some mig →
    w.cluster.guest = some guest → (w.cluster.gpus.versions node).getLast? = some st →
    NodeWrite mig w.cluster node st wanted → P mig guest.core w.cluster.gpus →
    P mig guest.core (w.cluster.gpus.push node wanted)

def Sustained (fine : Traced → Prop) (P : SwiftMigration → Core → GPU.World → Prop) (w : Traced) : Prop :=
  fine w → ∀ mig guest, w.cluster.migration = some mig → w.cluster.guest = some guest → P mig guest.core w.cluster.gpus

section Unbroken

variable {fine : Traced → Prop} {P : SwiftMigration → Core → GPU.World → Prop} {w' : Traced}

theorem Unbroken.effect (kept : Unbroken fine P) (inv : offlineSpec.inv w) (effect : Effect w w'.cluster)
    (early : w.early = true → w'.early = true) (hurt : w.hurt = true → w'.hurt = true) (holds : Sustained fine P w) :
    Sustained fine P w' := by
  intro still m guest there' present'
  have fine := kept.earlier early hurt still
  have holds := holds fine
  cases effect with
  | quiet steady phase =>
    obtain ⟨mig, there, alike⟩ := steady.migration m there'
    obtain ⟨old, present, same⟩ := steady.guest guest present'
    rw [same]
    refine kept.quiet (phase mig m there there') alike ?_ (holds mig old there present)
    exact alike.2.2 ▸ steady.records m there'
  | status there sheltered write phase name target id after =>
    rw [after] at there' present' ⊢
    cases there'
    exact kept.status fine inv sheltered there present' write phase ⟨name, target, id⟩ (holds _ guest there present')
  | guest there present same write core after =>
    rw [after] at there' present' ⊢
    cases there.symm.trans there'
    cases present'
    rw [core]
    exact kept.guest fine inv there present same write (same ▸ holds _ _ there present)
  | stamp there present same stamp core after =>
    rw [after] at there' present' ⊢
    cases there.symm.trans there'
    cases present'
    rw [core]
    exact kept.stamp stamp (same ▸ holds _ _ there present)
  | node there current write after =>
    rw [after] at there' present' ⊢
    cases there.symm.trans there'
    exact kept.node inv there present' current write (holds _ guest there present')

theorem Unbroken.reached (kept : Unbroken fine P) (initial : offlineSpec.inv w) (sheltered : Sheltered w)
    (first : Sustained fine P w) {s : Loops Unit Traced Op Op.Res Err} (reach : LoopsReach traced offlineSetting w s) :
    Sustained fine P s.world := by
  refine restSound_invariant resting_offline ?_ ?_ ?_ ?_ initial (fun _ => sheltered) first reach
  · intro p w o r w' inv _ pre action here
    cases there : w.cluster.migration with
    | none =>
      intro _ mig _ there'
      cases (migration_gone there action).symm.trans there'
    | some mig =>
      obtain ⟨did, early, hurt⟩ := Effect.step there pre action
      exact kept.effect inv did early hurt here
  · intro p w w' inv dies here
    obtain ⟨-, rfl⟩ := dies
    exact kept.effect inv (Effect.refl w) id (fun hurt => by simp [tracedEngine, hurt]) here
  · intro w w' inv moves here
    exact kept.effect inv (Effect.around moves.1) (fun early => moves.2.1.trans early)
      (fun hurt => moves.2.2.trans hurt) here
  · intro _ _ _ moves
    exact moves.elim

end Unbroken

structure NewOffline (w : World) : Prop where
  offline : ∀ mig, w.migration = some mig → Offline mig ∧ mig.status.phase = .unset
  unmarked : ∀ mig guest, w.migration = some mig → w.guest = some guest → guest.inProgress ≠ mig.name

theorem NewOffline.inv {w : World} (new : NewOffline w) (early hurt : Bool) : offlineSpec.inv ⟨w, early, hurt⟩ := by
  intro mig there
  obtain ⟨offline, unset⟩ := new.offline mig there
  refine ⟨offline, fun resuming => ?_⟩
  cases unset.symm.trans resuming

/-! ## The run policy -/

structure PolicyKept (mig : SwiftMigration) (core : Core) : Prop where
  policy : core.runPolicy = .running ∨ (core.runPolicy = .stopped ∧ core.inProgress = mig.name ∧
    core.nodeName ≠ mig.target ∧ (mig.status.phase = .preparing ∨ mig.status.phase = .stopAndCopy))
  before : mig.status.phase.early = true ∨ mig.status.phase = .preparing → core.nodeName ≠ mig.target

theorem PolicyKept.running {core : Core} (kept : PolicyKept mig core)
    (isOver : core.inProgress ≠ mig.name ∨ core.nodeName = mig.target ∨
      (mig.status.phase ≠ .preparing ∧ mig.status.phase ≠ .stopAndCopy)) : core.runPolicy = .running := by
  rcases kept.policy with running | ⟨-, own, away, phase⟩
  · exact running
  · rcases isOver with unmarked | there | other
    · exact absurd own unmarked
    · exact absurd there away
    · rcases phase with preparing | copying
      · exact absurd preparing other.1
      · exact absurd copying other.2

theorem policyKept_write {base wanted : SwiftGuest} (kept : PolicyKept mig base.core)
    (write : GuestWrite mig w base wanted) : PolicyKept mig wanted.core := by
  cases write with
  | claim phase free => exact ⟨.inr ⟨rfl, rfl, kept.before (.inr phase), .inl phase⟩, kept.before⟩
  | start phase own gpus =>
    refine ⟨.inl rfl, fun early => ?_⟩
    rw [phase] at early
    rcases early with early | early <;> cases early
  | finish phase own =>
    refine ⟨.inl (kept.running (.inr (.inr ?_))), kept.before⟩
    rw [phase]
    exact ⟨nofun, nofun⟩
  | keep own moved => exact ⟨.inl (kept.running (.inr (.inl moved))), kept.before⟩
  | restore own owned =>
    refine ⟨.inl ?_, kept.before⟩
    rcases kept.policy with running | stopped
    · have policy : base.runPolicy = .running := running
      rw [policy]
      rfl
    · exact if_pos stopped.1

theorem policyKept_quiet {core : Core} (phase : m.status.phase = mig.status.phase)
    (alike : Alike mig m) (kept : PolicyKept mig core) : PolicyKept m core := by
  obtain ⟨name, target, -⟩ := alike
  constructor
  · rw [name, target, phase]
    exact kept.policy
  · rw [target, phase]
    exact kept.before

variable {s : SwiftMigrationStatus}

theorem policyKept_status {w : World} {guest : SwiftGuest}
    (kept : PolicyKept mig guest.core) (there : w.guest = some guest) (write : StatusWrite mig w s)
    (phase : m.status.phase = s.phase) (alike : Alike mig m) : PolicyKept m guest.core := by
  have ⟨name, target, _⟩ := alike
  have goes : guest.runPolicy = .running → (m.status.phase.early = true ∨ m.status.phase = .preparing →
      guest.nodeName ≠ mig.target) → PolicyKept m guest.core := by
    intro running before
    refine ⟨.inl running, ?_⟩
    rw [target]
    exact before
  have starts : mig.status.phase.early = true → PolicyKept m guest.core := by
    intro early
    refine goes (kept.running (.inr (.inr ⟨?_, ?_⟩))) fun _ => kept.before (.inl early) <;>
      intro was <;> rw [was] at early <;> cases early
  have late : ∀ {next}, s.phase = next → next.early = false → next ≠ .preparing →
      ¬ (m.status.phase.early = true ∨ m.status.phase = .preparing) := by
    intro next equal late other early
    rw [phase, equal] at early
    rcases early with early | early
    · cases late.symm.trans early
    · exact other early
  cases write with
  | same same => exact policyKept_quiet (phase.trans same) alike kept
  | validate was next =>
    refine starts ?_
    rcases was with was | was <;> rw [was] <;> rfl
  | prepare was next =>
    refine starts ?_
    rw [was]
    rfl
  | copy was next =>
    have equal : m.status.phase = .stopAndCopy := phase.trans next
    refine ⟨?_, fun early => absurd early (late next rfl nofun)⟩
    rw [name, target, equal]
    rcases kept.policy with running | ⟨stopped, own, away, -⟩
    · exact .inl running
    · exact .inr ⟨stopped, own, away, .inr rfl⟩
  | resume was next started => exact goes (started guest there).1 fun early => absurd early (late next rfl nofun)
  | complete was next =>
    refine goes (kept.running (.inr (.inr ?_))) fun early => absurd early (late next rfl nofun)
    rw [was]
    exact ⟨nofun, nofun⟩
  | fail running next unmarked =>
    exact goes (kept.running (.inl (unmarked guest there))) fun early => absurd early (late next rfl nofun)

theorem policyKept : Unbroken (fun _ => True) fun mig core _ => PolicyKept mig core where
  earlier _ _ := id
  quiet phase alike _ := policyKept_quiet phase alike
  status _ _ _ _ present write phase alike kept := policyKept_status kept present write phase alike
  guest _ _ _ _ _ write kept := policyKept_write kept write
  stamp stamp kept := by
    obtain ⟨gpu, rfl, -⟩ := stamp.gpu
    exact { kept with }
  node _ _ _ _ _ kept := kept

/-- An offline migration of a guest whose policy is `Running` and which is not pinned to the target leaves the
policy as it found it: when the migration has ended, and when it lets its object go. -/
theorem offline_keeps_run_policy {w : Traced} (new : NewOffline w.cluster) (start : Sheltered w)
    (running : ∀ mig guest, w.cluster.migration = some mig → w.cluster.guest = some guest →
      guest.runPolicy = .running ∧ guest.nodeName ≠ mig.target)
    {s : Loops Unit Traced Op Op.Res Err} (reach : LoopsReach traced offlineSetting w s) {mig : SwiftMigration}
    {guest : SwiftGuest} (there : s.world.cluster.migration = some mig) (present : s.world.cluster.guest = some guest)
    (isOver : isTerminalPhase mig.status.phase = true ∨ s.pending () = some (.patchFinalizer false)) :
    guest.runPolicy = .running := by
  have inv := new.inv w.early w.hurt
  have kept := policyKept.reached inv start (fun _ mig guest there present => by
    obtain ⟨policy, away⟩ := running mig guest there present
    exact ⟨.inl policy, fun _ => away⟩) reach trivial mig guest there present
  have ended : isTerminalPhase mig.status.phase = true → guest.runPolicy = .running := by
    intro terminal
    refine kept.running (.inr (.inr ⟨?_, ?_⟩)) <;> intro phase <;> rw [phase] at terminal <;> cases terminal
  rcases isOver with terminal | pending
  · exact ended terminal
  · have sound := restSound_reach resting_offline inv (fun _ => start) reach
    obtain ⟨guard, -⟩ := sound.pre resting_offline.toCompatible pending mig there
    rcases guard with terminal | unmarked
    · exact ended terminal
    · exact kept.running (.inl (unmarked guest present))

/-! ## The GPUs a guest boots with -/

variable {st : GPU.SwiftGPUNodeStatus} {node : String}

theorem existing_mark {selected : List GPU.GPUDevice} {part : Int} {id address : String}
    (held : address ∈ (st.existing id).map fun g => g.pciAddress) :
    address ∈ ((st.mark selected part id).existing id).map fun g => g.pciAddress := by
  obtain ⟨g, member, rfl⟩ := List.mem_map.mp held
  obtain ⟨listed, own⟩ := List.mem_filter.mp member
  refine List.mem_map.mpr ⟨GPU.markGPU selected id g, List.mem_filter.mpr ⟨?_, ?_⟩, ?_⟩
  · exact List.mem_map_of_mem listed
  · unfold GPU.markGPU
    split
    · simp
    · exact own
  · unfold GPU.markGPU
    split <;> rfl

def Core.gpusOn (core : Core) (node : String) : Prop := (core.gpu.map fun gpu => gpu.nodeName) = some node

def Core.owns (core : Core) (gpus : GPU.World) (id : String) : Prop :=
  ∀ gpu, core.gpu = some gpu → ∀ address ∈ gpu.devices, address ∈ recordsFor gpus gpu.nodeName id

structure BootSafe (mig : SwiftMigration) (core : Core) (gpus : GPU.World) : Prop where
  owned : core.owns gpus (allocatedTo mig) ∨ (core.runPolicy = .stopped ∧ ¬ core.gpusOn mig.target ∧ core.vfio = true ∧
    (mig.status.phase = .stopAndCopy ∨ (mig.status.phase = .failed ∧ core.inProgress ≠ mig.name)))
  stopped : core.inProgress = mig.name → mig.status.phase = .preparing ∨ mig.status.phase = .stopAndCopy →
    core.runPolicy = .stopped ∨ (mig.status.phase = .stopAndCopy ∧ (core.vfio = true → core.gpusOn mig.target))
  fresh : mig.status.phase.early = true → core.inProgress ≠ mig.name

section BootSafe

variable {mig m : SwiftMigration} {core : Core} {w : Traced} {gpus gpus' : GPU.World} {base wanted guest : SwiftGuest}

theorem BootSafe.owns (safe : BootSafe mig core gpus) (other : mig.status.phase ≠ .stopAndCopy)
    (going : mig.status.phase ≠ .failed) : core.owns gpus (allocatedTo mig) := by
  rcases safe.owned with owns | ⟨-, -, -, copying | failed⟩
  · exact owns
  · exact absurd copying other
  · exact absurd failed.1 going

theorem Core.owns_of_not_unowned (cluster : World) (there : cluster.migration = some mig)
    (present : cluster.guest = some guest) (owned : unowned cluster = false) :
    guest.core.owns cluster.gpus (allocatedTo mig) := by
  intro gpu stamped address member
  by_contra missing
  exact Bool.eq_false_iff.mp owned (unowned_iff.mpr ⟨mig, there, guest, present, gpu, stamped, address, member, missing⟩)

theorem bootSafe_write (named : mig.name ≠ "") (safe : BootSafe mig base.core gpus) (write : GuestWrite mig w base wanted)
    (owned : unowned w.cluster = false → base.core.owns gpus (allocatedTo mig)) (calm : w.early = false) :
    BootSafe mig wanted.core gpus := by
  have unmarked : ∀ {core : Core}, core.inProgress = "" → core.inProgress ≠ mig.name := by
    intro core empty
    rw [empty]
    exact named.symm
  cases write with
  | claim phase free =>
    refine ⟨.inl ?_, fun _ _ => .inl rfl, ?_⟩
    · refine safe.owns ?_ ?_ <;> rw [phase] <;> nofun
    · rw [phase]
      nofun
  | start phase own boots =>
    refine ⟨.inl ?_, fun _ _ => .inr ⟨phase, boots⟩, ?_⟩
    · rcases safe.owned with owns | ⟨-, away, vfio, -⟩
      · exact owns
      · exact absurd (boots vfio) away
    · rw [phase]
      nofun
  | finish phase own =>
    refine ⟨.inl ?_, fun own' => absurd own' (unmarked rfl), fun _ => unmarked rfl⟩
    refine safe.owns ?_ ?_ <;> rw [phase] <;> nofun
  | keep own moved =>
    refine ⟨?_, fun own' => absurd own' (unmarked rfl), fun _ => unmarked rfl⟩
    rcases safe.owned with owns | ⟨stopped, away, vfio, copying | failed⟩
    · exact .inl owns
    · exact .inr ⟨stopped, away, vfio, .inl copying⟩
    · exact absurd own failed.2
  | restore own kept =>
    refine ⟨.inl ?_, fun own' => absurd own' (unmarked rfl), fun _ => unmarked rfl⟩
    rcases safe.owned with owns | ⟨-, -, -, copying | failed⟩
    · exact owns
    · rcases kept copying with early | seen
      · exact absurd (early.symm.trans calm) (by simp)
      · exact owned seen
    · exact absurd own failed.2

theorem bootSafe_quiet (phase : m.status.phase = mig.status.phase) (alike : Alike mig m)
    (records : ∀ node address, address ∈ recordsFor gpus' node (allocatedTo mig) ↔
      address ∈ recordsFor gpus node (allocatedTo mig)) (safe : BootSafe mig core gpus) : BootSafe m core gpus' := by
  obtain ⟨name, target, id⟩ := alike
  obtain ⟨owned, stopped, fresh⟩ := safe
  constructor
  · rw [phase, name, target, id]
    exact owned.imp_left fun owns gpu stamped address member => (records _ _).mpr (owns gpu stamped address member)
  · rw [phase, name, target]
    exact stopped
  · rw [phase, name]
    exact fresh

theorem bootSafe_status (cluster : World) (safe : BootSafe mig guest.core gpus)
    (present : cluster.guest = some guest) (write : StatusWrite mig cluster s) (phase : m.status.phase = s.phase)
    (alike : Alike mig m) : BootSafe m guest.core gpus := by
  have ⟨name, target, id⟩ := alike
  have ends : guest.core.owns gpus (allocatedTo mig) → m.status.phase.early = false → m.status.phase ≠ .preparing →
      m.status.phase ≠ .stopAndCopy → BootSafe m guest.core gpus := by
    intro owns late notPreparing notCopying
    refine ⟨.inl (id ▸ owns), ?_, ?_⟩
    · intro _ moving
      rcases moving with preparing | copying
      · exact absurd preparing notPreparing
      · exact absurd copying notCopying
    · intro early
      exact absurd (late.symm.trans early) (by simp)
  have starts : mig.status.phase.early = true → BootSafe m guest.core gpus := by
    intro early
    have unmarked : guest.core.inProgress ≠ m.name := name ▸ safe.fresh early
    have owns := safe.owns (fun was => by rw [was] at early; cases early) fun was => by rw [was] at early; cases early
    exact ⟨.inl (id ▸ owns), fun own => absurd own unmarked, fun _ => unmarked⟩
  cases write with
  | same same => exact bootSafe_quiet (phase.trans same) alike (fun _ _ => Iff.rfl) safe
  | validate was next =>
    refine starts ?_
    rcases was with was | was <;> rw [was] <;> rfl
  | prepare was next =>
    refine starts ?_
    rw [was]
    rfl
  | copy was next =>
    have owns := safe.owns (by rw [was]; nofun) (by rw [was]; nofun)
    refine ⟨.inl (id ▸ owns), fun own _ => ?_, fun early => ?_⟩
    · rcases safe.stopped (own.trans name) (.inl was) with stopped | ⟨copying, -⟩
      · exact .inl stopped
      · cases was.symm.trans copying
    · rw [phase, next] at early
      cases early
  | resume was next started =>
    have equal : m.status.phase = .resuming := phase.trans next
    have owns : guest.core.owns gpus (allocatedTo mig) := by
      rcases safe.owned with owns | ⟨stopped, -⟩
      · exact owns
      · cases stopped.symm.trans (started guest present).1
    exact ends owns (by rw [equal]; rfl) (by rw [equal]; nofun) (by rw [equal]; nofun)
  | complete was next =>
    have equal : m.status.phase = .completed := phase.trans next
    exact ends (safe.owns (by rw [was]; nofun) (by rw [was]; nofun)) (by rw [equal]; rfl) (by rw [equal]; nofun)
      (by rw [equal]; nofun)
  | fail running next unmarked =>
    have equal : m.status.phase = .failed := phase.trans next
    refine ⟨?_, ?_, ?_⟩
    · rcases safe.owned with owns | ⟨stopped, away, vfio, -⟩
      · exact .inl (id ▸ owns)
      · refine .inr ⟨stopped, ?_, vfio, .inr ⟨equal, ?_⟩⟩
        · rw [target]
          exact away
        · rw [name]
          exact unmarked guest present
    · rw [equal]
      intro _ moving
      rcases moving with moving | moving <;> cases moving
    · rw [equal]
      nofun

theorem Core.owns_push (owns : core.owns gpus (allocatedTo mig))
    (kept : core.gpusOn node → ∀ address, address ∈ recordsFor gpus node (allocatedTo mig) →
      address ∈ (st.existing (allocatedTo mig)).map fun g => g.pciAddress) :
    core.owns (gpus.push node st) (allocatedTo mig) := by
  intro gpu stamped address member
  have held := owns gpu stamped address member
  rw [recordsFor_push]
  split
  · next same =>
    rw [same] at held
    refine kept ?_ address held
    rw [Core.gpusOn, stamped, ← same]
    rfl
  · exact held

theorem bootSafe_node (cluster : World) {wanted : GPU.SwiftGPUNodeStatus}
    (safe : BootSafe mig guest.core cluster.gpus) (present : cluster.guest = some guest)
    (current : (cluster.gpus.versions node).getLast? = some st) (write : NodeWrite mig cluster node st wanted) :
    BootSafe mig guest.core (cluster.gpus.push node wanted) := by
  refine ⟨?_, safe.stopped, safe.fresh⟩
  rcases safe.owned with owns | stopped
  · cases write with
    | reserve target phase vfio =>
      refine .inl (Core.owns_push owns fun _ address held => ?_)
      rw [recordsFor, current] at held
      exact existing_mark held
    | leave other phase own =>
      obtain ⟨marked, vfio, on⟩ := own guest present
      have away : ¬ guest.core.gpusOn mig.target := fun target => other (Option.some.inj (on.symm.trans target))
      rcases safe.stopped marked (.inr phase) with stopped | ⟨-, boots⟩
      · exact .inr ⟨stopped, away, vfio, .inl phase⟩
      · exact absurd (boots vfio) away
    | release target unused =>
      refine .inl (Core.owns_push owns fun on => absurd ?_ (unused guest present).1)
      rw [← target]
      exact on
  · exact .inr stopped

theorem bootSafe : Unbroken (fun w => w.early = false) BootSafe where
  earlier early _ calm := Bool.eq_false_iff.mpr fun set => Bool.eq_false_iff.mp calm (early set)
  quiet := bootSafe_quiet
  status _ _ _ _ present write phase alike safe := bootSafe_status _ safe present write phase alike
  guest calm inv there present same write safe := by
    refine bootSafe_write (inv _ there).1.named safe write ?_ calm
    intro owned
    rw [← same]
    exact Core.owns_of_not_unowned _ there present owned
  stamp stamp _ := by
    obtain ⟨gpu, rfl, node, recorded⟩ := stamp.gpu
    refine ⟨.inl ?_, fun _ _ => .inr ⟨stamp.phase, fun _ => congrArg some node⟩, ?_⟩
    · intro gpu' stamped address member
      cases stamped
      rw [node]
      exact recorded address member
    · rw [stamp.phase]
      nofun
  node _ _ present current write safe := bootSafe_node _ safe present current write

end BootSafe

/-- As long as no pass has given up while the guest's GPUs were released and not yet replaced, a guest that is to
run owns the GPUs it boots with. -/
theorem running_guest_owns_gpus {w : Traced} (new : NewOffline w.cluster) (start : Sheltered w)
    (owned : unowned w.cluster = false) {s : Loops Unit Traced Op Op.Res Err}
    (reach : LoopsReach traced offlineSetting w s) (calm : s.world.early = false) {mig : SwiftMigration}
    {guest : SwiftGuest} (there : s.world.cluster.migration = some mig) (present : s.world.cluster.guest = some guest)
    (runs : guest.runPolicy ≠ .stopped) {gpu : GPUStatus} (stamped : guest.gpu = some gpu) :
    ∀ address ∈ gpu.devices, address ∈ recordsFor s.world.cluster.gpus gpu.nodeName (allocatedTo mig) := by
  have kept := bootSafe.reached (new.inv w.early w.hurt) start (fun _ mig guest there present => by
    have unmarked := new.unmarked mig guest there present
    exact ⟨.inl (Core.owns_of_not_unowned w.cluster there present owned), fun own => absurd own unmarked,
      fun _ => unmarked⟩) reach calm mig guest there present
  rcases kept.owned with owns | ⟨stopped, -⟩
  · exact owns gpu stamped
  · exact absurd stopped runs

/-! ## The reservation on the target -/

structure Booked (mig : SwiftMigration) (core : Core) (gpus : GPU.World) : Prop where
  nodes : ∀ node address, address ∈ recordsFor gpus node (allocatedTo mig) → core.gpusOn node ∨ node = mig.target
  reserved : ∀ address, address ∈ recordsFor gpus mig.target (allocatedTo mig) → core.gpusOn mig.target ∨ core.vfio = true
  ended : isTerminalPhase mig.status.phase = true → ∀ address,
    address ∈ recordsFor gpus mig.target (allocatedTo mig) → core.gpusOn mig.target
  unnamed : recordsFor gpus "" (allocatedTo mig) = []

section Booked

variable {mig m : SwiftMigration} {w : Traced} {base wanted guest : SwiftGuest}

theorem Booked.unmarked {w : World} (booked : Booked mig guest.core w.gpus) (there : w.migration = some mig)
    (present : w.guest = some guest) (unmarked : guest.inProgress ≠ mig.name) (covered : exposed w = false) :
    ∀ address, address ∈ recordsFor w.gpus mig.target (allocatedTo mig) → guest.core.gpusOn mig.target := by
  intro address held
  by_contra away
  have vfio := (booked.reserved address held).resolve_left away
  refine Bool.eq_false_iff.mp covered (exposed_iff.mpr ⟨mig, there, guest, present, vfio, unmarked, away, ?_⟩)
  exact List.ne_nil_of_mem held

theorem booked_quiet {core : Core} {gpus gpus' : GPU.World} (phase : m.status.phase = mig.status.phase)
    (alike : Alike mig m) (records : ∀ node address, address ∈ recordsFor gpus' node (allocatedTo mig) ↔
      address ∈ recordsFor gpus node (allocatedTo mig)) (booked : Booked mig core gpus) : Booked m core gpus' := by
  obtain ⟨-, target, id⟩ := alike
  obtain ⟨nodes, reserved, ended, unnamed⟩ := booked
  constructor <;> rw [id] <;> try rw [target]
  · exact fun node address held => nodes node address ((records _ _).mp held)
  · exact fun address held => reserved address ((records _ _).mp held)
  · rw [phase]
    exact fun isOver address held => ended isOver address ((records _ _).mp held)
  · refine List.eq_nil_iff_forall_not_mem.mpr fun address held => ?_
    have before := (records _ _).mp held
    rw [unnamed] at before
    cases before

theorem booked_status (booked : Booked mig guest.core w.cluster.gpus)
    (there : w.cluster.migration = some mig) (present : w.cluster.guest = some guest) (inv : offlineSpec.inv w)
    (covered : exposed w.cluster = false) (write : StatusWrite mig w.cluster s) (phase : m.status.phase = s.phase)
    (alike : Alike mig m) : Booked m guest.core w.cluster.gpus := by
  have ⟨nodes, reserved, ended, unnamed⟩ := booked
  obtain ⟨-, target, id⟩ := alike
  constructor <;> rw [id] <;> try rw [target]
  · exact nodes
  · exact reserved
  · rw [phase]
    intro isOver
    cases write with
    | same same => exact ended (same ▸ isOver)
    | complete was next =>
      intro address held
      rcases reserved address held with on | vfio
      · exact on
      · exact (inv mig there).2 was guest present vfio
    | fail running next unmarked => exact booked.unmarked there present (unmarked guest present) covered
    | validate _ next | prepare _ next | copy _ next | resume _ next _ =>
      rw [next] at isOver
      cases isOver
  · exact unnamed

theorem booked_stamp (cluster : World) (booked : Booked mig base.core cluster.gpus)
    (stamp : Stamp mig cluster base wanted) : Booked mig wanted.core cluster.gpus := by
  obtain ⟨gpu, rfl, node, -⟩ := stamp.gpu
  have on : (SwiftGuest.core { base with gpu := some gpu }).gpusOn mig.target := congrArg some node
  refine ⟨?_, fun _ _ => .inl on, fun _ _ _ => on, booked.unnamed⟩
  intro other address held
  right
  by_contra away
  have source := (booked.nodes other address held).resolve_right away
  have same : gpuNode base = other := by
    have gpu : (base.gpu.map fun gpu => gpu.nodeName) = some other := source
    rw [gpuNode, gpu]
    rfl
  by_cases named : other = ""
  · rw [named, booked.unnamed] at held
    cases held
  · rw [← same, stamp.left (same ▸ named)] at held
    cases held

theorem booked_node (cluster : World) {wanted : GPU.SwiftGPUNodeStatus} (offline : Offline mig)
    (booked : Booked mig guest.core cluster.gpus) (present : cluster.guest = some guest)
    (write : NodeWrite mig cluster node st wanted) : Booked mig guest.core (cluster.gpus.push node wanted) := by
  obtain ⟨nodes, reserved, ended, unnamed⟩ := booked
  -- a release leaves nothing on its node
  have clears : ∀ cleared, cleared = st.clear (allocatedTo mig) →
      Booked mig guest.core (cluster.gpus.push node cleared) := by
    intro cleared equal
    have fewer : ∀ other address, address ∈ recordsFor (cluster.gpus.push node cleared) other (allocatedTo mig) →
        address ∈ recordsFor cluster.gpus other (allocatedTo mig) := by
      intro other address held
      rw [recordsFor_push] at held
      split at held
      · rw [equal, existing_clear st (allocatedTo_ne_empty mig)] at held
        cases held
      · exact held
    refine ⟨fun other address held => nodes other address (fewer other address held),
      fun address held => reserved address (fewer _ address held),
      fun isOver address held => ended isOver address (fewer _ address held), ?_⟩
    refine List.eq_nil_iff_forall_not_mem.mpr fun address held => ?_
    have before := fewer "" address held
    rw [unnamed] at before
    cases before
  cases write with
  | leave other phase own => exact clears _ rfl
  | release target unused => exact clears _ rfl
  | reserve target phase vfio =>
    refine ⟨?_, fun _ _ => .inr (vfio guest present), ?_, ?_⟩
    · intro other address held
      by_cases same : other = mig.target
      · exact .inr same
      · rw [recordsFor_push, if_neg (target ▸ same)] at held
        exact nodes other address held
    · intro isOver
      rcases phase with preparing | copying
      · rw [preparing] at isOver
        cases isOver
      · rw [copying] at isOver
        cases isOver
    · rw [recordsFor_push, if_neg (target ▸ offline.placed.symm)]
      exact unnamed

theorem booked_write (booked : Booked mig base.core w.cluster.gpus) (write : GuestWrite mig w base wanted) :
    Booked mig wanted.core w.cluster.gpus := by
  obtain ⟨nodes, reserved, ended, unnamed⟩ := booked
  -- no write of the guest is to its GPUs
  cases write <;> exact ⟨nodes, reserved, ended, unnamed⟩

theorem booked : Unbroken (fun w => w.hurt = false) Booked where
  earlier _ hurt whole := Bool.eq_false_iff.mpr fun set => Bool.eq_false_iff.mp whole (hurt set)
  quiet := booked_quiet
  status whole inv sheltered there present write phase alike booked :=
    booked_status booked there present inv (sheltered.resolve_left (by simp [whole])) write phase alike
  guest _ _ _ _ _ write booked := booked_write booked write
  stamp stamp booked := booked_stamp _ booked stamp
  node inv there present _ write booked := booked_node _ (inv _ there).1 booked present write

end Booked

/-- As long as no call has failed around an exposed reservation, an offline migration that has ended, or lets its
object go, has left no record of its guest on a node whose GPUs the guest does not have. -/
theorem ended_migration_strands_no_gpu {w : Traced} (new : NewOffline w.cluster)
    (recorded : ∀ mig guest, w.cluster.migration = some mig → w.cluster.guest = some guest →
      recordsFor w.cluster.gpus "" (allocatedTo mig) = [] ∧
      ∀ node address, address ∈ recordsFor w.cluster.gpus node (allocatedTo mig) → guest.gpusOn node)
    {s : Loops Unit Traced Op Op.Res Err} (reach : LoopsReach traced offlineSetting w s) (whole : s.world.hurt = false)
    {mig : SwiftMigration} {guest : SwiftGuest} (there : s.world.cluster.migration = some mig)
    (present : s.world.cluster.guest = some guest)
    (isOver : isTerminalPhase mig.status.phase = true ∨ s.pending () = some (.patchFinalizer false)) :
    ∀ node address, address ∈ recordsFor s.world.cluster.gpus node (allocatedTo mig) → guest.gpusOn node := by
  have start : Sheltered w := by
    refine .inr (Bool.eq_false_iff.mpr fun lies => ?_)
    obtain ⟨mig, there, guest, present, -, -, away, held⟩ := exposed_iff.mp lies
    obtain ⟨address, member⟩ := List.exists_mem_of_ne_nil _ held
    exact away ((recorded mig guest there present).2 _ address member)
  have inv := new.inv w.early w.hurt
  have booked := booked.reached inv start (fun _ mig guest there present => by
    obtain ⟨unnamed, only⟩ := recorded mig guest there present
    exact ⟨fun node address held => .inl (only node address held), fun address held => .inl (only _ address held),
      fun _ address held => only _ address held, unnamed⟩) reach whole mig guest there present
  intro node address held
  rcases booked.nodes node address held with on | target
  · exact on
  subst target
  rcases isOver with terminal | pending
  · exact booked.ended terminal address held
  · have sound := restSound_reach resting_offline inv (fun _ => start) reach
    obtain ⟨guard, covered⟩ := sound.pre resting_offline.toCompatible pending mig there
    rcases guard with terminal | unmarked
    · exact booked.ended terminal address held
    · have covered : exposed s.world.cluster = false := (covered rfl).resolve_left (by simp [whole])
      exact booked.unmarked there present (unmarked guest present) covered address held

/-! ## Runs -/

private def heeding (w : World) : Op → Choice → Bool
  | .gpu (.get name), c => c.gpu.fault = none &&
      c.gpu.version = if w.gpus.versions name = [] then none else some ((w.gpus.versions name).length - 1)
  | .gpu _, c => c.gpu.fault = none
  | .check .autoLive, c => Check.autoLive.verdict c.verdict ≠ .pass
  | _, _ => true

private theorem attentive_of_heeding {w : World} {o : Op} {c : Choice} (heeds : heeding w o c = true) :
    attentive w o c := by
  cases o with
  | gpu g =>
    cases g with
    | get name => simpa [heeding, attentive] using heeds
    | _ => simpa [heeding, attentive] using heeds
  | check what =>
    cases what with
    | autoLive => simpa [heeding, attentive] using heeds
    | _ => trivial
  | _ => trivial

private def offlineScript : Script Unit Choice Traced Op Op.Res Err Bool Empty where
  engine := tracedEngine
  calls := reconcile
  event event _ := event.elim
  check _ w o c := heeding w.cluster o c
  pids := [()]

private theorem offlineScript_fits : offlineScript.Fits offlineSetting fun _ w o c => attentive w.cluster o c where
  passes _ _ _ _ := attentive_of_heeding
  offers _ mtls _ := ⟨mtls, rfl⟩
  env event := event.elim

def oneGPU (address id : String) : GPU.SwiftGPUNodeStatus where
  phase := .ready
  gpuCount := 1
  freeGPUs := if id = "" then 1 else 0
  gpuModel := "L40S"
  gpuVendor := "NVIDIA"
  vfioReady := true
  gpus := [{
    index := 0, pciAddress := address, vendor := "NVIDIA", model := "L40S", deviceID := "10de:26b9", numaNode := 0,
    iommuGroup := 0, driver := "vfio-pci", barSizes := [], allocated := id ≠ "", allocatedTo := id }]
  fabricManager := none

def onNode (policy : RunPolicy) : World where
  migration := some { (default : SwiftMigration) with
    namespace_ := "ns", name := "m", uid := "abcdef", guestRef := "vm", target := "b", specMode := .offline }
  guest := some { (default : SwiftGuest) with
    uid := "uid-vm", migrationEnabled := true, runPolicy := policy, gpuProfileRef := some "one"
    gpu := some ⟨["0000:17:00.0"], -1, [0], "", "a"⟩ }
  pods _ := none
  profiles _ := some ⟨1, "", .isolated, none⟩
  gpus := ⟨fun name =>
    if name = "a" then [oneGPU "0000:17:00.0" "ns/vm"] else if name = "b" then [oneGPU "0000:65:00.0" ""] else []⟩

private theorem onNode_new (policy : RunPolicy) : NewOffline (onNode policy) where
  offline := by
    intro mig here
    cases here
    exact ⟨⟨by decide, by decide, by decide, by decide, .inl rfl, by decide⟩, rfl⟩
  unmarked := by
    intro mig guest here there
    cases here
    cases there
    cases policy <;> decide

private theorem onNode_recorded (policy : RunPolicy) : ∀ mig guest, (onNode policy).migration = some mig →
    (onNode policy).guest = some guest → recordsFor (onNode policy).gpus "" (allocatedTo mig) = [] ∧
    ∀ node address, address ∈ recordsFor (onNode policy).gpus node (allocatedTo mig) → guest.gpusOn node := by
  intro mig guest here there
  cases here
  cases there
  refine ⟨by cases policy <;> decide, ?_⟩
  intro node address held
  by_cases a : node = "a"
  · subst a
    rfl
  by_cases b : node = "b"
  · subst b
    have none : recordsFor (onNode policy).gpus "b" "ns/vm" = [] := by cases policy <;> decide
    cases held
  · have none : (onNode policy).gpus.versions node = [] := by simp [onNode, a, b]
    rw [recordsFor, none] at held
    cases held

private theorem onNode_sheltered (policy : RunPolicy) : Sheltered ⟨onNode policy, false, false⟩ := by
  refine .inr ?_
  cases policy <;> decide

private def offlinePass (calls : List Choice) : List (LoopMove Unit Choice Bool Empty) :=
  .start () false :: calls.map (.op ()) ++ [.finish ()]

private def answering : Choice := {}

private def answered (n : Nat) : List Choice := List.replicate n answering

private def reading (version : Nat) : Choice := { gpu := { version := some version } }

private def isOver : Choice := { tick := true }

private def failing : Choice := { fault := some (.api, false) }

private def validated : List (LoopMove Unit Choice Bool Empty) := offlinePass (answered 3) ++ offlinePass (answered 8)

private def claimed : List (LoopMove Unit Choice Bool Empty) :=
  validated ++ offlinePass (answered 4 ++ [reading 0] ++ answered 5)

private def expires : List (LoopMove Unit Choice Bool Empty) :=
  offlinePass ([answering, isOver] ++ answered 6 ++ [reading 1] ++ answered 2)

private def Reaches (policy : RunPolicy) (Q : Traced → SwiftMigration → SwiftGuest → Prop) : Prop :=
  ∃ s, LoopsReach traced offlineSetting ⟨onNode policy, false, false⟩ s ∧
    ∃ mig ∈ s.world.cluster.migration, ∃ guest ∈ s.world.cluster.guest, Q s.world mig guest

private def sourceGPU : GPUStatus := ⟨["0000:17:00.0"], -1, [0], "", "a"⟩

private def targetGPU : GPUStatus := ⟨["0000:65:00.0"], -1, [0], "", "b"⟩

private theorem timeout_reached : Reaches .running fun w mig _ => mig.status.phase = .failed ∧ w.hurt = false :=
  exists_of_play offlineScript_fits (claimed ++ expires) (by decide +kernel)

theorem offline_keeps_run_policy_at_timeout :
    ∃ s mig guest, LoopsReach traced offlineSetting ⟨onNode .running, false, false⟩ s ∧
      s.world.cluster.migration = some mig ∧ s.world.cluster.guest = some guest ∧ mig.status.phase = .failed ∧
      guest.runPolicy = .running := by
  obtain ⟨s, reach, mig, here, guest, there, phase, -⟩ := timeout_reached
  refine ⟨s, mig, guest, reach, here, there, phase, ?_⟩
  refine offline_keeps_run_policy (onNode_new .running) (onNode_sheltered .running) ?_ reach here there (.inl ?_)
  · intro mig guest here there
    cases here
    cases there
    decide
  · rw [phase]
    rfl

/-- A guest whose policy is `RestartOnFailure` is left with `Running`. -/
theorem offline_replaces_restart_policy :
    ∃ w s mig old guest, NewOffline w ∧ Sheltered ⟨w, false, false⟩ ∧ w.guest = some old ∧
      old.runPolicy = .restartOnFailure ∧ LoopsReach traced offlineSetting ⟨w, false, false⟩ s ∧
      s.world.cluster.migration = some mig ∧ s.world.cluster.guest = some guest ∧
      isTerminalPhase mig.status.phase = true ∧ guest.runPolicy = .running := by
  have reached : Reaches .restartOnFailure fun _ mig guest => mig.status.phase = .failed ∧ guest.runPolicy = .running :=
    exists_of_play offlineScript_fits (claimed ++ expires) (by decide +kernel)
  obtain ⟨s, reach, mig, here, guest, there, phase, policy⟩ := reached
  refine ⟨_, s, mig, _, guest, onNode_new _, onNode_sheltered _, rfl, rfl, reach, here, there, ?_, policy⟩
  rw [phase]
  rfl

theorem running_guest_owns_gpus_of_target :
    ∃ s mig guest gpu, LoopsReach traced offlineSetting ⟨onNode .running, false, false⟩ s ∧
      s.world.cluster.migration = some mig ∧ s.world.cluster.guest = some guest ∧ guest.runPolicy = .running ∧
      guest.gpu = some gpu ∧ gpu.nodeName = "b" ∧
      ∀ address ∈ gpu.devices, address ∈ recordsFor s.world.cluster.gpus gpu.nodeName (allocatedTo mig) := by
  have reached : Reaches .running fun w _ guest =>
      guest.runPolicy = .running ∧ guest.gpu = some targetGPU ∧ w.early = false :=
    exists_of_play offlineScript_fits (claimed ++ offlinePass (answered 4 ++ [reading 1, reading 0] ++ answered 5))
      (by decide +kernel)
  obtain ⟨s, reach, mig, here, guest, there, policy, stamped, calm⟩ := reached
  refine ⟨s, mig, guest, targetGPU, reach, here, there, policy, stamped, rfl, ?_⟩
  refine running_guest_owns_gpus (onNode_new .running) (onNode_sheltered .running) (by decide) reach calm here there ?_
    stamped
  rw [policy]
  nofun

/-- The source's GPUs are released, the stamp fails, and the time runs out: the guest is to run again, and its GPU
is recorded for nobody. -/
theorem restored_guest_lacks_gpus :
    ∃ w s mig guest gpu, NewOffline w ∧ Sheltered ⟨w, false, false⟩ ∧ unowned w = false ∧
      LoopsReach traced offlineSetting ⟨w, false, false⟩ s ∧ s.world.cluster.migration = some mig ∧
      s.world.cluster.guest = some guest ∧ guest.runPolicy = .running ∧ guest.gpu = some gpu ∧
      ∃ address ∈ gpu.devices, address ∉ recordsFor s.world.cluster.gpus gpu.nodeName (allocatedTo mig) := by
  have reached : Reaches .running fun w mig guest => guest.runPolicy = .running ∧ guest.gpu = some sourceGPU ∧
      recordsFor w.cluster.gpus "a" (allocatedTo mig) = [] :=
    exists_of_play offlineScript_fits
      (claimed ++ offlinePass (answered 4 ++ [reading 1, reading 0, answering, failing]) ++ expires) (by decide +kernel)
  obtain ⟨s, reach, mig, here, guest, there, policy, stamped, none⟩ := reached
  refine ⟨_, s, mig, guest, sourceGPU, onNode_new _, onNode_sheltered _, by decide, reach, here, there, policy, stamped,
    "0000:17:00.0", by decide, ?_⟩
  rw [show sourceGPU.nodeName = "a" from rfl, none]
  nofun

theorem ended_migration_strands_no_gpu_at_timeout :
    ∃ s mig guest, LoopsReach traced offlineSetting ⟨onNode .running, false, false⟩ s ∧
      s.world.cluster.migration = some mig ∧ s.world.cluster.guest = some guest ∧ mig.status.phase = .failed ∧
      ∀ node address, address ∈ recordsFor s.world.cluster.gpus node (allocatedTo mig) → guest.gpusOn node := by
  obtain ⟨s, reach, mig, here, guest, there, phase, whole⟩ := timeout_reached
  refine ⟨s, mig, guest, reach, here, there, phase, ?_⟩
  refine ended_migration_strands_no_gpu (onNode_new .running) (onNode_recorded .running) reach whole here there (.inl ?_)
  rw [phase]
  rfl

/-- The reservation is made, the claim fails, and the time runs out: the guest does not carry the mark, and the
reservation stays. -/
theorem failed_migration_strands_gpu :
    ∃ w s mig guest, NewOffline w ∧ (∀ mig guest, w.migration = some mig → w.guest = some guest →
        recordsFor w.gpus "" (allocatedTo mig) = [] ∧
        ∀ node address, address ∈ recordsFor w.gpus node (allocatedTo mig) → guest.gpusOn node) ∧
      LoopsReach traced offlineSetting ⟨w, false, false⟩ s ∧ s.world.cluster.migration = some mig ∧
      s.world.cluster.guest = some guest ∧ mig.status.phase = .failed ∧
      ∃ node address, address ∈ recordsFor s.world.cluster.gpus node (allocatedTo mig) ∧ ¬ guest.gpusOn node := by
  have reached : Reaches .running fun w mig guest => mig.status.phase = .failed ∧ guest.gpu = some sourceGPU ∧
      "0000:65:00.0" ∈ recordsFor w.cluster.gpus "b" (allocatedTo mig) :=
    exists_of_play offlineScript_fits (validated ++ offlinePass (answered 4 ++ [reading 0, answering, failing]) ++
      offlinePass ([answering, isOver] ++ answered 5)) (by decide +kernel)
  obtain ⟨s, reach, mig, here, guest, there, phase, stamped, held⟩ := reached
  refine ⟨_, s, mig, guest, onNode_new _, onNode_recorded _, reach, here, there, phase, "b", "0000:65:00.0", held, ?_⟩
  rw [SwiftGuest.gpusOn, stamped]
  decide

end KubeSwift.Migration
