import KubeSwift.ThinPool.Ownership

/-! # The devices a call makes are on record

Making a device in the pool and mapping it are two commands reported as one error, after which the id is forgotten. -/

namespace KubeSwift.ThinPool
open Program

def Op.command : Op → Bool
  | .createThin _ _ | .createSnap _ _ _ | .delete _ _ => true
  | o => o.mapping

/-- The pool's commands fail, with or without effect, and nothing else does. -/
def commandsFail : Machine Pid (World × Log) Op Op.Res Err :=
  engine.logged.machine (fun _ _ o c => c.fault = none ∨ o.command = true) (fun _ _ => False)

def Op.making : Op → Option Id
  | .createThin id _ | .createSnap id _ _ => some id
  | _ => none

def Op.builds : Op → Bool
  | .createThin _ _ | .createSnap _ _ _ | .info | .create _ _ _ | .mknodes _ => true
  | _ => false

def made (e : Entry Choice World Op) : Option Id :=
  e.op.making.filter fun id =>
    (e.world.pool id).isNone && (World.exec 0 e.choice e.world e.op).any fun out => (out.1.pool id).isSome

def created (log : Log) : List Id := log.filterMap made

def dropped {α : Type} (drops : Err → Bool) : Except Err α → Bool
  | .error e => drops e
  | .ok _ => false

/-- After a device was made, a command that makes or maps one failed with an error for which the id is dropped. -/
def spoiled (drops : Err → Bool) : Log → Bool
  | [] => false
  | e :: before => (e.op.builds && (World.exec 0 e.choice e.world e.op).any (fun out => dropped drops out.2) &&
      !(created (e :: before)).isEmpty) || spoiled drops before

/-- Every device made and still there is the one the registry names. -/
def Registered (ow : Owner) (s : World × Log) : Prop :=
  ∀ i ∈ created s.2, (s.1.pool i).isSome → s.1.idOf ow = some i

def World.counter (w : World) : Nat := w.registry.nextID

/-- The counter of ids does not wrap within `n` more. -/
def Below (ow : Owner) (n : Nat) (w : World) : Prop :=
  n + w.counter < idLimit ∧ ∀ id : Nat, w.idOf ow = some id → n + id + 1 < idLimit

section States

variable (low : Prop) (drops : Err → Bool) (ow : Owner)

def Quiet (n : Nat) (s : World × Log) : Prop :=
  created s.2 = [] ∧ spoiled drops s.2 = false ∧ (low → Below ow n s.1)

def Retains (n : Nat) (id : Id) (s : World × Log) : Prop :=
  created s.2 = [id] ∧ (s.1.pool id).isSome ∧ spoiled drops s.2 = false ∧ (low → Below ow n s.1)

def Caught (n : Nat) (id : Id) (s : World × Log) : Prop :=
  spoiled drops s.2 = true ∧ (low → Below ow n s.1 ∧ id ∈ created s.2 ∧ (s.1.pool id).isSome)

def Lost (n : Nat) (s : World × Log) : Prop :=
  spoiled drops s.2 = true ∧ (low → Below ow n s.1 ∧ ∃ i ∈ created s.2, (s.1.pool i).isSome ∧ s.1.idOf ow ≠ some i ∧
    i < s.1.counter)

def Loop (n : Nat) (s : World × Log) : Prop := Quiet low drops ow n s ∨ Lost low drops ow n s

def Due (n : Nat) (id : Id) (s : World × Log) : Prop := Loop low drops ow n s ∧ s.1.idOf ow = some id

def Settles {α : Type} (n : Nat) (id : Id) (r : Except Err α) (s : World × Log) : Prop :=
  s.1.idOf ow = some id ∧
    (Loop low drops ow n s ∨ if dropped drops r then Caught low drops ow n id s else Retains low drops ow n id s)

/-- The id is no longer named; a device made under it is lost. -/
def Forgotten (n id : Nat) (s : World × Log) : Prop :=
  (low → n + id + 1 < idLimit) ∧ (Loop low drops ow n s ∨ Caught low drops ow n id s ∧ s.1.idOf ow = none)

def Done (s : World × Log) : Prop :=
  (spoiled drops s.2 = false → Registered ow s) ∧ (low → Registered ow s → spoiled drops s.2 = false)

end States

variable {low : Prop} {drops : Err → Bool} {ow : Owner} {m n : Nat} {id : Id} {w w' : World} {log : Log} {o : Op}
  {c : Choice} {s : World × Log} {α : Type}

theorem Loop.done (loop : Loop low drops ow n s) : Done low drops ow s := by
  rcases loop with ⟨none, clean, -⟩ | ⟨spoilt, facts⟩
  · exact ⟨fun _ => by simp [Registered, none], fun _ _ => clean⟩
  · refine ⟨fun clean => by simp [clean] at spoilt, fun here recorded => ?_⟩
    obtain ⟨-, i, listed, present, unnamed, -⟩ := facts here
    exact absurd (recorded i listed present) unnamed

theorem Forgotten.done (forgotten : Forgotten low drops ow n id s) : Done low drops ow s := by
  rcases forgotten.2 with loop | ⟨⟨spoilt, facts⟩, unnamed⟩
  · exact loop.done
  · refine ⟨fun clean => by simp [clean] at spoilt, fun here recorded => ?_⟩
    obtain ⟨-, listed, present⟩ := facts here
    cases unnamed.symm.trans (recorded id listed present)

theorem Settles.done {r : Except Err α} (settles : Settles low drops ow n id r s) (kept : dropped drops r = false) :
    Done low drops ow s := by
  obtain ⟨named, loop | held⟩ := settles
  · exact loop.done
  · rw [kept, if_neg Bool.false_ne_true] at held
    obtain ⟨one, -, clean, -⟩ := held
    exact ⟨fun _ => by simp [Registered, one, named], fun _ _ => clean⟩

/-! ### One operation -/

theorem created_other (other : o.making = none) : created (⟨w, o, c⟩ :: log) = created log := by
  simp [created, made, other]

theorem spoiled_of (spoilt : spoiled drops log = true) (e : Entry Choice World Op) : spoiled drops (e :: log) = true := by
  simp [spoiled, spoilt]

theorem spoiled_unbuilt (other : o.builds = false) : spoiled drops (⟨w, o, c⟩ :: log) = spoiled drops log := by
  simp [spoiled, other]

theorem spoiled_empty {e : Entry Choice World Op} (none : created (e :: log) = []) :
    spoiled drops (e :: log) = spoiled drops log := by
  simp [spoiled, none]

theorem spoiled_built {r : Except Err o.Res} (builds : o.builds = true) (action : World.exec 0 c w o = some (w', r))
    (some_ : created (⟨w, o, c⟩ :: log) ≠ []) :
    spoiled drops (⟨w, o, c⟩ :: log) = (dropped drops r || spoiled drops log) := by
  simp [spoiled, builds, action, List.isEmpty_eq_false_iff.mpr some_]

theorem Loop.next (loop : Loop low drops ow m (w, log)) (other : o.making = none)
    (kept : low → Below ow m w → Below ow n w' ∧ ∀ i, (w.pool i).isSome → w.idOf ow ≠ some i → i < w.counter →
      (w'.pool i).isSome ∧ w'.idOf ow ≠ some i ∧ i < w'.counter) :
    Loop low drops ow n (w', ⟨w, o, c⟩ :: log) := by
  rcases loop with ⟨none, clean, below⟩ | ⟨spoilt, facts⟩
  · have still : created (⟨w, o, c⟩ :: log) = [] := (created_other other).trans none
    exact .inl ⟨still, (spoiled_empty still).trans clean, fun here => (kept here (below here)).1⟩
  · refine .inr ⟨spoiled_of spoilt _, fun here => ?_⟩
    obtain ⟨below, i, listed, present, unnamed, old⟩ := facts here
    obtain ⟨below', moves⟩ := kept here below
    exact ⟨below', i, (created_other other).symm ▸ listed, moves i present unnamed old⟩

abbrev Leaks (P : World × Log → Prop) (m : Act α) (Q : Except Err α → World × Log → Prop) : Prop :=
  Leaves commandsFail .plain 0 P m Q

theorem leaks_issue {P : World × Log → Prop} {Q : Except Err o.Res → World × Log → Prop}
    (after : ∀ w log c w' r, P (w, log) → (o.command = false → c.fault = none) → World.exec 0 c w o = some (w', r) →
      Q r (w', ⟨w, o, c⟩ :: log)) : Leaks P (issue o) Q := by
  refine fun s _ here => (wp_logged o Q s).mpr fun c w' r may ran => after s.1 s.2 c w' r here ?_ ran
  intro other
  exact may.resolve_right (by simp [other])

theorem World.perform_present {v : o.Res} (ordinary : o.ordinary) (stays : ∀ id owner, o ≠ .delete id owner) {i : Id}
    (done : w.perform 0 c o = .ok (w', v)) (present : (w.pool i).isSome) : (w'.pool i).isSome := by
  cases perform_does done with
  | createThin | createSnap => cases ordinary
  | delete => exact absurd rfl (stays _ _)
  | @writeAt fd | @sync fd =>
    by_cases same : i = fd
    · simp [same]
    · simpa [same] using present
  | _ => exact present

theorem leaks_ordinary (ordinary : o.ordinary = true) (stays : ∀ id owner, o ≠ .delete id owner) :
    Leaks (Loop low drops ow n) (issue o) fun _ => Loop low drops ow n := by
  have other : o.making = none := by cases o <;> first | rfl | cases ordinary
  refine leaks_issue fun w log c w' r loop _ ran => ?_
  have still : ∀ v, w.perform 0 c o = .ok (w', v) → Loop low drops ow n (w', ⟨w, o, c⟩ :: log) := by
    intro v took
    obtain ⟨counter, names, -⟩ := World.perform_ordinary ordinary took
    replace counter : w'.counter = w.counter := counter
    refine loop.next other fun _ below => ⟨⟨counter ▸ below.1, fun id named => below.2 id (names ow id named)⟩, ?_⟩
    intro i present unnamed old
    exact ⟨World.perform_present ordinary stays took present, unnamed ∘ names ow i, counter ▸ old⟩
  rcases World.exec_cases ran with ⟨v, rfl, took⟩ | ⟨e, rfl, rfl | ⟨v, took⟩⟩
  · exact still v took
  · exact loop.next other fun _ below => ⟨below, fun _ present unnamed old => ⟨present, unnamed, old⟩⟩
  · exact still v took

theorem World.exec_mapping {r : Except Err o.Res} (mapping : o.mapping = true) (ran : World.exec 0 c w o = some (w', r)) :
    w'.file = w.file ∧ w'.pool = w.pool := by
  rcases World.exec_cases ran with ⟨v, rfl, took⟩ | ⟨e, rfl, rfl | ⟨v, took⟩⟩
  · exact World.perform_mapping mapping took
  · exact ⟨rfl, rfl⟩
  · exact World.perform_mapping mapping took

theorem World.counter_eq (file : w'.file = w.file) : w'.counter = w.counter := by
  rw [counter, registry, file, counter, registry]

theorem Below.frame (file : w'.file = w.file) (below : Below ow n w) : Below ow n w' := by
  rwa [Below, World.counter_eq file, World.idOf_eq file]

theorem Loop.frame (loop : Loop low drops ow n (w, log)) (other : o.making = none) (file : w'.file = w.file)
    (pool : w'.pool = w.pool) : Loop low drops ow n (w', ⟨w, o, c⟩ :: log) := by
  refine loop.next other fun _ below => ⟨below.frame file, fun i present unnamed old => ?_⟩
  rw [pool, World.idOf_eq file, World.counter_eq file]
  exact ⟨present, unnamed, old⟩

theorem Op.mapping_of_mapsAt {name : DevName} (maps : o.mapsAt name = true) : o.mapping = true := by
  cases o <;> first | rfl | cases maps

theorem leaks_due (mapping : o.mapping = true) : Leaks (Due low drops ow n id) (issue o) fun _ => Due low drops ow n id := by
  have other : o.making = none := by cases o <;> first | rfl | cases mapping
  refine leaks_issue fun w log c w' r ⟨loop, named⟩ _ ran => ?_
  obtain ⟨file, pool⟩ := World.exec_mapping mapping ran
  exact ⟨loop.frame other file pool, (World.idOf_eq file ow).trans named⟩

theorem leaks_delete {owner : Owner} :
    Leaks (Due low drops ow n id) (issue (.delete id owner)) fun _ => Due low drops ow n id := by
  refine leaks_issue fun w log c w' r ⟨loop, named⟩ _ ran => ?_
  have deleted : ∀ v, w.perform 0 c (.delete id owner) = .ok (w', v) → Due low drops ow n id (w', ⟨w, .delete id owner, c⟩ :: log) := by
    intro v took
    simp only [World.perform] at took
    split at took <;> try split at took
    all_goals cases took
    refine ⟨loop.next rfl fun _ below => ⟨below, fun i present unnamed old => ⟨?_, unnamed, old⟩⟩, named⟩
    have apart : i ≠ id := fun same => unnamed (same ▸ named)
    simpa [apart] using present
  rcases World.exec_cases ran with ⟨v, rfl, took⟩ | ⟨e, rfl, rfl | ⟨v, took⟩⟩
  · exact deleted v took
  · exact ⟨loop.frame rfl rfl rfl, named⟩
  · exact deleted v took

theorem settles_maps (mapping : o.mapping = true) (builds : o.builds = true) :
    Leaks (Settles low drops ow n id (.ok () : Except Err Unit)) (issue o) (Settles low drops ow n id) := by
  have other : o.making = none := by cases o <;> first | rfl | cases mapping
  refine leaks_issue fun w log c w' r ⟨named, held⟩ _ ran => ?_
  obtain ⟨file, pool⟩ := World.exec_mapping mapping ran
  refine ⟨(World.idOf_eq file ow).trans named, held.imp (fun loop => loop.frame other file pool) ?_⟩
  rintro ⟨one, present, clean, below⟩
  have still : created (⟨w, o, c⟩ :: log) = [id] := (created_other other).trans one
  have spoils : spoiled drops (⟨w, o, c⟩ :: log) = dropped drops r := by
    rw [spoiled_built builds ran (by simp [still]), clean, Bool.or_false]
  have below' : low → Below ow n w' := fun here => (below here).frame file
  split
  · next lost => exact ⟨spoils.trans lost, fun here => ⟨below' here, by simp [still], pool ▸ present⟩⟩
  · next fine => exact ⟨still, pool ▸ present, spoils.trans (by simpa using fine), below'⟩

theorem settles_activate {name : DevName} {sectors : Nat} :
    Leaks (Settles low drops ow n id (.ok () : Except Err Unit)) (activate name id sectors) (Settles low drops ow n id) :=
  leaves_bind (settles_maps (o := .info) rfl rfl) (fun _ _ here => here) fun _ =>
    leaves_bind (settles_maps (o := .create name id sectors) rfl rfl) (fun _ _ here => here) fun _ =>
      settles_maps (o := .mknodes name) rfl rfl

section Make

variable (making : o.making = some id) {r : Except Err o.Res} (ran : World.exec 0 c w o = some (w', r))
  (due : Due low drops ow n id (w, log))
include making ran due

theorem settles_made {d : Device} (free : w.pool id = none) (file : w'.file = w.file)
    (pool : w'.pool = Function.update w.pool id (some d)) : Settles low drops ow n id r (w', ⟨w, o, c⟩ :: log) := by
  obtain ⟨loop, named⟩ := due
  have builds : o.builds = true := by cases o <;> first | rfl | cases making
  have new : created (⟨w, o, c⟩ :: log) = id :: created log := by
    exact List.filterMap_cons_some (by simp [made, making, free, ran, pool])
  refine ⟨(World.idOf_eq file ow).trans named, ?_⟩
  rcases loop with ⟨none, clean, below⟩ | ⟨spoilt, facts⟩
  · have one : created (⟨w, o, c⟩ :: log) = [id] := by rw [new, none]
    have spoils : spoiled drops (⟨w, o, c⟩ :: log) = dropped drops r := by
      rw [spoiled_built builds ran (by simp [new]), clean, Bool.or_false]
    have below' : low → Below ow n w' := fun here => (below here).frame file
    right
    split
    · next lost => exact ⟨spoils.trans lost, fun here => ⟨below' here, by simp [new], by simp [pool]⟩⟩
    · next fine => exact ⟨one, by simp [pool], spoils.trans (by simpa using fine), below'⟩
  · refine .inl (.inr ⟨spoiled_of spoilt _, fun here => ?_⟩)
    obtain ⟨below, i, listed, present, unnamed, old⟩ := facts here
    have apart : i ≠ id := fun same => unnamed (same ▸ named)
    refine ⟨below.frame file, i, new ▸ List.mem_cons_of_mem _ listed, by simpa [pool, apart] using present, ?_⟩
    rw [World.idOf_eq file, World.counter_eq file]
    exact ⟨unnamed, old⟩

theorem settles_unmade (same : w' = w) : Settles low drops ow n id r (w', ⟨w, o, c⟩ :: log) := by
  subst same
  have still : created (⟨w', o, c⟩ :: log) = created log := by
    simp [created, made, making, ran]
  refine ⟨due.2, .inl ?_⟩
  rcases due.1 with ⟨none, clean, below⟩ | ⟨spoilt, facts⟩
  · exact .inl ⟨still.trans none, (spoiled_empty (still.trans none)).trans clean, below⟩
  · exact .inr ⟨spoiled_of spoilt _, by rwa [still]⟩

end Make

theorem settles_make {name : DevName} {sectors : Nat} (making : o.making = some id)
    (does : ∀ (w : World) c w' a, w.perform 0 c o = .ok (w', a) → w.pool id = none ∧ w'.file = w.file ∧
      ∃ d, w'.pool = Function.update w.pool id (some d)) :
    Leaks (Due low drops ow n id) (issue o >>= fun _ => activate name id sectors) (Settles low drops ow n id) := by
  refine leaves_bind (R := Settles low drops ow n id) (leaks_issue fun w log c w' r due _ ran => ?_)
    (fun _ _ here => here) fun a => settles_activate
  have effect : ∀ v, w.perform 0 c o = .ok (w', v) → Settles low drops ow n id r (w', ⟨w, o, c⟩ :: log) := by
    intro v took
    obtain ⟨free, file, d, pool⟩ := does w c w' v took
    exact settles_made making ran due free file pool
  rcases World.exec_cases ran with ⟨v, rfl, took⟩ | ⟨e, rfl, same | ⟨v, took⟩⟩
  · exact effect v took
  · exact settles_unmade making ran due same
  · exact effect v took

/-! ### The registry -/

theorem World.loads (named : w.idOf ow = some id) : load w.file = .ok w.registry := by
  unfold registry
  cases loaded : load w.file with
  | ok st => rfl
  | error e => cases ow <;> simp [idOf, registry, loaded, RegistryState.fresh] at named

theorem leaks_allocate {r : RegOp} (answer : r.Res → Id × Bool) (allocates : ∀ (w : World) c w' a,
      w.perform 0 c (.registry r) = .ok (w', a) → w'.idOf ow = some (answer a).1 ∧ w'.pool = w.pool ∧
      (w.counter + 1 < idLimit → Allocated ow w w' (answer a).1 (answer a).2)) :
    Leaks (Loop low drops ow (n + 1)) (registry r)
      (Results (fun a => Due low drops ow n (answer a).1) (Done low drops ow)) := by
  refine leaks_issue fun w log c w' a loop fine ran => ?_
  rcases World.exec_faultless (fine rfl) ran with ⟨v, rfl, took⟩ | ⟨e, rfl, rfl, -⟩
  · obtain ⟨named, pool, allocated⟩ := allocates w c w' v took
    refine ⟨loop.next rfl fun _ below => ?_, named⟩
    have room : n + (w.counter + 1) < idLimit := by have := below.1; omega
    rcases allocated (by omega) with ⟨-, -, rfl⟩ | ⟨-, fresh, counter, -⟩
    · refine ⟨⟨by omega, fun id here => ?_⟩, fun _ present unnamed old => ⟨present, unnamed, old⟩⟩
      have := below.2 id here
      omega
    · replace counter : w'.counter = w.counter + 1 := counter
      have only : ∀ i, w'.idOf ow = some i → w.counter = i := fun i here =>
        fresh.symm.trans (Option.some.inj (named.symm.trans here))
      refine ⟨⟨counter ▸ room, fun id here => only id here ▸ room⟩, fun i present unnamed old =>
        ⟨pool ▸ present, fun here => Nat.ne_of_gt old (only i here), counter ▸ Nat.lt_succ_of_lt old⟩⟩
  · exact (loop.frame (o := .registry r) rfl rfl rfl).done

def Held (n : Nat) (id : Id) (low : Prop) (drops : Err → Bool) (ow : Owner) (s : World × Log) : Prop :=
  s.1.idOf ow = some id ∧ (Loop low drops ow n s ∨ Caught low drops ow n id s)

structure Forgets (ow : Owner) (r : RegOp) : Prop where
  ordinary : (Op.registry r).ordinary = true
  total : ∀ c st, ∃ out, r.mutate c st = .ok out
  gone : ∀ (w : World) c w' a, w.perform 0 c (.registry r) = .ok (w', a) → w'.idOf ow = none

theorem forgets_base (k : Key) : Forgets (.base k) (.forgetBase k) where
  ordinary := rfl
  total c st := by
    simp only [RegOp.mutate, RegistryState.forgetBase]
    split <;> exact ⟨_, rfl⟩
  gone _ _ _ _ took := congrArg BaseView.entry (World.perform_forgetBase took)

theorem forgets_guest (g : Key) : Forgets (.guest g) (.forget g) where
  ordinary := rfl
  total c st := by
    simp only [RegOp.mutate, RegistryState.forget]
    split <;> exact ⟨_, rfl⟩
  gone _ _ _ _ took := congrArg GuestView.entry (World.perform_forget took)

theorem leaks_forget {r : RegOp} (forgets : Forgets ow r) :
    Leaks (Held n id low drops ow) (registry r) (Results (fun _ => Forgotten low drops ow n id) fun _ => False) := by
  refine leaks_issue fun w log c w' a ⟨named, held⟩ fine ran => ?_
  rcases World.exec_faultless (fine rfl) ran with ⟨v, rfl, took⟩ | ⟨e, rfl, rfl, refused⟩
  · have unnamed := forgets.gone w c w' v took
    obtain ⟨counter, names, -⟩ := World.perform_ordinary forgets.ordinary took
    replace counter : w'.counter = w.counter := counter
    have present : ∀ i, (w.pool i).isSome → (w'.pool i).isSome := fun i =>
      World.perform_present forgets.ordinary (fun _ _ => Op.noConfusion) took
    have below' : Below ow n w → Below ow n w' := fun below => ⟨counter ▸ below.1, fun i here => by simp [unnamed] at here⟩
    rcases held with loop | ⟨spoilt, facts⟩
    · refine ⟨fun here => ?_, .inl (loop.next rfl fun _ below => ⟨below' below, fun i there _ old =>
        ⟨present i there, by simp [unnamed], counter ▸ old⟩⟩)⟩
      rcases loop with ⟨-, -, below⟩ | ⟨-, facts⟩
      · exact (below here).2 id named
      · exact (facts here).1.2 id named
    · refine ⟨fun here => (facts here).1.2 id named, .inr ⟨⟨spoiled_of spoilt _, fun here => ?_⟩, unnamed⟩⟩
      obtain ⟨below, listed, there⟩ := facts here
      exact ⟨below' below, (created_other (o := .registry r) rfl).symm ▸ listed, present id there⟩
  · obtain ⟨⟨changed, v⟩, mutated⟩ := forgets.total c w'.registry
    simp only [World.perform, World.withLock, World.loads named, mutated, bind, Except.bind] at refused
    split at refused <;> cases refused

theorem World.perform_advance {a : Unit} (done : w.perform 0 c (.registry (.advance id)) = .ok (w', a)) :
    w'.pool = w.pool ∧ (∀ ow, w'.idOf ow = w.idOf ow) ∧
      (w' = w ∧ id < w.counter ∨ w.counter ≤ id ∧ w'.counter = max ((id + 1) % idLimit) firstDeviceID) := by
  rcases withLock_cases done with ⟨rfl, answer⟩ | ⟨st, rfl, answer⟩
  · refine ⟨rfl, fun _ => rfl, .inl ⟨rfl, ?_⟩⟩
    simp only [RegOp.mutate, RegistryState.advance] at answer
    split at answer
    · assumption
    · cases answer
  · simp only [RegOp.mutate, RegistryState.advance] at answer
    split at answer <;> cases answer
    next behind =>
    refine ⟨rfl, fun ow => by cases ow <;> simp [idOf], .inr ⟨Nat.le_of_not_lt behind, ?_⟩⟩
    simp [counter]

theorem leaks_advance : Leaks (Forgotten low drops ow n id) (registry (.advance id))
    (Results (fun _ => Loop low drops ow n) (Done low drops ow)) := by
  refine leaks_issue fun w log c w' a ⟨bound, held⟩ fine ran => ?_
  rcases World.exec_faultless (fine rfl) ran with ⟨v, rfl, took⟩ | ⟨e, rfl, rfl, -⟩
  · obtain ⟨pool, names, counter⟩ := World.perform_advance took
    have counts : low → Below ow n w → Below ow n w' ∧ w.counter ≤ w'.counter ∧ id < w'.counter := by
      intro here below
      rcases counter with ⟨rfl, behind⟩ | ⟨behind, counter⟩
      · exact ⟨below, Nat.le_refl _, behind⟩
      · have room : n + (id + 1) < idLimit := bound here
        rw [Nat.mod_eq_of_lt (by omega), Nat.max_eq_left (show firstDeviceID ≤ id + 1 from Nat.le_add_left 1 id)] at counter
        rw [Below, counter, names ow]
        exact ⟨⟨room, below.2⟩, Nat.le_succ_of_le behind, Nat.lt_succ_self id⟩
    rcases held with loop | ⟨⟨spoilt, facts⟩, unnamed⟩
    · refine loop.next rfl fun here below => ⟨(counts here below).1, fun i present unnamed old => ?_⟩
      rw [pool, names ow]
      exact ⟨present, unnamed, Nat.lt_of_lt_of_le old (counts here below).2.1⟩
    · refine .inr ⟨spoiled_of spoilt _, fun here => ?_⟩
      obtain ⟨below, listed, present⟩ := facts here
      obtain ⟨below', -, old⟩ := counts here below
      exact ⟨below', id, listed, pool ▸ present, by simp [names ow, unnamed], old⟩
  · have still : Forgotten low drops ow n id (w', ⟨w', .registry (.advance id), c⟩ :: log) :=
      ⟨bound, held.imp (fun loop => loop.frame rfl rfl rfl) fun ⟨⟨spoilt, facts⟩, unnamed⟩ =>
        ⟨⟨spoiled_of spoilt _, facts⟩, unnamed⟩⟩
    exact still.done

theorem leaks_done (other : o.making = none) (unbuilt : o.builds = false)
    (keeps : ∀ (w : World) c w' v, w.perform 0 c o = .ok (w', v) → w'.pool = w.pool ∧ w'.idOf ow = w.idOf ow) :
    Leaks (Done low drops ow) (issue o) fun _ => Done low drops ow := by
  refine leaks_issue fun w log c w' r done _ ran => ?_
  have same : w'.pool = w.pool ∧ w'.idOf ow = w.idOf ow := by
    rcases World.exec_cases ran with ⟨v, rfl, took⟩ | ⟨e, rfl, rfl | ⟨v, took⟩⟩
    · exact keeps w c w' v took
    · exact ⟨rfl, rfl⟩
    · exact keeps w c w' v took
  rw [Done, spoiled_unbuilt unbuilt, Registered, created_other other, same.1, same.2]
  exact done

/-! ### The calls -/

section Calls

variable {k g : Key} {name : DevName} {sectors : Nat} {retry : Act α}

theorem Settles.held {r : Except Err α} (settles : Settles low drops ow n id r s) (lost : dropped drops r = true) :
    Held n id low drops ow s := by
  simpa [Settles, Held, lost] using settles

theorem leaks_skip {r : RegOp} (forgets : Forgets ow r) (again : Leaks (Loop low drops ow n) retry fun _ => Done low drops ow) :
    Leaks (Held n id low drops ow) (registry r >>= fun _ => registry (.advance id) >>= fun _ => retry)
      fun _ => Done low drops ow :=
  leaves_bind (leaks_forget forgets) (fun _ _ no => no.elim) fun _ =>
    leaves_bind leaks_advance (fun _ _ done => done) fun _ => again

theorem leaks_createBaseWithin (attempts : Nat) :
    Leaks (Loop low isFileExists (.base k) attempts) (createBaseWithin k name sectors attempts)
      fun _ => Done low isFileExists (.base k) := by
  induction attempts with
  | zero => exact leaves_fail fun _ loop => loop.done
  | succ attempts ih =>
    simp only [createBaseWithin, allocateBase]
    split
    · exact leaves_fail fun _ loop => loop.done
    refine leaves_bind (leaks_allocate id fun w c w' a took => ?_) (fun _ _ done => done) fun allocated => ?_
    · refine ⟨?_, ?_, fun room => World.allocated_base room took⟩ <;>
        rcases World.perform_allocateBase took with ⟨-, known, rfl⟩ | ⟨rfl, -, rfl⟩
      · exact known
      · simp [World.idOf]
      · rfl
      · rfl
    obtain ⟨id, fresh⟩ := allocated
    refine leaves_bind (R := fun _ => Due low isFileExists (.base k) attempts id) ?_ (fun _ _ due => due.1.done) fun _ => ?_
    · exact closed_leaves.ite (closed_leaves.pure ()) (closed_leaves.bind (closed_unmapIfActive closed_leaves
        fun o maps => leaks_due (Op.mapping_of_mapsAt maps)) fun _ => closed_deleteThin closed_leaves leaks_delete)
    refine leaves_attempt (settles_make rfl ?_) fun r => ?_
    · intro w c w' a took
      simp only [World.perform] at took
      split at took <;> cases took
      exact ⟨by assumption, rfl, _, rfl⟩
    cases r with
    | ok _ => exact leaves_pure fun _ settled => settled.done rfl
    | error e =>
      dsimp only
      split
      · next taken => exact leaves_pre (fun _ settled => settled.held taken) (leaks_skip (forgets_base k) ih)
      · next other => exact leaves_fail fun _ settled => settled.done (by simpa [dropped] using other)

theorem leaks_createGuestWithin (base : Id) (attempts : Nat) :
    Leaks (Loop low (fun _ => true) (.guest g) attempts) (createGuestWithin base g name sectors attempts)
      fun _ => Done low (fun _ => true) (.guest g) := by
  induction attempts with
  | zero => exact leaves_fail fun _ loop => loop.done
  | succ attempts ih =>
    simp only [createGuestWithin, allocateGuest]
    split
    · exact leaves_fail fun _ loop => loop.done
    refine leaves_bind (leaks_allocate id fun w c w' a took => ?_) (fun _ _ done => done) fun allocated => ?_
    · refine ⟨?_, ?_, fun room => World.allocated_guest room took⟩ <;>
        rcases World.perform_allocateGuest took with ⟨-, known, rfl⟩ | ⟨rfl, -, rfl⟩
      · exact known
      · simp [World.idOf]
      · rfl
      · rfl
    obtain ⟨id, fresh⟩ := allocated
    split
    · refine leaves_attempt (settles_make rfl ?_) fun r => ?_
      · intro w c w' a took
        simp only [World.perform] at took
        split at took <;> cases took
        exact ⟨by assumption, rfl, _, rfl⟩
      cases r with
      | ok _ =>
        refine leaves_pre (fun _ settled => settled.done rfl) (closed_leaves.bind (leaks_done rfl rfl ?_) fun _ => closed_leaves.pure _)
        intro w c w' a took
        refine ⟨?_, congrArg GuestView.entry (World.perform_markGuestCreated took).2⟩
        rcases World.withLock_cases took with ⟨rfl, -⟩ | ⟨st, rfl, -⟩ <;> rfl
      | error e =>
        refine leaves_pre (fun _ settled => settled.held rfl) ?_
        dsimp only
        split
        · exact leaks_skip (forgets_guest g) ih
        · exact leaves_bind (leaks_forget (forgets_guest g)) (fun _ _ no => no.elim) fun _ =>
            leaves_fail fun _ forgotten => forgotten.done
    · refine leaves_conseq (closed_leaves.bind (closed_activate closed_leaves fun o maps =>
        leaks_due (Op.mapping_of_mapsAt maps)) fun _ => closed_leaves.pure _) (fun _ _ due => due) fun _ _ due => due.1.done

theorem leaks_next {β : Type} {m : Act β} {f : β → Act α} (first : Leaks (Loop low drops ow n) m fun _ => Loop low drops ow n)
    (rest : ∀ a, Leaks (Loop low drops ow n) (f a) fun _ => Done low drops ow) :
    Leaks (Loop low drops ow n) (m >>= f) fun _ => Done low drops ow :=
  leaves_bind first (fun _ _ loop => loop.done) rest

theorem leaks_registry {r : RegOp} (ordinary : (Op.registry r).ordinary = true) :
    Leaks (Loop low drops ow n) (registry r) fun _ => Loop low drops ow n :=
  leaks_ordinary ordinary fun _ _ => Op.noConfusion

theorem leaks_ensureGuest (baseKey : Key) (sizeBytes : Nat) :
    Leaks (Loop low (fun _ => true) (.guest g) maxIDRetries) (ensureGuest baseKey g name sizeBytes)
      fun _ => Done low (fun _ => true) (.guest g) := by
  have creates : Leaks (Loop low (fun _ => true) (.guest g) maxIDRetries) (createGuest baseKey g name (bytesToSectors sizeBytes))
      fun _ => Done low (fun _ => true) (.guest g) := by
    have locked : Leaks (Loop low (fun _ => true) (.guest g) maxIDRetries)
        (createGuestLocked baseKey g name (bytesToSectors sizeBytes)) fun _ => Done low (fun _ => true) (.guest g) := by
      refine leaks_next (leaks_registry rfl) fun ready => ?_
      split
      · refine leaks_next (leaks_registry rfl) fun known => ?_
        cases known with
        | none => exact leaves_fail fun _ loop => loop.done
        | some base => exact leaks_createGuestWithin base _
      · exact leaves_fail fun _ loop => loop.done
    unfold createGuest
    split
    · exact locked
    · refine leaks_next (leaks_ordinary rfl fun _ _ => Op.noConfusion) fun _ => leaves_deferred locked fun r =>
        leaks_done rfl rfl ?_
      intro w c w' a took
      cases took
      exact ⟨rfl, rfl⟩
  have activates : ∀ id, Leaks (Loop low (fun _ => true) (.guest g) maxIDRetries)
      (activate name id (bytesToSectors sizeBytes) >>= fun _ => pure name) fun _ => Done low (fun _ => true) (.guest g) := by
    refine fun id => leaks_next (closed_activate closed_leaves fun o maps => ?_) fun _ => leaves_pure fun _ loop => loop.done
    cases o <;> first | exact leaks_ordinary rfl fun _ _ => Op.noConfusion | cases maps
  refine leaks_next (closed_active closed_leaves (leaks_ordinary rfl fun _ _ => Op.noConfusion)) fun found => ?_
  split
  · exact leaves_pure fun _ loop => loop.done
  refine leaks_next (leaks_registry rfl) fun known => ?_
  cases known with
  | none => exact creates
  | some id =>
    refine leaks_next (leaks_registry rfl) fun created => ?_
    split
    · exact activates id
    · exact leaks_next (leaks_registry rfl) fun _ => creates

end Calls

/-- A call records every device it made exactly if none of its commands that make or map a device failed once it had
made one: with `File exists` in `createBase`, with any error in `EnsureGuest`. -/
theorem made_devices_on_record {w w' : World} {log : Log} {issued : List ((World × Log) × Op)} :
    (∀ key name sectors r, Run commandsFail 0 (createBase key name sectors) (w, []) issued (w', log) (some r) →
      (spoiled isFileExists log = false → Registered (.base key) (w', log)) ∧
      (Below (.base key) maxIDRetries w → Registered (.base key) (w', log) → spoiled isFileExists log = false)) ∧
    (∀ baseKey guestKey name sizeBytes r,
      Run commandsFail 0 (ensureGuest baseKey guestKey name sizeBytes) (w, []) issued (w', log) (some r) →
      (spoiled (fun _ => true) log = false → Registered (.guest guestKey) (w', log)) ∧
      (Below (.guest guestKey) maxIDRetries w → Registered (.guest guestKey) (w', log) →
        spoiled (fun _ => true) log = false)) := by
  refine ⟨fun key name sectors r run => ?_, fun baseKey guestKey name sizeBytes r run => ?_⟩
  · exact run_plain run (leaks_createBaseWithin maxIDRetries (w, []) trivial (.inl ⟨rfl, rfl, fun low => low⟩))
  · exact run_plain run (leaks_ensureGuest _ _ (w, []) trivial (.inl ⟨rfl, rfl, fun low => low⟩))

private def answered (n : Nat) : List Choice := List.replicate n calm

private def withImage : World := (runCalmly 40 (.ensureBase "image" 1 1) emptyNode).1

private def ensuring (choices : List Choice) : (World × Log) × Option (Except Err DevName) :=
  drive engine.logged 0 choices (ensureGuest "image" "guest" (.guest "guest") 1) (withImage, [])

theorem made_devices_on_record_mapped :
    created (ensuring (answered 12)).1.2 = [2] ∧ Registered (.guest "guest") (ensuring (answered 12)).1 := by
  have along : Along engine.logged (fun _ _ o c => c.fault = none ∨ o.command = true) 0 (answered 12)
      (ensureGuest "image" "guest" (.guest "guest") 1) (withImage, []) := by decide
  obtain ⟨issued, run⟩ : ∃ issued, Run commandsFail 0 (ensureGuest "image" "guest" (.guest "guest") 1) (withImage, [])
      issued (ensuring (answered 12)).1 (some (.ok (.guest "guest"))) := run_ended along (by decide)
  exact ⟨by decide, (made_devices_on_record.2 _ _ _ _ _ run).1 (by decide)⟩

private def faulted : List Choice := answered 8 ++ { calm with fault := some (.command, false) } :: answered 2

/-- The snapshot is made, its mapping fails without effect, and the guest's id is forgotten. -/
theorem failed_mapping_leaks_snapshot : ∃ w w' log issued r,
    Run commandsFail 0 (ensureGuest "image" "guest" (.guest "guest") 1) (w, []) issued (w', log) (some r) ∧
    (∀ e ∈ log, ∀ err, e.choice.fault ≠ some (err, true)) ∧ ¬ Registered (.guest "guest") (w', log) := by
  have along : Along engine.logged (fun _ _ o c => c.fault = none ∨ o.command = true) 0
      faulted (ensureGuest "image" "guest" (.guest "guest") 1) (withImage, []) := by decide
  obtain ⟨issued, run⟩ := run_ended along (show (ensuring faulted).2 = some (.error .command) by decide)
  refine ⟨withImage, _, _, issued, _, run, ?_, fun recorded => ?_⟩
  · have without : ∀ e ∈ (ensuring faulted).1.2, (e.choice.fault.map Prod.snd) ≠ some true := by decide
    intro e there err effect
    exact without e there (by simp [effect])
  · have named := recorded 2 (by decide) (by decide)
    cases named.symm.trans (show (ensuring faulted).1.1.idOf (.guest "guest") = none by decide)

end KubeSwift.ThinPool
