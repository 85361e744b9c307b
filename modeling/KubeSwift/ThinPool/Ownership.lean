import KubeSwift.Program.Triples
import KubeSwift.ThinPool.History

/-! # Only a key's own device is deleted for it -/

namespace KubeSwift.ThinPool
open Program

def World.idOf (w : World) : Owner → Option Id
  | .base key => w.registry.bases.lookup key
  | .guest key => w.registry.guests.lookup key
  | .unknown => none

structure Ledger (w : World) : Prop where
  below : ∀ o i, w.idOf o = some i → i < w.registry.nextID
  distinct : ∀ o o' i, w.idOf o = some i → w.idOf o' = some i → o = o'

def Owned (w : World) : Prop := ∀ o i d, w.idOf o = some i → w.pool i = some d → d.owner = o

def RegOp.allocates : RegOp → Bool
  | .allocateBase _ | .allocateGuest _ => true
  | _ => false

def Op.ordinary : Op → Bool
  | .registry (.allocateBase _) | .registry (.allocateGuest _) | .registry (.advance _) => false
  | .createThin _ _ | .createSnap _ _ _ => false
  | _ => true

variable {c : Choice} {o : RegOp} {w w' : World} {Q : Except Err Unit → World → Prop} {id : Id} {ow : Owner}
  {k g : Key} {name : DevName} {sectors : Nat}

theorem RegOp.mutate_shrinks {st st' : RegistryState} {v : o.Res} (ordinary : (Op.registry o).ordinary)
    (done : o.mutate c st = .ok (some st', v)) :
    st'.nextID = st.nextID ∧ (∀ k i, st'.bases.lookup k = some i → st.bases.lookup k = some i) ∧
      (∀ k i, st'.guests.lookup k = some i → st.guests.lookup k = some i) := by
  cases mutate_changes done <;> grind [Op.ordinary]

variable {p : Pid}

theorem World.perform_ordinary {o : Op} {v : o.Res} (ordinary : o.ordinary) (done : w.perform p c o = .ok (w', v)) :
    w'.registry.nextID = w.registry.nextID ∧ (∀ ow i, w'.idOf ow = some i → w.idOf ow = some i) ∧
      (∀ i d', w'.pool i = some d' → ∃ d, w.pool i = some d ∧ d.owner = d'.owner) := by
  cases perform_does done with
  | store changed =>
    obtain ⟨counter, bases, guests⟩ := RegOp.mutate_shrinks ordinary changed
    have positive : 1 ≤ w.registry.nextID := by
      unfold World.registry
      cases w.file <;> simp [load, RegistryState.fresh, firstDeviceID]
    refine ⟨by simp [counter, firstDeviceID, positive], ?_, fun i d h => ⟨d, h, rfl⟩⟩
    intro ow i named
    cases ow with
    | base key => exact bases key i named
    | guest key => exact guests key i named
    | unknown => exact named
  | createThin | createSnap => cases ordinary
  | @delete id =>
    refine ⟨rfl, fun _ _ h => h, fun i d present => ?_⟩
    by_cases same : i = id
    · subst same
      simp at present
    · exact ⟨d, by simpa [same] using present, rfl⟩
  | @writeAt fd _ _ d before | @sync fd d before =>
    refine ⟨rfl, fun _ _ h => h, fun i d' present => ?_⟩
    by_cases same : i = fd
    · subst same
      simp only [setPool_pool, Function.update_self, Option.some.injEq] at present
      exact ⟨d, before, by rw [← present]; rfl⟩
    · exact ⟨d', by simpa [same] using present, rfl⟩
  | _ => exact ⟨rfl, fun _ _ h => h, fun i d h => ⟨d, h, rfl⟩⟩

def Collides (w : World) (o : Op) : Prop :=
  ∃ r : RegOp, o = .registry r ∧ r.allocates = true ∧ w.pool w.registry.nextID ≠ none

def sparesCollisions : Machine Pid World Op Op.Res Err :=
  engine.machine
    (fun _ w o c => (c.fault ≠ none → Owned w ∧ ¬ Collides w o) ∧ w.registry.nextID + 1 < idLimit)
    (fun _ w => Owned w)

def DeletesOwn (w : World) : Op → Prop
  | .delete id owner => owner ≠ .unknown ∧ ∀ d, w.pool id = some d → d.owner = owner
  | _ => True

def ownSpec : Spec Pid World Op where
  inv := Ledger
  rely _ w w' := w' = w
  guar _ _ _ := True
  pre _ := DeletesOwn

theorem ledger_shrinks (ledger : Ledger w) (counter : w'.registry.nextID = w.registry.nextID)
    (names : ∀ ow i, w'.idOf ow = some i → w.idOf ow = some i) : Ledger w' where
  below o i named := counter ▸ ledger.below o i (names o i named)
  distinct o o' i named named' := ledger.distinct o o' i (names o i named) (names o' i named')

section Rules

variable {o : Op} {w : World} {Q : Except Err o.Res → World → Prop}

theorem own_issue (ledger : Ledger w) (pre : DeletesOwn w o)
    (done : ∀ c w' a, w.registry.nextID + 1 < idLimit → w.perform 0 c o = .ok (w', a) →
      Ledger w' ∧ Q (.ok a) w') (refused : ∀ c e, w.perform 0 c o = .error e → Q (.error e) w)
    (failed : Owned w → ¬ Collides w o → ∀ e, Q (.error e) w ∧
      ∀ c w' a, w.registry.nextID + 1 < idLimit → w.perform 0 c o = .ok (w', a) → Q (.error e) w') :
    wp sparesCollisions ownSpec 0 (issue o) Q w := by
  refine ⟨pre, ?_⟩
  rintro r w' ⟨c, ⟨spared, counter⟩, action⟩
  have finish : Ledger w' → Q r w' → Ledger w' ∧ True ∧ ∀ w'', w'' = w' → Ledger w'' → Q r w'' :=
    fun kept post => ⟨kept, trivial, fun w'' same _ => same ▸ post⟩
  by_cases fine : c.fault = none
  · rcases World.exec_faultless fine action with ⟨a, rfl, took⟩ | ⟨e, rfl, rfl, no⟩
    · obtain ⟨kept, post⟩ := done c w' a counter took
      exact finish kept post
    · exact finish ledger (refused c e no)
  · obtain ⟨owned, apart⟩ := spared fine
    rcases World.exec_cases action with ⟨a, rfl, took⟩ | ⟨e, rfl, rfl | ⟨a, took⟩⟩
    · obtain ⟨kept, post⟩ := done c w' a counter took
      exact finish kept post
    · exact finish ledger (failed owned apart e).1
    · exact finish (done c w' a counter took).1 ((failed owned apart e).2 c w' a counter took)

theorem own_ordinary (ordinary : o.ordinary) (pre : DeletesOwn w o) (ledger : Ledger w) (owned : Owned w)
    (post : ∀ r w', Ledger w' → Owned w' → w'.registry.nextID = w.registry.nextID →
      (w' = w ∨ ∃ c a, w.perform 0 c o = .ok (w', a)) → (∀ a, r = .ok a → ∃ c, w.perform 0 c o = .ok (w', a)) →
      Q r w') : wp sparesCollisions ownSpec 0 (issue o) Q w := by
  have kept : ∀ c w' a, w.perform 0 c o = .ok (w', a) →
      Ledger w' ∧ Owned w' ∧ w'.registry.nextID = w.registry.nextID := by
    intro c w' a took
    obtain ⟨counter, names, devices⟩ := World.perform_ordinary ordinary took
    refine ⟨ledger_shrinks ledger counter names, fun o i d' named present => ?_, counter⟩
    obtain ⟨d, before, same⟩ := devices i d' present
    exact same ▸ owned o i d (names o i named) before
  refine own_issue ledger pre ?_ ?_ ?_
  · intro c w' a _ took
    obtain ⟨ledger', owned', counter⟩ := kept c w' a took
    exact ⟨ledger', post _ _ ledger' owned' counter (.inr ⟨c, a, took⟩) fun _ same => by cases same; exact ⟨c, took⟩⟩
  · exact fun c e _ => post _ _ ledger owned rfl (.inl rfl) nofun
  · intro _ _ e
    refine ⟨post _ _ ledger owned rfl (.inl rfl) nofun, ?_⟩
    intro c w' a _ took
    obtain ⟨ledger', owned', counter⟩ := kept c w' a took
    exact post _ _ ledger' owned' counter (.inr ⟨c, a, took⟩) nofun

end Rules

structure Good (w : World) : Prop where
  ledger : Ledger w
  owned : Owned w

def Op.mapping : Op → Bool
  | .info | .create _ _ _ | .mknodes _ | .ls | .remove _ | .status => true
  | _ => false

theorem World.perform_mapping {o : Op} {v : o.Res} (mapping : o.mapping) (done : w.perform p c o = .ok (w', v)) :
    w'.file = w.file ∧ w'.pool = w.pool := by
  cases perform_does done <;> first | exact ⟨rfl, rfl⟩ | cases mapping

theorem World.idOf_eq (file : w'.file = w.file) (ow : Owner) : w'.idOf ow = w.idOf ow := by
  cases ow <;> simp [idOf, registry, file]

section Safe

variable {α β : Type}

abbrev Owns (P : World → Prop) (m : Act α) (Q : Except Err α → World → Prop) : Prop :=
  Leaves sparesCollisions ownSpec 0 P m Q

def Safe (m : Act α) : Prop := Owns Good m fun _ => Good

theorem safe_ordinary {o : Op} (ordinary : o.ordinary) (pre : ∀ w, DeletesOwn w o) : Safe (issue o) :=
  fun w _ good => own_ordinary ordinary (pre w) good.ledger good.owned
    fun _ _ ledger owned _ _ _ => ⟨ledger, owned⟩

theorem walk_safe : Walk fun _ => Safe where
  pure _ := leaves_pure fun _ good => good
  fail _ := leaves_fail fun _ good => good
  bind first rest := leaves_bind first (fun _ _ good => good) rest
  attempt body w inv good := by
    rw [wp_attempt]
    exact body w inv good
  plain o plain := by
    refine safe_ordinary ?_ fun w => ?_
    · cases o with
      | registry r => cases r <;> first | rfl | cases plain
      | createThin | createSnap => cases plain
      | _ => rfl
    · cases o with
      | delete => cases plain
      | _ => trivial

variable {m : Act α}

def MapsOnly (m : Act α) : Prop := ∀ w, Good w →
  wp sparesCollisions ownSpec 0 m (fun _ w' => Good w' ∧ w'.file = w.file ∧ w'.pool = w.pool) w

theorem mapsOnly_safe (maps : MapsOnly m) : Safe m :=
  fun w _ good => wp_mono (fun _ _ post => post.1) (maps w good)

theorem mapsOnly_issue {o : Op} (mapping : o.mapping) (ordinary : o.ordinary) (pre : ∀ w, DeletesOwn w o) :
    MapsOnly (issue o) := by
  intro w good
  refine own_ordinary ordinary (pre w) good.ledger good.owned ?_
  intro r w' ledger owned _ effect _
  rcases effect with rfl | ⟨c, a, took⟩
  · exact ⟨good, rfl, rfl⟩
  · exact ⟨⟨ledger, owned⟩, World.perform_mapping mapping took⟩

theorem closed_mapsOnly : Prog.Closed fun _ => MapsOnly where
  pure _ _ good := ⟨good, rfl, rfl⟩
  fail _ _ good := ⟨good, rfl, rfl⟩
  bind first rest w good := by
    refine wp_then (first w good) (fun _ _ kept => kept) fun a w' ⟨good', file, pool⟩ => ?_
    refine wp_mono ?_ (rest a w' good')
    rintro r w'' ⟨good'', file', pool'⟩
    exact ⟨good'', file'.trans file, pool'.trans pool⟩
  attempt body w good := by
    rw [wp_attempt]
    exact body w good

theorem mapsOnly_maps {name : DevName} {o : Op} (maps : o.mapsAt name = true) : MapsOnly (issue o) := by
  cases o with
  | info | ls | mknodes | create | remove => exact mapsOnly_issue rfl rfl fun _ => trivial
  | _ => cases maps

theorem mapsOnly_activate (name : DevName) (id : Id) (sectors : Nat) : MapsOnly (activate name id sectors) :=
  closed_activate closed_mapsOnly fun _ => mapsOnly_maps

theorem mapsOnly_unmapIfActive (name : DevName) : MapsOnly (unmapIfActive name) :=
  closed_unmapIfActive closed_mapsOnly fun _ => mapsOnly_maps

end Safe

def Named (ow : Owner) (id : Id) (w : World) : Prop := Good w ∧ w.idOf ow = some id

theorem named_mapping {α : Type} {m : Act α} (maps : MapsOnly m) :
    Owns (Named ow id) m fun _ => Named ow id :=
  fun w _ ⟨good, named⟩ => wp_mono (fun _ _ ⟨good', file, _⟩ => ⟨good', (World.idOf_eq file ow).trans named⟩) (maps w good)

theorem named_deleteThin : Owns (Named ow id) (deleteThin id ow) fun _ => Named ow id := by
  rintro w - ⟨good, named⟩
  unfold deleteThin
  rw [wp_bind, wp_attempt]
  have known : ow ≠ .unknown := by
    rintro rfl
    cases named
  refine own_ordinary rfl ⟨known, fun d => good.owned ow id d named⟩ good.ledger good.owned ?_
  intro r w' ledger owned _ effect _
  have file : w'.file = w.file := by
    rcases effect with rfl | ⟨c, a, took⟩
    · rfl
    · simp only [World.perform] at took
      grind [World.setPool]
  change wp sparesCollisions ownSpec 0 (unlessGone r) _ w'
  unfold unlessGone
  split
  all_goals exact ⟨⟨ledger, owned⟩, (World.idOf_eq file ow).trans named⟩

/-! ## From an allocation to the device made at it -/

def Allocated (ow : Owner) (w w' : World) (id : Id) (fresh : Bool) : Prop :=
  (fresh = false ∧ w.idOf ow = some id ∧ w' = w) ∨
  (fresh = true ∧ id = w.registry.nextID ∧ w'.registry.nextID = w.registry.nextID + 1 ∧
    w'.pool = w.pool ∧ ∀ ow', w'.idOf ow' = if ow' = ow then some id else w.idOf ow')

structure Window (ow : Owner) (id : Id) (w : World) : Prop where
  ledger : Ledger w
  named : w.idOf ow = some id
  others : ∀ o i d, o ≠ ow → w.idOf o = some i → w.pool i = some d → d.owner = o
  clash : Owned w ∨ w.pool id ≠ none

theorem Window.good (window : Window ow id w) (free : w.pool id = none) : Good w :=
  ⟨window.ledger, window.clash.resolve_right (by simp [free])⟩

theorem Good.window (good : Good w) (named : w.idOf ow = some id) : Window ow id w :=
  ⟨good.ledger, named, fun o i d _ => good.owned o i d, .inl good.owned⟩

section Allocates
variable {v : Id × Bool} (counter : w.registry.nextID + 1 < idLimit)
include counter

theorem World.allocated_base (done : w.perform 0 c (.registry (.allocateBase k)) = .ok (w', v)) :
    Allocated (.base k) w w' v.1 v.2 := by
  rcases perform_allocateBase done with known | ⟨rfl, -, rfl⟩
  · exact .inl known
  · refine .inr ⟨rfl, rfl, by simp [Nat.mod_eq_of_lt counter, firstDeviceID], rfl, fun ow => ?_⟩
    cases ow <;> simp [idOf, KeyMap.lookup_insert]

theorem World.allocated_guest (done : w.perform 0 c (.registry (.allocateGuest k)) = .ok (w', v)) :
    Allocated (.guest k) w w' v.1 v.2 := by
  rcases perform_allocateGuest done with known | ⟨rfl, -, rfl⟩
  · exact .inl known
  · refine .inr ⟨rfl, rfl, by simp [Nat.mod_eq_of_lt counter, firstDeviceID], rfl, fun ow => ?_⟩
    cases ow <;> simp [idOf, KeyMap.lookup_insert]

end Allocates

theorem Allocated.window {fresh : Bool} (good : Good w) (allocated : Allocated ow w w' id fresh) :
    Window ow id w' ∧ ((fresh = false ∨ w.pool w.registry.nextID = none) → Owned w') := by
  rcases allocated with ⟨rfl, named, rfl⟩ | ⟨rfl, rfl, counter, pool, names⟩
  · exact ⟨good.window named, fun _ => good.owned⟩
  · have apart : ∀ o, w.idOf o ≠ some w.registry.nextID :=
      fun o named => absurd (good.ledger.below o _ named) (Nat.lt_irrefl _)
    have others : ∀ o i d, o ≠ ow → w'.idOf o = some i → w'.pool i = some d → d.owner = o := by
      intro o i d other named present
      rw [names, if_neg other] at named
      rw [pool] at present
      exact good.owned o i d named present
    have ownedIfFree : w.pool w.registry.nextID = none → Owned w' := by
      intro free o i d named present
      by_cases same : o = ow
      · rw [names, if_pos same] at named
        cases named
        rw [pool, free] at present
        cases present
      · exact others o i d same named present
    have ledger : Ledger w' := by
      constructor
      · intro o i named
        rw [names] at named
        rw [counter]
        split at named
        · cases named
          exact Nat.lt_succ_self _
        · exact Nat.lt_succ_of_lt (good.ledger.below o i named)
      · intro o o' i named named'
        rw [names] at named named'
        split at named <;> split at named'
        · next same same' => exact same.trans same'.symm
        · cases named
          exact absurd named' (apart o')
        · cases named'
          exact absurd named (apart o)
        · exact good.ledger.distinct o o' i named named'
    refine ⟨⟨ledger, by simp [names], others, ?_⟩, fun free => ownedIfFree (free.resolve_left (by simp))⟩
    by_cases free : w.pool w.registry.nextID = none
    · exact .inl (ownedIfFree free)
    · exact .inr (by rwa [pool])

def Handed (ow : Owner) : Except Err (Id × Bool) → World → Prop
  | .ok (id, fresh), w => Window ow id w ∧ (fresh = false → Owned w)
  | .error _, w => Good w

theorem own_allocate (ow : Owner) (allocates : o.allocates = true) (answer : o.Res → Id × Bool)
    (effect : ∀ w c w' a, w.registry.nextID + 1 < idLimit → w.perform 0 c (.registry o) = .ok (w', a) →
      Allocated ow w w' (answer a).1 (answer a).2) :
    Owns Good (registry o) fun r => Handed ow (r.map answer) := by
  intro w _ good
  refine own_issue good.ledger trivial ?_ (fun _ _ _ => good) ?_
  · intro c w' a counter took
    obtain ⟨window, owned⟩ := (effect w c w' a counter took).window good
    exact ⟨window.ledger, window, fun stale => owned (.inl stale)⟩
  · intro _ apart e
    refine ⟨good, fun c w' a counter took => ?_⟩
    obtain ⟨window, owned⟩ := (effect w c w' a counter took).window good
    have free : w.pool w.registry.nextID = none := by
      by_contra held
      exact apart ⟨o, rfl, allocates, held⟩
    exact ⟨window.ledger, owned (.inr free)⟩

def Made {α : Type} (ow : Owner) (id : Id) (r : Except Err α) (w : World) : Prop :=
  Window ow id w ∧ (Owned w ∨ r = .error .fileExists)

theorem own_make {o : Op} (pre : ∀ w, DeletesOwn w o)
    (made : ∀ (w : World) c w' a, w.perform 0 c o = .ok (w', a) → w.pool id = none ∧ w'.file = w.file ∧
      ∃ d : Device, d.owner = ow ∧ w'.pool = Function.update w.pool id (some d))
    (exists_ : ∀ (w : World) c e, w.perform 0 c o = .error e → w.pool id = none ∨ e = .fileExists) :
    Owns (Window ow id) (issue o >>= fun _ => activate name id sectors) (Made ow id) := by
  have afterMade : ∀ w c w' a, Window ow id w → w.perform 0 c o = .ok (w', a) → Window ow id w' ∧ Owned w' := by
    intro w c w' a window took
    obtain ⟨free, file, d, owner, pool⟩ := made w c w' a took
    have good := window.good free
    have names : ∀ ow, w'.idOf ow = w.idOf ow := World.idOf_eq file
    have counter : w'.registry.nextID = w.registry.nextID := by simp [World.registry, file]
    have ledger : Ledger w' := ledger_shrinks good.ledger counter fun ow i named => names ow ▸ named
    have owned : Owned w' := by
      intro o i d' named present
      rw [names] at named
      rw [pool] at present
      by_cases same : i = id
      · subst same
        rw [Function.update_self, Option.some.injEq] at present
        rw [← present, owner]
        exact good.ledger.distinct ow o i window.named named
      · rw [Function.update_of_ne same] at present
        exact good.owned o i d' named present
    exact ⟨Good.window ⟨ledger, owned⟩ ((names ow).trans window.named), owned⟩
  have makes : Owns (Window ow id) (issue o) (Made ow id) := by
    intro w _ window
    refine own_issue window.ledger (pre w) ?_ ?_ ?_
    · intro c w' a _ took
      obtain ⟨window', owned⟩ := afterMade w c w' a window took
      exact ⟨window'.ledger, window', .inl owned⟩
    · intro c e no
      rcases exists_ w c e no with free | rfl
      · exact ⟨window, .inl (window.good free).owned⟩
      · exact ⟨window, .inr rfl⟩
    · intro owned _ e
      refine ⟨⟨window, .inl owned⟩, fun c w' a _ took => ?_⟩
      obtain ⟨window', owned'⟩ := afterMade w c w' a window took
      exact ⟨window', .inl owned'⟩
  have maps : Owns (Named ow id) _ _ := named_mapping (mapsOnly_activate name id sectors)
  refine leaves_bind makes (fun e w lost => ⟨lost.1, lost.2.imp_right fun same => by cases same; rfl⟩)
    fun a => leaves_conseq maps ?_ ?_
  · rintro w - ⟨window, outcome⟩
    exact ⟨⟨window.ledger, outcome.resolve_right (by rintro ⟨⟩)⟩, window.named⟩
  · rintro r w ⟨good, named⟩
    exact ⟨good.window named, .inl good.owned⟩

def Dropped (id : Id) (w : World) : Prop := Good w ∧ id < w.registry.nextID

theorem own_drop (ordinary : (Op.registry o).ordinary)
    (drops : ∀ w c, Window ow id w → ∃ st a, o.mutate c w.registry = .ok (some st, a))
    (gone : ∀ (w : World) c w' a, w.perform 0 c (.registry o) = .ok (w', a) → w'.idOf ow = none) :
    Owns (Window ow id) (registry o) fun _ => Dropped id := by
  intro w _ window
  have below := window.ledger.below ow id window.named
  have effect : ∀ c w' a, w.perform 0 c (.registry o) = .ok (w', a) → Dropped id w' := by
    intro c w' a took
    obtain ⟨counter, names, devices⟩ := World.perform_ordinary ordinary took
    refine ⟨⟨ledger_shrinks window.ledger counter names, ?_⟩, counter ▸ below⟩
    intro o' i d' named present
    have other : o' ≠ ow := by
      rintro rfl
      rw [gone w c w' a took] at named
      cases named
    obtain ⟨d, before, same⟩ := devices i d' present
    exact same ▸ window.others o' i d other (names o' i named) before
  refine own_issue window.ledger trivial (fun c w' a _ took => ⟨(effect c w' a took).1.ledger, effect c w' a took⟩) ?_ ?_
  · intro c e no
    -- the registry names `ow`, so it was read; and a drop of an entry is not refused
    exfalso
    obtain ⟨st, a, changed⟩ := drops w c window
    have named := window.named
    simp only [World.perform, World.withLock] at no
    cases loaded : load w.file with
    | error e =>
      have empty : w.registry = .fresh := by simp [World.registry, loaded]
      cases ow <;> simp [World.idOf, empty, RegistryState.fresh] at named
    | ok st' =>
      have same : w.registry = st' := by simp [World.registry, loaded]
      rw [same] at changed
      simp [loaded, bind, Except.bind, changed] at no
  · intro owned _ e
    exact ⟨⟨⟨window.ledger, owned⟩, below⟩, fun c w' a _ took => effect c w' a took⟩

theorem own_advance : Owns (Dropped id) (registry (.advance id)) fun _ => Good := by
  rintro w - ⟨good, below⟩
  have effect : ∀ c w' a, w.perform 0 c (.registry (.advance id)) = .ok (w', a) → w' = w := by
    intro c w' a took
    rcases World.withLock_cases took with ⟨rfl, -⟩ | ⟨st, rfl, answer⟩
    · rfl
    · simp [RegOp.mutate, RegistryState.advance, below] at answer
  refine own_issue good.ledger trivial ?_ (fun _ _ _ => good) ?_
  · intro c w' a _ took
    rw [effect c w' a took]
    exact ⟨good.ledger, good⟩
  · intro _ _ e
    refine ⟨good, fun c w' a _ took => ?_⟩
    rw [effect c w' a took]
    exact good

/-! ## The programs of the materializer -/

theorem own_forgetBase :
    Owns (Window (.base k) id) (registry (.forgetBase k)) fun _ => Dropped id := by
  refine own_drop rfl (fun w c window => ?_) fun _ _ _ _ took => congrArg BaseView.entry (World.perform_forgetBase took)
  have present : k ∈ w.registry.bases := (KeyMap.mem_iff _ _).mpr ⟨id, window.named⟩
  simp [RegOp.mutate, RegistryState.forgetBase, present]

theorem own_forget :
    Owns (Window (.guest g) id) (registry (.forget g)) fun _ => Dropped id := by
  refine own_drop rfl (fun w c window => ?_) fun _ _ _ _ took => congrArg GuestView.entry (World.perform_forget took)
  have present : g ∈ w.registry.guests := (KeyMap.mem_iff _ _).mpr ⟨id, window.named⟩
  simp [RegOp.mutate, RegistryState.forget, present]

theorem own_createThinBase :
    Owns (Window (.base k) id) (createThinBase id name sectors k) (Made (.base k) id) := by
  refine own_make (fun _ => trivial) ?_ ?_
  · intro w c w' a took
    simp only [World.perform] at took
    split at took
    · cases took
    · next free =>
      cases took
      exact ⟨free, rfl, _, rfl, rfl⟩
  · intro w c e no
    simp only [World.perform] at no
    split at no <;> cases no
    exact .inr rfl

theorem own_snapshotBase {base : Id} :
    Owns (Window (.guest g) id) (snapshotBase base id name sectors g) (Made (.guest g) id) := by
  refine own_make (fun _ => trivial) ?_ ?_
  · intro w c w' a took
    simp only [World.perform] at took
    split at took
    · cases took
    · cases took
    · next free _ =>
      cases took
      exact ⟨free, rfl, _, rfl, rfl⟩
  · intro w c e no
    simp only [World.perform] at no
    split at no
    · cases no
      exact .inr rfl
    · next free _ => exact .inl free
    · cases no

theorem own_makeBase {retry : Act Id} (again : Safe retry) :
    Owns (Window (.base k) id) (makeBase k name sectors id retry) fun _ => Good := by
  refine leaves_attempt own_createThinBase fun r => ?_
  cases r with
  | ok a => exact leaves_pure fun w ⟨window, outcome⟩ => ⟨window.ledger, outcome.resolve_right nofun⟩
  | error e =>
    dsimp only
    split
    · refine leaves_pre (fun _ made => made.1) ?_
      refine leaves_bind own_forgetBase (fun _ _ dropped => dropped.1) fun _ => ?_
      exact leaves_bind own_advance (fun _ _ good => good) fun _ => again
    · next other =>
      refine leaves_fail fun w ⟨window, outcome⟩ => ⟨window.ledger, outcome.resolve_right fun same => ?_⟩
      cases same
      exact other rfl

theorem safe_createBaseWithin (k : Key) (name : DevName) (sectors attempts : Nat) :
    Safe (createBaseWithin k name sectors attempts) := by
  induction attempts with
  | zero => exact walk_safe.fail _
  | succ attempts ih =>
    simp only [createBaseWithin, allocateBase]
    split
    · exact leaves_fail fun _ good => good
    refine leaves_bind (own_allocate (.base k) rfl id fun _ _ _ _ counter took =>
      World.allocated_base counter took) (fun _ _ good => good) ?_
    rintro ⟨id, fresh⟩
    cases fresh with
    | true => exact leaves_pre (fun _ handed => handed.1) (own_makeBase ih)
    | false =>
      refine leaves_pre (fun w ⟨window, owned⟩ => (⟨⟨window.ledger, owned rfl⟩, window.named⟩ : Named (.base k) id w)) ?_
      refine leaves_bind (R := fun _ => Named (.base k) id) ?_ (fun _ _ named => named.1) fun _ =>
        leaves_pre (fun w ⟨good, named⟩ => good.window named) (own_makeBase ih)
      exact leaves_bind (named_mapping (mapsOnly_unmapIfActive name)) (fun _ _ named => named) fun _ => named_deleteThin

theorem own_makeGuest {base : Id} {retry : Act DevName} (again : Safe retry) :
    Owns (Window (.guest g) id) (makeGuest base g name sectors id retry) fun _ => Good := by
  refine leaves_attempt own_snapshotBase fun r => ?_
  cases r with
  | ok a =>
    refine leaves_pre (fun w ⟨window, outcome⟩ => (⟨window.ledger, outcome.resolve_right nofun⟩ : Good w)) ?_
    exact walk_safe.bind (safe_ordinary rfl fun _ => trivial) fun _ => walk_safe.pure _
  | error e =>
    refine leaves_pre (fun _ made => made.1) ?_
    refine leaves_bind own_forget (fun _ _ dropped => dropped.1) fun _ => ?_
    split
    · exact leaves_bind own_advance (fun _ _ good => good) fun _ => again
    · exact leaves_fail fun _ dropped => dropped.1

theorem safe_createGuestWithin (base : Id) (g : Key) (name : DevName) (sectors attempts : Nat) :
    Safe (createGuestWithin base g name sectors attempts) := by
  induction attempts with
  | zero => exact walk_safe.fail _
  | succ attempts ih =>
    simp only [createGuestWithin, allocateGuest]
    split
    · exact leaves_fail fun _ good => good
    refine leaves_bind (own_allocate (.guest g) rfl id fun _ _ _ _ counter took =>
      World.allocated_guest counter took) (fun _ _ good => good) ?_
    rintro ⟨id, fresh⟩
    cases fresh with
    | true => exact leaves_pre (fun _ handed => handed.1) (own_makeGuest ih)
    | false =>
      refine leaves_pre (fun w ⟨window, owned⟩ => (⟨window.ledger, owned rfl⟩ : Good w)) ?_
      exact walk_safe.bind (mapsOnly_safe (mapsOnly_activate name id sectors)) fun _ => walk_safe.pure _

theorem own_lookup (ow : Owner) {o : RegOp} (answer : o.Res → Option Id)
    (effect : ∀ (w : World) c w' a, w.perform 0 c (.registry o) = .ok (w', a) → w' = w ∧ answer a = w.idOf ow) :
    Owns Good (registry o) fun r w =>
      Good w ∧ ∀ a, r = .ok a → w.idOf ow = answer a := by
  intro w _ good
  refine own_issue good.ledger trivial ?_ (fun _ _ _ => ⟨good, nofun⟩) ?_
  · intro c w' a _ took
    obtain ⟨rfl, found⟩ := effect w c w' a took
    exact ⟨good.ledger, good, fun _ same => by cases same; exact found.symm⟩
  · intro _ _ e
    refine ⟨⟨good, nofun⟩, fun c w' a _ took => ?_⟩
    obtain ⟨rfl, -⟩ := effect w c w' a took
    exact ⟨good, nofun⟩

theorem safe_evictLocked (k : Key) : Safe (evictLocked k) := by
  refine leaves_bind (own_lookup (.base k) id fun _ _ _ _ => World.perform_baseID) (fun _ _ found => found.1) fun known => ?_
  cases known with
  | none => exact leaves_pure fun _ found => found.1
  | some id =>
    refine leaves_pre (fun w ⟨good, found⟩ => (⟨good, found _ rfl⟩ : Named (.base k) id w)) ?_
    refine leaves_bind (named_mapping (mapsOnly_unmapIfActive _)) (fun _ _ named => named.1) fun _ => ?_
    refine leaves_bind named_deleteThin (fun _ _ named => named.1) fun _ => ?_
    refine leaves_pre (fun _ named => named.1) ?_
    exact walk_safe.bind (safe_ordinary rfl fun _ => trivial) fun _ => walk_safe.pure true

theorem safe_releaseGuest (g : Key) (name : DevName) : Safe (releaseGuest g name) := by
  refine leaves_bind (own_lookup (.guest g) id fun _ _ _ _ => World.perform_guestID) (fun _ _ found => found.1) fun known => ?_
  cases known with
  | none =>
    refine leaves_pre (fun _ found => found.1) ?_
    exact walk_safe.bind (mapsOnly_safe (mapsOnly_unmapIfActive name)) fun _ => walk_safe.pure ()
  | some id =>
    refine leaves_pre (fun w ⟨good, found⟩ => (⟨good, found _ rfl⟩ : Named (.guest g) id w)) ?_
    refine leaves_bind (named_mapping (mapsOnly_unmapIfActive _)) (fun _ _ named => named.1) fun _ => ?_
    refine leaves_bind (named_mapping (mapsOnly_issue (o := .status) rfl rfl fun _ => trivial)) (fun _ _ named => named.1) fun st => ?_
    split
    · exact leaves_fail fun _ named => named.1
    · refine leaves_bind named_deleteThin (fun _ _ named => named.1) fun _ => ?_
      exact leaves_pre (fun _ named => named.1) (safe_ordinary rfl fun _ => trivial)

theorem safe_evictBase (k : Key) : Safe (evictBase k) :=
  closed_evictBase walk_safe.toClosed (walk_safe.plain (.tryLock k) rfl) (walk_safe.plain (.unlock k) rfl) (safe_evictLocked k)

theorem safe_call (c : Call) : Safe c.prog := by
  cases c with
  | ensureBase k sizeBytes needBytes =>
    refine walk_safe.bind ?_ fun _ => walk_safe.pure _
    refine walk_safe.ensureBaseNeeding safe_evictBase ?_ (safe_createBaseWithin k _) sizeBytes needBytes
    exact mapsOnly_safe (closed_removeDevice closed_mapsOnly fun _ => mapsOnly_maps)
  | ensureGuest baseKey g sizeBytes =>
    refine walk_safe.bind ?_ fun _ => walk_safe.pure _
    exact walk_safe.ensureGuest (fun id sectors => mapsOnly_safe (mapsOnly_activate _ id sectors))
      (safe_ordinary rfl fun _ => trivial) (safe_createGuestWithin · g _ · ·) baseKey sizeBytes
  | evict k => exact walk_safe.bind (safe_evictBase _) fun _ => walk_safe.pure _
  | release g => exact walk_safe.bind (safe_releaseGuest _ _) fun _ => walk_safe.pure _

structure Rebuilt (w : World) : Prop where
  good : Good w
  strangers : ∀ i d, w.pool i = some d → (∀ ow, w.idOf ow ≠ some i) → d.owner = .unknown

theorem World.perform_keeps_stranger {o : Op} {v : o.Res} {i : Id} (own : DeletesOwn w o)
    (stranger : ∃ d, w.pool i = some d ∧ d.owner = .unknown) (done : w.perform p c o = .ok (w', v)) :
    ∃ d, w'.pool i = some d ∧ d.owner = .unknown := by
  obtain ⟨d, present, unknown⟩ := stranger
  have elsewhere : ∀ id d', i ≠ id → ∃ d, (w.setPool id d').pool i = some d ∧ d.owner = .unknown :=
    fun id d' other => ⟨d, by simpa [other] using present, unknown⟩
  cases perform_does done with
  | @delete id =>
    refine elsewhere id _ ?_
    rintro rfl
    exact own.1 ((own.2 d present).symm.trans unknown)
  | @createThin id _ free | @createSnap id _ _ _ free =>
    refine elsewhere id _ ?_
    rintro rfl
    simp [free] at present
  | @writeAt fd _ _ _ before | @sync fd _ before =>
    by_cases same : i = fd
    · subst same
      rw [before] at present
      cases present
      exact ⟨_, Function.update_self i _ w.pool, unknown⟩
    · exact elsewhere fd _ same
  | _ => exact ⟨d, present, unknown⟩

theorem run_keeps_stranger {prog : Act (Option DevName)} {issued : List (World × Op)}
    {result : Option (Except Err (Option DevName))} {i : Id} (run : Run sparesCollisions 0 prog w issued w' result)
    (own : ∀ entry ∈ issued, DeletesOwn entry.1 entry.2) (stranger : ∃ d, w.pool i = some d ∧ d.owner = .unknown) :
    ∃ d, w'.pool i = some d ∧ d.owner = .unknown := by
  induction run with
  | ret | fail => exact stranger
  | cut dies =>
    obtain ⟨-, rfl⟩ := dies
    exact stranger
  | step action rest ih =>
    obtain ⟨c, -, action⟩ := action
    have here := own _ (List.mem_cons_self ..)
    refine ih (fun entry member => own entry (List.mem_cons_of_mem _ member)) ?_
    rcases effect_of_cases (World.exec_cases action) with rfl | ⟨a, took⟩
    · exact stranger
    · exact World.perform_keeps_stranger here stranger took

theorem good_step {e : Event} (good : Good w) (step : EventStep sparesCollisions (fun _ _ => True) w e w') :
    Good w' ∧ (∀ c issued result, e = .call c issued result → ∀ entry ∈ issued, DeletesOwn entry.1 entry.2) ∧
      ∀ i, (∃ d, w.pool i = some d ∧ d.owner = .unknown) → ∃ d, w'.pool i = some d ∧ d.owner = .unknown := by
  cases step with
  | reboot =>
    have names : ∀ ow, w.reboot.idOf ow = w.idOf ow := World.idOf_eq rfl
    refine ⟨⟨ledger_shrinks good.ledger rfl fun ow i named => names ow ▸ named,
      fun o i d named => good.owned o i d (names o ▸ named)⟩, nofun, fun i stranger => stranger⟩
  | @call _ c issued result may run =>
    obtain ⟨own, done, cutOff⟩ := run_sound (S := ownSpec) (fun _ => rfl) run good.ledger (safe_call c w good.ledger good)
    refine ⟨?_, ?_, fun i stranger => run_keeps_stranger run own stranger⟩
    · cases result with
      | some r => exact (done r rfl).2
      | none =>
        obtain ⟨last, ledger, owned, rfl⟩ := cutOff rfl
        exact ⟨{ ledger with }, owned⟩
    · rintro c' issued' result' ⟨⟩
      exact own

/-- In every history in which nothing fails and no process dies while the registry names an id that
holds another's device, and in which the id counter stays below its limit, every delete is issued for
the key its device was made for, and a device unknown to the registry stays in the pool. -/
theorem deletes_only_own {w w' : World} {es : List Event} (start : Rebuilt w)
    (history : History sparesCollisions (fun _ _ => True) w es w') :
    (∀ c issued result, Event.call c issued result ∈ es → ∀ entry ∈ issued, ∀ id owner,
      entry.2 = .delete id owner → owner ≠ .unknown ∧ ∀ d, entry.1.pool id = some d → d.owner = owner) ∧
    (∀ i d, w.pool i = some d → (∀ ow, w.idOf ow ≠ some i) →
      ∃ d', w'.pool i = some d' ∧ d'.owner = .unknown) := by
  have along : (∀ c issued result, Event.call c issued result ∈ es → ∀ entry ∈ issued,
      DeletesOwn entry.1 entry.2) ∧
      ∀ i, (∃ d, w.pool i = some d ∧ d.owner = .unknown) → ∃ d, w'.pool i = some d ∧ d.owner = .unknown := by
    have good := start.good
    clear start
    induction history with
    | nil w => exact ⟨by simp, fun _ stranger => stranger⟩
    | cons step rest ih =>
      obtain ⟨good', own, stays⟩ := good_step good step
      obtain ⟨laterOwn, laterStays⟩ := ih good'
      refine ⟨?_, fun i stranger => laterStays i (stays i stranger)⟩
      intro c issued result member
      rcases List.mem_cons.mp member with here | later
      · exact own c issued result here.symm
      · exact laterOwn c issued result later
  refine ⟨?_, fun i d present unnamed => along.2 i ⟨d, present, start.strangers i d present unnamed⟩⟩
  intro c issued result member entry issuedHere id owner isDelete
  have own := along.1 c issued result member entry issuedHere
  rw [isDelete] at own
  exact own

private def lostRegistry : World :=
  { emptyNode with pool := fun id => if id = 1 then some ⟨.unknown, fun _ => 7, []⟩ else none }

private theorem lostRegistry_rebuilt : Rebuilt lostRegistry := by
  have unnamed : ∀ ow, lostRegistry.idOf ow = none := by
    intro ow
    cases ow <;> rfl
  refine ⟨⟨⟨fun o i named => ?_, fun o o' i named => ?_⟩, fun o i d named => ?_⟩, fun i d present _ => ?_⟩
  · simp [unnamed] at named
  · simp [unnamed] at named
  · simp [unnamed] at named
  · simp only [lostRegistry] at present
    split at present
    · cases present
      rfl
    · cases present

private def skipped : World := (runCalmly 40 (.ensureBase "image" 1 1) lostRegistry).1

private abbrev BelowLimit (_ : Pid) (w : World) (_ : Op) (c : Choice) : Prop :=
  c.fault = none ∧ w.registry.nextID + 1 < idLimit

private theorem eventStep_belowLimit (steps : Nat) (c : Call) (w : World)
    (along : Along engine BelowLimit 0 (List.replicate steps calm) c.prog w) (ends : (runCalmly steps c w).2 ≠ none) :
    ∃ issued, EventStep sparesCollisions (fun _ _ => True) w
      (.call c issued (runCalmly steps c w).2) (runCalmly steps c w).1 :=
  eventStep_runCalmly steps c w (along.mono fun _ _ _ fine => ⟨fun faulty => absurd fine.1 faulty, fine.2⟩)
    (fun cutOff => absurd cutOff ends) trivial

theorem deletes_only_own_after_eviction :
    (skipped.pool 2).isSome ∧ ((runCalmly 20 (.evict "image") skipped).1.pool 2).isNone ∧
    ∃ d, (runCalmly 20 (.evict "image") skipped).1.pool 1 = some d ∧ d.owner = .unknown := by
  obtain ⟨_, build⟩ := eventStep_belowLimit 40 (.ensureBase "image" 1 1) lostRegistry (by decide) (by decide)
  obtain ⟨_, evict⟩ := eventStep_belowLimit 20 (.evict "image") skipped (by decide) (by decide)
  refine ⟨by decide, by decide, (deletes_only_own lostRegistry_rebuilt
    (.cons build (.cons evict (.nil _)))).2 1 _ rfl fun ow => ?_⟩
  cases ow <;> nofun

-- cut after the base's id 1 is on record and before `create_thin` refused it
private def cutAtAllocation : World := (runCalmly 4 (.ensureBase "image" 1 1) lostRegistry).1

-- the retry takes device 1 for an unfinished base of its own
private def retried : World := (runCalmly 6 (.ensureBase "image" 1 1) cutAtAllocation).1

/-- With crashes only: a call cut off between an allocation and the `create_thin` that would have
found the id in use, and a retry that deletes the device there. -/
theorem retry_deletes_stranger : ∃ (w w' : World) (es : List Event), Rebuilt w ∧
    History crashesOnly (fun _ _ => True) w es w' ∧
    ∃ i d, w.pool i = some d ∧ (∀ ow, w.idOf ow ≠ some i) ∧ w'.pool i = none := by
  have step := fun steps w => @eventStep_calm (fun _ _ => True) (fun _ _ _ c => c.fault = none) (fun _ _ => rfl) steps
    (.ensureBase "image" 1 1) w trivial _ rfl
  obtain ⟨_, first⟩ := step 4 lostRegistry
  obtain ⟨_, second⟩ := step 6 cutAtAllocation
  refine ⟨lostRegistry, retried, _, lostRegistry_rebuilt, .cons first (.cons second (.nil _)), 1, _, rfl, ?_, ?_⟩
  · intro ow
    cases ow <;> nofun
  · have gone : (retried.pool 1).isNone = true := by decide
    simpa using gone

end KubeSwift.ThinPool
