import KubeSwift.Program.Concurrent
import KubeSwift.Program.Triples
import KubeSwift.ThinPool.History

/-! # Concurrent `EnsureGuest` calls for one guest

Every process runs `EnsureGuest` for the same base, guest and device name. A call drops an uncreated allocation before
it takes the base's lock: what they can agree on depends on whose that is. -/

namespace KubeSwift.ThinPool
open Program

structure Scene where
  entry : Option Id
  created : Prop
  mapped : Option Id
  allocator : Option Pid
  lock : Option Pid
  held : Id → Prop

def World.scene (w : World) (k g : Key) : Scene where
  entry := (w.guestView g).entry
  created := (w.guestView g).created
  mapped := (w.guestView g).mapped
  allocator := w.allocator g
  lock := w.locks k
  held i := w.pool i ≠ none

def Scene.Cleared (v : Scene) : Prop := ∀ i, v.entry = some i → v.created ∨ v.allocator ≠ none

structure Consistent (v₀ v : Scene) : Prop where
  known : v.created → v.entry ≠ none
  underway : v.entry ≠ none → ¬ v.created → v.allocator = none ∨ v.allocator = v.lock
  mapped : ∀ i, v.mapped = some i → v.entry = some i ∧ (v.created ∨ v.allocator ≠ none)
  fresh : ∀ i, ¬ v₀.held i → v.held i → v.entry = some i ∧ (v.created ∨ v.allocator ≠ none)
  initial : v₀.created → v.created ∧ v.entry = v₀.entry
  marked : ¬ v₀.created → v.created → v.mapped ≠ none ∧ v.allocator ≠ none

structure Relied (q : Pid) (v v' : Scene) : Prop where
  lock : v.lock = some q ↔ v'.lock = some q
  mapped : ∀ i, v.mapped = some i → v'.mapped = some i
  held : ∀ i, v.held i → v'.held i
  cleared : v.Cleared → v'.Cleared
  created : v.created → v'.created ∧ v'.entry = v.entry
  own : v.lock = some q → v.allocator = some q → v.entry ≠ none → ¬ v.created →
    v'.entry = v.entry ∧ ¬ v'.created ∧ v'.mapped = v.mapped ∧ v'.allocator = v.allocator ∧ ∀ i, v'.held i → v.held i
  empty : v.lock = some q → v.entry = none → v'.entry = none

theorem Relied.refl (q : Pid) (v : Scene) : Relied q v v :=
  ⟨Iff.rfl, fun _ => id, fun _ => id, id, fun marked => ⟨marked, rfl⟩,
    fun _ _ _ unmarked => ⟨rfl, unmarked, rfl, rfl, fun _ => id⟩, fun _ => id⟩

theorem Relied.trans {q : Pid} {a b c : Scene} (first : Relied q a b) (second : Relied q b c) : Relied q a c where
  lock := first.lock.trans second.lock
  mapped i found := second.mapped i (first.mapped i found)
  held i found := second.held i (first.held i found)
  cleared clear := second.cleared (first.cleared clear)
  created marked := by
    obtain ⟨still, same⟩ := first.created marked
    obtain ⟨again, same'⟩ := second.created still
    exact ⟨again, same'.trans same⟩
  own lock mine entry unmarked := by
    obtain ⟨entry1, unmarked1, mapped1, mine1, held1⟩ := first.own lock mine entry unmarked
    obtain ⟨entry2, unmarked2, mapped2, mine2, held2⟩ :=
      second.own (first.lock.mp lock) (mine1.trans mine) (entry1 ▸ entry) unmarked1
    exact ⟨entry2.trans entry1, unmarked2, mapped2.trans mapped1, mine2.trans mine1,
      fun i found => held1 i (held2 i found)⟩
  empty lock none := second.empty (first.lock.mp lock) (first.empty lock none)

/-! ## What a call does to the scene -/

section Transitions

variable {v₀ v : Scene} {p : Pid}

def Steps (v₀ : Scene) (p : Pid) (v v' : Scene) : Prop :=
  Consistent v₀ v' ∧ ∀ q, q ≠ p → Relied q v v'

variable (inv : Consistent v₀ v)
include inv

theorem Consistent.steps : Steps v₀ p v v :=
  ⟨inv, fun q _ => Relied.refl q v⟩

theorem Consistent.settled (free : v.lock = none) (clear : v.Cleared) : v.entry = none ∨ v.created := by
  cases named : v.entry with
  | none => exact .inl rfl
  | some i =>
    by_cases marked : v.created
    · exact .inr marked
    · have given := (clear i named).resolve_left marked
      rcases inv.underway (by simp [named]) marked with none | holder
      · exact (given none).elim
      · exact (given (holder.trans free)).elim

theorem Consistent.take (free : v.lock = none) (settled : v.Cleared) : Steps v₀ p v { v with lock := some p } := by
  constructor
  · refine { inv with underway := fun named unmarked => ?_ }
    rcases inv.settled free settled with none | marked
    · exact (named none).elim
    · exact (unmarked marked).elim
  · intro q other
    have lock : v.lock ≠ some q := by simp [free]
    have theirs : some p ≠ some q := fun same => other (Option.some.inj same).symm
    exact ⟨iff_of_false lock theirs, fun _ => id, fun _ => id, id, fun marked => ⟨marked, rfl⟩,
      fun mine => (lock mine).elim, fun mine => (lock mine).elim⟩

theorem Consistent.release (mine : v.lock = some p)
    (settled : v.entry = none ∨ v.created) : Steps v₀ p v { v with lock := none } := by
  constructor
  · refine { inv with underway := fun named unmarked => ?_ }
    rcases settled with none | marked
    · exact (named none).elim
    · exact (unmarked marked).elim
  · intro q other
    have lock : v.lock ≠ some q := fun theirs => other (Option.some.inj (theirs.symm.trans mine))
    exact ⟨iff_of_false lock nofun, fun _ => id, fun _ => id, id, fun marked => ⟨marked, rfl⟩,
      fun mine => (lock mine).elim, fun mine => (lock mine).elim⟩

theorem Consistent.drop (unmarked0 : ¬ v₀.created) (stale : v.entry = none ∨ v.allocator = none) :
    Steps v₀ p v { v with entry := none, created := v.created ∧ v.entry = none } := by
  have unmarked : ¬ v.created := by
    intro marked
    rcases stale with none | none
    · exact inv.known marked none
    · exact (inv.marked unmarked0 marked).2 none
  have unmapped : v.mapped = none := by
    rw [Option.eq_none_iff_forall_ne_some]
    intro i found
    obtain ⟨named, since⟩ := inv.mapped i found
    rcases stale with none | none
    · rw [none] at named
      cases named
    · exact since.elim unmarked fun given => given none
  constructor
  · refine ⟨fun marked => (unmarked marked.1).elim, fun named => (named rfl).elim, fun i found => ?_,
      fun i new found => ?_, fun marked => (unmarked0 marked).elim, fun _ marked => (unmarked marked.1).elim⟩
    · rw [show _ = none from unmapped] at found
      cases found
    · obtain ⟨named, since⟩ := inv.fresh i new found
      rcases stale with none | none
      · rw [none] at named
        cases named
      · exact (since.elim unmarked fun given => given none).elim
  · intro q other
    refine ⟨Iff.rfl, fun _ => id, fun _ => id, fun _ _ => nofun, fun marked => (unmarked marked).elim, ?_,
      fun _ _ => rfl⟩
    intro _ theirs named _
    rcases stale with none | none
    · exact (named none).elim
    · rw [none] at theirs
      cases theirs

omit inv

structure Making (p : Pid) (i : Id) (v : Scene) : Prop where
  lock : v.lock = some p
  allocator : v.allocator = some p
  entry : v.entry = some i
  unmarked : ¬ v.created

variable {i : Id}

theorem Making.alone {q : Pid} (making : Making p i v) (other : q ≠ p) : v.lock ≠ some q :=
  fun theirs => other (Option.some.inj (theirs.symm.trans making.lock))

variable (inv : Consistent v₀ v)
include inv

theorem Consistent.unmade (none : v.entry = none) :
    ¬ v.created ∧ v.mapped = Option.none ∧ ∀ j, v.held j → v₀.held j := by
  refine ⟨fun marked => inv.known marked none, ?_, fun j found => ?_⟩
  · rw [Option.eq_none_iff_forall_ne_some]
    intro i found
    have named := (inv.mapped i found).1
    rw [none] at named
    cases named
  · by_contra new
    have named := (inv.fresh j new found).1
    rw [none] at named
    cases named

theorem Consistent.allocate (mine : v.lock = some p) (none : v.entry = none) (i : Id) :
    Steps v₀ p v { v with entry := some i, allocator := some p } := by
  obtain ⟨unmarked, unmapped, old⟩ := inv.unmade none
  have unmarked0 : ¬ v₀.created := fun marked => unmarked (inv.initial marked).1
  constructor
  · refine ⟨fun marked => (unmarked marked).elim, fun _ _ => .inr mine.symm, fun j found => ?_,
      fun j new found => (new (old j found)).elim, fun marked => (unmarked0 marked).elim,
      fun _ marked => (unmarked marked).elim⟩
    rw [show _ = Option.none from unmapped] at found
    cases found
  · intro q other
    have lock : v.lock ≠ some q := fun theirs => other (Option.some.inj (theirs.symm.trans mine))
    exact ⟨Iff.rfl, fun _ => id, fun _ => id, fun _ _ _ => .inr nofun, fun marked => (unmarked marked).elim,
      fun theirs => (lock theirs).elim, fun theirs => (lock theirs).elim⟩

theorem Consistent.giveUp (making : Making p i v) (unmapped : v.mapped = none) (old : ∀ j, v.held j → v₀.held j) :
    Steps v₀ p v { v with entry := none, created := v.created ∧ v.entry = none } := by
  have unmarked0 : ¬ v₀.created := fun marked => making.unmarked (inv.initial marked).1
  constructor
  · refine ⟨fun marked => (making.unmarked marked.1).elim, fun named => (named rfl).elim, fun j found => ?_,
      fun j new found => (new (old j found)).elim, fun marked => (unmarked0 marked).elim,
      fun _ marked => (making.unmarked marked.1).elim⟩
    rw [show _ = none from unmapped] at found
    cases found
  · intro q other
    have lock := making.alone other
    exact ⟨Iff.rfl, fun _ => id, fun _ => id, fun _ _ => nofun, fun marked => (making.unmarked marked).elim,
      fun theirs => (lock theirs).elim, fun theirs => (lock theirs).elim⟩

theorem Consistent.snap (making : Making p i v) : Steps v₀ p v { v with held := fun j => j = i ∨ v.held j } := by
  constructor
  · refine { inv with fresh := fun j new found => ?_ }
    rcases found with rfl | found
    · exact ⟨making.entry, .inr (by simp [making.allocator])⟩
    · exact inv.fresh j new found
  · intro q other
    have lock := making.alone other
    exact ⟨Iff.rfl, fun _ => id, fun _ => .inr, id, fun marked => ⟨marked, rfl⟩,
      fun theirs => (lock theirs).elim, fun theirs => (lock theirs).elim⟩

theorem Consistent.map (named : v.entry = some i) (since : v.created ∨ Making p i v)
    (unmapped : v.mapped = none) : Steps v₀ p v { v with mapped := some i } := by
  constructor
  · refine ⟨inv.known, inv.underway, fun j found => ?_, inv.fresh, inv.initial, fun unmarked0 marked =>
      ⟨nofun, (inv.marked unmarked0 marked).2⟩⟩
    cases found
    exact ⟨named, since.imp_right fun making => by simp [making.allocator]⟩
  · intro q other
    refine ⟨Iff.rfl, fun j found => ?_, fun _ => id, id, fun marked => ⟨marked, rfl⟩, fun theirs _ _ unmarked => ?_,
      fun _ => id⟩
    · rw [unmapped] at found
      cases found
    · rcases since with marked | making
      · exact (unmarked marked).elim
      · exact (making.alone other theirs).elim

theorem Consistent.mark (making : Making p i v) (mapped : v.mapped = some i) :
    Steps v₀ p v { v with created := True } := by
  have unmarked0 : ¬ v₀.created := fun marked => making.unmarked (inv.initial marked).1
  constructor
  · refine ⟨fun _ => by simp [making.entry], fun _ unmarked => (unmarked trivial).elim,
      fun j found => ⟨(inv.mapped j found).1, .inl trivial⟩, fun j new found => ⟨(inv.fresh j new found).1, .inl trivial⟩,
      fun marked => (unmarked0 marked).elim, fun _ _ => ⟨?_, ?_⟩⟩
    · simp [mapped]
    · simp [making.allocator]
  · intro q other
    have lock := making.alone other
    exact ⟨Iff.rfl, fun _ => id, fun _ => id, fun _ _ _ => .inl trivial, fun _ => ⟨trivial, rfl⟩,
      fun theirs => (lock theirs).elim, fun theirs => (lock theirs).elim⟩

omit inv

theorem Making.relied {v' : Scene} (making : Making p i v) (between : Relied p v v') :
    Making p i v' ∧ v'.mapped = v.mapped ∧ ∀ j, v'.held j → v.held j := by
  obtain ⟨entry, unmarked, mapped, allocator, held⟩ :=
    between.own making.lock making.allocator (by simp [making.entry]) making.unmarked
  exact ⟨⟨between.lock.mp making.lock, allocator.trans making.allocator, entry.trans making.entry, unmarked⟩,
    mapped, held⟩

end Transitions

def keepsAllocations (k g : Key) : Machine Pid World Op Op.Res Err :=
  engine.machine (fun p w o c => c.fault = none ∧ (o = .registry (.forget g) → w.locks k ≠ some p →
      w.registry.guests.lookup g = none ∨ w.allocator g = none))
    (fun _ _ => False)

def agreeSpec (v₀ : Scene) (k g : Key) : Spec Pid World Op where
  inv w := Consistent v₀ (w.scene k g)
  rely p w w' := Relied p (w.scene k g) (w'.scene k g)
  guar p w w' := ∀ q, q ≠ p → Relied q (w.scene k g) (w'.scene k g)
  pre _ _ _ := True

theorem compatible_agreeSpec {v₀ : Scene} {k g : Key} : Compatible (keepsAllocations k g) (agreeSpec v₀ k g) where
  refl p _ := Relied.refl p _
  trans _ _ _ _ first second := first.trans second
  guar _ q _ _ other _ _ step := step q other
  crash _ _ _ _ _ _ dies := dies.1.elim
  crashInv _ _ _ _ dies := dies.1.elim

section Effects

variable {w w' : World} {p : Pid} {c : Choice} {k g : Key}

theorem World.perform_registry_error {o : RegOp} {e : Err} (refused : w.perform p c (.registry o) = .error e) :
    w.registry = .fresh ∨ o.mutate c w.registry = .error e := by
  simp only [perform, withLock, bind, Except.bind] at refused
  unfold World.registry
  cases loaded : load w.file with
  | error e => exact .inl rfl
  | ok st =>
    simp only [loaded] at refused ⊢
    cases answer : o.mutate c st with
    | error e' =>
      simp only [answer, Except.error.injEq] at refused
      exact .inr (by rw [refused])
    | ok result =>
      simp only [answer] at refused
      split at refused <;> cases refused

theorem World.fresh_entry (fresh : w.registry = .fresh) : (w.scene k g).entry = none := by
  simp [scene, guestView, fresh, RegistryState.fresh]

def Op.aside : Op → Bool
  | .registry (.guestID _) | .registry (.guestCreated _) | .registry (.baseReady _)
  | .registry (.baseID _) | .registry (.advance _) => true
  | .ls | .info | .mknodes _ => true
  | _ => false

theorem World.scene_eq {u : GuestView} (view : w'.guestView g = u)
    (rest : w'.allocator g = w.allocator g ∧ w'.locks k = w.locks k ∧ w'.pool = w.pool) :
    w'.scene k g = { w.scene k g with entry := u.entry, created := u.created, mapped := u.mapped } := by
  simp only [scene, view, rest]

theorem World.perform_aside {o : Op} {a : o.Res} (aside : o.aside = true)
    (done : w.perform p c o = .ok (w', a)) : w'.scene k g = w.scene k g := by
  unfold Op.aside at aside
  refine scene_eq (perform_guest_frame ?_ done) ?_
  · split at aside <;> simp_all [Op.touchesGuest, RegOp.touchesGuest]
  · split at aside <;> cases perform_does done <;> first | exact ⟨rfl, rfl, rfl⟩ | contradiction

theorem World.setLock_scene (holder : Option Pid) :
    (w.setLock k holder).scene k g = { w.scene k g with lock := holder } := by
  simp only [scene, setLock_locks, Function.update_self]
  rfl

variable {a : Unit}

theorem World.perform_forget_scene (done : w.perform p c (.registry (.forget g)) = .ok (w', a)) :
    w'.scene k g = { w.scene k g with
      entry := none, created := (w.scene k g).created ∧ (w.scene k g).entry = none } := by
  exact scene_eq (perform_forget done) (by cases perform_does done <;> first | exact ⟨rfl, rfl, rfl⟩ | contradiction)

theorem World.perform_mark_scene {base : Id} (done : w.perform p c (.registry (.markGuestCreated g base)) = .ok (w', a)) :
    w'.scene k g = { w.scene k g with created := True } := by
  exact scene_eq (perform_markGuestCreated done).2 (by cases perform_does done <;> first | exact ⟨rfl, rfl, rfl⟩ | contradiction)

theorem World.perform_allocate_scene {a : Id × Bool} (done : w.perform p c (.registry (.allocateGuest g)) = .ok (w', a)) :
    (a.2 = false ∧ (w.scene k g).entry = some a.1 ∧ w'.scene k g = w.scene k g) ∨
    (a.2 = true ∧ (w.scene k g).entry = none ∧
      w'.scene k g = { w.scene k g with entry := some a.1, allocator := some p }) := by
  rcases perform_allocateGuest done with ⟨stale, named, rfl⟩ | ⟨rfl, none, rfl⟩
  · exact .inl ⟨stale, named, rfl⟩
  · exact .inr ⟨rfl, none, by simp [scene, guestView]⟩

variable {id : Id}

theorem World.perform_snap_scene {base : Id} (done : w.perform p c (.createSnap id base g) = .ok (w', a)) :
    w'.scene k g = { w.scene k g with held := fun j => j = id ∨ (w.scene k g).held j } := by
  simp only [perform] at done
  split at done <;> cases done
  have held : ∀ d : Device, (fun j => (w.setPool id (some d)).pool j ≠ none) = fun j => j = id ∨ w.pool j ≠ none := by
    intro d
    funext j
    by_cases same : j = id <;> simp [same]
  simp only [scene, held]
  rfl

theorem World.perform_create_scene {sectors : Nat} (done : w.perform p c (.create (.guest g) id sectors) = .ok (w', a)) :
    (w.scene k g).mapped = none ∧ w'.scene k g = { w.scene k g with mapped := some id } := by
  obtain ⟨unmapped, view⟩ := perform_createGuest done
  exact ⟨unmapped, scene_eq view (by cases perform_does done <;> first | exact ⟨rfl, rfl, rfl⟩ | contradiction)⟩

theorem World.perform_create_refused {sectors : Nat} {e : Err}
    (refused : w.perform p c (.create (.guest g) id sectors) = .error e) :
    (w.scene k g).mapped ≠ none ∨ ¬ (w.scene k g).held id := by
  simp only [perform] at refused
  split at refused
  · next busy =>
    rcases busy with mapped | gone
    · rw [← AList.lookup_isSome, Option.isSome_iff_ne_none] at mapped
      exact .inl mapped
    · exact .inr fun held => held gone
  · cases refused

end Effects

class Lasts (p : Pid) (A : Scene → Prop) : Prop where
  later : ∀ {v v'}, A v → Relied p v v' → A v'

section Lasts

variable {p : Pid} {A B : Scene → Prop} {α : Type}

instance lasts_const {c : Prop} : Lasts p fun _ => c := ⟨fun here _ => here⟩

instance lasts_and [Lasts p A] [Lasts p B] : Lasts p fun v => A v ∧ B v :=
  ⟨fun here between => ⟨Lasts.later here.1 between, Lasts.later here.2 between⟩⟩

instance lasts_imp {c : Prop} [Lasts p A] : Lasts p fun v => c → A v :=
  ⟨fun here between holds => Lasts.later (here holds) between⟩

instance lasts_mapped : Lasts p fun v => v.mapped ≠ none := by
  refine ⟨fun mapped between => ?_⟩
  obtain ⟨i, found⟩ := Option.ne_none_iff_exists'.mp mapped
  simp [between.mapped i found]

instance lasts_created : Lasts p Scene.created := ⟨fun marked between => (between.created marked).1⟩

instance lasts_outside : Lasts p fun v => v.lock ≠ some p :=
  ⟨fun outside between mine => outside (between.lock.mpr mine)⟩

instance lasts_inside : Lasts p fun v => v.lock = some p := ⟨fun inside between => between.lock.mp inside⟩

instance lasts_cleared : Lasts p Scene.Cleared := ⟨fun clear between => between.cleared clear⟩

end Lasts

section Triples

variable {v₀ : Scene} {p : Pid} {k g : Key} {A E : Scene → Prop} {α β : Type}

variable (v₀ p k g) in
def Does (A : Scene → Prop) (m : Act α) (V : α → Scene → Prop) (E : Scene → Prop) : Prop :=
  Leaves (keepsAllocations k g) (agreeSpec v₀ k g) p (fun w => A (w.scene k g)) m fun r w => Results V E r (w.scene k g)

variable {m : Act α} {U : α → Scene → Prop}

theorem does_pre {B : Scene → Prop} (before : ∀ v, A v → B v) (holds : Does v₀ p k g B m U E) : Does v₀ p k g A m U E :=
  leaves_pre (fun _ => before _) holds

theorem does_bind {f : α → Act β} {V : β → Scene → Prop} (first : Does v₀ p k g A m U E)
    (ok : ∀ a, Does v₀ p k g (U a) (f a) V E) : Does v₀ p k g A (m >>= f) V E :=
  leaves_bind first (fun _ _ failed => failed) ok

variable {o : Op} [Lasts p E]

theorem does_issue {V : o.Res → Scene → Prop} [∀ a, Lasts p (V a)]
    (ok : ∀ (w : World) c w' a, Consistent v₀ (w.scene k g) → A (w.scene k g) → w.waits o = false →
      (o = .registry (.forget g) → (w.scene k g).lock ≠ some p →
        (w.scene k g).entry = none ∨ (w.scene k g).allocator = none) →
      w.perform p c o = .ok (w', a) →
      Steps v₀ p (w.scene k g) (w'.scene k g) ∧ V a (w'.scene k g))
    (error : ∀ (w : World) c e, Consistent v₀ (w.scene k g) → A (w.scene k g) → w.perform p c o = .error e →
      E (w.scene k g)) : Does v₀ p k g A (issue o) V E := by
  intro w inv here
  refine ⟨trivial, ?_⟩
  rintro r w' ⟨c, ⟨fine, spared⟩, action⟩
  have goes : w.waits o = false := by
    by_contra waiting
    simp [engine, World.exec, waiting] at action
  rcases World.exec_faultless fine action with ⟨a, rfl, done⟩ | ⟨e, rfl, rfl, refused⟩
  · obtain ⟨⟨inv', step⟩, result⟩ := ok w c w' a inv here goes spared done
    exact ⟨inv', step, fun w'' between _ => Lasts.later (A := V a) result between⟩
  · have result := error w' c e inv here refused
    exact ⟨inv, fun q _ => Relied.refl q _, fun w'' between _ => Lasts.later (A := E) result between⟩

theorem does_aside {B : o.Res → Scene → Prop} [Lasts p A] [∀ a, Lasts p (B a)] (aside : o.aside = true)
    (fails : ∀ v, A v → E v) (answer : ∀ (w : World) c w' a, Consistent v₀ (w.scene k g) → A (w.scene k g) →
      w.perform p c o = .ok (w', a) → B a (w.scene k g)) :
    Does v₀ p k g A (issue o) (fun a v => A v ∧ B a v) E := by
  refine does_issue ?_ fun w c e _ here _ => fails _ here
  intro w c w' a inv here _ _ done
  rw [World.perform_aside aside done]
  exact ⟨inv.steps, here, answer w c w' a inv here done⟩

theorem does_asides (aside : o.aside = true) : Does v₀ p k g E (issue o) (fun _ => E) E := by
  refine does_issue ?_ fun _ _ _ _ here _ => here
  intro w c w' a inv here _ _ done
  rw [World.perform_aside aside done]
  exact ⟨inv.steps, here⟩

theorem does_surely [Lasts p A] (sure : o = .info ∨ ∃ name, o = .mknodes name) :
    Does v₀ p k g A (issue o) (fun _ => A) E := by
  refine does_issue ?_ ?_
  · intro w c w' a inv here _ _ done
    have aside : o.aside = true := by rcases sure with rfl | ⟨name, rfl⟩ <;> rfl
    rw [World.perform_aside aside done]
    exact ⟨inv.steps, here⟩
  · rintro w c e - - refused
    rcases sure with rfl | ⟨name, rfl⟩ <;> cases refused

end Triples

section EnsureGuest

variable {v₀ : Scene} {p : Pid} {k g : Key}

def Settled (p : Pid) (v : Scene) : Prop := v.lock = some p ∧ (v.entry = none ∨ v.created)

instance lasts_settled : Lasts p (Settled p) := by
  refine ⟨?_⟩
  rintro v v' ⟨mine, none | marked⟩ between
  · exact ⟨between.lock.mp mine, .inl (between.empty mine none)⟩
  · exact ⟨between.lock.mp mine, .inr (between.created marked).1⟩

def Numbered (v₀ : Scene) (p : Pid) (i : Id) (v : Scene) : Prop :=
  Making p i v ∧ v.mapped = none ∧ ∀ j, v.held j → v₀.held j

variable {i id : Id}

instance lasts_numbered : Lasts p (Numbered v₀ p i) := by
  refine ⟨?_⟩
  rintro v v' ⟨making, unmapped, old⟩ between
  obtain ⟨making', mapped, held⟩ := making.relied between
  exact ⟨making', mapped.trans unmapped, fun j found => old j (held j found)⟩

def Snapped (p : Pid) (i : Id) (v : Scene) : Prop := Making p i v ∧ v.mapped = none ∧ v.held i

instance lasts_snapped : Lasts p (Snapped p i) := by
  refine ⟨?_⟩
  rintro v v' ⟨making, unmapped, made⟩ between
  obtain ⟨making', mapped, -⟩ := making.relied between
  exact ⟨making', mapped.trans unmapped, between.held i made⟩

def Mapped (p : Pid) (i : Id) (v : Scene) : Prop := Making p i v ∧ v.mapped = some i

instance lasts_mappedOwn : Lasts p (Mapped p i) := by
  refine ⟨?_⟩
  rintro v v' ⟨making, found⟩ between
  obtain ⟨making', mapped, -⟩ := making.relied between
  exact ⟨making', mapped.trans found⟩

variable {base : Id}

theorem does_snapshotBase (sectors : Nat) : Does v₀ p k g (Numbered v₀ p id) (snapshotBase base id (.guest g) sectors g)
    (fun _ => Mapped p id) (Numbered v₀ p id) := by
  refine does_bind (U := fun _ => Snapped p id) (does_issue ?_ fun _ _ _ _ here _ => here) fun _ => ?_
  · rintro w c w' a inv ⟨making, unmapped, -⟩ - - done
    rw [World.perform_snap_scene done]
    exact ⟨inv.snap making, { making with }, unmapped, .inl rfl⟩
  refine does_bind (does_surely (.inl rfl)) fun _ => ?_
  refine does_bind (U := fun _ => Mapped p id) (does_issue ?_ ?_) fun _ => does_surely (.inr ⟨_, rfl⟩)
  · rintro w c w' a inv ⟨making, -⟩ - - done
    obtain ⟨unmapped, view⟩ := World.perform_create_scene (k := k) done
    rw [view]
    exact ⟨inv.map making.entry (.inr making) unmapped, { making with }, rfl⟩
  · rintro w c e - ⟨-, unmapped, made⟩ refused
    rcases World.perform_create_refused (k := k) refused with mapped | gone
    · exact (mapped unmapped).elim
    · exact (gone made).elim

def Left (p : Pid) (g : Key) (path : DevName) (v : Scene) : Prop := Settled p v ∧ path = .guest g ∧ v.mapped ≠ none

theorem does_markGuestCreated : Does v₀ p k g (Mapped p id) (registry (.markGuestCreated g base))
    (fun _ v => Settled p v ∧ v.mapped ≠ none) (Settled p) := by
  refine does_issue ?_ ?_
  · rintro w c w' a inv ⟨making, found⟩ - - done
    rw [World.perform_mark_scene done]
    refine ⟨inv.mark making found, ⟨making.lock, .inr trivial⟩, ?_⟩
    simp [found]
  · -- the entry is there, so the mark is not refused
    rintro w c e - ⟨making, -⟩ refused
    rcases World.perform_registry_error refused with fresh | refused
    · have gone := World.fresh_entry (k := k) (g := g) fresh
      rw [making.entry] at gone
      cases gone
    · have present : g ∈ w.registry.guests := (KeyMap.mem_iff _ _).mpr ⟨id, making.entry⟩
      simp only [RegOp.mutate, RegistryState.markGuestCreated, present, if_true] at refused
      split at refused <;> cases refused

theorem does_forget_own : Does v₀ p k g (Numbered v₀ p id) (registry (.forget g)) (fun _ => Settled p) (Settled p) := by
  refine does_issue ?_ ?_
  · rintro w c w' a inv ⟨making, unmapped, old⟩ - - done
    rw [World.perform_forget_scene done]
    exact ⟨inv.giveUp making unmapped old, making.lock, .inl rfl⟩
  · rintro w c e - ⟨making, -⟩ refused
    rcases World.perform_registry_error refused with fresh | refused
    · exact ⟨making.lock, .inl (World.fresh_entry fresh)⟩
    · simp only [RegOp.mutate, RegistryState.forget] at refused
      split at refused <;> cases refused

theorem does_makeGuest {retry : Act DevName} (sectors : Nat)
    (again : Does v₀ p k g (Settled p) retry (Left p g) (Settled p)) :
    Does v₀ p k g (Numbered v₀ p id) (makeGuest base g (.guest g) sectors id retry) (Left p g) (Settled p) := by
  refine leaves_attempt (does_snapshotBase sectors) fun made => ?_
  cases made with
  | ok a =>
    refine does_bind does_markGuestCreated fun _ => ?_
    exact leaves_pure fun v settled => ⟨settled.1, rfl, settled.2⟩
  | error e =>
    refine does_bind does_forget_own fun _ => ?_
    split
    · exact does_bind (does_asides (o := .registry (.advance id)) rfl) fun _ => again
    · exact leaves_fail fun _ settled => settled

def Recorded (i : Id) (v : Scene) : Prop := v.created ∧ (v.mapped = none → v.entry = some i)

instance lasts_recorded : Lasts p (Recorded i) := by
  refine ⟨?_⟩
  rintro v v' ⟨marked, named⟩ between
  obtain ⟨still, same⟩ := between.created marked
  refine ⟨still, fun unmapped => same.trans (named ?_)⟩
  by_contra mapped
  obtain ⟨j, found⟩ := Option.ne_none_iff_exists'.mp mapped
  rw [between.mapped j found] at unmapped
  cases unmapped

theorem does_activate_recorded {B E : Scene → Prop} [Lasts p B] [Lasts p E] (sectors : Nat)
    (unmapping : ∀ v, B v → B { v with mapped := some i }) (fails : ∀ v, v.created → B v → E v) :
    Does v₀ p k g (fun v => Recorded i v ∧ B v) (activate (.guest g) i sectors)
      (fun _ v => (v.created ∧ B v) ∧ v.mapped ≠ none) E := by
  refine does_bind (does_surely (.inl rfl)) fun _ => ?_
  refine does_bind (does_issue ?_ fun w c e _ here _ => fails _ here.1.1 here.2) fun _ => does_surely (.inr ⟨_, rfl⟩)
  rintro w c w' a inv ⟨⟨marked, named⟩, frame⟩ - - done
  obtain ⟨unmapped, view⟩ := World.perform_create_scene (k := k) done
  rw [view]
  exact ⟨inv.map (named unmapped) (.inl marked) unmapped, ⟨marked, unmapping _ frame⟩, nofun⟩

theorem does_createGuestWithin (base : Id) (sectors attempts : Nat) :
    Does v₀ p k g (Settled p) (createGuestWithin base g (.guest g) sectors attempts) (Left p g) (Settled p) := by
  induction attempts with
  | zero => exact leaves_fail fun _ settled => settled
  | succ attempts ih =>
    unfold createGuestWithin allocateGuest
    split
    · exact leaves_fail fun _ settled => settled
    refine does_bind (U := fun a v => (a.2 = true → Numbered v₀ p a.1 v) ∧
      (a.2 = false → Recorded a.1 v ∧ v.lock = some p)) (does_issue ?_ fun _ _ _ _ settled _ => settled) ?_
    · rintro w c w' ⟨id, fresh⟩ inv ⟨mine, settled⟩ - - done
      rcases World.perform_allocate_scene (k := k) done with ⟨rfl, named, view⟩ | ⟨rfl, none, view⟩
      · have marked := settled.resolve_left (by simp [named])
        rw [view]
        exact ⟨inv.steps, nofun, fun _ => ⟨⟨marked, fun _ => named⟩, mine⟩⟩
      · obtain ⟨unmarked, unmapped, old⟩ := inv.unmade none
        rw [view]
        exact ⟨inv.allocate mine none id, fun _ => ⟨⟨mine, rfl, rfl, unmarked⟩, unmapped, old⟩, nofun⟩
    · rintro ⟨id, fresh⟩
      cases fresh with
      | true => exact does_pre (fun _ here => here.1 rfl) (does_makeGuest sectors ih)
      | false =>
        refine does_bind (does_pre (fun _ here => here.2 rfl) (does_activate_recorded sectors (fun _ inside => inside)
          fun _ marked inside => ⟨inside, .inr marked⟩)) fun _ => ?_
        exact leaves_pure fun v here => ⟨⟨here.1.2, .inr here.1.1⟩, rfl, here.2⟩

theorem does_createGuestLocked (sectors : Nat) :
    Does v₀ p k g (Settled p) (createGuestLocked k g (.guest g) sectors) (Left p g) (Settled p) := by
  refine does_bind (does_asides (o := .registry (.baseReady k)) rfl) fun found => ?_
  cases found with
  | false => exact leaves_fail fun _ settled => settled
  | true =>
    refine does_bind (does_asides (o := .registry (.baseID k)) rfl) fun known => ?_
    cases known with
    | none => exact leaves_fail fun _ settled => settled
    | some base => exact does_createGuestWithin base sectors _

abbrev Outside (p : Pid) (v : Scene) : Prop := v.lock ≠ some p

abbrev Returned (p : Pid) (g : Key) (path : DevName) (v : Scene) : Prop :=
  Outside p v ∧ path = .guest g ∧ v.mapped ≠ none

theorem does_createGuest (sectors : Nat) (nonempty : k ≠ "") :
    Does v₀ p k g (fun v => v.Cleared ∧ Outside p v) (createGuest k g (.guest g) sectors) (Returned p g) (Outside p) := by
  unfold createGuest
  rw [if_neg nonempty]
  refine does_bind (U := fun _ => Settled p) (does_issue ?_ fun _ _ _ _ here _ => here.2) fun _ => ?_
  · rintro w c w' a inv ⟨clear, -⟩ goes - done
    cases done
    have free : w.locks k = none := by simpa [World.waits] using goes
    rw [World.setLock_scene]
    exact ⟨inv.take free clear, rfl, inv.settled free clear⟩
  · refine leaves_deferred (does_createGuestLocked sectors) fun r => ?_
    have unlocks : ∀ {A B : Scene → Prop} [Lasts p B], (∀ v, A v → Settled p v ∧ B { v with lock := none }) →
        Does v₀ p k g A (issue (.unlock k)) (fun _ => B) B := by
      intro A B _ settled
      refine does_issue ?_ ?_
      · rintro w c w' a inv here - - done
        obtain ⟨⟨mine, free⟩, after⟩ := settled _ here
        cases done
        rw [World.setLock_scene]
        exact ⟨inv.release mine free, after⟩
      · rintro w c e - - ⟨⟩
    cases r with
    | ok path =>
      refine leaves_conseq (unlocks (A := Left p g path) (B := Returned p g path) fun v left => ⟨left.1, nofun, left.2⟩)
        (fun _ _ here => here) ?_
      rintro (_ | _) w after <;> exact after
    | error e =>
      refine leaves_conseq (unlocks (A := Settled p) (B := Outside p) fun v settled => ⟨settled, nofun⟩)
        (fun _ _ here => here) ?_
      rintro (_ | _) w after <;> exact after

theorem does_ensureGuest (sizeBytes : Nat) (nonempty : k ≠ "") :
    Does v₀ p k g (Outside p) (ensureGuest k g (.guest g) sizeBytes) (Returned p g) (Outside p) := by
  refine does_bind (U := fun found v => Outside p v ∧ (found = true → v.mapped ≠ none)) ?_ fun found => ?_
  · refine does_bind (does_aside (B := fun names v => .guest g ∈ names → v.mapped ≠ none) (o := .ls) rfl
      (fun _ outside => outside) ?_) fun names => ?_
    · rintro w c w' names - - ⟨⟩ listed
      exact World.mem_keys_iff_mapped.mp listed
    · refine leaves_pure fun v answered => ⟨answered.1, fun found => answered.2 ?_⟩
      simpa using found
  cases found with
  | true => exact leaves_pure fun v answered => ⟨answered.1, rfl, answered.2 rfl⟩
  | false =>
    refine does_bind (does_pre (fun _ here => here.1) (does_aside (A := Outside p) (B := fun known v =>
      (known = none → v.Cleared) ∧ ∀ i, known = some i → v₀.created → v₀.entry = some i) (o := .registry (.guestID g)) rfl
      (fun _ outside => outside) ?_)) fun known => ?_
    · rintro w c w' known inv - done
      obtain ⟨-, rfl⟩ := World.perform_guestID done
      refine ⟨fun none i named => ?_, fun i named marked => ?_⟩
      · cases none.symm.trans named
      · exact (inv.initial marked).2.symm.trans named
    cases known with
    | none => exact does_pre (fun v here => ⟨here.2.1 rfl, here.1⟩) (does_createGuest _ nonempty)
    | some i =>
      refine does_bind (U := fun created v => Outside p v ∧ (created = true → Recorded i v) ∧
        (created = false → ¬ v₀.created)) (does_issue ?_ fun _ _ _ _ here _ => here.1) fun created => ?_
      · rintro w c w' created inv ⟨outside, -, answered⟩ - - done
        obtain ⟨-, marked⟩ := World.perform_guestCreated done
        rw [World.perform_aside rfl done]
        refine ⟨inv.steps, outside, fun yes => ⟨marked.mp yes, fun unmapped => ?_⟩, fun no marked0 => ?_⟩
        · by_cases marked0 : v₀.created
          · exact (inv.initial marked0).2.trans (answered i rfl marked0)
          · exact ((inv.marked marked0 (marked.mp yes)).1 unmapped).elim
        · rw [marked.mpr (inv.initial marked0).1] at no
          cases no
      cases created with
      | true =>
        refine does_bind (does_pre (fun v here => ⟨here.2.1 rfl, here.1⟩) (does_activate_recorded (i := i) _
          (fun _ outside => outside) fun _ _ outside => outside)) fun _ => ?_
        exact leaves_pure fun v kept => ⟨kept.1.2, rfl, kept.2⟩
      | false =>
        refine does_bind (U := fun _ v => v.Cleared ∧ Outside p v) (does_issue ?_ fun _ _ _ _ here _ => here.1)
          fun _ => does_createGuest _ nonempty
        rintro w c w' a inv ⟨outside, -, unmarked0⟩ - spared done
        rw [World.perform_forget_scene done]
        exact ⟨inv.drop (unmarked0 rfl) (spared rfl outside), fun _ => nofun, outside⟩

end EnsureGuest

structure StartsClean (k g : Key) (w : World) : Prop where
  allocator : w.allocator g = none
  lock : w.locks k = none
  known : g ∈ w.registry.created → w.registry.guests.lookup g ≠ none
  mapped : ∀ i, w.maps.lookup (.guest g) = some i → w.registry.guests.lookup g = some i ∧ g ∈ w.registry.created

def ensures (k g : Key) (sizeBytes : Nat) : Act DevName := ensureGuest k g (.guest g) sizeBytes

section Runs

variable {k g : Key} {w₀ : World}

variable (clean : StartsClean k g w₀)
include clean

theorem StartsClean.consistent : Consistent (w₀.scene k g) (w₀.scene k g) where
  known := clean.known
  underway _ _ := .inl clean.allocator
  mapped i found := ⟨(clean.mapped i found).1, .inl (clean.mapped i found).2⟩
  fresh _ new found := (new found).elim
  initial marked := ⟨marked, rfl⟩
  marked unmarked marked := (unmarked marked).elim

theorem sound_ensures (nonempty : k ≠ "") {s : System Pid World Op Op.Res Err DevName}
    (reachable : Reachable (keepsAllocations k g) (fun prog => ∃ n, prog = ensures k g n) w₀ s) :
    Sound (keepsAllocations k g) (agreeSpec (w₀.scene k g) k g) (fun p w => Outside p (w.scene k g))
      (fun p r w => Results (Returned p g) (Outside p) r (w.scene k g)) s := by
  refine sound_reachable compatible_agreeSpec ?_ clean.consistent ?_ reachable
  · rintro p _ w ⟨n, rfl⟩ inv outside
    exact does_ensureGuest n nonempty w inv outside
  · intro p w between _
    refine Lasts.later (A := Outside p) (v := w₀.scene k g) ?_ between
    simp [World.scene, clean.lock]

theorem mapped_later (nonempty : k ≠ "") {s s' : System Pid World Op Op.Res Err DevName}
    (reachable : Reachable (keepsAllocations k g) (fun prog => ∃ n, prog = ensures k g n) w₀ s)
    (later : Relation.ReflTransGen (SysStep (keepsAllocations k g) fun prog => ∃ n, prog = ensures k g n) s s')
    {i : Id} (found : (s.world.scene k g).mapped = some i) : (s'.world.scene k g).mapped = some i := by
  induction later with
  | refl => exact found
  | @tail a b before step ih =>
    have sound := sound_ensures clean nonempty (Relation.ReflTransGen.trans reachable before)
    rcases sound.moves compatible_agreeSpec step with same | ⟨p, kept | dies⟩
    · rw [same]
      exact ih
    · exact (kept (p + 1) (Nat.succ_ne_self p)).mapped i ih
    · exact dies.1.elim

omit clean

/-- The calls that succeed hand out one id, now and later; once all have returned and one has succeeded
the registry records that id as created; and the calls made at most one device between them. -/
theorem ensureGuest_agrees (nonempty : k ≠ "") (clean : StartsClean k g w₀)
    {s s' : System Pid World Op Op.Res Err DevName}
    (reachable : Reachable (keepsAllocations k g) (fun prog => ∃ n, prog = ensures k g n) w₀ s)
    (later : Relation.ReflTransGen (SysStep (keepsAllocations k g) fun prog => ∃ n, prog = ensures k g n) s s') :
    (∀ p q path path', (s.procs p).result = some (.ok path) → (s'.procs q).result = some (.ok path') →
      ∃ i, s.world.maps.lookup path = some i ∧ s'.world.maps.lookup path' = some i) ∧
    ((∀ p, s.procs p = .idle ∨ (s.procs p).result ≠ none) →
      ∀ p path, (s.procs p).result = some (.ok path) → ∃ i, s.world.maps.lookup path = some i ∧
        s.world.registry.guests.lookup g = some i ∧ g ∈ s.world.registry.created) ∧
    (∀ i j, w₀.pool i = none → s.world.pool i ≠ none → w₀.pool j = none → s.world.pool j ≠ none → i = j) := by
  have sound := sound_ensures clean nonempty reachable
  have handed : ∀ p path, (s.procs p).result = some (.ok path) →
      path = .guest g ∧ ∃ i, (s.world.scene k g).mapped = some i := by
    intro p path finished
    obtain ⟨-, named, mapped⟩ := sound.returned compatible_agreeSpec finished
    exact ⟨named, Option.ne_none_iff_exists'.mp mapped⟩
  refine ⟨fun p q path path' finished finished' => ?_, fun all p path finished => ?_, ?_⟩
  · obtain ⟨rfl, i, found⟩ := handed p path finished
    have sound' := sound_ensures clean nonempty (Relation.ReflTransGen.trans reachable later)
    obtain ⟨-, rfl, -⟩ := sound'.returned compatible_agreeSpec finished'
    exact ⟨i, found, mapped_later clean nonempty reachable later found⟩
  · obtain ⟨rfl, i, found⟩ := handed p path finished
    obtain ⟨named, since⟩ := sound.inv.mapped i found
    refine ⟨i, found, named, ?_⟩
    by_contra unmarked
    have given := since.resolve_left unmarked
    rcases sound.inv.underway (by simp [named]) unmarked with none | holder
    · exact given none
    -- whoever was making the device holds the lock still, but nobody is left who could
    · obtain ⟨q, making⟩ := Option.ne_none_iff_exists'.mp given
      have lock : (s.world.scene k g).lock = some q := holder.symm.trans making
      rcases all q with idle | done
      · exact sound.idle q idle s.world (Relied.refl q _) sound.inv lock
      · obtain ⟨_ | path, finished⟩ := Option.ne_none_iff_exists'.mp done
        · exact sound.returned compatible_agreeSpec finished lock
        · exact (sound.returned compatible_agreeSpec finished).1 lock
  · intro i j newI madeI newJ madeJ
    have first := (sound.inv.fresh i (fun held => held newI) madeI).1
    have second := (sound.inv.fresh j (fun held => held newJ) madeJ).1
    exact Option.some.inj (first.symm.trans second)

end Runs

def readyNode : World := (runCalmly 30 (.ensureBase "image" 1 1) emptyNode).1

theorem readyNode_clean : StartsClean "image" "guest" readyNode where
  allocator := by decide
  lock := by decide
  known := by decide
  mapped := by
    have unmapped : readyNode.maps.lookup (.guest "guest") = none := by decide
    intro i found
    cases found

def playGuests (check : Op → Bool) (moves : List (Move Pid Choice Nat)) :
    Option (System Pid World Op Op.Res Err DevName) :=
  engine.play (ensures "image" "guest") (fun _ _ o c => c.fault = none ∧ check o) moves ⟨readyNode, fun _ => .idle⟩

private def calls (p n : Nat) : List (Move Pid Choice Nat) := List.replicate n (.op p calm)

private theorem calls_alive {p q n : Nat} : .crash q ∉ calls p n := by
  intro member
  cases List.eq_of_mem_replicate member

private theorem reached_guests (check : Op → Bool) (moves : List (Move Pid Choice Nat))
    {allowed : Pid → World → Op → Choice → Prop} (passes : ∀ p w o c, c.fault = none → check o = true → allowed p w o c)
    (alive : ∀ p, .crash p ∉ moves) (three : moves.all fun move => Nat.blt move.pid 3)
    {P : System Pid World Op Op.Res Err DevName → Prop} [DecidablePred P]
    (view : (playGuests check moves).map (fun s => decide ((∀ p : Fin 3, (s.procs p.val).result ≠ none) ∧ P s)) = some true) :
    ∃ s, Reachable (engine.machine allowed fun _ _ => False) (fun prog => ∃ n, prog = ensures "image" "guest" n) readyNode s ∧
      (∀ p, s.procs p = .idle ∨ (s.procs p).result ≠ none) ∧ P s := by
  obtain ⟨s, played, seen⟩ := Option.map_eq_some_iff.mp view
  obtain ⟨returned, holds⟩ := of_decide_eq_true seen
  refine ⟨s, reachable_play ?_ (fun p dies => (alive p dies).elim) played, fun p => ?_, holds⟩
  · intro p w o c checked
    rw [decide_eq_true_iff] at checked
    exact passes p w o c checked.1 checked.2
  · by_cases known : Nat.lt p 3
    · exact .inr (returned ⟨p, known⟩)
    · refine .inl (play_procs (fun move member same => known ?_) played)
      rw [← same]
      exact Nat.blt_eq.mp (List.all_eq_true.mp three move member)

private def inTurn : List (Move Pid Choice Nat) :=
  [.start 0 1, .start 1 1] ++ calls 0 2 ++ calls 1 2 ++ calls 0 10 ++ calls 1 7 ++ [.start 2 1] ++ calls 2 1

theorem ensureGuest_agrees_in_turn : ∃ s : System Pid World Op Op.Res Err DevName,
      Reachable (keepsAllocations "image" "guest") (fun prog => ∃ n, prog = ensures "image" "guest" n) readyNode s ∧
      (s.procs 2).result = some (.ok (.guest "guest")) ∧
      ∃ i, s.world.maps.lookup (.guest "guest") = some i ∧
        s.world.registry.guests.lookup "guest" = some i ∧ "guest" ∈ s.world.registry.created := by
  have reached : ∃ s, Reachable (keepsAllocations "image" "guest") (fun prog => ∃ n, prog = ensures "image" "guest" n)
      readyNode s ∧ (∀ p, s.procs p = .idle ∨ (s.procs p).result ≠ none) ∧
      (s.procs 2).result = some (.ok (.guest "guest")) := by
    refine reached_guests (fun o => o ≠ .registry (.forget "guest")) inTurn (fun p w o c fine other => ⟨fine, fun same => ?_⟩)
      (by simp [inTurn, calls_alive]) (by decide) (by decide)
    exact (of_decide_eq_true other same).elim
  obtain ⟨s, reachable, all, ended⟩ := reached
  obtain ⟨-, recorded, -⟩ := ensureGuest_agrees (by decide) readyNode_clean reachable .refl
  exact ⟨s, reachable, ended, recorded all 2 _ ended⟩

private def dropping : List (Move Pid Choice Nat) :=
  [.start 0 1, .start 1 1] ++ calls 0 6 ++ calls 1 4 ++ calls 0 6 ++ calls 1 9 ++ [.start 2 1] ++ calls 2 1

/-- Without crash or failing command: every call has returned, one of them with a path, the registry names
nothing for the guest, and two devices were made for it. -/
theorem ensureGuest_disagrees : "image" ∈ readyNode.registry.ready ∧ StartsClean "image" "guest" readyNode ∧
    ∃ s : System Pid World Op Op.Res Err DevName,
      Reachable (engine.machine (fun _ _ _ c => c.fault = none) fun _ _ => False)
        (fun prog => ∃ n, prog = ensures "image" "guest" n) readyNode s ∧
      (∀ p, s.procs p = .idle ∨ (s.procs p).result ≠ none) ∧
      (s.procs 2).result = some (.ok (.guest "guest")) ∧
      s.world.registry.guests.lookup "guest" = none ∧
      (readyNode.pool 2 = none ∧ s.world.pool 2 ≠ none) ∧ (readyNode.pool 3 = none ∧ s.world.pool 3 ≠ none) := by
  refine ⟨by decide, readyNode_clean, ?_⟩
  exact reached_guests (fun _ => true) dropping (fun _ _ _ _ fine _ => fine) (by simp [dropping, calls_alive]) (by decide)
    (by decide)

end KubeSwift.ThinPool
