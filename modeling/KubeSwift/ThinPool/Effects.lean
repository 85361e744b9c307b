import KubeSwift.ThinPool.Materializer

/-! # What one operation can do to the node -/

namespace KubeSwift.ThinPool
open Program

def Op.locking : Op → Bool
  | .lock _ | .tryLock _ | .unlock _ => true
  | _ => false

namespace World

@[simp] theorem store_registry (w : World) (p : Pid) (o : RegOp) (st : RegistryState) :
    (w.store p o st).registry = st.atLeastFirst := rfl

@[simp] theorem setPool_registry (w : World) (id : Id) (d : Option Device) :
    (w.setPool id d).registry = w.registry := rfl

@[simp] theorem setLock_registry (w : World) (key : Key) (holder : Option Pid) :
    (w.setLock key holder).registry = w.registry := rfl

variable {c : Choice} {p : Pid} {w w' : World}

theorem exec_cases {o : Op} {r : Except Err o.Res} (action : exec p c w o = some (w', r)) :
    (∃ v, r = .ok v ∧ w.perform p c o = .ok (w', v)) ∨
    (∃ e, r = .error e ∧ (w' = w ∨ ∃ v, w.perform p c o = .ok (w', v))) := by
  unfold exec at action
  split at action
  · cases action
  · exact withFault_cases (Option.some.inj action)

theorem exec_faultless {o : Op} {r : Except Err o.Res} (fine : c.fault = none) (action : exec p c w o = some (w', r)) :
    (∃ v, r = .ok v ∧ w.perform p c o = .ok (w', v)) ∨
    (∃ e, r = .error e ∧ w' = w ∧ w.perform p c o = .error e) := by
  unfold exec at action
  split at action
  · cases action
  · rw [fine, ite_self] at action
    exact withFault_none (Option.some.inj action)

theorem withLock_cases {o : RegOp} {v : o.Res} (done : w.withLock p c o = .ok (w', v)) :
    (w' = w ∧ o.mutate c w.registry = .ok (none, v)) ∨
    (∃ st, w' = w.store p o st ∧ o.mutate c w.registry = .ok (some st, v)) := by
  unfold withLock at done
  unfold registry
  cases loaded : load w.file with
  | error e => simp [loaded, bind, Except.bind] at done
  | ok st =>
    simp only [loaded, bind, Except.bind] at done ⊢
    cases answer : o.mutate c st with
    | error e => simp [answer] at done
    | ok result =>
      obtain ⟨changed, value⟩ := result
      simp only [answer] at done
      cases changed with
      | none =>
        simp only [Except.ok.injEq, Prod.mk.injEq] at done
        exact .inl ⟨done.1.symm, by rw [done.2]⟩
      | some st' =>
        simp only [Except.ok.injEq, Prod.mk.injEq] at done
        exact .inr ⟨st', done.1.symm, by rw [done.2]⟩

inductive Does (p : Pid) (c : Choice) (w : World) : Op → World → Prop
  | nothing {o : Op} : Does p c w o w
  | lock {o : Op} {key : Key} {holder : Option Pid} (locking : o.locking = true) : Does p c w o (w.setLock key holder)
  | store {r : RegOp} {st : RegistryState} {v : r.Res} (changed : r.mutate c w.registry = .ok (some st, v)) :
      Does p c w (.registry r) (w.store p r st)
  | createThin {id : Id} {owner : Key} (free : w.pool id = none) :
      Does p c w (.createThin id owner) (w.setPool id (some ⟨.base owner, fun _ => 0, []⟩))
  | createSnap {id base : Id} {owner : Key} {b : Device} (free : w.pool id = none) :
      Does p c w (.createSnap id base owner) (w.setPool id (some ⟨.guest owner, b.content, []⟩))
  | delete {id : Id} {owner : Owner} : Does p c w (.delete id owner) (w.setPool id none)
  | create {name : DevName} {id : Id} {sectors : Nat} :
      Does p c w (.create name id sectors) { w with maps := w.maps.insert name id }
  | remove {name : DevName} : Does p c w (.remove name) { w with maps := w.maps.erase name }
  | writeAt {fd off : Nat} {data : List UInt8} {d : Device} (present : w.pool fd = some d) :
      Does p c w (.writeAt fd off data) (w.setPool fd (some (d.record (.write p off data))))
  | sync {fd : Id} {d : Device} (present : w.pool fd = some d) :
      Does p c w (.sync fd) (w.setPool fd (some (d.record (.sync p))))

theorem perform_does {o : Op} {v : o.Res} (done : w.perform p c o = .ok (w', v)) : Does p c w o w' := by
  cases o with
  | registry r =>
    rcases withLock_cases done with ⟨rfl, -⟩ | ⟨st, rfl, changed⟩
    · exact .nothing
    · exact .store changed
  | lock | unlock =>
    cases done
    exact .lock rfl
  | _ =>
    simp only [perform] at done
    grind [Does, Op.locking]

end World

structure GuestView where
  entry : Option Id
  created : Prop
  mapped : Option Id

def World.guestView (w : World) (g : Key) : GuestView where
  entry := w.registry.guests.lookup g
  created := g ∈ w.registry.created
  mapped := w.maps.lookup (.guest g)

def RegOp.touchesGuest (g : Key) : RegOp → Prop
  | .allocateGuest key | .forget key | .markGuestCreated key _ => key = g
  | _ => False

def Op.touchesGuest (g : Key) : Op → Prop
  | .registry o => o.touchesGuest g
  | .create name _ _ | .remove name => name = .guest g
  | _ => False

variable {c : Choice} {o : Op} {p : Pid} {w w' : World} {k : Key}

variable {st st' : RegistryState} {v : o.Res}

theorem RegOp.mutate_guest_frame {o : RegOp} {v : o.Res} {g : Key} (away : ¬ o.touchesGuest g)
    (done : o.mutate c st = .ok (some st', v)) :
    st'.guests.lookup g = st.guests.lookup g ∧ (g ∈ st'.created ↔ g ∈ st.created) := by
  cases mutate_changes done <;> grind [touchesGuest]

theorem World.perform_guest_frame {g : Key} (away : ¬ o.touchesGuest g) (done : w.perform p c o = .ok (w', v)) :
    w'.guestView g = w.guestView g := by
  cases perform_does done with
  | store changed =>
    obtain ⟨entry, created⟩ := RegOp.mutate_guest_frame away changed
    simp [guestView, entry, created]
  | @create name | @remove name =>
    have other : DevName.guest g ≠ name := fun same => away same.symm
    simp [guestView, World.registry, other]
  | _ => rfl

namespace World

variable {w w' : World} {p : Pid} {c : Choice} {g : Key}

theorem perform_guestID {v : Option Id} (done : w.perform p c (.registry (.guestID g)) = .ok (w', v)) :
    w' = w ∧ v = (w.guestView g).entry := by
  rcases withLock_cases done with ⟨rfl, ⟨⟩⟩ | ⟨st, rfl, ⟨⟩⟩
  exact ⟨rfl, rfl⟩

theorem perform_guestCreated {v : Bool} (done : w.perform p c (.registry (.guestCreated g)) = .ok (w', v)) :
    w' = w ∧ (v = true ↔ (w.guestView g).created) := by
  rcases withLock_cases done with ⟨rfl, ⟨⟩⟩ | ⟨st, rfl, ⟨⟩⟩
  exact ⟨rfl, decide_eq_true_iff⟩

variable {v : Unit}

theorem perform_forget (done : w.perform p c (.registry (.forget g)) = .ok (w', v)) :
    w'.guestView g = { w.guestView g with
      entry := none, created := (w.guestView g).created ∧ (w.guestView g).entry = none } := by
  rcases withLock_cases done with ⟨rfl, answer⟩ | ⟨st, rfl, answer⟩
  · have absent : g ∉ w'.registry.guests := fun known => by simp [RegOp.mutate, RegistryState.forget, known] at answer
    simp [guestView, AList.lookup_eq_none.mpr absent]
  · cases RegOp.mutate_changes answer with
    | forget known =>
      obtain ⟨id, named⟩ := (KeyMap.mem_iff _ _).mp known
      simp [guestView, named]

theorem perform_allocateGuest {v : Id × Bool} (done : w.perform p c (.registry (.allocateGuest g)) = .ok (w', v)) :
    (v.2 = false ∧ w.registry.guests.lookup g = some v.1 ∧ w' = w) ∨
    (v = (w.registry.nextID, true) ∧ w.registry.guests.lookup g = none ∧ w' = w.store p (.allocateGuest g)
      { w.registry with
        guests := w.registry.guests.insert g w.registry.nextID, nextID := (w.registry.nextID + 1) % idLimit }) := by
  rcases withLock_cases done with ⟨rfl, answer⟩ | ⟨st, rfl, answer⟩ <;>
    simp only [RegOp.mutate, RegistryState.allocateGuest, RegistryState.allocate] at answer <;>
    split at answer <;> cases answer
  · next known => exact .inl ⟨rfl, known, rfl⟩
  · next unknown => exact .inr ⟨rfl, unknown, rfl⟩

theorem perform_markGuestCreated {base : Id} (done : w.perform p c (.registry (.markGuestCreated g base)) = .ok (w', v)) :
    (w.guestView g).entry ≠ none ∧ w'.guestView g = { w.guestView g with created := True } := by
  rcases withLock_cases done with ⟨rfl, answer⟩ | ⟨st, rfl, answer⟩ <;>
    simp only [RegOp.mutate, RegistryState.markGuestCreated] at answer <;>
    split at answer <;> try (simp at answer; done)
  · next present =>
    obtain ⟨id, known⟩ := (KeyMap.mem_iff _ _).mp present
    split at answer
    · next marked => exact ⟨by simp [guestView, known], by simp [guestView, marked.1]⟩
    · simp at answer
  · next present =>
    obtain ⟨id, known⟩ := (KeyMap.mem_iff _ _).mp present
    split at answer
    · simp at answer
    · cases answer
      exact ⟨by simp [guestView, known], by simp [guestView]⟩

theorem perform_createGuest {id : Id} {sectors : Nat}
    (done : w.perform p c (.create (.guest g) id sectors) = .ok (w', v)) :
    (w.guestView g).mapped = none ∧ w'.guestView g = { w.guestView g with mapped := some id } := by
  simp only [perform] at done
  split at done
  · simp at done
  · next fits =>
    cases done
    rw [KeyMap.mem_iff] at fits
    push Not at fits
    refine ⟨Option.eq_none_iff_forall_ne_some.mpr fits.1, ?_⟩
    simp [guestView, registry]

theorem perform_removeGuest (done : w.perform p c (.remove (.guest g)) = .ok (w', v)) :
    w'.guestView g = { w.guestView g with mapped := none } := by
  simp only [perform] at done
  split at done
  · cases done
    simp [guestView, registry]
  · simp at done

theorem mem_keys_iff_mapped {w : World} {g : Key} : DevName.guest g ∈ w.maps.keys ↔ (w.guestView g).mapped ≠ none := by
  rw [← AList.mem_keys, ← AList.lookup_isSome, Option.isSome_iff_ne_none]
  rfl

end World

structure BaseView where
  entry : Option Id
  ready : Prop
  mapped : Option Id
  device : Option Device

def World.baseView (w : World) (k : Key) : BaseView where
  entry := w.registry.bases.lookup k
  ready := k ∈ w.registry.ready
  mapped := w.maps.lookup (.base k)
  device := (w.registry.bases.lookup k).bind w.pool

def RegOp.touchesBase (k : Key) : RegOp → Prop
  | .allocateBase key | .forgetBase key | .markBaseReady key => key = k
  | _ => False

def Op.touchesBase (w : World) (k : Key) : Op → Prop
  | .registry o => o.touchesBase k
  | .create name _ _ | .remove name => name = .base k
  | .createThin id _ | .createSnap id _ _ | .delete id _ | .writeAt id _ _ | .sync id =>
    (w.baseView k).entry = some id
  | _ => False

theorem RegOp.mutate_base_frame {o : RegOp} {v : o.Res} (away : ¬ o.touchesBase k)
    (done : o.mutate c st = .ok (some st', v)) :
    st'.bases.lookup k = st.bases.lookup k ∧ (k ∈ st'.ready ↔ k ∈ st.ready) := by
  cases mutate_changes done <;> grind [touchesBase]

theorem World.setPool_base_frame {id : Id} {d : Option Device} (away : (w.baseView k).entry ≠ some id) :
    (w.setPool id d).baseView k = w.baseView k := by
  have device : ((w.setPool id d).baseView k).device = (w.baseView k).device := by
    simp only [baseView, setPool_registry, setPool_pool]
    cases named : w.registry.bases.lookup k with
    | none => rfl
    | some i =>
      have other : i ≠ id := fun same => away (by simp [baseView, named, same])
      simp [other]
  simpa [baseView] using device

theorem World.perform_base_frame (away : ¬ o.touchesBase w k) (done : w.perform p c o = .ok (w', v)) :
    w'.baseView k = w.baseView k := by
  cases perform_does done with
  | store changed =>
    obtain ⟨entry, ready⟩ := RegOp.mutate_base_frame away changed
    simp [baseView, entry, ready]
  | @create name | @remove name =>
    have other : DevName.base k ≠ name := fun same => away same.symm
    simp [baseView, World.registry, other]
  | createThin | createSnap | delete | writeAt | sync => exact setPool_base_frame away
  | nothing | lock => rfl

theorem World.perform_locks (plain : o.locking = false) (done : w.perform p c o = .ok (w', v)) :
    w'.locks = w.locks := by
  cases perform_does done with
  | lock locking => cases plain.symm.trans locking
  | _ => rfl

theorem RegOp.mutate_counter {o : RegOp} {v : o.Res} (limit : st.nextID + 1 < idLimit)
    (settled : ∀ past, o = .advance past → past < st.nextID) (done : o.mutate c st = .ok (some st', v)) :
    st.nextID ≤ st'.nextID := by
  have next : (st.nextID + 1) % idLimit = st.nextID + 1 := Nat.mod_eq_of_lt limit
  cases mutate_changes done <;> grind

theorem World.perform_counter (limit : w.registry.nextID + 1 < idLimit)
    (settled : ∀ past, o = .registry (.advance past) → past < w.registry.nextID)
    (done : w.perform p c o = .ok (w', v)) : w.registry.nextID ≤ w'.registry.nextID := by
  cases perform_does done with
  | store changed =>
    have forward := RegOp.mutate_counter limit (fun past same => settled past (same ▸ rfl)) changed
    exact le_trans forward (le_max_left _ _)
  | _ => exact le_refl _

theorem World.setPool_baseView {id : Id} {d : Option Device} (named : (w.baseView k).entry = some id) :
    (w.setPool id d).baseView k = { w.baseView k with device := d } := by
  have entry : w.registry.bases.lookup k = some id := named
  simp [baseView, entry]

namespace World

variable {w w' : World} {p : Pid} {c : Choice} {k : Key}

theorem perform_baseID {v : Option Id} (done : w.perform p c (.registry (.baseID k)) = .ok (w', v)) :
    w' = w ∧ v = (w.baseView k).entry := by
  rcases withLock_cases done with ⟨rfl, ⟨⟩⟩ | ⟨st, rfl, ⟨⟩⟩
  exact ⟨rfl, rfl⟩

theorem perform_baseReady {v : Bool} (done : w.perform p c (.registry (.baseReady k)) = .ok (w', v)) :
    w' = w ∧ (v = true ↔ (w.baseView k).ready) := by
  rcases withLock_cases done with ⟨rfl, ⟨⟩⟩ | ⟨st, rfl, ⟨⟩⟩
  exact ⟨rfl, decide_eq_true_iff⟩

theorem perform_allocateBase {v : Id × Bool} (done : w.perform p c (.registry (.allocateBase k)) = .ok (w', v)) :
    (v.2 = false ∧ w.registry.bases.lookup k = some v.1 ∧ w' = w) ∨
    (v = (w.registry.nextID, true) ∧ w.registry.bases.lookup k = none ∧ w' = w.store p (.allocateBase k)
      { w.registry with
        bases := w.registry.bases.insert k w.registry.nextID, nextID := (w.registry.nextID + 1) % idLimit }) := by
  rcases withLock_cases done with ⟨rfl, answer⟩ | ⟨st, rfl, answer⟩ <;>
    simp only [RegOp.mutate, RegistryState.allocateBase, RegistryState.allocate] at answer <;>
    split at answer <;> cases answer
  · next known => exact .inl ⟨rfl, known, rfl⟩
  · next unknown => exact .inr ⟨rfl, unknown, rfl⟩

variable {v : Unit} {id : Id}

theorem perform_forgetBase (done : w.perform p c (.registry (.forgetBase k)) = .ok (w', v)) :
    w'.baseView k = { w.baseView k with
      entry := none, ready := (w.baseView k).ready ∧ (w.baseView k).entry = none, device := none } := by
  rcases withLock_cases done with ⟨rfl, answer⟩ | ⟨st, rfl, answer⟩
  · have absent : k ∉ w'.registry.bases := fun known => by simp [RegOp.mutate, RegistryState.forgetBase, known] at answer
    simp [baseView, AList.lookup_eq_none.mpr absent]
  · cases RegOp.mutate_changes answer with
    | forgetBase known =>
      obtain ⟨id, named⟩ := (KeyMap.mem_iff _ _).mp known
      simp [baseView, named]

theorem perform_markBaseReady (done : w.perform p c (.registry (.markBaseReady k)) = .ok (w', v)) :
    w'.baseView k = { w.baseView k with ready := True } := by
  rcases withLock_cases done with ⟨rfl, answer⟩ | ⟨st, rfl, answer⟩ <;>
    simp only [RegOp.mutate, RegistryState.markBaseReady] at answer <;>
    split at answer <;> try (simp at answer; done)
  all_goals split at answer <;> try (simp at answer; done)
  · next marked => simp [baseView, marked]
  · cases answer
    simp [baseView]

theorem perform_createBase {sectors : Nat} (done : w.perform p c (.create (.base k) id sectors) = .ok (w', v)) :
    w'.baseView k = { w.baseView k with mapped := some id } := by
  simp only [perform] at done
  split at done
  · simp at done
  · cases done
    simp [baseView, registry]

theorem perform_removeBase (done : w.perform p c (.remove (.base k)) = .ok (w', v)) :
    w'.baseView k = { w.baseView k with mapped := none } := by
  simp only [perform] at done
  split at done
  · cases done
    simp [baseView, registry]
  · simp at done

theorem perform_createThin {owner : Key} (named : (w.baseView k).entry = some id)
    (done : w.perform p c (.createThin id owner) = .ok (w', v)) :
    w'.baseView k = { w.baseView k with device := some ⟨.base owner, fun _ => 0, []⟩ } := by
  simp only [perform] at done
  split at done <;> cases done
  exact setPool_baseView named

theorem perform_delete {owner : Owner} (named : (w.baseView k).entry = some id)
    (done : w.perform p c (.delete id owner) = .ok (w', v)) :
    w'.baseView k = { w.baseView k with device := none } := by
  simp only [perform] at done
  split at done
  · cases done
  · split at done <;> cases done
    exact setPool_baseView named

/-- What a write and a sync do to the device of a base. -/
theorem perform_record {id : Id} {e : DeviceEvent} {err : Err} (named : (w.baseView k).entry = some id)
    (done : (match w.pool id with
      | some d => Except.ok (w.setPool id (some (d.record e)), ())
      | none => .error err) = .ok (w', v)) :
    ∃ d, (w.baseView k).device = some d ∧ w'.baseView k = { w.baseView k with device := some (d.record e) } := by
  have entry : w.registry.bases.lookup k = some id := named
  split at done <;> cases done
  next d found => exact ⟨d, by simp [baseView, entry, found], setPool_baseView named⟩

end World

end KubeSwift.ThinPool
