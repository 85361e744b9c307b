import KubeSwift.Program.Triples
import KubeSwift.ThinPool.History
import KubeSwift.ThinPool.Reservations

/-! # Making room for a base

`makeRoomFor` with its operations written down: which bases it tries to evict, in which order, and what `Reserve` had
answered. -/

namespace KubeSwift.ThinPool
open Program Prog

namespace RegistryState

variable {st : RegistryState}

def Shared (st : RegistryState) (key : Key) : Prop :=
  ∃ id, st.bases.lookup key = some id ∧ ∃ g ∈ st.guests, st.derived.lookup g = some id

def Sooner (st : RegistryState) (a b : Key) : Prop :=
  (¬ st.Shared a ∧ st.Shared b) ∨ ((st.Shared a ↔ st.Shared b) ∧ st.lastUse a ≤ st.lastUse b)

structure Order (st : RegistryState) (order : List Key) : Prop where
  perm : order.Perm st.bases.keys
  sooner : order.Pairwise st.Sooner

theorem mem_inUse {id : Id} : id ∈ st.inUse ↔ ∃ g ∈ st.guests, st.derived.lookup g = some id := by
  simp only [inUse, List.mem_map, List.mem_filter, decide_eq_true_eq]
  constructor
  · rintro ⟨e, ⟨member, live⟩, rfl⟩
    exact ⟨e.1, live, KeyMap.mem_entries.mp member⟩
  · rintro ⟨g, live, found⟩
    exact ⟨⟨g, id⟩, ⟨KeyMap.mem_entries.mpr found, live⟩, rfl⟩

theorem shared_iff {e : Sigma fun _ : Key => Id} (member : e ∈ st.bases.entries) : st.Shared e.1 ↔ e.2 ∈ st.inUse := by
  rw [mem_inUse, Shared, KeyMap.mem_entries.mp member]
  simp

theorem pairwise_lruOrder (keys : List Key) : (st.lruOrder keys).Pairwise fun a b => st.lastUse a ≤ st.lastUse b := by
  let before : Key → Key → Prop := fun a b => st.lastUse a < st.lastUse b ∨ (st.lastUse a = st.lastUse b ∧ a ≤ b)
  have total : Std.Total before := ⟨fun a b => by
    rcases lt_trichotomy (st.lastUse a) (st.lastUse b) with less | same | more
    · exact .inl (.inl less)
    · exact (String.le_total a b).imp (fun le => .inr ⟨same, le⟩) fun le => .inr ⟨same.symm, le⟩
    · exact .inr (.inl more)⟩
  have trans : IsTrans Key before := ⟨fun a b c => by
    rintro (less | ⟨same, le⟩) (less' | ⟨same', le'⟩)
    · exact .inl (less.trans less')
    · exact .inl (same' ▸ less)
    · exact .inl (same ▸ less')
    · exact .inr ⟨same.trans same', String.le_trans le le'⟩⟩
  refine (List.pairwise_insertionSort before keys).imp ?_
  rintro a b (less | ⟨same, -⟩)
  · exact less.le
  · exact same.le

variable {changed : Option RegistryState}

theorem evictionOrder_order {order : List Key} {shared : Nat}
    (listed : st.evictionOrder = .ok (changed, (order, shared))) : st.Order order := by
  cases listed
  have same : ∀ keys, (st.lruOrder keys).Perm keys := fun keys => List.perm_insertionSort _ keys
  have split := (List.filter_append_perm (fun e => decide (e.2 ∉ st.inUse)) st.bases.entries).map fun e => e.1
  have group : ∀ (inUse : Id → Bool) (shared : Prop), (∀ e ∈ st.bases.entries, inUse e.2 = true → (st.Shared e.1 ↔ shared)) →
      ∀ key ∈ st.lruOrder ((st.bases.entries.filter fun e => inUse e.2).map fun e => e.1), st.Shared key ↔ shared := by
    intro inUse shared all key member
    obtain ⟨e, found, rfl⟩ := List.mem_map.mp ((same _).mem_iff.mp member)
    exact all e (List.mem_filter.mp found).1 (List.mem_filter.mp found).2
  have free := group (fun id => id ∉ st.inUse) False fun e member unused => by simpa [shared_iff member] using unused
  have held := group (fun id => id ∈ st.inUse) True fun e member used => by simpa [shared_iff member] using used
  refine ⟨?_, List.pairwise_append.mpr ⟨?_, ?_, ?_⟩⟩
  · refine ((same _).append (same _)).trans ?_
    show List.Perm _ (st.bases.entries.map fun e => e.1)
    simpa using split
  · exact (pairwise_lruOrder _).imp_of_mem fun a b le => .inr ⟨(free _ a).trans (free _ b).symm, le⟩
  · exact (pairwise_lruOrder _).imp_of_mem fun a b le => .inr ⟨(held _ a).trans (held _ b).symm, le⟩
  · exact fun a member b member' => .inl ⟨(free a member).mp, (held b member').mpr trivial⟩

end RegistryState

def Op.tried : Op → Option Key
  | .tryLock key => some key
  | _ => none

def attempts (log : Log) : List Key := (log.filterMap fun e => e.op.tried).reverse

def listings (log : Log) : List RegistryState :=
  (log.filter fun e => e.op = .registry .evictionOrder).map fun e => e.world.registry

/-- The last thing done, a listing of the bases apart, was a `Reserve` that left the world as it is and was refused; asked
again with what it read it would be refused once more. -/
def Refused (p : Pid) (keep : Key) (sizeBytes : Nat) (log : Log) (w : World) : Prop :=
  ∃ (before : World) (c : Choice) (lists rest : Log) (available again : Nat) (changed : Option RegistryState),
    log = lists ++ ⟨before, .registry (.reserve keep sizeBytes), c⟩ :: rest ∧
    (∀ l ∈ lists, l.op = .registry .evictionOrder) ∧
    World.exec p c before (.registry (.reserve keep sizeBytes)) = some (w, .ok (false, available)) ∧
    RegistryState.reserve keep sizeBytes c.status.freeBytes c.now w.registry = .ok (changed, (false, again))

def Needed (p : Pid) (keep : Key) (sizeBytes : Nat) : Log → Prop
  | [] => True
  | e :: before => (∀ key, e.op.tried = some key → Refused p keep sizeBytes before e.world) ∧ Needed p keep sizeBytes before

def Granted (keep : Key) (sizeBytes : Nat) (w : World) : Prop :=
  ∃ now, w.registry.reserved.lookup keep = some ⟨sizeBytes, some now⟩

structure Tried (p : Pid) (keep : Key) (sizeBytes : Nat) (listed : List RegistryState) (tried : List Key) (s : World × Log) : Prop where
  listed : listings s.2 = listed
  tried : attempts s.2 = tried
  needed : Needed p keep sizeBytes s.2

variable {keep key : Key} {sizeBytes : Nat} {p : Pid} {listed : List RegistryState} {tried : List Key} {α : Type}

abbrev Logs (p : Pid) (P : World × Log → Prop) (m : Act α) (Q : Except Err α → World × Log → Prop) : Prop :=
  Leaves (engine.logged.machine (fun _ _ _ _ => True) fun _ _ => True) .plain p P m Q

theorem logs_issue {o : Op} {P : World × Log → Prop} {Q : Except Err o.Res → World × Log → Prop}
    (after : ∀ w log c w' r, P (w, log) → World.exec p c w o = some (w', r) → Q r (w', ⟨w, o, c⟩ :: log)) :
    Logs p P (issue o) Q :=
  fun s _ here => (wp_logged o Q s).mpr fun c w' r _ ran => after s.1 s.2 c w' r here ran

def Op.noted : Op → Bool
  | .tryLock _ | .registry .evictionOrder => true
  | _ => false

theorem Tried.next {w w' : World} {log : Log} {o : Op} {c : Choice} (so : Tried p keep sizeBytes listed tried (w, log))
    (other : o.noted = false) : Tried p keep sizeBytes listed tried (w', ⟨w, o, c⟩ :: log) := by
  have untried : o.tried = none := by cases o <;> first | rfl | cases other
  have unlisted : o ≠ .registry .evictionOrder := by
    rintro rfl
    cases other
  refine ⟨?_, ?_, fun key tries => ?_, so.needed⟩
  · simpa [listings, unlisted] using so.listed
  · simpa [attempts, untried] using so.tried
  · cases untried.symm.trans tries

theorem logs_other {o : Op} (other : o.noted = false) :
    Logs p (Tried p keep sizeBytes listed tried) (issue o) fun _ => Tried p keep sizeBytes listed tried :=
  logs_issue fun _ _ _ _ _ so _ => so.next other

theorem reserve_cases {st st' : RegistryState} {ok : Bool} {free now available : Nat}
    (done : RegistryState.reserve keep sizeBytes free now st = .ok (changed, (ok, available)))
    (left : st'.reserved = (changed.getD st).reserved) :
    if ok then st'.reserved.lookup keep = some ⟨sizeBytes, some now⟩
    else ∃ changed' available', RegistryState.reserve keep sizeBytes free now st' = .ok (changed', (false, available')) := by
  simp only [RegistryState.reserve] at done ⊢
  split at done
  · next short =>
    cases done
    refine ⟨_, _, if_pos (lt_of_le_of_lt (Nat.sub_le_sub_left ?_ free) short)⟩
    rw [left, heldByOthers_eq_sum, heldByOthers_eq_sum]
    refine KeyMap.sum_le (fun k claim found => ?_) fun _ _ _ => le_rfl
    rw [KeyMap.lookup_erase] at found ⊢
    split at found
    · cases found
    · next other =>
      rw [if_neg other]
      refine RegistryState.lookup_dropLapsed.mpr ⟨?_, (RegistryState.lookup_dropLapsed.mp found).2⟩
      split
      · exact (RegistryState.lookup_dropLapsed.mp found).1
      · exact found
  · cases done
    rw [left]
    exact AList.lookup_insert _

theorem logs_reserve : Logs p (Tried p keep sizeBytes listed tried) (registry (.reserve keep sizeBytes))
    (Results (fun answer s => Tried p keep sizeBytes listed tried s ∧
      if answer.1 then Granted keep sizeBytes s.1 else Refused p keep sizeBytes s.2 s.1) (Tried p keep sizeBytes listed tried)) := by
  refine logs_issue fun w log c w' r so ran => ?_
  have next : Tried p keep sizeBytes listed tried (w', ⟨w, .registry (.reserve keep sizeBytes), c⟩ :: log) := so.next rfl
  rcases World.exec_cases ran with ⟨⟨ok, available⟩, rfl, done⟩ | ⟨e, rfl, -⟩
  · refine ⟨next, ?_⟩
    obtain ⟨changed, mutated, left⟩ : ∃ changed, RegistryState.reserve keep sizeBytes c.status.freeBytes c.now w.registry =
        .ok (changed, (ok, available)) ∧ w'.registry.reserved = (changed.getD w.registry).reserved := by
      rcases World.withLock_cases done with ⟨rfl, mutated⟩ | ⟨st, rfl, mutated⟩
      · exact ⟨none, mutated, rfl⟩
      · exact ⟨some st, mutated, by simp⟩
    have outcome := reserve_cases mutated left
    cases ok with
    | true => exact ⟨c.now, outcome⟩
    | false =>
      obtain ⟨changed', available', again⟩ := outcome
      exact ⟨w, c, [], log, available, available', changed', rfl, List.forall_mem_nil _, ran, again⟩
  · exact next

theorem logs_evictBase : Logs p (fun s => Tried p keep sizeBytes listed tried s ∧ Refused p keep sizeBytes s.2 s.1)
    (evictBase key) fun _ => Tried p keep sizeBytes listed (tried ++ [key]) := by
  have tryLock : Logs p (fun s => Tried p keep sizeBytes listed tried s ∧ Refused p keep sizeBytes s.2 s.1)
      (issue (.tryLock key)) fun _ => Tried p keep sizeBytes listed (tried ++ [key]) := by
    refine logs_issue fun w log c w' r ⟨so, refused⟩ _ => ⟨?_, ?_, fun _ _ => refused, so.needed⟩
    · simpa [listings] using so.listed
    · simpa [attempts, Op.tried] using so.tried
  refine leaves_bind tryLock (fun _ _ here => here) fun taken => closed_leaves.ite ?_ (closed_leaves.pure _)
  refine closed_leaves.deferred (closed_evictLocked closed_leaves (logs_other rfl) (fun o maps => logs_other ?_)
    (fun _ => logs_other rfl) (logs_other rfl)) (logs_other rfl)
  cases o <;> first | rfl | cases maps

def Ended (p : Pid) (keep : Key) (sizeBytes : Nat) (listed : List RegistryState) (tried keys : List Key) (r : Except Err Unit)
    (s : World × Log) : Prop :=
  ∃ more, more <+: keys.filter (· ≠ keep) ∧ Tried p keep sizeBytes listed (tried ++ more) s ∧
    (r = .ok () → Granted keep sizeBytes s.1)

theorem logs_evictUntilFits (others shared : Nat) (keys : List Key) (evicted available : Nat) :
    Logs p (fun s => Tried p keep sizeBytes listed tried s ∧ Refused p keep sizeBytes s.2 s.1)
      (evictUntilFits sizeBytes keep others shared keys evicted available) (Ended p keep sizeBytes listed tried keys) := by
  induction keys generalizing tried evicted available with
  | nil => exact leaves_fail fun s here => ⟨[], List.nil_prefix, by simpa using here.1, nofun⟩
  | cons key keys ih =>
    unfold evictUntilFits
    split
    · next same =>
      refine leaves_conseq (ih _ _) (fun _ _ here => here) ?_
      rintro r s ⟨more, first, rest⟩
      exact ⟨more, by simpa [same] using first, rest⟩
    · next other =>
      have first : [key] <+: (key :: keys).filter (· ≠ keep) := by simp [other]
      refine leaves_bind logs_evictBase (fun _ _ so => ⟨[key], first, so, nofun⟩) fun gone => ?_
      refine leaves_bind logs_reserve (fun _ _ so => ⟨[key], first, so, nofun⟩) ?_
      rintro ⟨_ | _, available'⟩
      · refine leaves_conseq (ih _ _) (fun _ _ here => here) ?_
        rintro r s ⟨more, rest, so, granted⟩
        exact ⟨key :: more, by simpa [other] using rest, by simpa using so, granted⟩
      · exact leaves_pure fun s here => ⟨[key], first, here.1, fun _ => here.2⟩

theorem logs_makeRoomFor : Logs p (Tried p keep sizeBytes [] []) (makeRoomFor sizeBytes keep) fun r s =>
    ∃ listed order, Ended p keep sizeBytes listed [] order r s ∧ (order ≠ [] → ∃ st, listed = [st] ∧ st.Order order) := by
  have unlisted : ∀ {r s}, Tried p keep sizeBytes [] [] s → (r = .ok () → Granted keep sizeBytes s.1) →
      ∃ listed order, Ended p keep sizeBytes listed [] order r s ∧ (order ≠ [] → ∃ st, listed = [st] ∧ st.Order order) :=
    fun so granted => ⟨[], [], ⟨[], List.nil_prefix, so, granted⟩, fun some => absurd rfl some⟩
  refine leaves_bind logs_reserve (fun _ _ so => unlisted so nofun) ?_
  rintro ⟨_ | _, available⟩
  · refine leaves_bind (R := fun r s => ∃ st, Tried p keep sizeBytes [st] [] s ∧ ∀ answer, r = .ok answer →
      Refused p keep sizeBytes s.2 s.1 ∧ st.Order answer.1) (logs_issue ?_) ?_ ?_
    · rintro w log c w' r ⟨so, before, c', lists, rest, available, again, changed, rfl, only, refused⟩ ran
      refine ⟨w.registry, ⟨?_, ?_, nofun, so.needed⟩, ?_⟩
      · simpa [listings] using so.listed
      · simpa [attempts, Op.tried] using so.tried
      · rintro answer rfl
        obtain ⟨_, same, done⟩ | ⟨_, failed, -⟩ := World.exec_cases ran
        · cases same
          rcases World.withLock_cases done with ⟨rfl, mutated⟩ | ⟨st, -, mutated⟩
          · exact ⟨⟨before, c', _ :: lists, rest, available, again, changed, rfl, List.forall_mem_cons.mpr ⟨rfl, only⟩,
              refused⟩, RegistryState.evictionOrder_order mutated⟩
          · cases mutated
        · cases failed
    · rintro e s ⟨st, so, -⟩
      exact ⟨[st], [], ⟨[], List.nil_prefix, so, nofun⟩, fun some => absurd rfl some⟩
    · rintro ⟨keys, shared⟩ s inv ⟨st, so, answer⟩
      obtain ⟨refused, order⟩ := answer _ rfl
      refine wp_mono (fun r s' ended => ?_) (logs_evictUntilFits _ shared keys 0 available s inv ⟨so, refused⟩)
      exact ⟨[st], keys, ended, fun _ => ⟨st, rfl, order⟩⟩
  · exact leaves_pure fun s here => unlisted here.1 fun _ => here.2

theorem makeRoomFor_answers : (makeRoomFor sizeBytes keep).Within fun o => ∀ c s, (engine.logged.exec p c s o).isSome := by
  have answers : ∀ o : Op, (∀ key, o ≠ .lock key) → (issue o).Within fun o => ∀ c s, (engine.logged.exec p c s o).isSome := by
    intro o other
    refine (within_call o).mpr fun c s => ?_
    have free : s.1.waits o = false := by
      cases o <;> first | rfl | exact absurd rfl (other _)
    show (Option.map _ (World.exec p c s.1 o)).isSome = true
    rw [Option.isSome_map, World.exec, free]
    rfl
  refine closed_makeRoomFor closed_within (answers _ nofun) (answers _ nofun) fun key => ?_
  refine closed_evictBase closed_within (answers _ nofun) (answers _ nofun) ?_
  refine closed_evictLocked closed_within (answers _ nofun) (fun o maps => answers o ?_) (fun _ => answers _ nofun)
    (answers _ nofun)
  rintro key rfl
  cases maps

structure RoomMade (p : Pid) (keep : Key) (sizeBytes : Nat) (log : Log) : Prop where
  ordered : attempts log ≠ [] → ∃ st order, listings log = [st] ∧ st.Order order ∧ attempts log <+: order.filter (· ≠ keep)
  needed : Needed p keep sizeBytes log

end KubeSwift.ThinPool
