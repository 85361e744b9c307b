import KubeSwift.ThinPool.Node

/-! # Device ids over whole runs of the registry

Every call reads the JSON document in `registry.json` and may replace it. Ids come from one counter, which survives
every reload. -/

namespace KubeSwift.ThinPool
open Program

structure Document where
  nextID : Option Id
  bases : Option (KeyMap Id)
  guests : Option (KeyMap Id)
  ready : Option (Finset Key)
  used : Option (KeyMap (Option Nat))
  created : Option (Finset Key)
  derived : Option (KeyMap Id)
  reserved : Option (KeyMap Reservation)

def omitEmpty {α : Type} (m : KeyMap α) : Option (KeyMap α) := if m.entries = [] then none else some m

@[simp] theorem omitEmpty_getD {α : Type} (m : KeyMap α) : (omitEmpty m).getD ∅ = m := by
  unfold omitEmpty
  split
  · next empty => exact AList.ext (by simp [empty])
  · rfl

/-- What `store` writes. `created` alone has no `omitempty`, and the map in memory is never nil. -/
def RegistryState.encode (st : RegistryState) : Document where
  nextID := some st.nextID
  bases := omitEmpty st.bases
  guests := omitEmpty st.guests
  ready := if st.ready = ∅ then none else some st.ready
  used := omitEmpty st.used
  created := some st.created
  derived := omitEmpty st.derived
  reserved := omitEmpty st.reserved

/-- What `load` makes of a document: a missing `created` stands for every guest. -/
def Document.decode (d : Document) : RegistryState where
  nextID := max (d.nextID.getD firstDeviceID) firstDeviceID
  bases := d.bases.getD ∅
  guests := d.guests.getD ∅
  ready := d.ready.getD ∅
  used := d.used.getD ∅
  created := d.created.getD (d.guests.getD ∅).keys.toFinset
  derived := d.derived.getD ∅
  reserved := d.reserved.getD ∅

@[simp] theorem RegistryState.decode_encode (st : RegistryState) : st.encode.decode = st.atLeastFirst := by
  have ready : (if st.ready = ∅ then none else some st.ready).getD ∅ = st.ready := by
    split
    · next empty => exact empty.symm
    · rfl
  simp [encode, Document.decode, atLeastFirst, ready]

inductive RegistryFile.Holds : RegistryFile → Option Document → Prop
  | absent : Holds .absent none
  | stored (st : RegistryState) : Holds (.stored st) (some st.encode)
  | legacy (st : RegistryState) : Holds (.legacy st) (some { st.encode with created := none })

def registryOf : Option Document → RegistryState
  | none => .fresh
  | some d => d.decode

theorem RegistryFile.Holds.load {file : RegistryFile} {doc : Option Document} (holds : file.Holds doc) :
    ThinPool.load file = .ok (registryOf doc) := by
  cases holds with
  | absent => rfl
  | stored st => simp [ThinPool.load, registryOf]
  | legacy st =>
    have same : ({ st.encode with created := none } : Document).decode =
        { st.encode.decode with created := st.guests.keys.toFinset } := by
      simp [Document.decode, RegistryState.encode]
    simp [ThinPool.load, registryOf, same]

def RegOp.emptyKey : RegOp → Bool
  | .allocateBase key | .allocateGuest key => key = ""
  | _ => false

def RegOp.transact (o : RegOp) (c : Choice) (doc : Option Document) : Except Err (Option Document × o.Res) :=
  if o.emptyKey then .error .emptyKey
  else
    match o.mutate c (registryOf doc) with
    | .error e => .error e
    | .ok (none, answer) => .ok (doc, answer)
    | .ok (some st, answer) => .ok (some st.encode, answer)

theorem World.withLock_transact {w : World} {doc : Option Document} (holds : w.file.Holds doc) (p : Pid)
    (c : Choice) {o : RegOp} (named : o.emptyKey = false) :
    match o.transact c doc with
    | .error e => w.withLock p c o = .error e
    | .ok (doc', answer) => ∃ w', w.withLock p c o = .ok (w', answer) ∧ w'.file.Holds doc' := by
  simp only [RegOp.transact, named, Bool.false_eq_true, if_false]
  cases outcome : o.mutate c (registryOf doc) with
  | error e => simp [withLock, holds.load, outcome, bind, Except.bind]
  | ok result =>
    obtain ⟨changed, answer⟩ := result
    cases changed with
    | none => exact ⟨w, by simp [withLock, holds.load, outcome, bind, Except.bind], holds⟩
    | some st =>
      exact ⟨w.store p o st, by simp [withLock, holds.load, outcome, bind, Except.bind], .stored st⟩

structure RegCall where
  op : RegOp
  choice : Choice

def RegCall.exec (call : RegCall) (doc : Option Document) : Option Document × Except Err call.op.Res :=
  withFault doc call.choice.fault (call.op.transact call.choice doc)

def runCalls (doc : Option Document) (calls : List RegCall) : Option Document :=
  calls.foldl (fun doc call => (call.exec doc).1) doc

def stateAfter (calls : List RegCall) : RegistryState := registryOf (runCalls none calls)

def RegistryState.idOf (st : RegistryState) : Owner → Option Id
  | .base key => st.bases.lookup key
  | .guest key => st.guests.lookup key
  | .unknown => none

def RegOp.counter (st : RegistryState) : RegOp → Nat
  | .allocateBase digest => if digest ∈ st.bases then st.nextID else st.nextID + 1
  | .allocateGuest key => if key ∈ st.guests then st.nextID else st.nextID + 1
  | .advance past => max st.nextID (past + 1)
  | _ => st.nextID

def StaysBelow : Option Document → List RegCall → Prop
  | _, [] => True
  | doc, call :: rest => call.op.counter (registryOf doc) < idLimit - 1 ∧ StaysBelow (call.exec doc).1 rest

instance : (doc : Option Document) → (calls : List RegCall) → Decidable (StaysBelow doc calls)
  | _, [] => inferInstanceAs (Decidable True)
  | doc, call :: rest =>
    have := instDecidableStaysBelow (call.exec doc).1 rest
    inferInstanceAs (Decidable (_ ∧ _))

def RegOp.handsOut : (o : RegOp) → Except Err o.Res → Option Id
  | .allocateBase _, .ok (id, _) => some id
  | .allocateGuest _, .ok (id, _) => some id
  | _, _ => none

structure WellFormed (st : RegistryState) : Prop where
  first : firstDeviceID ≤ st.nextID
  below : ∀ o i, st.idOf o = some i → i < st.nextID
  distinct : ∀ o o' i, st.idOf o = some i → st.idOf o' = some i → o = o'
  ready : ∀ digest ∈ st.ready, digest ∈ st.bases
  used : ∀ digest, digest ∈ st.used → digest ∈ st.bases
  created : ∀ key ∈ st.created, key ∈ st.guests
  derived : ∀ key, key ∈ st.derived → key ∈ st.guests

theorem wellFormed_fresh : WellFormed .fresh where
  first := Nat.le_refl _
  below o i named := by cases o <;> simp [RegistryState.idOf, RegistryState.fresh] at named
  distinct o o' i named := by cases o <;> simp [RegistryState.idOf, RegistryState.fresh] at named
  ready := by simp [RegistryState.fresh]
  used := by simp [RegistryState.fresh]
  created := by simp [RegistryState.fresh]
  derived := by simp [RegistryState.fresh]

structure After (st st' : RegistryState) : Prop where
  counter : st.nextID ≤ st'.nextID
  ids : ∀ o i, st'.idOf o = some i → st.idOf o = some i ∨ st.nextID ≤ i

theorem After.refl (st : RegistryState) : After st st := ⟨Nat.le_refl _, fun _ _ named => .inl named⟩

theorem After.trans {st st' st'' : RegistryState} (first : After st st') (second : After st' st'') : After st st'' where
  counter := first.counter.trans second.counter
  ids o i named := by
    rcases second.ids o i named with earlier | new
    · exact first.ids o i earlier
    · exact .inr (first.counter.trans new)

theorem After.retired {st st' st'' : RegistryState} (sound : WellFormed st) (step : After st st')
    (later : After st' st'') {o : Owner} {i : Id} (had : st.idOf o = some i) (dropped : st'.idOf o ≠ some i)
    (o' : Owner) : st''.idOf o' ≠ some i := by
  intro again
  have old : i < st.nextID := sound.below o i had
  rcases later.ids o' i again with kept | new
  · rcases step.ids o' i kept with earlier | new
    · have same : o = o' := sound.distinct o o' i had earlier
      exact dropped (same ▸ kept)
    · exact Nat.not_lt.mpr new old
  · exact Nat.not_lt.mpr new (Nat.lt_of_lt_of_le old step.counter)

section Step

variable {st st' : RegistryState} {c : Choice}

theorem WellFormed.shrink (sound : WellFormed st) (counter : st'.nextID = st.nextID)
    (ids : ∀ o i, st'.idOf o = some i → st.idOf o = some i)
    (ready : ∀ digest ∈ st'.ready, digest ∈ st'.bases) (used : ∀ digest, digest ∈ st'.used → digest ∈ st'.bases)
    (created : ∀ key ∈ st'.created, key ∈ st'.guests) (derived : ∀ key, key ∈ st'.derived → key ∈ st'.guests) :
    WellFormed st' ∧ After st st' where
  left :=
    { first := counter ▸ sound.first
      below := fun o i named => counter ▸ sound.below o i (ids o i named)
      distinct := fun o o' i named named' => sound.distinct o o' i (ids o i named) (ids o' i named')
      ready := ready, used := used, created := created, derived := derived }
  right := ⟨counter.ge, fun o i named => .inl (ids o i named)⟩

theorem WellFormed.grow (sound : WellFormed st) (owner : Owner) (counter : st'.nextID = st.nextID + 1)
    (ids : ∀ o, st'.idOf o = if o = owner then some st.nextID else st.idOf o)
    (ready : ∀ digest ∈ st'.ready, digest ∈ st'.bases) (used : ∀ digest, digest ∈ st'.used → digest ∈ st'.bases)
    (created : ∀ key ∈ st'.created, key ∈ st'.guests) (derived : ∀ key, key ∈ st'.derived → key ∈ st'.guests) :
    WellFormed st' ∧ After st st' := by
  have cases : ∀ o i, st'.idOf o = some i → (o = owner ∧ i = st.nextID) ∨ st.idOf o = some i := by
    intro o i named
    rw [ids] at named
    split at named
    · next same => exact .inl ⟨same, (Option.some.inj named).symm⟩
    · exact .inr named
  refine ⟨⟨?_, ?_, ?_, ready, used, created, derived⟩, ?_, ?_⟩
  · rw [counter]; exact Nat.le_succ_of_le sound.first
  · intro o i named
    rw [counter]
    rcases cases o i named with ⟨-, rfl⟩ | old
    · exact Nat.lt_succ_self _
    · exact Nat.lt_succ_of_lt (sound.below o i old)
  · intro o o' i named named'
    rcases cases o i named with ⟨rfl, rfl⟩ | old <;> rcases cases o' _ named' with ⟨rfl, same⟩ | old'
    · rfl
    · exact absurd (sound.below o' _ old') (Nat.lt_irrefl _)
    · exact absurd (same ▸ sound.below o _ old) (Nat.lt_irrefl _)
    · exact sound.distinct o o' i old old'
  · rw [counter]; exact Nat.le_succ _
  · intro o i named
    rcases cases o i named with ⟨-, rfl⟩ | old
    · exact .inr (Nat.le_refl _)
    · exact .inl old

theorem idLimit_mod {n : Nat} (small : n < idLimit - 1) : n % idLimit = n :=
  Nat.mod_eq_of_lt (by omega)

theorem RegOp.mutate_wellFormed {o : RegOp} {v : o.Res} (sound : WellFormed st)
    (small : o.counter st < idLimit - 1) (done : o.mutate c st = .ok (some st', v)) :
    WellFormed st' ∧ After st st' := by
  have ⟨_, _, _, ready, used, created, derived⟩ := sound
  cases mutate_changes done with
  | @allocateBase digest known =>
    have absent : digest ∉ st.bases := by grind
    simp only [RegOp.counter, absent, if_false] at small
    refine sound.grow (.base digest) (idLimit_mod small) ?_ (by grind) (by grind) created derived
    intro o
    cases o <;> simp only [RegistryState.idOf] <;> grind
  | @allocateGuest key known =>
    have absent : key ∉ st.guests := by grind
    simp only [RegOp.counter, absent, if_false] at small
    refine sound.grow (.guest key) (idLimit_mod small) ?_ ready used (by grind) (by grind)
    intro o
    cases o <;> simp only [RegistryState.idOf] <;> grind
  | @advance past behind =>
    have exact : (past + 1) % idLimit = past + 1 :=
      idLimit_mod (Nat.lt_of_le_of_lt (Nat.le_max_right _ _) small)
    have counter : st.nextID ≤ past + 1 := Nat.le_succ_of_le behind
    refine ⟨⟨?_, fun o i named => ?_, sound.distinct, ready, used, created, derived⟩, ?_, fun o i named => .inl named⟩
    all_goals simp only [exact]
    · exact sound.first.trans counter
    · exact Nat.lt_of_lt_of_le (sound.below o i named) counter
    · exact counter
  | forget =>
    refine sound.shrink rfl ?_ ready used (by grind) fun k gone =>
      AList.mem_erase.mpr ((AList.mem_erase.mp gone).imp_right (derived k))
    intro o i named
    cases o <;> simp only [RegistryState.idOf] at named ⊢ <;> grind
  | markGuestCreated known => exact sound.shrink rfl (fun _ _ named => named) ready used (by grind) (by grind)
  | forgetBase =>
    refine sound.shrink rfl ?_ (by grind) (fun d gone =>
      AList.mem_erase.mpr ((AList.mem_erase.mp gone).imp_right (used d))) created derived
    intro o i named
    cases o <;> simp only [RegistryState.idOf] at named ⊢ <;> grind
  | markBaseReady known => exact sound.shrink rfl (fun _ _ named => named) (by grind) used created derived
  | reserve => exact sound.shrink rfl (fun _ _ named => named) ready used created derived
  | unreserve => exact sound.shrink rfl (fun _ _ named => named) ready used created derived
  | touchBase known => exact sound.shrink rfl (fun _ _ named => named) ready (by grind) created derived

end Step

section Run

variable {doc doc' : Option Document}

variable {st : RegistryState} {c : Choice} {o : RegOp}

theorem WellFormed.registryOf_encode (sound : WellFormed st) : registryOf (some st.encode) = st := by
  have counter : max st.nextID firstDeviceID = st.nextID := Nat.max_eq_left sound.first
  simp only [registryOf, RegistryState.decode_encode, RegistryState.atLeastFirst, counter]

variable {answer : o.Res}

theorem RegOp.transact_cases (done : o.transact c doc = .ok (doc', answer)) :
    (doc' = doc ∧ o.mutate c (registryOf doc) = .ok (none, answer)) ∨
      ∃ st, doc' = some st.encode ∧ o.mutate c (registryOf doc) = .ok (some st, answer) := by
  unfold transact at done
  split at done
  · cases done
  · split at done <;> cases done
    · next outcome => exact .inl ⟨rfl, outcome⟩
    · next st outcome => exact .inr ⟨st, rfl, outcome⟩

variable {call : RegCall} {r : Except Err call.op.Res}

theorem RegCall.exec_cases (ran : call.exec doc = (doc', r)) : doc' = doc ∨ ∃ st answer, doc' = some st.encode ∧
      call.op.mutate call.choice (registryOf doc) = .ok (some st, answer) := by
  have stored : ∀ {answer}, call.op.transact call.choice doc = .ok (doc', answer) →
      doc' = doc ∨ ∃ st answer, doc' = some st.encode ∧
        call.op.mutate call.choice (registryOf doc) = .ok (some st, answer) := by
    intro answer done
    rcases RegOp.transact_cases done with ⟨same, -⟩ | ⟨st, stored, outcome⟩
    · exact .inl same
    · exact .inr ⟨st, answer, stored, outcome⟩
  rcases effect_of_cases (withFault_cases ran) with same | ⟨answer, done⟩
  · exact .inl same
  · exact stored done

theorem RegCall.exec_wellFormed (ran : call.exec doc = (doc', r)) (sound : WellFormed (registryOf doc))
    (small : call.op.counter (registryOf doc) < idLimit - 1) :
    WellFormed (registryOf doc') ∧ After (registryOf doc) (registryOf doc') := by
  rcases exec_cases ran with rfl | ⟨st, answer, rfl, done⟩
  · exact ⟨sound, .refl _⟩
  · obtain ⟨next, forward⟩ := RegOp.mutate_wellFormed sound small done
    rw [next.registryOf_encode]
    exact ⟨next, forward⟩

theorem runCalls_wellFormed {calls : List RegCall} (sound : WellFormed (registryOf doc)) (small : StaysBelow doc calls) :
    WellFormed (registryOf (runCalls doc calls)) ∧ After (registryOf doc) (registryOf (runCalls doc calls)) := by
  induction calls generalizing doc with
  | nil => exact ⟨sound, .refl _⟩
  | cons call rest ih =>
    obtain ⟨next, forward⟩ := RegCall.exec_wellFormed rfl sound small.1
    obtain ⟨last, onward⟩ := ih next small.2
    exact ⟨last, forward.trans onward⟩

theorem runCalls_append (doc : Option Document) (before later : List RegCall) :
    runCalls doc (before ++ later) = runCalls (runCalls doc before) later := List.foldl_append

theorem staysBelow_append {before later : List RegCall} :
    StaysBelow doc (before ++ later) ↔ StaysBelow doc before ∧ StaysBelow (runCalls doc before) later := by
  induction before generalizing doc with
  | nil => simp [StaysBelow, runCalls]
  | cons call rest ih => simp [StaysBelow, runCalls, ih, and_assoc]

theorem RegOp.mutate_handsOut {changed : Option RegistryState} {i : Id}
    (done : o.mutate c st = .ok (changed, answer)) (handed : o.handsOut (.ok answer) = some i) :
    ∃ owner, (changed.getD st).idOf owner = some i := by
  cases o <;> simp only [handsOut, Option.some.injEq, reduceCtorEq] at handed
  case allocateBase digest =>
    refine ⟨.base digest, ?_⟩
    simp only [mutate, RegistryState.allocateBase, RegistryState.allocate] at done
    split at done <;> cases done
    · next known => simpa [RegistryState.idOf, ← handed] using known
    · simp [RegistryState.idOf, ← handed]
  case allocateGuest key =>
    refine ⟨.guest key, ?_⟩
    simp only [mutate, RegistryState.allocateGuest, RegistryState.allocate] at done
    split at done <;> cases done
    · next known => simpa [RegistryState.idOf, ← handed] using known
    · simp [RegistryState.idOf, ← handed]

theorem RegOp.handsOut_error (o : RegOp) (e : Err) : o.handsOut (.error e) = none := by
  cases o <;> rfl

theorem RegCall.handsOut_recorded {i : Id} (ran : call.exec doc = (doc', r)) (sound : WellFormed (registryOf doc))
    (small : call.op.counter (registryOf doc) < idLimit - 1) (handed : call.op.handsOut r = some i) :
    ∃ owner, (registryOf doc').idOf owner = some i := by
  rcases withFault_cases ran with ⟨answer, rfl, done⟩ | ⟨e, rfl, -⟩
  · rcases RegOp.transact_cases done with ⟨rfl, outcome⟩ | ⟨st, rfl, outcome⟩
    · exact RegOp.mutate_handsOut outcome handed
    · rw [(RegOp.mutate_wellFormed sound small outcome).1.registryOf_encode]
      exact RegOp.mutate_handsOut outcome handed
  · rw [RegOp.handsOut_error] at handed
    cases handed

theorem RegOp.mutate_created {st' : RegistryState} {key : Key}
    (done : o.mutate c st = .ok (some st', answer)) (before : key ∉ st.created) (after : key ∈ st'.created) :
    ∃ base, o = .markGuestCreated key base := by
  cases mutate_changes done with
  | @markGuestCreated marked base =>
    have same : key = marked := by grind
    exact ⟨base, same ▸ rfl⟩
  | _ => grind

theorem RegCall.exec_created {key : Key} (ran : call.exec doc = (doc', r)) (sound : WellFormed (registryOf doc))
    (small : call.op.counter (registryOf doc) < idLimit - 1) (before : key ∉ (registryOf doc).created)
    (after : key ∈ (registryOf doc').created) : ∃ base, call.op = .markGuestCreated key base := by
  rcases exec_cases ran with rfl | ⟨st, answer, rfl, done⟩
  · exact absurd after before
  · exact RegOp.mutate_created done before after

end Run

structure IdsKept (calls : List RegCall) : Prop where
  wellFormed : ∀ before later, calls = before ++ later → WellFormed (stateAfter before)
  forward : ∀ before call later, calls = before ++ call :: later →
    (stateAfter before).nextID ≤ (stateAfter (before ++ [call])).nextID
  retired : ∀ before drop between call later, calls = before ++ drop :: between ++ call :: later →
    ∀ owner i, (stateAfter before).idOf owner = some i → (stateAfter (before ++ [drop])).idOf owner ≠ some i →
      call.op.handsOut (call.exec (runCalls none (before ++ drop :: between))).2 ≠ some i
  created : ∀ before call later, calls = before ++ call :: later →
    ∀ key, key ∉ (stateAfter before).created → key ∈ (stateAfter (before ++ [call])).created →
      ∃ base, call.op = .markGuestCreated key base

theorem stateAfter_wellFormed {calls : List RegCall} (small : StaysBelow none calls) :
    WellFormed (stateAfter calls) := by
  have fresh : WellFormed (registryOf none) := wellFormed_fresh
  exact (runCalls_wellFormed fresh small).1

theorem stateAfter_after {before later : List RegCall} (small : StaysBelow none (before ++ later)) :
    After (stateAfter before) (stateAfter (before ++ later)) := by
  obtain ⟨first, rest⟩ := staysBelow_append.mp small
  have forward := (runCalls_wellFormed (stateAfter_wellFormed first) rest).2
  rwa [← runCalls_append] at forward

/-- From an absent file, under any calls, device ids are distinct, below the counter and never reused. -/
theorem device_ids_never_reused (calls : List RegCall) (small : StaysBelow none calls) : IdsKept calls where
  wellFormed := by
    rintro before later rfl
    exact stateAfter_wellFormed (staysBelow_append.mp small).1
  forward := by
    rintro before call later rfl
    rw [List.append_cons] at small
    exact (stateAfter_after (staysBelow_append.mp small).1).counter
  retired := by
    rintro before drop between call later rfl owner i had dropped handed
    obtain ⟨upto, rest⟩ := staysBelow_append.mp small
    have sound := stateAfter_wellFormed upto
    obtain ⟨owner', recorded⟩ := RegCall.handsOut_recorded rfl sound rest.1 handed
    have step := (RegCall.exec_wellFormed rfl sound rest.1).2
    rw [List.append_cons] at upto step recorded
    have later := (stateAfter_after upto).trans step
    have first := (staysBelow_append.mp upto).1
    have start := stateAfter_wellFormed (staysBelow_append.mp first).1
    exact After.retired start (stateAfter_after first) later had dropped owner' recorded
  created := by
    rintro before call later rfl key absent present
    obtain ⟨first, rest⟩ := staysBelow_append.mp small
    rw [stateAfter, runCalls_append] at present
    exact RegCall.exec_created rfl (stateAfter_wellFormed first) rest.1 absent present

def churn : List RegCall :=
  [.allocateGuest "ns/a", .allocateBase "d", .markBaseReady "d", .markGuestCreated "ns/a" 2, .forget "ns/a",
    .allocateGuest "ns/a"].map fun op => ⟨op, {}⟩

theorem device_ids_never_reused_churn :
    StaysBelow none churn ∧ IdsKept churn ∧ (stateAfter churn).idOf (.guest "ns/a") = some 3 :=
  ⟨by decide +kernel, device_ids_never_reused churn (by decide +kernel), by decide +kernel⟩

end KubeSwift.ThinPool
