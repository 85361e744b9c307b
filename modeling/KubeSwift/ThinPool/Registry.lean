import Mathlib

/-! # The node's registry (`internal/thinpool/registry.go`)

Every operation reads the whole file under the registry lock and writes it back only when something changed. -/

namespace KubeSwift.ThinPool

abbrev Key := String

abbrev Id := Nat

abbrev KeyMap (α : Type) := AList fun _ : Key => α

variable {α κ : Type}

variable (m : AList fun _ : κ => α)
include m

@[grind =] theorem KeyMap.lookup_insert [DecidableEq κ] (k a : κ) (v : α) :
    (m.insert k v).lookup a = if a = k then some v else m.lookup a := by
  split
  · next same => subst same; exact AList.lookup_insert m
  · next other => exact AList.lookup_insert_ne other

@[grind =] theorem KeyMap.lookup_erase [DecidableEq κ] (k a : κ) :
    (m.erase k).lookup a = if a = k then none else m.lookup a := by
  split
  · next same => subst same; exact AList.lookup_erase a m
  · next other => exact AList.lookup_erase_ne other

@[grind =] theorem KeyMap.mem_iff [DecidableEq κ] (k : κ) : k ∈ m ↔ ∃ v, m.lookup k = some v := by
  rw [← AList.lookup_isSome, Option.isSome_iff_exists]

omit m

def firstDeviceID : Id := 1

def idLimit : Nat := 2 ^ 32

/-- One constructor for each place that makes an error; the text a caller wraps around another is left out. -/
inductive Err
  | fileExists | noSuchThin | command | locking | reading | storing
  | corruptRegistry | emptyKey | emptyBaseKey
  | notAllocated (key : Key) | noBaseAllocated (digest : Key)
  | noRoom (available need evicted others shared : Nat)
  | idsTaken (key : Key) | imageTooLong (limit : Nat) | openImage | noDeviceNode | writing | syncing
  | baseNotReady (key : Key) | readyWithoutId (key : Key) | readOnlyPool
  deriving DecidableEq, Repr

structure Reservation where
  bytes : Nat
  since : Option Nat
  deriving DecidableEq

def reservationTTL : Nat := 6 * 3600 * 10 ^ 9

def Reservation.live (now : Nat) (res : Reservation) : Bool :=
  match res.since with
  | some since => now - since ≤ reservationTTL
  | none => false

structure RegistryState where
  nextID : Id
  bases : KeyMap Id
  guests : KeyMap Id
  ready : Finset Key
  used : KeyMap (Option Nat)
  created : Finset Key
  derived : KeyMap Id
  reserved : KeyMap Reservation

/-- What is on disk: no file, no registry, one from before guests had a created phase (`created` is absent), or one
written by `store`. -/
inductive RegistryFile
  | absent
  | corrupt
  | legacy (st : RegistryState)
  | stored (st : RegistryState)

def RegistryState.fresh : RegistryState :=
  ⟨firstDeviceID, ∅, ∅, ∅, ∅, ∅, ∅, ∅⟩

@[simps] def RegistryState.atLeastFirst (st : RegistryState) : RegistryState :=
  { st with nextID := max st.nextID firstDeviceID }

def load : RegistryFile → Except Err RegistryState
  | .absent => .ok .fresh
  | .corrupt => .error .corruptRegistry
  | .legacy st => .ok { st.atLeastFirst with created := st.guests.keys.toFinset }
  | .stored st => .ok st.atLeastFirst

abbrev Mutation (α : Type) := RegistryState → Except Err (Option RegistryState × α)

namespace RegistryState

def baseID (digest : Key) : Mutation (Option Id) := fun st => .ok (none, st.bases.lookup digest)

def guestID (key : Key) : Mutation (Option Id) := fun st => .ok (none, st.guests.lookup key)

def allocate (get : RegistryState → KeyMap Id) (set : RegistryState → KeyMap Id → RegistryState)
    (key : Key) : Mutation (Id × Bool) := fun st =>
  match (get st).lookup key with
  | some existing => .ok (none, (existing, false))
  | none =>
    .ok (some { set st ((get st).insert key st.nextID) with nextID := (st.nextID + 1) % idLimit }, (st.nextID, true))

def allocateBase (digest : Key) : Mutation (Id × Bool) :=
  allocate bases (fun st m => { st with bases := m }) digest

def allocateGuest (key : Key) : Mutation (Id × Bool) :=
  allocate guests (fun st m => { st with guests := m }) key

def advance (past : Id) : Mutation Unit := fun st =>
  if st.nextID > past then .ok (none, ())
  else .ok (some { st with nextID := (past + 1) % idLimit }, ())

def forget (key : Key) : Mutation Unit := fun st =>
  if key ∈ st.guests then
    .ok (some { st with
      guests := st.guests.erase key, created := st.created.erase key, derived := st.derived.erase key }, ())
  else .ok (none, ())

def guestCreated (key : Key) : Mutation Bool := fun st => .ok (none, key ∈ st.created)

def markGuestCreated (key : Key) (baseID : Id) : Mutation Unit := fun st =>
  if key ∈ st.guests then
    if key ∈ st.created ∧ st.derived.lookup key = some baseID then .ok (none, ())
    else .ok (some { st with
      created := insert key st.created, derived := st.derived.insert key baseID }, ())
  else .error (.notAllocated key)

def forgetBase (digest : Key) : Mutation Unit := fun st =>
  if digest ∈ st.bases then
    .ok (some { st with
      bases := st.bases.erase digest, used := st.used.erase digest, ready := st.ready.erase digest }, ())
  else .ok (none, ())

def baseReady (digest : Key) : Mutation Bool := fun st => .ok (none, digest ∈ st.ready)

def markBaseReady (digest : Key) : Mutation Unit := fun st =>
  if digest ∈ st.bases then
    if digest ∈ st.ready then .ok (none, ())
    else .ok (some { st with ready := insert digest st.ready }, ())
  else .error (.noBaseAllocated digest)

def dropLapsed (key : Key) (now : Nat) (reserved : KeyMap Reservation) : KeyMap Reservation :=
  reserved.entries.foldl (fun m e => if e.1 = key ∨ e.2.live now then m else m.erase e.1) reserved

def heldByOthers (key : Key) (reserved : KeyMap Reservation) : Nat :=
  ((reserved.entries.filter fun e => e.1 ≠ key).map fun e => e.2.bytes).sum

def reserve (key : Key) (bytes free now : Nat) : Mutation (Bool × Nat) := fun st =>
  let kept := dropLapsed key now st.reserved
  let available := free - heldByOthers key kept
  if available < bytes then
    .ok (if kept.entries.length = st.reserved.entries.length then none else some { st with reserved := kept },
      (false, available))
  else .ok (some { st with reserved := kept.insert key ⟨bytes, some now⟩ }, (true, available))

def unreserve (key : Key) : Mutation Unit := fun st =>
  if key ∈ st.reserved then .ok (some { st with reserved := st.reserved.erase key }, ())
  else .ok (none, ())

def touchBase (digest : Key) (now : Nat) : Mutation Unit := fun st =>
  if digest ∈ st.bases then .ok (some { st with used := st.used.insert digest (some now) }, ())
  else .ok (none, ())

def lastUse (st : RegistryState) (digest : Key) : Nat :=
  ((st.used.lookup digest).join.map (· + 1)).getD 0

def lruOrder (st : RegistryState) (digests : List Key) : List Key :=
  digests.insertionSort fun a b =>
    st.lastUse a < st.lastUse b ∨ (st.lastUse a = st.lastUse b ∧ a ≤ b)

def inUse (st : RegistryState) : List Id :=
  (st.derived.entries.filter fun e => e.1 ∈ st.guests).map fun e => e.2

def evictionOrder : Mutation (List Key × Nat) := fun st =>
  let held := (st.bases.entries.filter fun e => e.2 ∈ st.inUse).map fun e => e.1
  let free := (st.bases.entries.filter fun e => e.2 ∉ st.inUse).map fun e => e.1
  .ok (none, (st.lruOrder free ++ st.lruOrder held, held.length))

end RegistryState

end KubeSwift.ThinPool
