import KubeSwift.Program.Sequential
import KubeSwift.ThinPool.Registry

/-! # The node: registry file, thin pool, mappings and lock files

One constructor of `Op` for each registry transaction, `dmsetup` command and file operation; `Engine.exec` says what it
does. -/

namespace KubeSwift.ThinPool
open Program

abbrev Pid := Nat

inductive Owner
  | base (key : Key)
  | guest (key : Key)
  | unknown
  deriving DecidableEq, Repr

/-- A device-mapper name: a base's transient mapping or a guest's disk. Distinct keys have distinct names. -/
inductive DevName
  | base (key : Key)
  | guest (key : Key)
  deriving DecidableEq, Repr

def baseDeviceName (key : Key) : DevName := .base key

inductive DeviceEvent
  | write (pid : Pid) (off : Nat) (data : List UInt8)
  | sync (pid : Pid)
  deriving DecidableEq

structure Device where
  owner : Owner
  origin : Nat → UInt8
  log : List DeviceEvent

def writeBytes (content : Nat → UInt8) (off : Nat) (data : List UInt8) : Nat → UInt8 := fun i =>
  if off ≤ i ∧ i < off + data.length then data.getD (i - off) 0 else content i

def DeviceEvent.apply (content : Nat → UInt8) : DeviceEvent → Nat → UInt8
  | .write _ off data => writeBytes content off data
  | .sync _ => content

def Device.content (d : Device) : Nat → UInt8 := d.log.foldl DeviceEvent.apply d.origin

def Device.record (d : Device) (e : DeviceEvent) : Device := { d with log := d.log ++ [e] }

inductive Mode
  | readWrite | outOfDataSpace | readOnly
  deriving DecidableEq, Repr

structure Status where
  usedData : Nat
  totalData : Nat
  mode : Mode
  deriving DecidableEq, Repr

def blockSectors : Nat := 128

def Status.freeBytes (st : Status) : Nat := (st.totalData - st.usedData) * blockSectors * 512

structure World where
  file : RegistryFile
  pool : Id → Option Device
  maps : AList fun _ : DevName => Id
  locks : Key → Option Pid
  /-- The process that made a guest's registry entry, if one of this run did. -/
  allocator : Key → Option Pid

def World.registry (w : World) : RegistryState :=
  match load w.file with
  | .ok st => st
  | .error _ => .fresh

inductive RegOp
  | baseID (digest : Key) | guestID (key : Key)
  | allocateBase (digest : Key) | allocateGuest (key : Key)
  | advance (past : Id) | forget (key : Key)
  | guestCreated (key : Key) | markGuestCreated (key : Key) (base : Id)
  | forgetBase (digest : Key) | baseReady (digest : Key) | markBaseReady (digest : Key)
  | reserve (key : Key) (bytes : Nat) | unreserve (key : Key)
  | touchBase (digest : Key) | evictionOrder
  deriving DecidableEq

@[reducible] def RegOp.Res : RegOp → Type
  | .baseID _ | .guestID _ => Option Id
  | .allocateBase _ | .allocateGuest _ => Id × Bool
  | .guestCreated _ | .baseReady _ => Bool
  | .reserve _ _ => Bool × Nat
  | .evictionOrder => List Key × Nat
  | .advance _ | .forget _ | .markGuestCreated _ _ | .forgetBase _ | .markBaseReady _
  | .unreserve _ | .touchBase _ => Unit

structure Choice where
  /-- The error reported, and whether the operation took effect all the same (a store not synced, a command killed after
  its ioctl). -/
  fault : Option (Err × Bool) := none
  status : Status := ⟨0, 0, .readWrite⟩
  now : Nat := 0
  image : List UInt8 := []

def RegOp.mutate (c : Choice) : (o : RegOp) → Mutation o.Res
  | .baseID digest => RegistryState.baseID digest
  | .guestID key => RegistryState.guestID key
  | .allocateBase digest => RegistryState.allocateBase digest
  | .allocateGuest key => RegistryState.allocateGuest key
  | .advance past => RegistryState.advance past
  | .forget key => RegistryState.forget key
  | .guestCreated key => RegistryState.guestCreated key
  | .markGuestCreated key base => RegistryState.markGuestCreated key base
  | .forgetBase digest => RegistryState.forgetBase digest
  | .baseReady digest => RegistryState.baseReady digest
  | .markBaseReady digest => RegistryState.markBaseReady digest
  | .reserve key bytes => RegistryState.reserve key bytes c.status.freeBytes c.now
  | .unreserve key => RegistryState.unreserve key
  | .touchBase digest => RegistryState.touchBase digest c.now
  | .evictionOrder => RegistryState.evictionOrder

inductive RegOp.Changes (c : Choice) (st : RegistryState) : RegOp → RegistryState → Prop
  | allocateBase {key : Key} (absent : st.bases.lookup key = none) : Changes c st (.allocateBase key)
      { st with bases := st.bases.insert key st.nextID, nextID := (st.nextID + 1) % idLimit }
  | allocateGuest {key : Key} (absent : st.guests.lookup key = none) : Changes c st (.allocateGuest key)
      { st with guests := st.guests.insert key st.nextID, nextID := (st.nextID + 1) % idLimit }
  | advance {past : Id} (behind : st.nextID ≤ past) : Changes c st (.advance past)
      { st with nextID := (past + 1) % idLimit }
  | forget {key : Key} (known : key ∈ st.guests) : Changes c st (.forget key)
      { st with guests := st.guests.erase key, created := st.created.erase key, derived := st.derived.erase key }
  | markGuestCreated {key : Key} {base : Id} (known : key ∈ st.guests) : Changes c st (.markGuestCreated key base)
      { st with created := insert key st.created, derived := st.derived.insert key base }
  | forgetBase {key : Key} (known : key ∈ st.bases) : Changes c st (.forgetBase key)
      { st with bases := st.bases.erase key, used := st.used.erase key, ready := st.ready.erase key }
  | markBaseReady {key : Key} (known : key ∈ st.bases) : Changes c st (.markBaseReady key)
      { st with ready := insert key st.ready }
  | reserve {key : Key} {bytes : Nat} {reserved : KeyMap Reservation} : Changes c st (.reserve key bytes) { st with reserved }
  | unreserve {key : Key} : Changes c st (.unreserve key) { st with reserved := st.reserved.erase key }
  | touchBase {key : Key} (known : key ∈ st.bases) : Changes c st (.touchBase key)
      { st with used := st.used.insert key (some c.now) }

theorem RegOp.mutate_changes {c : Choice} {st st' : RegistryState} {o : RegOp} {v : o.Res}
    (done : o.mutate c st = .ok (some st', v)) : o.Changes c st st' := by
  cases o <;>
    simp only [mutate, RegistryState.baseID, RegistryState.guestID, RegistryState.allocateBase,
      RegistryState.allocateGuest, RegistryState.allocate, RegistryState.advance, RegistryState.forget,
      RegistryState.guestCreated, RegistryState.markGuestCreated, RegistryState.forgetBase,
      RegistryState.baseReady, RegistryState.markBaseReady, RegistryState.reserve,
      RegistryState.unreserve, RegistryState.touchBase, RegistryState.evictionOrder] at done <;>
    grind [RegOp.Changes]

inductive Op
  | lock (key : Key) | tryLock (key : Key) | unlock (key : Key)
  | registry (o : RegOp)
  | createThin (id : Id) (owner : Key)
  | createSnap (id base : Id) (owner : Key)
  | delete (id : Id) (owner : Owner)
  | info | create (name : DevName) (id : Id) (sectors : Nat) | mknodes (name : DevName)
  | ls | remove (name : DevName) | status
  | openImage (key : Key) | openDevice (name : DevName) | readFull
  | writeAt (fd : Id) (off : Nat) (data : List UInt8) | sync (fd : Id)
  deriving DecidableEq

@[reducible] def Op.Res : Op → Type
  | .registry o => o.Res
  | .tryLock _ => Bool
  | .ls => List DevName
  | .status => Status
  | .openImage _ => List UInt8
  | .openDevice _ => Id
  | .lock _ | .unlock _ | .createThin _ _ | .createSnap _ _ _ | .delete _ _ | .info
  | .create _ _ _ | .mknodes _ | .remove _ | .readFull | .writeAt _ _ _ | .sync _ => Unit

namespace World

@[simps -fullyApplied] def setPool (w : World) (id : Id) (d : Option Device) : World :=
  { w with pool := Function.update w.pool id d }

@[simps -fullyApplied] def setLock (w : World) (key : Key) (holder : Option Pid) : World :=
  { w with locks := Function.update w.locks key holder }

@[simps -fullyApplied] def store (w : World) (p : Pid) (o : RegOp) (st : RegistryState) : World :=
  { w with
    file := .stored st
    allocator := match o with
      | .allocateGuest key => Function.update w.allocator key (some p)
      | _ => w.allocator }

def withLock (w : World) (p : Pid) (c : Choice) (o : RegOp) : Except Err (World × o.Res) := do
  let st ← load w.file
  let (changed, answer) ← o.mutate c st
  match changed with
  | none => .ok (w, answer)
  | some st' => .ok (w.store p o st', answer)

def perform (w : World) (p : Pid) (c : Choice) : (o : Op) → Except Err (World × o.Res)
  | .lock key => .ok (w.setLock key (some p), ())
  | .tryLock key =>
    match w.locks key with
    | none => .ok (w.setLock key (some p), true)
    | some _ => .ok (w, false)
  | .unlock key => .ok (w.setLock key none, ())
  | .registry o => w.withLock p c o
  | .createThin id owner =>
    match w.pool id with
    | some _ => .error .fileExists
    | none => .ok (w.setPool id (some ⟨.base owner, fun _ => 0, []⟩), ())
  | .createSnap id base owner =>
    match w.pool id, w.pool base with
    | some _, _ => .error .fileExists
    | none, none => .error .command
    | none, some b => .ok (w.setPool id (some ⟨.guest owner, b.content, []⟩), ())
  | .delete id _ =>
    match w.pool id with
    | none => .error .noSuchThin
    | some _ =>
      -- dm-thin refuses to delete a device that is mapped
      if w.maps.entries.any (fun e => e.2 = id) then .error .command else .ok (w.setPool id none, ())
  | .info => .ok (w, ())
  | .create name id _ =>
    if name ∈ w.maps ∨ w.pool id = none then .error .command
    else .ok ({ w with maps := w.maps.insert name id }, ())
  | .mknodes _ => .ok (w, ())
  | .ls => .ok (w, w.maps.keys)
  | .remove name =>
    if name ∈ w.maps then .ok ({ w with maps := w.maps.erase name }, ()) else .error .command
  | .status => .ok (w, c.status)
  | .openImage _ => .ok (w, c.image)
  | .openDevice name =>
    match w.maps.lookup name with
    | some id => .ok (w, id)
    | none => .error .noDeviceNode
  | .readFull => .ok (w, ())
  | .writeAt fd off data =>
    match w.pool fd with
    | some d => .ok (w.setPool fd (some (d.record (.write p off data))), ())
    | none => .error .writing
  | .sync fd =>
    match w.pool fd with
    | some d => .ok (w.setPool fd (some (d.record (.sync p))), ())
    | none => .error .syncing

def waits (w : World) : Op → Bool
  | .lock key => (w.locks key).isSome
  | _ => false

/-- Releasing a lock closes its file, whatever `flock` answers. -/
def cannotFail : Op → Bool
  | .unlock _ => true
  | _ => false

def exec (p : Pid) (c : Choice) (w : World) (o : Op) : Option (World × Except Err o.Res) :=
  if w.waits o then none
  else some (withFault w (if cannotFail o then none else c.fault) (w.perform p c o))

def dropLocks (p : Pid) (w : World) : World :=
  { w with locks := fun key => if w.locks key = some p then none else w.locks key }

def reboot (w : World) : World := { w with maps := ∅, locks := fun _ => none }

end World

def engine : Engine Pid Choice World Op Op.Res Err where
  exec := World.exec
  crash := World.dropLocks

end KubeSwift.ThinPool
