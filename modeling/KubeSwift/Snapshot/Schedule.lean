import KubeSwift.Program.Loops
import KubeSwift.Snapshot.Cron

/-! # Snapshot schedules (`internal/controller/swiftsnapshotschedule`)

One controller pass per operation of the API server: any may fail, with or without effect, and the controller may die
between two. Snapshots go on by themselves. -/

namespace KubeSwift.Snapshot
open Program

inductive Phase
  | unset | pending | capturing | uploading | ready | failed
  deriving DecidableEq, Repr

def snapshotTerminal (p : Phase) : Bool := p = .ready || p = .failed

structure SwiftSnapshot where
  unix : Nat
  creationTimestamp : Nat
  phase : Phase
  capturedAt : Option Nat
  ready : Option (String × String)
  deleting : Bool
  deriving DecidableEq

inductive ConcurrencyPolicy
  | allow | forbid
  deriving DecidableEq

structure Ready where
  status : Bool
  reason : String
  message : String
  observedGeneration : Nat
  deriving DecidableEq

structure Status where
  lastScheduleTime : Option Nat
  lastSuccessfulTime : Option Nat
  active : List Nat
  ready : Option Ready
  deriving DecidableEq

structure SwiftSnapshotSchedule where
  name : String
  schedule : String
  suspend : Bool
  concurrencyPolicy : ConcurrencyPolicy
  startingDeadlineSeconds : Option Nat
  keepLast : Option Nat
  creationTimestamp : Nat
  generation : Nat
  resourceVersion : Nat
  status : Status

inductive Err
  | notFound | alreadyExists | conflict | other
  deriving DecidableEq, Repr

structure World where
  sched : SwiftSnapshotSchedule
  snaps : List SwiftSnapshot
  now : Nat
  created : List Nat

inductive Op
  | getSchedule
  | clock
  | ownedSnapshots
  | create (unix : Nat)
  | updateStatus (resourceVersion : Nat) (status : Status)
  | referenceBlocker (unix : Nat)
  | delete (unix : Nat)

@[reducible] def Op.Res : Op → Type
  | .getSchedule => SwiftSnapshotSchedule
  | .clock => Nat
  | .ownedSnapshots => List SwiftSnapshot
  | .create _ | .updateStatus _ _ | .delete _ => Unit
  | .referenceBlocker _ => Bool

structure Choice where
  fault : Option (Err × Bool) := none
  blocked : Bool := false

def World.exists (w : World) (unix : Nat) : Bool := w.snaps.any (·.unix = unix)

def World.mapSnapshot (w : World) (unix : Nat) (f : SwiftSnapshot → SwiftSnapshot) : World :=
  { w with snaps := w.snaps.map fun snap => if snap.unix = unix then f snap else snap }

/-- The new object's creation time is a whole second, as the API server keeps it. -/
def World.addSnapshot (w : World) (unix : Nat) : World :=
  { w with
    snaps := ⟨unix, w.now - w.now % second, .unset, none, none, false⟩ :: w.snaps
    created := unix :: w.created }

def World.perform (w : World) (c : Choice) : (o : Op) → Except Err (World × o.Res)
  | .getSchedule => .ok (w, w.sched)
  | .clock => .ok (w, w.now)
  | .ownedSnapshots => .ok (w, w.snaps)
  | .create unix => if w.exists unix then .error .alreadyExists else .ok (w.addSnapshot unix, ())
  | .updateStatus version status =>
    if version = w.sched.resourceVersion then
      .ok ({ w with sched := { w.sched with status := status, resourceVersion := version + 1 } }, ())
    else .error .conflict
  | .referenceBlocker _ => .ok (w, c.blocked)
  | .delete unix =>
    if w.exists unix then .ok (w.mapSnapshot unix fun snap => { snap with deleting := true }, ())
    else .error .notFound

def World.exec (c : Choice) (w : World) (o : Op) : World × Except Err o.Res :=
  match o with
  | .clock => (w, .ok w.now)
  | o => withFault w c.fault (w.perform c o)

def engine : Engine Unit Choice World Op Op.Res Err where
  exec _ c w o := some (w.exec c o)
  crash _ w := w

abbrev Act := Prog Op Op.Res Err

def issue (o : Op) : Act o.Res := Prog.call o

def setReady (status : Status) (sched : SwiftSnapshotSchedule) (ok : Bool) (reason message : String) : Status :=
  { status with ready := some ⟨ok, reason, message, sched.generation⟩ }

def persistStatus (sched : SwiftSnapshotSchedule) (status : Status) : Act Unit :=
  if sched.status = status then pure () else issue (.updateStatus sched.resourceVersion status)

def newestCapture (children : List SwiftSnapshot) : Option Nat :=
  children.foldl (fun newest c =>
    match c.phase, c.capturedAt, newest with
    | .ready, some at_, some old => if old < at_ then some at_ else some old
    | .ready, some at_, none => some at_
    | _, _, _ => newest) none

def updateObservedStatus (status : Status) (children : List SwiftSnapshot) : Status :=
  { status with
    active := (children.filter fun c => !snapshotTerminal c.phase).map (·.unix)
    lastSuccessfulTime := (newestCapture children).or status.lastSuccessfulTime }

def tooLate (sched : SwiftSnapshotSchedule) (tick now : Nat) : Bool :=
  match sched.startingDeadlineSeconds with
  | some d => now - tick > d * second
  | none => false

def hasInFlight (children : List SwiftSnapshot) : Bool := children.any fun c => !snapshotTerminal c.phase

def locationWaits : List String :=
  ["NoStorageLocation", "StorageLocationNotFound", "StorageLocationInvalid", "AmbiguousStorageLocation",
    "RegistryCredentialsMissing", "SigningKeyMissing"]

def SwiftSnapshot.name (sched : SwiftSnapshotSchedule) (snap : SwiftSnapshot) : String :=
  sched.name ++ "-" ++ toString snap.unix

def waitingChild (sched : SwiftSnapshotSchedule) (children : List SwiftSnapshot) :
    Option (SwiftSnapshot × String × String) :=
  children.foldl (fun oldest c =>
    match snapshotTerminal c.phase, c.ready with
    | false, some (reason, message) =>
      if reason ∈ locationWaits then
        match oldest with
        | some (o, r) =>
          if c.creationTimestamp < o.creationTimestamp ∨
              (c.creationTimestamp = o.creationTimestamp ∧ c.name sched < o.name sched) then
            some (c, reason, message)
          else some (o, r)
        | none => some (c, reason, message)
      else oldest
    | _, _ => oldest) none

def waitingMessage (sched : SwiftSnapshotSchedule) (child message : String) : String :=
  "SwiftSnapshot " ++ child ++ " is waiting: " ++ message ++ "; " ++
    match sched.concurrencyPolicy with
    | .allow => "new snapshots are created on each tick, and wait the same way"
    | .forbid => "with concurrencyPolicy Forbid, no new snapshot is created until it goes on"

def readiness (sched : SwiftSnapshotSchedule) (children : List SwiftSnapshot) (status : Status) : Status :=
  match waitingChild sched children with
  | some (c, reason, message) => setReady status sched false reason (waitingMessage sched (c.name sched) message)
  | none => setReady status sched true "Scheduled"
      ("schedule \"" ++ sched.schedule ++ "\" is valid; a snapshot is created on each tick")

def tolerate (expected : Err) (call : Act Unit) : Act Unit := do
  match ← call.attempt with
  | .ok () => return ()
  | .error e => if e = expected then return () else .fail e

def createScheduledSnapshot (tick : Nat) : Act Unit :=
  tolerate .alreadyExists (issue (.create (tick / second)))

def fire (sched : SwiftSnapshotSchedule) (now : Nat) (children : List SwiftSnapshot) (status : Status) :
    Option Nat → Act Status
  | none => return status
  | some tick => do
    if tooLate sched tick now then return { status with lastScheduleTime := some tick }
    else if sched.concurrencyPolicy = .forbid && hasInFlight children then
      return { status with lastScheduleTime := some tick }
    else
      createScheduledSnapshot tick
      return { status with lastScheduleTime := some tick }

def snapTime (snap : SwiftSnapshot) : Nat := snap.capturedAt.getD snap.creationTimestamp

def prune : List SwiftSnapshot → Act Unit
  | [] => return ()
  | old :: rest => do
    let blocked ← issue (.referenceBlocker old.unix)
    if blocked then prune rest
    else
      tolerate .notFound (issue (.delete old.unix))
      prune rest

def pruneKeepN (sched : SwiftSnapshotSchedule) (children : List SwiftSnapshot) : Act Unit :=
  match sched.keepLast with
  | none => return ()
  | some keep =>
    let ready := children.filter fun c => c.phase = .ready && !c.deleting
    if ready.length ≤ keep then return ()
    else prune ((ready.mergeSort fun a b => snapTime b ≤ snapTime a).drop keep)

def schedule (cron : Cron) (sched : SwiftSnapshotSchedule) : Act Unit := do
  let now ← issue .clock
  let children ← issue .ownedSnapshots
  let observed := updateObservedStatus sched.status children
  let earliest := observed.lastScheduleTime.getD sched.creationTimestamp
  let status ← fire sched now children observed (mostRecentDue cron.next earliest now)
  persistStatus sched (readiness sched children status)
  pruneKeepN sched children

def reconcile (parsed : Except String Cron) : Act Unit := do
  match ← (issue .getSchedule).attempt with
  | .error .notFound => return ()
  | .error e => .fail e
  | .ok sched =>
    if sched.suspend then
      persistStatus sched (setReady sched.status sched false "Suspended"
        "spec.suspend is set; no snapshots are created while suspended")
    else
      match parsed with
      | .error message => persistStatus sched (setReady sched.status sched false "InvalidSchedule" message)
      | .ok cron => schedule cron sched

def World.earliest (w : World) : Nat := w.sched.status.lastScheduleTime.getD w.sched.creationTimestamp

inductive Event
  | tick (elapsed : Nat)
  | report (unix : Nat) (phase : Phase) (capturedAt : Option Nat) (ready : Option (String × String))
  | vanish (unix : Nat)
  | edit (suspend : Bool) (startingDeadlineSeconds keepLast : Option Nat)

def SwiftSnapshot.report (snap : SwiftSnapshot) (phase : Phase) (capturedAt : Option Nat)
    (ready : Option (String × String)) : SwiftSnapshot :=
  if snapshotTerminal snap.phase then { snap with capturedAt := capturedAt, ready := ready }
  else { snap with phase := phase, capturedAt := capturedAt, ready := ready }

def World.event (w : World) : Event → World
  | .tick elapsed => { w with now := w.now + elapsed }
  | .report unix phase capturedAt ready => w.mapSnapshot unix fun snap => snap.report phase capturedAt ready
  | .vanish unix => { w with
      snaps := w.snaps.filter fun snap => !(snap.unix = unix && (snap.deleting || unix * second ≤ w.earliest)) }
  | .edit suspend deadline keep => { w with sched := { w.sched with
      suspend := suspend, startingDeadlineSeconds := deadline, keepLast := keep
      generation := w.sched.generation + 1, resourceVersion := w.sched.resourceVersion + 1 } }

def setting (parsed : Except String Cron) : Setting Unit World Op Op.Res Err where
  env w w' := ∃ e, w' = w.event e
  quiet _ _ := False
  offered _ prog := prog = reconcile parsed

def machine : Machine Unit World Op Op.Res Err := engine.machine (fun _ _ _ _ => True) (fun _ _ => True)

abbrev Runs (parsed : Except String Cron) (w : World) (s : Loops Unit World Op Op.Res Err) : Prop :=
  LoopsReach machine (setting parsed) w s

end KubeSwift.Snapshot
