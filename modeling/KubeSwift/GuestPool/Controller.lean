import KubeSwift.Program.Loops
import KubeSwift.Program.Sequential

/-! # Guest pools (`internal/controller/swiftguestpool`)

A pool keeps replicas at the indices below its count and, during a rolling update, some above. A deleted one stays while
a finalizer holds it. -/

namespace KubeSwift.GuestPool
open Program

inductive RunPolicy
  | running | stopped | restartOnFailure | always
  deriving DecidableEq, Repr

inductive Phase
  | unset | pending | scheduling | running | stopped | failed
  deriving DecidableEq, Repr

structure Template where
  hash : Nat
  runPolicy : Option RunPolicy
  deriving DecidableEq

def computeTemplateHash (template : Template) : Nat := template.hash

structure SwiftGuest where
  templateHash : Nat
  replacementAttempt : Option Nat
  runPolicy : Option RunPolicy
  creationTimestamp : Nat
  deletionTimestamp : Bool
  finalizers : Bool
  phase : Phase
  guestRunning : Option Bool
  /-- When the replica first failed. Not in the API. -/
  failedAt : Option Nat
  /-- How many failed replicas of the index it replaces in a row. Not in the API. -/
  nth : Nat
  deriving DecidableEq

inductive StrategyType
  | rollingUpdate | recreate
  deriving DecidableEq, Repr

structure RollingUpdateConfig where
  maxUnavailable : Nat
  maxSurge : Nat
  deriving DecidableEq

structure UpdateStrategy where
  type : Option StrategyType
  rollingUpdate : Option RollingUpdateConfig
  deriving DecidableEq

structure SwiftGuestPool where
  replicas : Nat
  updateStrategy : Option UpdateStrategy
  template : Template
  deletionTimestamp : Bool
  deriving DecidableEq

abbrev IndexMap := List (Nat × SwiftGuest)

namespace IndexMap

def get? (m : IndexMap) (idx : Nat) : Option SwiftGuest := (m.find? (·.1 = idx)).map (·.2)

def without (m : IndexMap) (idx : Nat) : IndexMap := m.filter (·.1 ≠ idx)

def alter (m : IndexMap) (idx : Nat) (f : SwiftGuest → SwiftGuest) : IndexMap :=
  m.map fun entry => if entry.1 = idx then (idx, f entry.2) else entry

def indices (m : IndexMap) : List Nat := m.map (·.1)

end IndexMap

section IndexMap

variable {m : IndexMap} {idx : Nat} {g : SwiftGuest}

theorem mem_of_get? (found : m.get? idx = some g) : (idx, g) ∈ m := by
  obtain ⟨entry, here, rfl⟩ := Option.map_eq_some_iff.mp found
  have at_ : entry.1 = idx := by simpa using List.find?_some here
  exact at_ ▸ List.mem_of_find?_eq_some here

theorem get?_eq_none : m.get? idx = none ↔ idx ∉ m.indices := by
  simp only [IndexMap.get?, Option.map_eq_none_iff, List.find?_eq_none, IndexMap.indices, List.mem_map]
  constructor
  · rintro absent ⟨entry, member, rfl⟩
    simpa using absent entry member
  · intro absent entry member same
    exact absent ⟨entry, member, by simpa using same⟩

theorem eq_of_mem (nodup : m.indices.Nodup) {g' : SwiftGuest} (one : (idx, g) ∈ m) (other : (idx, g') ∈ m) : g = g' :=
  congrArg Prod.snd (List.inj_on_of_nodup_map nodup one other rfl)

theorem get?_of_mem (nodup : m.indices.Nodup) (member : (idx, g) ∈ m) : m.get? idx = some g := by
  cases found : m.get? idx with
  | none => exact (get?_eq_none.mp found (List.mem_map_of_mem (f := (·.1)) member)).elim
  | some g' => rw [eq_of_mem nodup member (mem_of_get? found)]

theorem mem_without {entry : Nat × SwiftGuest} : entry ∈ m.without idx ↔ entry ∈ m ∧ entry.1 ≠ idx := by
  simp [IndexMap.without]

theorem nodup_without (nodup : m.indices.Nodup) : (m.without idx).indices.Nodup :=
  nodup.sublist (List.filter_sublist.map _)

@[simp] theorem indices_alter (f : SwiftGuest → SwiftGuest) : (m.alter idx f).indices = m.indices := by
  simp only [IndexMap.indices, IndexMap.alter, List.map_map]
  apply List.map_congr_left
  intro entry _
  dsimp only [Function.comp]
  split
  · next same => exact same.symm
  · rfl

theorem mem_alter {f : SwiftGuest → SwiftGuest} {i : Nat} :
    (i, g) ∈ m.alter idx f ↔ ∃ old, (i, old) ∈ m ∧ g = if i = idx then f old else old := by
  unfold IndexMap.alter
  rw [List.mem_map]
  constructor
  · rintro ⟨⟨j, old⟩, member, same⟩
    split at same
    · next at_ =>
      cases same
      exact ⟨old, at_ ▸ member, (if_pos rfl).symm⟩
    · next other =>
      cases same
      exact ⟨g, member, (if_neg other).symm⟩
  · rintro ⟨old, member, rfl⟩
    refine ⟨(i, old), member, ?_⟩
    dsimp only
    split
    · next at_ => rw [at_]
    · rfl

end IndexMap

def replacementBackoffBase : Nat := 10
def replacementBackoffCap : Nat := 300
def replacementBackoffReset : Nat := 600

def doubled : Nat → Nat → Nat
  | 0, d => d
  | more + 1, d => if d < replacementBackoffCap then doubled more (2 * d) else d

def replacementBackoff (attempt : Nat) : Nat := min (doubled attempt replacementBackoffBase) replacementBackoffCap

def replacementDelay (g : SwiftGuest) (currentHash now : Nat) : Int × Nat :=
  -- a template change may be the fix, so it replaces at once and starts over
  if g.templateHash ≠ currentHash then (0, 0)
  else
    let age : Int := now - g.creationTimestamp
    if (replacementBackoffReset : Int) ≤ age then (0, 0)
    else
      let attempt := g.replacementAttempt.getD 0
      let wait := replacementBackoff attempt - age
      if 0 < wait then (wait, attempt + 1) else (0, attempt + 1)

inductive Err
  | notFound | alreadyExists | other
  deriving DecidableEq, Repr

structure Debt where
  index : Nat
  templateHash : Nat
  nth : Nat
  deriving DecidableEq

structure World where
  clock : Nat
  pool : Option SwiftGuestPool
  guests : IndexMap
  owed : List Debt

inductive Op
  | getPool
  | listOwnedGuests
  /-- The order in which Go ranges over a map. -/
  | range (keys : List Nat)
  | now
  | delete (idx : Nat)
  | prepare (idx : Nat)
  | create (idx : Nat) (template : Template) (attempt : Nat)
  | updateStatus

@[reducible] def Op.Res : Op → Type
  | .getPool => Option SwiftGuestPool
  | .listOwnedGuests => IndexMap
  | .range _ => List Nat
  | .now => Nat
  | .delete _ | .prepare _ | .create _ _ _ | .updateStatus => Unit

structure Choice where
  fault : Option (Err × Bool) := none
  order : List Nat := []

def SwiftGuest.failedYoung (g : SwiftGuest) : Bool :=
  g.failedAt.any fun at_ => at_ < g.creationTimestamp + replacementBackoffReset

def World.inARow (w : World) (idx : Nat) (g : SwiftGuest) : Bool :=
  w.pool.any fun pool => idx < pool.replicas && g.failedYoung && g.templateHash = computeTemplateHash pool.template

def World.deleteGuest (w : World) (idx : Nat) (g : SwiftGuest) : World :=
  { w with
    guests :=
      if g.finalizers then w.guests.alter idx fun g => { g with deletionTimestamp := true }
      else w.guests.without idx
    owed :=
      let others := w.owed.filter (·.index ≠ idx)
      if w.inARow idx g then ⟨idx, g.templateHash, g.nth + 1⟩ :: others else others }

def World.nth (w : World) (idx : Nat) (hash : Nat) : Nat :=
  ((w.owed.find? fun debt => debt.index = idx ∧ debt.templateHash = hash).map Debt.nth).getD 0

def World.newGuest (w : World) (idx : Nat) (template : Template) (attempt : Nat) : SwiftGuest where
  templateHash := computeTemplateHash template
  replacementAttempt := if 0 < attempt then some attempt else none
  runPolicy := template.runPolicy
  creationTimestamp := w.clock
  deletionTimestamp := false
  finalizers := false
  phase := .unset
  guestRunning := none
  failedAt := none
  nth := w.nth idx (computeTemplateHash template)

def World.perform (w : World) (c : Choice) : (o : Op) → Except Err (World × o.Res)
  | .getPool => .ok (w, w.pool)
  | .listOwnedGuests => .ok (w, w.guests)
  | .range keys => .ok (w, if c.order.isPerm keys then c.order else keys)
  | .now => .ok (w, w.clock)
  | .delete idx =>
    match w.guests.get? idx with
    | none => .error .notFound
    | some g => .ok (w.deleteGuest idx g, ())
  | .prepare _ => .ok (w, ())
  | .create idx template attempt =>
    match w.guests.get? idx with
    | some _ => .error .alreadyExists
    | none =>
      .ok ({ w with
             guests := (idx, w.newGuest idx template attempt) :: w.guests
             owed := w.owed.filter (·.index ≠ idx) }, ())
  | .updateStatus => .ok (w, ())

def World.exec (c : Choice) (w : World) (o : Op) : World × Except Err o.Res :=
  match o with
  | .range keys => (w, .ok (if c.order.isPerm keys then c.order else keys))
  | .now => (w, .ok w.clock)
  | o => withFault w c.fault (w.perform c o)

def engine : Engine Unit Choice World Op Op.Res Err where
  exec _ c w o := some (w.exec c o)
  crash _ w := w

inductive Event
  | tick (seconds : Nat)
  | setStatus (idx : Nat) (phase : Phase) (guestRunning : Option Bool)
  | setFinalizers (idx : Nat) (held : Bool)
  | gone (idx : Nat)
  | userDelete (idx : Nat)
  | setTemplate (template : Template)
  | setPool (pool : Option SwiftGuestPool)
  deriving DecidableEq

def SwiftGuest.report (g : SwiftGuest) (clock : Nat) (phase : Phase) (guestRunning : Option Bool) : SwiftGuest :=
  { g with
    phase := phase
    guestRunning := guestRunning
    failedAt := if phase = .failed ∧ g.failedAt = none then some clock else g.failedAt }

def Event.apply (w : World) : Event → World
  | .tick seconds => { w with clock := w.clock + seconds }
  | .setStatus idx phase guestRunning =>
    { w with guests := w.guests.alter idx fun g => g.report w.clock phase guestRunning }
  | .setFinalizers idx held => { w with guests := w.guests.alter idx fun g => { g with finalizers := held } }
  | .gone idx =>
    { w with guests := w.guests.filter fun entry => ¬ (entry.1 = idx ∧ entry.2.deletionTimestamp) }
  | .userDelete idx =>
    { w with
      guests := (w.guests.alter idx fun g => { g with deletionTimestamp := true }).filter fun entry =>
        ¬ (entry.1 = idx ∧ ¬ entry.2.finalizers) }
  | .setTemplate template => { w with pool := w.pool.map fun pool => { pool with template := template } }
  | .setPool pool => { w with pool := pool }

abbrev Act := Prog Op Op.Res Err

def issue (o : Op) : Act o.Res := Prog.call o

def guestReady (g : SwiftGuest) : Bool :=
  !g.deletionTimestamp && g.phase = .running && g.guestRunning = some true

def rolloutParams (pool : SwiftGuestPool) : StrategyType × Nat × Nat :=
  match pool.updateStrategy with
  | none => (.rollingUpdate, 1, 0)
  | some strategy =>
    let type := strategy.type.getD .rollingUpdate
    match strategy.rollingUpdate with
    | none => (type, 1, 0)
    | some bounds => (type, bounds.maxUnavailable, bounds.maxSurge)

def hasOutdatedGuests (m : IndexMap) (currentHash : Nat) : Bool := m.any fun entry => entry.2.templateHash ≠ currentHash

def findMissingIndices (m : IndexMap) (desired : Nat) : List Nat :=
  (List.range desired).filter fun idx => (m.get? idx).isNone

def findExcessIndices (m : IndexMap) (desired : Nat) : List Nat :=
  (m.indices.filter (desired ≤ ·)).insertionSort (· ≥ ·)

def RunPolicy.replaced : Option RunPolicy → Bool
  | some .running | some .always | some .restartOnFailure => true
  | _ => false

/-- Failed replicas are deleted once their back-off has run out. Returns the others, and the attempts of the deleted. -/
def replaceFailed (desired currentHash : Nat) :
    List Nat → IndexMap → List (Nat × Nat) → Act (IndexMap × List (Nat × Nat))
  | [], m, attempts => pure (m, attempts)
  | idx :: rest, m, attempts =>
    match m.get? idx with
    | none => replaceFailed desired currentHash rest m attempts
    | some guest =>
      if desired ≤ idx ∨ guest.phase ≠ .failed then replaceFailed desired currentHash rest m attempts
      else if ¬ RunPolicy.replaced guest.runPolicy then replaceFailed desired currentHash rest m attempts
      else do
        let now ← issue .now
        let delay := replacementDelay guest currentHash now
        if 0 < delay.1 then replaceFailed desired currentHash rest m attempts
        else do
          issue (.delete idx)
          replaceFailed desired currentHash rest (m.without idx) ((idx, delay.2) :: attempts)

def surgeReplicasToKeep (pool : SwiftGuestPool) (m : IndexMap) (currentHash desired : Nat) : List Nat :=
  let (strategy, _, maxSurge) := rolloutParams pool
  if strategy ≠ .rollingUpdate ∨ maxSurge = 0 then []
  else
    let outdatedLeft := (List.range desired).any fun idx => (m.get? idx).any (·.templateHash ≠ currentHash)
    let notReady := (List.range desired).any fun idx => !(m.get? idx).any guestReady
    ((List.range maxSurge).map (desired + ·)).filter fun idx =>
      (m.get? idx).any fun g =>
        !g.deletionTimestamp && g.templateHash = currentHash && (outdatedLeft || notReady && guestReady g)

def scaleDown (keepSurge : List Nat) : List Nat → IndexMap → Act IndexMap
  | [], m => pure m
  | idx :: rest, m =>
    if idx ∈ keepSurge then scaleDown keepSurge rest m
    else do
      issue (.delete idx)
      scaleDown keepSurge rest (m.without idx)

def createSwiftGuest (pool : SwiftGuestPool) (idx attempt : Nat) : Act Unit := do
  issue (.prepare idx)
  issue (.create idx pool.template attempt)

def attemptOf (attempts : List (Nat × Nat)) (idx : Nat) : Nat := ((attempts.find? (·.1 = idx)).map (·.2)).getD 0

def createMissing (pool : SwiftGuestPool) (attempts : List (Nat × Nat)) : List Nat → Act Unit
  | [] => pure ()
  | idx :: rest => do
    createSwiftGuest pool idx (attemptOf attempts idx)
    createMissing pool attempts rest

def deleteAll : List Nat → Act Unit
  | [] => pure ()
  | idx :: rest => do
    issue (.delete idx)
    deleteAll rest

/-- Outdated replicas that do not serve are replaced outside the budget; the serving ones are returned. -/
def replaceIdle (m : IndexMap) (desired : Nat) : List Nat → Act (List Nat)
  | [] => pure []
  | idx :: rest =>
    match m.get? idx with
    | none => replaceIdle m desired rest
    | some guest =>
      if desired ≤ idx ∨ guest.deletionTimestamp then replaceIdle m desired rest
      else if guestReady guest then do
        let outdatedReady ← replaceIdle m desired rest
        pure (idx :: outdatedReady)
      else do
        issue (.delete idx)
        replaceIdle m desired rest

def createSurge (pool : SwiftGuestPool) (m : IndexMap) : List Nat → Act Unit
  | [] => pure ()
  | idx :: rest =>
    if (m.get? idx).isSome then createSurge pool m rest
    else do
      createSwiftGuest pool idx 0
      createSurge pool m rest

def replaceServing : Int → List Nat → Act Unit
  | _, [] => pure ()
  | budget, idx :: rest =>
    if budget ≤ 0 then pure ()
    else do
      issue (.delete idx)
      replaceServing (budget - 1) rest

def outdatedIndices (m : IndexMap) (currentHash : Nat) : List Nat :=
  (IndexMap.indices (m.filter fun entry => entry.2.templateHash ≠ currentHash)).insertionSort (· ≥ ·)

def readyReplicas (m : IndexMap) : Nat := m.countP fun entry => guestReady entry.2

def reconcileRollingUpdate (pool : SwiftGuestPool) (m : IndexMap) (currentHash desired : Nat) : Act Unit :=
  let (strategy, maxUnavailable, maxSurge) := rolloutParams pool
  let outdated := outdatedIndices m currentHash
  if strategy = .recreate then deleteAll outdated
  else if maxUnavailable = 0 ∧ maxSurge = 0 then pure ()
  else do
    let budget : Int := readyReplicas m - (desired - maxUnavailable)
    let outdatedReady ← replaceIdle m desired outdated
    createSurge pool m ((List.range (min maxSurge outdatedReady.length)).map (desired + ·))
    replaceServing budget outdatedReady

def reconcileReplicas (pool : SwiftGuestPool) : Act Unit := do
  let owned ← issue .listOwnedGuests
  let desired := pool.replicas
  let currentHash := computeTemplateHash pool.template
  let order ← issue (.range owned.indices)
  let (m, attempts) ← replaceFailed desired currentHash order owned []
  let keepSurge := surgeReplicasToKeep pool m currentHash desired
  let m ← scaleDown keepSurge (findExcessIndices m desired) m
  createMissing pool attempts (findMissingIndices m desired)
  let _ ← if hasOutdatedGuests m currentHash then reconcileRollingUpdate pool m currentHash desired else pure ()
  let _ ← issue .listOwnedGuests
  issue .updateStatus

def reconcile : Act Unit := do
  match ← issue .getPool with
  | none => pure ()
  | some pool => if pool.deletionTimestamp then pure () else reconcileReplicas pool

end KubeSwift.GuestPool
