import KubeSwift.Sandbox.Artifacts
import KubeSwift.Sandbox.Claims

/-! # Passes of pooled sandboxes

A sandbox of a pool looks for the slot it has claimed before, by a list that may be old, and claims one only when it
finds none. The workload goes with the claim or after it. -/

namespace KubeSwift.Sandbox.Checkout
open Program
open Workload (actionAttempt actionIDFor)

structure State where
  slots : World
  created : List Nat
  podRefs : OwnerReference → List String

structure PoolView where
  slotProfile : String
  mismatches : List String

inductive Resolved
  | failed | waits
  | ready (statuses : List Workload.ArtifactStatus)

inductive Outcome
  | keep
  | consume
  | again (arts : List String)

inductive Query
  | getPool | resolveArtifacts | checkSecretEnv | warmArtifactArgs
  | ensureLauncherIdentity (pod : String) | adoptSlotObjects (slot : String)
  | createLaunch | followLaunch | outcome (slot : Pod)

@[reducible] def Query.Res : Query → Type
  -- none when there is no such pool
  | .getPool => Option PoolView
  | .resolveArtifacts => Resolved
  -- whether a Secret is waited for
  | .checkSecretEnv => Bool
  -- none when an artifact must not be mounted
  | .warmArtifactArgs => Option (List String)
  | .ensureLauncherIdentity _ | .adoptSlotObjects _ | .createLaunch | .followLaunch => Unit
  | .outcome _ => Outcome

inductive Own
  | readStatus (ref : OwnerReference)
  | writeStatus (ref : OwnerReference) (podRef : String) (version : Nat)
  | patch (name : String) (changes : List (String × String))
  | delete (name : String)
  | query (q : Query)

@[reducible] def Own.Res : Own → Type
  | .readStatus _ => String × Nat
  | .writeStatus _ _ _ | .patch _ _ | .delete _ => Unit
  | .query q => q.Res

inductive Call
  | slot (o : Op)
  | own (o : Own)

@[reducible] def Call.Res : Call → Type
  | .slot o => Except Err o.Res
  | .own o => o.Res

/-- What the environment decides: for slot pods as before, the status a read sees, and what other calls answer. -/
structure Pick extends Choice where
  seen : Nat := 0
  replies : (q : Query) → Except Err q.Res

def amend (w : World) (p : Actor) (name : String) (f : Manifest → Manifest) : Except Err World :=
  match w.live name with
  | none => .error .notFound
  | some uid =>
    match (w.versions uid).getLast? with
    | none => .error .notFound
    | some e => .ok (w.push uid ⟨p, f e.manifest⟩)

def annotated (changes : List (String × String)) (m : Manifest) : Manifest :=
  { m with annotations := changes.foldl (fun m kv => m.set kv.1 kv.2) m.annotations }

namespace State

def perform (st : State) (c : Pick) (p : Actor) : (o : Own) → Except Err (State × o.Res)
  | .readStatus ref =>
    -- before the first write the status is empty
    match ("" :: st.podRefs ref)[c.seen]? with
    | some podRef => .ok (st, podRef, c.seen)
    | none => .error .notFound
  | .writeStatus ref podRef version =>
    if version = (st.podRefs ref).length then .ok ({ st with podRefs := append st.podRefs ref podRef }, ())
    else .error .conflict
  | .patch name changes => (amend st.slots p name (annotated changes)).map fun w => ({ st with slots := w }, ())
  | .delete name =>
    (amend st.slots p name fun m => { m with deletionTimestamp := true }).map fun w =>
      ({ st with slots := if c.gone then { w with live := Function.update w.live name none } else w }, ())
  | .query q => (c.replies q).map fun a => (st, a)

def exec (c : Pick) (p : Actor) (st : State) : (o : Call) → Option (State × Except Err o.Res)
  | .slot o => (st.slots.exec c.toChoice p o).map fun done => ({ st with slots := done.1 }, .ok done.2)
  | .own o => some (withFault st c.fault (st.perform c p o))

end State

def checkoutEngine : Engine Actor Pick State Call Call.Res Err where
  exec p c st o := st.exec c p o
  crash _ st := st

abbrev Pass := Prog Call Call.Res Err

abbrev own (o : Own) : Pass o.Res := Prog.call (Call.own o)

abbrev query (q : Query) : Pass q.Res := own (.query q)

def onSlots {α : Type} (act : Act α) : Pass α := act.lift Call.slot (fun _ answer => answer) id

/-- A sandbox as a pass sees it. `args` marshals the workload, and `refusal` is what the checks of its spec say. -/
structure Pooled where
  sb : SwiftSandbox
  command : List String
  refusal : Option String
  args : List String → Pod → Except Err String

def skipArtifacts (sb : SwiftSandbox) : SwiftSandbox :=
  { sb with artifactStatuses := Workload.skipArtifacts sb.artifacts sb.artifactStatuses }

def findClaimedSlot (sb : SwiftSandbox) : Act (Option Pod) := do
  let pods ← issue (.list [(sandboxLabelKey, sb.name), (slotStateLabelKey, slotStateClaimed)])
  return pods.find? fun pod => !pod.deletionTimestamp

def ownExecAction (slot : Pod) (sb : SwiftSandbox) : Bool :=
  (actionAttempt (slot.annotations.value annSandboxExecActionID) sb.uid).isSome

def patchExecAction (slot : Pod) (wanted : List (String × String)) : Pass Unit :=
  own (.patch slot.name (wanted.filter fun kv => slot.annotations kv.1 ≠ some kv.2))

def stampExecAction (slot : Pod) (actionID : String) (w : ExecInject) : Pass Unit := do
  let wanted ← Prog.ofExcept (execActionAnnotations slot actionID w)
  patchExecAction slot wanted

def writeStatus (sb : SwiftSandbox) (podRef : String) (version : Nat) : Pass Unit :=
  own (.writeStatus sb.ref podRef version)

def coldFallback (sb : SwiftSandbox) (version : Nat) : Pass Unit := do
  query .createLaunch
  writeStatus sb sb.name version

def resolveArtifacts (sb : SwiftSandbox) (version : Nat) : Pass (Option SwiftSandbox) := do
  if sb.artifacts.isEmpty then return some sb
  else match ← query .resolveArtifacts with
    | .failed | .waits => do
      writeStatus sb "" version
      return none
    | .ready statuses => return some { sb with artifactStatuses := statuses }

def claimWarmSlot (hex : String → String) (x : Pooled) (sb : SwiftSandbox) (profile : String) (version : Nat)
    (arts : Option (List String)) : Pass (Option (SwiftSandbox × Pod)) := do
  match ← onSlots (tryClaimWarmSlot hex sb profile (arts.map fun arts => ⟨x.args arts⟩)) with
  | some slot => return some (sb, slot)
  | none =>
    if Workload.onlyOptionalArtifacts sb.artifacts sb.artifactStatuses then do
      match ← onSlots (tryClaimWarmSlot hex (skipArtifacts sb) profile (arts.map fun _ => ⟨x.args []⟩)) with
      | some slot => return some (skipArtifacts sb, slot)
      | none => do
        coldFallback (skipArtifacts sb) version
        return none
    else do
      coldFallback sb version
      return none

def injectAndClaim (hex : String → String) (x : Pooled) (sb : SwiftSandbox) (profile : String) (version : Nat) :
    Pass (Option (SwiftSandbox × Pod)) := do
  if sb.usesSecrets then claimWarmSlot hex x sb profile version none
  else match ← query .warmArtifactArgs with
    | none => do
      writeStatus sb "" version
      return none
    | some arts => claimWarmSlot hex x sb profile version (some arts)

def takeSlot (hex : String → String) (x : Pooled) (sb : SwiftSandbox) (pool : Option PoolView) (version : Nat) :
    Pass (Option (SwiftSandbox × Pod)) := do
  match pool with
  | none => do
    coldFallback sb version
    return none
  | some pool =>
    if x.refusal.isSome then do
      writeStatus sb "" version
      return none
    else do
      let waits ← query .checkSecretEnv
      if waits then do
        writeStatus sb "" version
        return none
      else if !pool.mismatches.isEmpty then do
        coldFallback sb version
        return none
      else injectAndClaim hex x sb pool.slotProfile version

def recordSlot (sb : SwiftSandbox) (slot : Pod) (version : Nat) : Pass Unit := do
  query (.adoptSlotObjects slot.name)
  writeStatus sb slot.name version

def inject (x : Pooled) (sb : SwiftSandbox) (slot : Pod) (version : Nat) : Pass Unit := do
  if ownExecAction slot sb then recordSlot sb slot version
  else do
    query (.ensureLauncherIdentity slot.name)
    match ← query .warmArtifactArgs with
    | none => do
      let _ ← (own (.delete slot.name)).attempt
      writeStatus sb "" version
    | some arts => do
      stampExecAction slot sb.uid ⟨x.args arts⟩
      recordSlot sb slot version

def checkOut (hex : String → String) (x : Pooled) (version : Nat) : Pass Unit := do
  let pool ← query .getPool
  if x.command.isEmpty then coldFallback x.sb version
  else match ← resolveArtifacts x.sb version with
    | none => return
    | some sb =>
      match ← onSlots (findClaimedSlot sb) with
      | some slot => inject x sb slot version
      | none =>
        match ← takeSlot hex x sb pool version with
        | none => return
        | some (sb, slot) => inject x sb slot version

/-- The pass as far as it touches the slot: what it makes of the slot's report is the environment's. -/
def reconcileClaimedSlot (x : Pooled) (podRef : String) (version : Nat) : Pass Unit := do
  match ← onSlots (issue (.get podRef)).attempt with
  | .error .notFound => writeStatus x.sb podRef version
  | .error e => .fail e
  | .ok slot =>
    match ← query (.outcome slot) with
    | .keep => writeStatus x.sb podRef version
    | .consume => do
      let _ ← (own (.delete slot.name)).attempt
      writeStatus x.sb podRef version
    | .again arts =>
      let actionID := slot.annotations.value annSandboxExecActionID
      match actionAttempt (if actionID = "" then x.sb.uid else actionID) x.sb.uid with
      -- the status of an action that is not the sandbox's is not trusted
      | none => writeStatus x.sb podRef version
      | some attempt => do
        let wanted ← Prog.ofExcept (execActionAnnotations slot (actionIDFor x.sb.uid (attempt + 1)) ⟨x.args arts⟩)
        -- a status that is lost to a conflict sends nothing
        writeStatus x.sb podRef version
        patchExecAction slot wanted

def reconcilePooled (hex : String → String) (x : Pooled) : Pass Unit := do
  let (podRef, version) ← own (.readStatus x.sb.ref)
  if podRef ≠ "" ∧ podRef ≠ x.sb.name then reconcileClaimedSlot x podRef version
  else if podRef = x.sb.name then do
    query .followLaunch
    writeStatus x.sb podRef version
  else checkOut hex x version

inductive Happening
  | slot (event : Event)
  | create (pool : SwiftSandboxPool) (suffix egress : String) (uid : Nat)

def Happening.proper : Happening → Bool
  | .slot event => event.proper
  | .create _ _ _ _ => true

def slotName (pool : SwiftSandboxPool) (suffix : String) : String := pool.name ++ "-slot-" ++ suffix

/-- A new pod's UID was never used before, and its name is free. -/
def State.happens (hex : String → String) (st : State) : Happening → State
  | .slot event => { st with slots := st.slots.event event }
  | .create pool suffix egress uid =>
    let name := slotName pool suffix
    if st.slots.live name = none ∧ st.slots.versions uid = [] then
      { st with
        slots := { st.slots.push uid ⟨.pool pool.name, warmSlot hex pool name egress⟩ with
          live := Function.update st.slots.live name (some uid) }
        created := uid :: st.created }
    else st

/-- Passes of any sandbox, as its spec is now. Two objects of one name differ in the UID. -/
inductive Offers (hex : String → String) : Actor → Pass Unit → Prop
  | pass (x : Pooled) : Offers hex (.sandbox x.sb.ref) (reconcilePooled hex x)

def checkouts (hex : String → String) : Setting Actor State Call Call.Res Err where
  env st st' := ∃ event : Happening, event.proper = true ∧ st' = st.happens hex event
  quiet _ _ := False
  offered := Offers hex

/-- Any call may fail, with or without effect, but one that reports a conflict had none. Any pass may stop at any
point. -/
def Pick.honest (c : Pick) : Prop := c.fault ≠ some (.conflict, true)

instance (c : Pick) : Decidable c.honest := inferInstanceAs (Decidable (_ ≠ _))

def checkoutMachine : Machine Actor State Call Call.Res Err :=
  checkoutEngine.machine (fun _ _ _ c => c.honest) (fun _ _ => True)

def noSandboxes : State := ⟨⟨fun _ => [], fun _ => none⟩, [], fun _ => []⟩

abbrev CheckoutRuns (hex : String → String) (s : Loops Actor State Call Call.Res Err) : Prop :=
  LoopsReach checkoutMachine (checkouts hex) noSandboxes s

end KubeSwift.Sandbox.Checkout
