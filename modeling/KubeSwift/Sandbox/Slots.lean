import KubeSwift.Program.Loops
import KubeSwift.Program.Versions
import KubeSwift.Sandbox.Artifacts

/-! # Warm slots

A pool keeps pods booted that run no workload yet; a sandbox takes one by relabelling it. Both decide on copies that may
be old. -/

namespace KubeSwift.Sandbox
open Program

abbrev StringMap := String → Option String

def StringMap.empty : StringMap := fun _ => none

def StringMap.value (m : StringMap) (key : String) : String := (m key).getD ""

def StringMap.set (m : StringMap) (key value : String) : StringMap := Function.update m key (some value)

def StringMap.complete (m more : StringMap) : StringMap := fun key => (m key).or (more key)

def poolLabelKey := "sandbox.kubeswift.io/pool"
def slotStateLabelKey := "sandbox.kubeswift.io/slot-state"
def slotStateWarm := "warm"
def slotStateClaimed := "claimed"
def sandboxLabelKey := "sandbox.kubeswift.io/sandbox"
def slotNameLabelKey := "sandbox.kubeswift.io/slot"
def slotProfileAnnotation := "sandbox.kubeswift.io/slot-profile"
def slotReadinessAnnotation := "sandbox.kubeswift.io/slot-readiness"
def slotReadinessGuestAgent := "guest-agent"
def guestAgentReadyAnnotation := "kubeswift.io/guest-agent-ready"
def egressAllowedAnnotation := "sandbox.kubeswift.io/egress-allowed"
def bridgeFeaturesAnnotation := "kubeswift.io/bridge-features"
def warmMountsFeature := "warm-mounts"
def launcherFeaturesAnnotation := "kubeswift.io/launcher-features"
def artifactRequirementsFeature := "artifact-requirements"
def annSandboxExecAction := "kubeswift.io/sandbox-exec-action"
def annSandboxExecActionID := "kubeswift.io/sandbox-exec-action-id"
def annSandboxExecActionArgs := "kubeswift.io/sandbox-exec-action-args"
def launcherName := "launcher"

inductive PodPhase
  | pending | running | succeeded | failed | unknown
  deriving DecidableEq, Repr

structure OwnerReference where
  kind : String
  name : String
  uid : String
  controller : Bool
  deriving DecidableEq, Repr

structure ContainerStatus where
  name : String
  ready : Bool
  running : Option Nat
  deriving DecidableEq, Repr

structure Manifest where
  name : String
  labels : StringMap
  annotations : StringMap
  ownerReferences : List OwnerReference
  deletionTimestamp : Bool
  phase : PodPhase
  containerStatuses : List ContainerStatus
  serviceAccountName : String
  nodeName : String

structure Pod extends Manifest where
  uid : Nat
  resourceVersion : Nat

namespace Manifest

def launcher (p : Manifest) : Option ContainerStatus := p.containerStatuses.find? fun cs => cs.name = launcherName

def launcherReady (p : Manifest) : Bool :=
  p.phase = .running && (p.launcher.map fun cs => cs.ready || cs.running.isSome).getD false

def launcherStartedAt (p : Manifest) : Option Nat :=
  p.containerStatuses.findSome? fun cs => if cs.name = launcherName then cs.running else none

def slotReady (p : Manifest) : Bool :=
  if p.deletionTimestamp || !p.launcherReady then false
  else if p.annotations.value slotReadinessAnnotation ≠ slotReadinessGuestAgent then true
  else p.annotations.value guestAgentReadyAnnotation ≠ ""

def slotNeverReady (p : Manifest) (timeout now : Nat) : Bool :=
  if timeout = 0 || p.annotations.value slotReadinessAnnotation ≠ slotReadinessGuestAgent || p.slotReady then false
  else match p.launcherStartedAt with
    | none | some 0 => false
    | some started => timeout < now - started

def fields (s : String) : List String :=
  ((s.toList.splitOnP Char.isWhitespace).filter fun word => !word.isEmpty).map String.ofList

def slotSupportsWarmMounts (p : Manifest) : Bool :=
  (fields (p.annotations.value bridgeFeaturesAnnotation)).contains warmMountsFeature

def slotEnforcesRequirements (p : Manifest) : Bool :=
  (fields (p.annotations.value launcherFeaturesAnnotation)).contains artifactRequirementsFeature

def controller (p : Manifest) : Option OwnerReference := p.ownerReferences.find? fun ref => ref.controller

def warm (p : Manifest) : Bool := p.labels.value slotStateLabelKey = slotStateWarm

def claimed (p : Manifest) : Bool := p.labels.value slotStateLabelKey = slotStateClaimed

end Manifest

def sandboxLauncherServiceAccountName := "kubeswift-sandbox-launcher"

/-- A launcher pod's own account; `hex` is the SHA-256 of a text in hexadecimal. -/
def sandboxLauncherServiceAccountFor (hex : String → String) (podName : String) : String :=
  let start := sandboxLauncherServiceAccountName ++ "-"
  if start.length + podName.length ≤ 253 then start ++ podName
  else start ++ String.ofList (podName.toList.take (253 - start.length - 9)) ++ "-" ++
    String.ofList ((hex podName).toList.take 8)

def slotAccount (p : Manifest) : String :=
  if p.serviceAccountName = "" then sandboxLauncherServiceAccountName else p.serviceAccountName

structure PodMetadata where
  labels : StringMap
  annotations : StringMap

def reservedDomain (key : String) : Bool :=
  let (domain, rest) := key.toList.span fun c => c ≠ '/'
  !rest.isEmpty && (domain = "kubeswift.io".toList || ".kubeswift.io".toList.isSuffixOf domain)

/-- What `ValidatePodMetadata` refuses, as far as it concerns KubeSwift's own keys. -/
def PodMetadata.Valid (m : PodMetadata) : Prop :=
  ∀ key, reservedDomain key = true → m.labels key = none ∧ m.annotations key = none

structure SwiftSandbox where
  name : String
  uid : String
  poolRef : String
  podMetadata : Option PodMetadata
  secretEnv : List String
  secretFiles : List String
  artifacts : List Workload.Artifact
  artifactStatuses : List Workload.ArtifactStatus

def SwiftSandbox.usesSecrets (sb : SwiftSandbox) : Bool := !sb.secretEnv.isEmpty || !sb.secretFiles.isEmpty

def SwiftSandbox.artifactsToMount (sb : SwiftSandbox) : List Workload.Artifact :=
  Workload.artifactsToMount sb.artifacts sb.artifactStatuses

def SwiftSandbox.anyGoverned (sb : SwiftSandbox) (decisions : List Bool) : Bool :=
  let governed := (sb.artifacts.map fun a => a.name).zip decisions
  sb.artifactsToMount.any fun a => (governed.reverse.lookup a.name).getD false

def SwiftSandbox.ref (sb : SwiftSandbox) : OwnerReference := ⟨"SwiftSandbox", sb.name, sb.uid, true⟩

structure SwiftSandboxPool where
  name : String
  uid : String
  deletionTimestamp : Bool
  gpuFinalizer : Bool
  gpuProfileRef : Option String
  model : Bool
  networked : Bool
  minWarm : Nat
  maxWarm : Nat
  slotProfile : String
  rootfsDigest : String

def SwiftSandboxPool.ref (pool : SwiftSandboxPool) : OwnerReference := ⟨"SwiftSandboxPool", pool.name, pool.uid, true⟩

inductive PoolPhase
  | warming | ready | degraded (reason : String)
  deriving DecidableEq, Repr

structure PoolStatus where
  phase : PoolPhase
  warmReplicas : Nat
  claimedReplicas : Nat
  warmingReplicas : Nat
  deriving DecidableEq, Repr

inductive Err
  | notFound | conflict | alreadyExists | alreadyOwned | noCapacity | foreignLauncherAccount | other
  deriving DecidableEq, Repr

inductive Actor
  | sandbox (ref : OwnerReference) | pool (name : String) | cluster
  deriving DecidableEq, Repr

structure Entry where
  writer : Actor
  manifest : Manifest

structure World where
  versions : Nat → List Entry
  live : String → Option Nat

inductive External
  | sandboxDecisions | preparedNodes
  | getPool (name : String) | patchFinalizers (name : String) (present : Bool) | terminating
  | ensureLauncherRBAC | resolveEgress | slotReadyTimeout | now | ensureLauncherIdentity (pod : String)
  | narrowToScopedRBAC | reconcileSlotGPUGC | checkKernel
  | pullSecretAuth | pullModelSecretAuth | resolveImage | resolveModel
  | newSlotSuffix | allocateSlotGPU (slot : String) | ensureIntentConfigMap (slot : String)
  | ensureLauncherPolicy (slot : String) | updateStatus (status : PoolStatus)

@[reducible] def External.Res : External → Type
  | .sandboxDecisions => List Bool
  | .preparedNodes => List String
  | .getPool _ => SwiftSandboxPool
  -- the allowed addresses as they are annotated, and why to wait
  | .resolveEgress => String × Option String
  | .slotReadyTimeout | .now => Nat
  | .terminating | .reconcileSlotGPUGC | .resolveImage | .resolveModel | .ensureLauncherPolicy _ => Bool
  | .checkKernel | .newSlotSuffix => String
  | .patchFinalizers _ _ | .ensureLauncherRBAC | .ensureLauncherIdentity _ | .narrowToScopedRBAC
  | .pullSecretAuth | .pullModelSecretAuth | .allocateSlotGPU _ | .ensureIntentConfigMap _
  | .updateStatus _ => Unit

inductive Op
  | external (call : External)
  | list (selector : List (String × String))
  | get (name : String)
  | update (pod : Pod)
  | delete (pod : Pod)
  | create (manifest : Manifest)

@[reducible] def Op.Res : Op → Type
  | .external call => call.Res
  | .list _ => List Pod
  | .get _ => Pod
  | .update _ | .delete _ => Unit
  -- the new pod's UID
  | .create _ => Nat

structure Choice where
  fault : Option (Err × Bool) := none
  answer : (call : External) → Except Err call.Res
  listing : List (Nat × Nat) := []
  version : Option (Nat × Nat) := none
  uid : Nat := 0
  gone : Bool := true

namespace World

def read (w : World) (at_ : Nat × Nat) : Option Pod :=
  (w.versions at_.1)[at_.2]?.map fun e => { e.manifest with uid := at_.1, resourceVersion := at_.2 }

def push (w : World) (uid : Nat) (e : Entry) : World := { w with versions := append w.versions uid e }

def current (w : World) (p : Pod) : Bool :=
  w.live p.name = some p.uid && (w.versions p.uid).length = p.resourceVersion + 1

def perform (w : World) (c : Choice) (p : Actor) : (o : Op) → Except Err (World × o.Res)
  | .external call => (c.answer call).map fun a => (w, a)
  | .list selector =>
    .ok (w, (c.listing.filterMap w.read).filter fun pod => selector.all fun kv => pod.labels kv.1 = some kv.2)
  | .get name =>
    match (c.version.bind w.read).filter fun pod => pod.name = name with
    | some pod => .ok (w, pod)
    | none => .error .notFound
  | .update pod =>
    if w.live pod.name = none then .error .notFound
    else if w.current pod then .ok (w.push pod.uid ⟨p, pod.toManifest⟩, ())
    else .error .conflict
  | .delete pod =>
    if w.live pod.name = none then .error .notFound
    else if w.current pod then
      let w' := w.push pod.uid ⟨p, { pod.toManifest with deletionTimestamp := true }⟩
      .ok (if c.gone then { w' with live := Function.update w'.live pod.name none } else w', ())
    else .error .conflict
  | .create m =>
    if w.live m.name = none then
      .ok ({ w.push c.uid ⟨p, m⟩ with live := Function.update w.live m.name (some c.uid) }, c.uid)
    else .error .alreadyExists

def exec (c : Choice) (p : Actor) (w : World) : (o : Op) → Option (World × Except Err o.Res)
  | .create m => if w.versions c.uid = [] then some (withFault w c.fault (w.perform c p (.create m))) else none
  | o => some (withFault w c.fault (w.perform c p o))

end World

def engine : Engine Actor Choice World Op Op.Res Err where
  exec p c w o := w.exec c p o
  crash _ w := w

abbrev Act := Prog Op Op.Res Err

abbrev issue (o : Op) : Act o.Res := Prog.call o

abbrev ask (call : External) : Act call.Res := Prog.call (Op.external call)

structure ExecInject where
  args : Pod → Except Err String

def nonControllerRefs (refs : List OwnerReference) : List OwnerReference := refs.filter fun ref => !ref.controller

def OwnerReference.same (a b : OwnerReference) : Bool := a.kind = b.kind && a.name = b.name

def upsertOwnerRef (owner : OwnerReference) (refs : List OwnerReference) : List OwnerReference :=
  match refs.findIdx? owner.same with
  | some i => refs.set i owner
  | none => refs ++ [owner]

def setControllerReference (owner : OwnerReference) (refs : List OwnerReference) : Except Err (List OwnerReference) :=
  match refs.find? fun ref => ref.controller with
  | some existing => if owner.same existing then .ok (upsertOwnerRef owner refs) else .error .alreadyOwned
  | none => .ok (upsertOwnerRef owner refs)

def applyPodMetadata (pod : Pod) : Option PodMetadata → Pod
  | none => pod
  | some m => { pod with
      labels := pod.labels.complete m.labels
      annotations := pod.annotations.complete m.annotations }

def execActionAnnotations (slot : Pod) (actionID : String) (w : ExecInject) : Except Err (List (String × String)) := do
  let args ← w.args slot
  return [(annSandboxExecAction, "run"), (annSandboxExecActionID, actionID), (annSandboxExecActionArgs, args)]

def withAnnotations (pod : Pod) (annotations : List (String × String)) : Pod :=
  { pod with annotations := annotations.foldl (fun m kv => m.set kv.1 kv.2) pod.annotations }

def claim (sb : SwiftSandbox) (p : Pod) (inject : Option ExecInject) : Except Err Pod := do
  let labels := (p.labels.set slotStateLabelKey slotStateClaimed).set sandboxLabelKey sb.name
  let claimed := applyPodMetadata { p with labels } sb.podMetadata
  let ownerReferences ← setControllerReference sb.ref (nonControllerRefs claimed.ownerReferences)
  let claimed := { claimed with ownerReferences }
  match inject with
  | none => return claimed
  | some w => return withAnnotations claimed (← execActionAnnotations claimed sb.uid w)

def claimSlot (sb : SwiftSandbox) (p : Pod) (inject : Option ExecInject) : Act Pod := do
  let claimed ← Prog.ofExcept (claim sb p inject)
  issue (.update claimed)
  return claimed

def rereadSlot (p : Pod) : Act (Option Pod) := do
  match ← (issue (.get p.name)).attempt with
  | .error .notFound => return none
  | .error e => .fail e
  | .ok fresh => return if fresh.deletionTimestamp then none else some fresh

def eligible (hex : String → String) (sb : SwiftSandbox) (profile : String) (needRequirements : Bool) (p : Pod) :
    Bool :=
  if !p.warm || !p.slotReady then false
  else if p.annotations.value slotProfileAnnotation ≠ profile then false
  else if sb.usesSecrets && slotAccount p.toManifest ≠ sandboxLauncherServiceAccountFor hex p.name then false
  else if !sb.artifactsToMount.isEmpty && !p.slotSupportsWarmMounts then false
  else if needRequirements && !p.slotEnforcesRequirements then false
  else true

def claimAttempts := 3

def claimLoop (hex : String → String) (sb : SwiftSandbox) (profile : String) (needRequirements : Bool)
    (inject : Option ExecInject) : Nat → Pod → Act (Option Pod)
  | 0, _ => return none
  | attempts + 1, p =>
    if eligible hex sb profile needRequirements p then do
      match ← (claimSlot sb p inject).attempt with
      | .ok claimed => return some claimed
      | .error .conflict =>
        match ← rereadSlot p with
        | none => return none
        | some fresh => claimLoop hex sb profile needRequirements inject attempts fresh
      | .error e => .fail e
    else return none

def claimFirst (hex : String → String) (sb : SwiftSandbox) (profile : String) (needRequirements : Bool)
    (inject : Option ExecInject) : List Pod → Act (Option Pod)
  | [] => return none
  | p :: rest => do
    match ← claimLoop hex sb profile needRequirements inject claimAttempts p with
    | some claimed => return some claimed
    | none => claimFirst hex sb profile needRequirements inject rest

def inFront {α : Type} (first : α → Bool) (l : List α) : List α := l.filter first ++ l.filter fun a => !first a

def tryClaimWarmSlot (hex : String → String) (sb : SwiftSandbox) (profile : String) (inject : Option ExecInject) :
    Act (Option Pod) := do
  let needRequirements ←
    if sb.artifactsToMount.isEmpty then pure false
    else do
      let decisions ← ask .sandboxDecisions
      pure (sb.anyGoverned decisions)
  let pods ← issue (.list [(poolLabelKey, sb.poolRef), (slotStateLabelKey, slotStateWarm)])
  let prepared ← ask .preparedNodes
  claimFirst hex sb profile needRequirements inject
    (if prepared.isEmpty then pods else inFront (fun p => prepared.contains p.nodeName) pods)

def deleteWarmSlot (p : Pod) : Act Unit := do
  match ← (issue (.delete p)).attempt with
  | .ok () | .error .notFound | .error .conflict => return
  | .error e => .fail e

def deleteAll : List Pod → Act Unit
  | [] => return
  | p :: rest => do
    deleteWarmSlot p
    deleteAll rest

def deleteWarmSlots (pool : SwiftSandboxPool) : Act Unit := do
  let pods ← issue (.list [(poolLabelKey, pool.name), (slotStateLabelKey, slotStateWarm)])
  deleteAll (pods.filter fun p => !p.deletionTimestamp)

def reconcileSlotGPUGC (pool : SwiftSandboxPool) : Act Bool :=
  if pool.gpuProfileRef.isNone then return false else ask .reconcileSlotGPUGC

structure Census where
  ready : Nat := 0
  warmLive : Nat := 0
  claimed : Nat := 0
  warmPods : List Pod := []

def censusSlot (pool : SwiftSandboxPool) (egressNow : String) (timeout now : Nat) (census : Census) (p : Pod) :
    Act Census := do
  if p.deletionTimestamp then return census
  else if p.phase = .succeeded ∨ p.phase = .failed then
    if p.warm then deleteWarmSlot p
    return census
  else do
    if p.warm then ask (.ensureLauncherIdentity p.name)
    let staleEgress := p.annotations.value egressAllowedAnnotation ≠ egressNow
    if p.warm && (p.annotations.value slotProfileAnnotation ≠ pool.slotProfile || staleEgress) then
      deleteWarmSlot p
      return census
    else if p.warm && p.slotNeverReady timeout now then
      deleteWarmSlot p
      return census
    else if p.warm then
      return { census with
        warmLive := census.warmLive + 1
        warmPods := census.warmPods ++ [p]
        ready := census.ready + if p.slotReady then 1 else 0 }
    else return { census with claimed := census.claimed + 1 }

def slotsToCreate (minWarm maxWarm warmLive : Nat) : Nat :=
  min (minWarm - warmLive) (max maxWarm minWarm - warmLive)

def slotsToDelete (minWarm warmLive : Nat) : Nat := warmLive - minWarm

def pickWarmToDrain (warm : List Pod) (n : Nat) : List Pod :=
  if n ≥ warm.length then warm else (inFront (fun p => !p.slotReady) warm).take n

def warmSlot (hex : String → String) (pool : SwiftSandboxPool) (name egress : String) : Manifest where
  name := name
  labels := (((StringMap.empty.set sandboxLabelKey name).set poolLabelKey pool.name).set
    slotStateLabelKey slotStateWarm).set slotNameLabelKey name
  annotations :=
    let built := if egress ≠ "" ∧ pool.networked then StringMap.empty.set egressAllowedAnnotation egress
      else StringMap.empty
    (built.set slotProfileAnnotation pool.slotProfile).set slotReadinessAnnotation slotReadinessGuestAgent
  ownerReferences := [pool.ref]
  deletionTimestamp := false
  phase := .pending
  containerStatuses := []
  serviceAccountName := sandboxLauncherServiceAccountFor hex name
  nodeName := ""

def createWarmSlot (hex : String → String) (pool : SwiftSandboxPool) (egress : String) : Act Unit := do
  let suffix ← ask .newSlotSuffix
  let name := pool.name ++ "-slot-" ++ suffix
  if pool.gpuProfileRef.isSome then ask (.allocateSlotGPU name)
  ask (.ensureIntentConfigMap name)
  ask (.ensureLauncherIdentity name)
  let policy ← if pool.networked then ask (.ensureLauncherPolicy name) else pure true
  if policy then
    match ← (issue (.create (warmSlot hex pool name egress))).attempt with
    | .ok _ => ask (.ensureLauncherIdentity name)
    | .error .alreadyExists => return
    | .error e => .fail e
  else .fail .other

def updateStatus (pool : SwiftSandboxPool) (census : Census) : Act Unit :=
  ask (.updateStatus ⟨if census.ready ≥ pool.minWarm then .ready else .warming, census.ready, census.claimed,
    census.warmLive - census.ready⟩)

def degraded (census : Census) (reason : String) : Act Unit :=
  ask (.updateStatus ⟨.degraded reason, census.ready, census.claimed, census.warmLive - census.ready⟩)

inductive Warmed
  | done | stopped | conflict

def warmSlots (hex : String → String) (pool : SwiftSandboxPool) (egress : String) : Nat → Act Warmed
  | 0 => return .done
  | n + 1 => do
    match ← (createWarmSlot hex pool egress).attempt with
    | .ok () => warmSlots hex pool egress n
    | .error e =>
      if pool.gpuProfileRef.isSome ∧ e = .noCapacity then return .stopped
      else if e = .foreignLauncherAccount then return .conflict
      else .fail e

def resolve (pool : SwiftSandboxPool) : Act (Except String Bool) := do
  match ← (ask .pullSecretAuth).attempt with
  | .error _ => return .error "ImagePullSecretInvalid"
  | .ok () =>
    let image ← (ask .resolveImage).attempt
    if pool.model then
      match ← (ask .pullModelSecretAuth).attempt with
      | .error _ => return .error "ImagePullSecretInvalid"
      | .ok () =>
        let model ← (ask .resolveModel).attempt
        match image, model with
        | .error _, _ => return .error "ImageResolveFailed"
        | .ok _, .error _ => return .error "ModelResolveFailed"
        | .ok imageReady, .ok modelReady => return .ok (imageReady && modelReady)
    else match image with
      | .error _ => return .error "ImageResolveFailed"
      | .ok imageReady => return .ok imageReady

def drain (pool : SwiftSandboxPool) (census : Census) : Act Unit := do
  deleteAll (pickWarmToDrain census.warmPods (slotsToDelete pool.minWarm census.warmLive))
  updateStatus pool census

def blocked (egressWait : Option String) (want : Nat) : Act (Option String) :=
  if want = 0 then return none
  else match egressWait with
    | some reason => return some reason
    | none => do
      let kernel ← ask .checkKernel
      return if kernel = "" then none else some kernel

def warmAndDrain (hex : String → String) (pool : SwiftSandboxPool) (egress : String) (census : Census) (want : Nat) :
    Except String Bool → Act Unit
  | .error reason => degraded census reason
  | .ok false => return
  | .ok true => do
    match ← warmSlots hex pool egress want with
    | .conflict => degraded census "LauncherAccountConflict"
    | .done | .stopped => drain pool census

def replenish (hex : String → String) (pool : SwiftSandboxPool) (egress : String) (egressWait : Option String)
    (census : Census) : Act Unit := do
  let want := slotsToCreate pool.minWarm pool.maxWarm census.warmLive
  match ← blocked egressWait want with
  | some reason => degraded census reason
  | none =>
    (if 0 < want ∨ pool.rootfsDigest = "" then resolve pool else pure (.ok true)) >>=
      warmAndDrain hex pool egress census want

def reconcileDeleted (pool : SwiftSandboxPool) : Act Unit := do
  if pool.gpuFinalizer then
    deleteWarmSlots pool
    let held ← reconcileSlotGPUGC pool
    if held then return else ask (.patchFinalizers pool.name false)
  else return

def reconcilePool (hex : String → String) (pool : SwiftSandboxPool) : Act Unit := do
  if pool.gpuProfileRef.isSome && !pool.gpuFinalizer then ask (.patchFinalizers pool.name true)
  let terminating ← ask .terminating
  if terminating then return
  else do
    ask .ensureLauncherRBAC
    let (egress, egressWait) ← ask .resolveEgress
    let pods ← issue (.list [(poolLabelKey, pool.name)])
    let timeout ← ask .slotReadyTimeout
    let now ← ask .now
    let census ← pods.foldlM (censusSlot pool egress timeout now) {}
    let _ ← (ask .narrowToScopedRBAC).attempt
    let _ ← reconcileSlotGPUGC pool
    replenish hex pool egress egressWait census

def reconcile (hex : String → String) (name : String) : Act Unit := do
  match ← (ask (.getPool name)).attempt with
  | .error .notFound => return
  | .error e => .fail e
  | .ok pool => if pool.deletionTimestamp then reconcileDeleted pool else reconcilePool hex pool

inductive Event
  | annotate (name : String) (annotations : List (String × String))
  | report (name : String) (phase : PodPhase) (containerStatuses : List ContainerStatus) (nodeName : String)
  | terminate (name : String)
  | remove (name : String)

def execActionKeys : List String := [annSandboxExecAction, annSandboxExecActionID, annSandboxExecActionArgs]

def Event.proper : Event → Bool
  | .annotate _ annotations => annotations.all fun kv => !execActionKeys.contains kv.1
  | _ => true

def World.rewrite (w : World) (name : String) (f : Manifest → Manifest) : World :=
  match w.live name with
  | none => w
  | some uid =>
    match (w.versions uid).getLast? with
    | none => w
    | some e => w.push uid ⟨.cluster, f e.manifest⟩

def World.event : Event → World → World
  | .annotate name annotations, w => w.rewrite name fun m =>
    { m with annotations := annotations.foldl (fun m kv => m.set kv.1 kv.2) m.annotations }
  | .report name phase containerStatuses nodeName, w => w.rewrite name fun m =>
    { m with phase, containerStatuses, nodeName }
  | .terminate name, w => w.rewrite name fun m => { m with deletionTimestamp := true }
  | .remove name, w => { w with live := Function.update w.live name none }

inductive Offered (hex : String → String) : Actor → Act Unit → Prop
  | checkout (sb : SwiftSandbox) (profile : String) (inject : Option ExecInject)
      (valid : ∀ m, sb.podMetadata = some m → m.Valid) :
      Offered hex (.sandbox sb.ref) (tryClaimWarmSlot hex sb profile inject >>= fun _ => pure ())
  | reconcile (name : String) : Offered hex (.pool name) (reconcile hex name)

def setting (hex : String → String) : Setting Actor World Op Op.Res Err where
  env w w' := ∃ event : Event, event.proper = true ∧ w' = w.event event
  quiet _ _ := False
  offered := Offered hex

/-- Any call may fail, with or without effect, and any pass may stop at any point. -/
def machine : Machine Actor World Op Op.Res Err := engine.machine (fun _ _ _ _ => True) (fun _ _ => True)

abbrev Runs (hex : String → String) (w : World) (s : Loops Actor World Op Op.Res Err) : Prop :=
  LoopsReach machine (setting hex) w s

end KubeSwift.Sandbox
