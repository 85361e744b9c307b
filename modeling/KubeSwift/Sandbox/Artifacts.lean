import Mathlib

/-! # Artifacts of a sandbox (`internal/controller/swiftsandbox/artifacts.go`, `warm_artifacts.go`)

What the registry and the policies answer, what a checkout sends, and the ids its dispatches go under. -/

namespace KubeSwift.Workload

structure Artifact where
  name : String
  optional : Bool
  fetchTimeout : Option Nat
  deriving DecidableEq

def defaultArtifactFetchTimeout : Nat := 10 * 10 ^ 9

def Artifact.artifactFetchTimeout (a : Artifact) : Nat := a.fetchTimeout.getD defaultArtifactFetchTimeout

inductive ArtifactState
  | unset | resolved | fetching | dispatched | mounted | skipped | failed
  deriving DecidableEq, Repr

structure ArtifactStatus where
  name : String
  digest : String
  state : ArtifactState
  reason : String
  deriving DecidableEq

def ArtifactStatus.usable (s : ArtifactStatus) : Bool := s.digest ≠ "" && s.state ≠ .skipped

def specArtifact (spec : List Artifact) (name : String) : Option Artifact := spec.find? (·.name = name)

def artifactOptional (spec : List Artifact) (name : String) : Bool :=
  match specArtifact spec name with
  | some a => a.optional
  | none => false

def artifactStatus (statuses : List ArtifactStatus) (name : String) : Option ArtifactStatus :=
  statuses.find? (·.name = name)

def ArtifactStatus.move (s : ArtifactStatus) (name : String) (state : ArtifactState) (reason : String) : ArtifactStatus :=
  if s.name ≠ name ∨ s.state = state then s else { s with state := state, reason := reason }

def setArtifactState (statuses : List ArtifactStatus) (name : String) (state : ArtifactState) (reason : String) :
    List ArtifactStatus :=
  statuses.map fun s => s.move name state reason

inductive Answer
  | pending | refused | transient
  | found (digest : { d : String // d ≠ "" })

structure Asked where
  denied : Bool
  credReason : Option String
  answer : Answer

inductive Trouble
  | unready | transient | refused | policyDenied
  deriving DecidableEq

/-- An optional artifact is skipped where a required one fails or waits; with `waits` it is waited for until its
deadline. -/
def resolveArtifact (waits : Bool) (a : Artifact) (asked : Asked) : ArtifactStatus × Option Trouble :=
  if asked.denied then
    if a.optional then (⟨a.name, "", .skipped, "PolicyDenied"⟩, none)
    else (⟨a.name, "", .failed, "ArtifactPolicyDenied"⟩, some .policyDenied)
  else
    match asked.credReason, asked.answer, a.optional with
    | some reason, _, true => (⟨a.name, "", .skipped, reason⟩, none)
    | some _, _, false => (⟨a.name, "", .failed, "ArtifactResolveFailed"⟩, some .refused)
    | none, .found digest, _ => (⟨a.name, digest, .resolved, ""⟩, none)
    | none, .pending, false => (⟨a.name, "", .unset, ""⟩, some .unready)
    | none, .refused, false => (⟨a.name, "", .failed, "ArtifactResolveFailed"⟩, some .refused)
    | none, .transient, false => (⟨a.name, "", .unset, ""⟩, some .transient)
    | none, .refused, true => (⟨a.name, "", .skipped, "ResolveRefused"⟩, none)
    | none, .pending, true =>
      if waits then (⟨a.name, "", .unset, ""⟩, some .unready) else (⟨a.name, "", .skipped, "ResolvePending"⟩, none)
    | none, .transient, true =>
      if waits then (⟨a.name, "", .unset, ""⟩, some .unready)
      else (⟨a.name, "", .skipped, "RegistryUnavailable"⟩, none)

inductive Resolution
  | ready (statuses : List ArtifactStatus)
  | notReady
  | unavailable
  | refused (failed : List ArtifactStatus)
  | denied (failed : List ArtifactStatus)

def resolveArtifactRequests (waits : Artifact → Bool) (spec : List Artifact) (asked : Artifact → Asked) : Resolution :=
  let results := spec.map fun a => resolveArtifact (waits a) a (asked a)
  let statuses := results.map (·.1)
  let troubles : List Trouble := results.filterMap (·.2)
  if .policyDenied ∈ troubles then .denied statuses
  else if .refused ∈ troubles then .refused statuses
  else if .transient ∈ troubles then .unavailable
  else if .unready ∈ troubles then .notReady
  else .ready statuses

structure ArtifactArg where
  name : String
  digest : String
  deriving DecidableEq

def digestOf (statuses : List ArtifactStatus) (name : String) : Option String :=
  (statuses.filter fun s => s.usable && s.name = name).getLast?.map (·.digest)

def resolvedArtifacts (spec : List Artifact) (statuses : List ArtifactStatus) : List ArtifactArg :=
  spec.filterMap fun a => (digestOf statuses a.name).map fun digest => ⟨a.name, digest⟩

def artifactsToMount (spec : List Artifact) (statuses : List ArtifactStatus) : List Artifact :=
  spec.filter fun a => (artifactStatus statuses a.name).all fun s => s.state ≠ .skipped

def onlyOptionalArtifacts (spec : List Artifact) (statuses : List ArtifactStatus) : Bool :=
  let arts := artifactsToMount spec statuses
  arts.all (·.optional) && !arts.isEmpty

def skipArtifacts (spec : List Artifact) (statuses : List ArtifactStatus) : List ArtifactStatus :=
  (artifactsToMount spec statuses).foldl
    (fun statuses a => setArtifactState statuses a.name .skipped "KernelUnsupported") statuses

def markDispatched (names : List String) (statuses : List ArtifactStatus) : List ArtifactStatus :=
  statuses.map fun s => if s.name ∈ names ∧ s.state = .resolved then { s with state := .dispatched } else s

/-- What a checkout sends and records of its artifacts. Where no slot can mount any and all are optional, it starts
without. -/
def firstDispatch (spec : List Artifact) (statuses : List ArtifactStatus) (mountable : Bool) :
    List ArtifactArg × List ArtifactStatus :=
  if !mountable && onlyOptionalArtifacts spec statuses then
    ([], skipArtifacts spec statuses)
  else
    let args := resolvedArtifacts spec statuses
    (args, markDispatched (args.map (·.name)) statuses)

def cutPrefix (s start : String) : Option String :=
  if start.toList.isPrefixOf s.toList then some (String.ofList (s.toList.drop start.length)) else none

@[simp] theorem cutPrefix_append (start rest : String) : cutPrefix (start ++ rest) start = some rest := by
  simp [cutPrefix, String.toList_append, String.length]

def fetchedActionSuffix : String := "-fetched"

def maxInt : Nat := 2 ^ 63 - 1

def canonicalNumber (s : String) : Option Nat :=
  let n := s.toList.foldl (fun n digit => 10 * n + (digit.toNat - '0'.toNat)) 0
  if n ≤ maxInt ∧ toString n = s then some n else none

def actionAttempt (id uid : String) : Option Nat :=
  if id = "" then none
  else if id = uid then some 1
  else if id = uid ++ fetchedActionSuffix then some 2
  else
    match (cutPrefix id (uid ++ "-")).bind canonicalNumber with
    | some n => if 2 ≤ n then some n else none
    | none => none

def actionIDFor (uid : String) (attempt : Nat) : String :=
  if attempt ≤ 1 then uid else uid ++ "-" ++ toString attempt

def maxDispatchAttempts : Nat := 4

variable {spec : List Artifact} {statuses : List ArtifactStatus}

abbrev Distinct (spec : List Artifact) : Prop := (spec.map (·.name)).Nodup

variable {a : Artifact} {asked : Artifact → Asked} {waits : Artifact → Bool}

theorem specArtifact_eq (distinct : Distinct spec) (member : a ∈ spec) : specArtifact spec a.name = some a := by
  induction spec with
  | nil => cases member
  | cons b rest ih =>
    rw [Distinct, List.map_cons, List.nodup_cons] at distinct
    rw [specArtifact, List.find?_cons]
    rcases List.mem_cons.mp member with rfl | later
    · simp
    · have other : b.name ≠ a.name := by
        intro same
        exact distinct.1 (same ▸ List.mem_map_of_mem later)
      simpa [specArtifact, other] using ih distinct.2 later

theorem artifactOptional_eq (distinct : Distinct spec) (member : a ∈ spec) :
    artifactOptional spec a.name = a.optional := by
  rw [artifactOptional, specArtifact_eq distinct member]

def Kept (spec : List Artifact) (statuses : List ArtifactStatus) : Prop :=
  ∀ s ∈ statuses, s.state = .skipped → artifactOptional spec s.name

theorem Kept.map {f : ArtifactStatus → ArtifactStatus} (kept : Kept spec statuses) (name : ∀ s, (f s).name = s.name)
    (skips : ∀ s, (f s).state = .skipped → s.state = .skipped ∨ artifactOptional spec s.name) :
    Kept spec (statuses.map f) := by
  intro s member skipped
  obtain ⟨old, here, rfl⟩ := List.mem_map.mp member
  rw [name]
  rcases skips old skipped with before | optional
  · exact kept old here before
  · exact optional

variable (kept : Kept spec statuses)
include kept

theorem Kept.setArtifactState (name : String) (state : ArtifactState) (reason : String)
    (optional : state = .skipped → artifactOptional spec name) : Kept spec (setArtifactState statuses name state reason) := by
  refine kept.map (fun s => by unfold ArtifactStatus.move; split <;> rfl) ?_
  intro s skipped
  unfold ArtifactStatus.move at skipped
  split at skipped
  · exact .inl skipped
  · next here =>
    simp only [not_or, not_not] at here
    exact .inr (here.1 ▸ optional skipped)

theorem Kept.foldl_setArtifactState {α : Type} (names : List α) (name : α → String) (state : ArtifactState)
    (reason : α → String) (optional : state = .skipped → ∀ n ∈ names, artifactOptional spec (name n)) :
    Kept spec (names.foldl (fun statuses n => KubeSwift.Workload.setArtifactState statuses (name n) state (reason n)) statuses) := by
  induction names generalizing statuses with
  | nil => exact kept
  | cons n rest ih =>
    refine ih (kept.setArtifactState (name n) state (reason n) fun skip => optional skip n (List.mem_cons_self ..)) ?_
    exact fun skip m member => optional skip m (List.mem_cons_of_mem _ member)

theorem Kept.markDispatched (names : List String) : Kept spec (markDispatched names statuses) := by
  refine kept.map (fun s => by split <;> rfl) ?_
  intro s skipped
  split at skipped
  · cases skipped
  · exact .inl skipped

theorem Kept.artifactStatus_required (distinct : Distinct spec) (member : a ∈ spec)
    (required : a.optional = false) : ((artifactStatus statuses a.name).all fun s => s.state ≠ .skipped) = true := by
  cases found : artifactStatus statuses a.name with
  | none => rfl
  | some s =>
    have here := List.mem_of_find?_eq_some found
    have name : s.name = a.name := by simpa using List.find?_some found
    have unskipped : s.state ≠ .skipped := by
      intro skipped
      have optional := kept s here skipped
      rw [name, artifactOptional_eq distinct member, required] at optional
      cases optional
    simpa using unskipped

omit kept

theorem resolveArtifact_settled {waits : Bool} {asked : Asked} (settled : (resolveArtifact waits a asked).2 = none) :
    (resolveArtifact waits a asked).1.name = a.name ∧
    (a.optional = false → (resolveArtifact waits a asked).1.usable) ∧
    ((resolveArtifact waits a asked).1.state = .skipped → a.optional = true) := by
  unfold resolveArtifact at settled ⊢
  split at settled
  · split at settled <;> simp_all
  · split at settled
    case h_3 digest _ _ => simp_all [ArtifactStatus.usable, digest.property]
    all_goals first | (split at settled <;> simp_all) | simp_all

theorem resolveArtifactRequests_ready (ready : resolveArtifactRequests waits spec asked = .ready statuses) :
    statuses = spec.map (fun a => (resolveArtifact (waits a) a (asked a)).1) ∧
    ∀ a ∈ spec, (resolveArtifact (waits a) a (asked a)).2 = none := by
  simp only [resolveArtifactRequests] at ready
  split at ready
  · cases ready
  split at ready
  · cases ready
  split at ready
  · cases ready
  split at ready
  · cases ready
  next denied refused transient unready =>
    cases ready
    refine ⟨by simp, ?_⟩
    intro a member
    cases found : (resolveArtifact (waits a) a (asked a)).2 with
    | none => rfl
    | some trouble =>
      have there : trouble ∈ (spec.map fun a => resolveArtifact (waits a) a (asked a)).filterMap (·.2) :=
        List.mem_filterMap.mpr ⟨_, List.mem_map_of_mem member, found⟩
      cases trouble <;> contradiction

theorem Kept.resolved (distinct : Distinct spec) (ready : resolveArtifactRequests waits spec asked = .ready statuses) :
    Kept spec statuses := by
  obtain ⟨rfl, settled⟩ := resolveArtifactRequests_ready ready
  intro s member skipped
  obtain ⟨a, here, rfl⟩ := List.mem_map.mp member
  obtain ⟨name, -, optional⟩ := resolveArtifact_settled (settled a here)
  rw [name, artifactOptional_eq distinct here]
  exact optional skipped

theorem mem_resolvedArtifacts (ready : resolveArtifactRequests waits spec asked = .ready statuses) (member : a ∈ spec)
    (required : a.optional = false) : a.name ∈ (resolvedArtifacts spec statuses).map (·.name) := by
  obtain ⟨rfl, settled⟩ := resolveArtifactRequests_ready ready
  obtain ⟨name, usable, -⟩ := resolveArtifact_settled (settled a member)
  have there : (resolveArtifact (waits a) a (asked a)).1 ∈
      (spec.map fun a => (resolveArtifact (waits a) a (asked a)).1).filter fun s => s.usable && s.name = a.name :=
    List.mem_filter.mpr ⟨List.mem_map_of_mem member, by simp [usable required, name]⟩
  have found := List.getLast?_eq_some_getLast (List.ne_nil_of_mem there)
  refine List.mem_map.mpr ⟨⟨a.name, (List.getLast _ (List.ne_nil_of_mem there)).digest⟩, ?_, rfl⟩
  refine List.mem_filterMap.mpr ⟨a, member, ?_⟩
  rw [digestOf, found]
  rfl

theorem firstDispatch_required (distinct : Distinct spec)
    (ready : resolveArtifactRequests waits spec asked = .ready statuses) (mountable : Bool) :
    (∀ a ∈ spec, a.optional = false → a.name ∈ (firstDispatch spec statuses mountable).1.map (·.name)) ∧
    Kept spec (firstDispatch spec statuses mountable).2 := by
  have kept := Kept.resolved distinct ready
  unfold firstDispatch
  split
  · next skips =>
    have optional : ∀ a ∈ artifactsToMount spec statuses, a.optional := by
      simp only [Bool.and_eq_true, onlyOptionalArtifacts] at skips
      exact fun a member => List.all_eq_true.mp skips.2.1 a member
    constructor
    · intro a member required
      have here : a ∈ artifactsToMount spec statuses :=
        List.mem_filter.mpr ⟨member, kept.artifactStatus_required distinct member required⟩
      rw [optional a here] at required
      cases required
    · refine kept.foldl_setArtifactState _ Artifact.name .skipped (fun _ => "KernelUnsupported") ?_
      intro _ a member
      rw [artifactOptional_eq distinct (List.mem_of_mem_filter member)]
      exact optional a member
  · exact ⟨fun a member required => mem_resolvedArtifacts ready member required, kept.markDispatched _⟩

theorem canonicalNumber_toString {n : Nat} (small : n ≤ maxDispatchAttempts) :
    canonicalNumber (toString n) = some n := by
  have all : ∀ k ≤ maxDispatchAttempts, canonicalNumber (toString k) = some k := by decide +kernel
  exact all n small

theorem actionAttempt_actionIDFor {uid : String} {n attempt : Nat} (low : 1 ≤ n) (small : n ≤ maxDispatchAttempts)
    (decoded : actionAttempt (actionIDFor uid n) uid = some attempt) : attempt = n := by
  unfold actionIDFor at decoded
  split at decoded
  · unfold actionAttempt at decoded
    simp only [if_true] at decoded
    split at decoded <;> cases decoded
    omega
  · next more =>
    have number := canonicalNumber_toString small
    have nonempty : uid ++ "-" ++ toString n ≠ "" := by
      intro empty
      have := congrArg String.toList empty
      simp at this
    have longer : uid ++ "-" ++ toString n ≠ uid := by
      intro same
      have := congrArg (fun s => s.toList.length) same
      simp at this
    have unfetched : uid ++ "-" ++ toString n ≠ uid ++ fetchedActionSuffix := by
      intro same
      have tails : ("-" ++ toString n).toList = fetchedActionSuffix.toList := by
        have := congrArg String.toList same
        simpa [String.toList_append] using this
      have all : ∀ k ≤ maxDispatchAttempts, ("-" ++ toString k).toList ≠ fetchedActionSuffix.toList := by decide +kernel
      exact all n small tails
    rw [actionAttempt, if_neg nonempty, if_neg longer, if_neg unfetched, cutPrefix_append] at decoded
    simp only [Option.bind_some, number] at decoded
    rw [if_pos (by omega)] at decoded
    exact (Option.some.inj decoded).symm

end KubeSwift.Workload
