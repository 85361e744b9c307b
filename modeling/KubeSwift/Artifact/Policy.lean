import Mathlib

/-! # Artifact policies and what they require

`artifactpolicy/policy.go` and `materialize/requirement_check.go`. -/

namespace KubeSwift.Artifacts

abbrev StringMap (α : Type) := AList fun _ : String => α

structure Reference where
  registry : String
  repository : String
  digest : Option String

/-- What the libraries compute: image references, public keys and their PEM form, SHA-256, the characters `%q` prints. -/
structure Library where
  parseReference : String → Except String Reference
  parsePublicKey : String → Except String (List Nat)
  encodePEM : List Nat → String
  sha256 : List Nat → String
  isPrint : Char → Bool

structure RequirementKey where
  authority : String
  publicKey : String

structure RequiredClaim where
  key : String
  values : List String

structure Requirement where
  policy : String
  uid : String
  generation : Nat
  keys : List RequirementKey
  claims : List RequiredClaim

def canonicalRepository (L : Library) (ref : String) : Except String String :=
  (L.parseReference ref).map fun r => r.registry.toLower ++ "/" ++ r.repository

def canonicalClaims (claims : List RequiredClaim) : List RequiredClaim :=
  (claims.map fun c => ⟨c.key, (c.values.insertionSort (· ≤ ·)).dedup⟩).insertionSort fun a b => a.key ≤ b.key

def requirementDomain : String := "kubeswift-artifact-requirement-v1\n"

def bytes (s : String) : List Nat := s.toUTF8.data.toList.map UInt8.toNat

/-- A field with its length in front, here one number. -/
def lp (s : String) : List Nat := (bytes s).length :: bytes s

def claimFields (claims : List RequiredClaim) : List String :=
  toString claims.length :: claims.flatMap fun c => c.key :: toString c.values.length :: c.values

def requirementFingerprint (L : Library) (uid repository digest keyID : String) (claims : List RequiredClaim) : String :=
  L.sha256 (bytes requirementDomain ++
    ([uid, repository, digest, keyID] ++ claimFields (canonicalClaims claims)).flatMap lp)

inductive Annotation
  | text (s : String)
  | other (printed : String)

def Annotation.printed : Annotation → String
  | .text s | .other s => s

structure SignedPayload where
  dockerManifestDigest : String
  optional : StringMap Annotation

/-- The first `n` bytes; of a character that is cut only bytes are left. -/
def takeBytes : Nat → List Char → List (Char ⊕ UInt8)
  | _, [] => []
  | n, c :: rest =>
    if c.utf8Size ≤ n then .inl c :: takeBytes (n - c.utf8Size) rest
    else ((String.utf8EncodeChar c).take n).map .inr

def truncateClaim (s : String) : List (Char ⊕ UInt8) :=
  if s.utf8ByteSize > 80 then takeBytes 80 s.toList ++ "...".toList.map .inl else s.toList.map .inl

def hex (width n : Nat) : String := String.ofList ((Nat.toDigits 16 n).leftpad width '0')

def quoteChar (L : Library) (c : Char) : String :=
  if c.toNat = 34 ∨ c.toNat = 92 then "\\" ++ c.toString
  else if L.isPrint c then c.toString
  else
    match c.toNat with
    | 7 => "\\a" | 8 => "\\b" | 9 => "\\t" | 10 => "\\n" | 11 => "\\v" | 12 => "\\f" | 13 => "\\r"
    | n => if n < 32 ∨ n = 127 then "\\x" ++ hex 2 n else if n < 2 ^ 16 then "\\u" ++ hex 4 n else "\\U" ++ hex 8 n

def quoteText (L : Library) (s : List (Char ⊕ UInt8)) : String :=
  "\"" ++ String.join (s.map (Sum.elim (quoteChar L) fun b => "\\x" ++ hex 2 b.toNat)) ++ "\""

def Annotation.holds (c : RequiredClaim) : Annotation → Bool
  | .text s => s ∈ c.values
  | .other _ => false

def missingClaim (L : Library) (annotations : StringMap Annotation) : List RequiredClaim → Option String
  | [] => none
  | c :: rest =>
    match annotations.lookup c.key with
    | none => some s!"claim {c.key} is missing"
    | some v =>
      if v.holds c then missingClaim L annotations rest
      else some (s!"claim {c.key} is " ++ quoteText L (truncateClaim v.printed) ++ ", want " ++ " or ".intercalate c.values)

inductive RequirementReason
  | verificationFailed | claimMismatch
  deriving DecidableEq

structure RequirementError where
  reason : RequirementReason
  policy : String
  msg : String

structure Tried where
  signed : Bool := false
  mismatch : Option String := none
  verifyErrs : List String := []

abbrev VerifyPayloads := String → Except String (List SignedPayload)

def checkKeys (L : Library) (policy digest : String) (claims : List RequiredClaim) (verify : VerifyPayloads) :
    List RequirementKey → Tried → Except RequirementError (List Nat × SignedPayload)
  | [], t =>
    .error (if t.signed then ⟨.claimMismatch, policy, t.mismatch.getD ""⟩
      else ⟨.verificationFailed, policy, "; ".intercalate t.verifyErrs⟩)
  | k :: rest, t =>
    let failed (why : String) : Tried := { t with verifyErrs := t.verifyErrs ++ [s!"authority {k.authority}: {why}"] }
    match L.parsePublicKey k.publicKey with
    | .error e => .error ⟨.verificationFailed, policy, s!"authority {k.authority}: {e}"⟩
    | .ok pk =>
      match verify (L.encodePEM pk) with
      | .error e => checkKeys L policy digest claims verify rest (failed e)
      | .ok payloads =>
        match payloads.filter fun p => p.dockerManifestDigest = digest with
        | [] => checkKeys L policy digest claims verify rest (failed s!"no signature for {digest}")
        | first :: more =>
          -- claims are checked against one payload at a time
          match (first :: more).find? fun p => (missingClaim L p.optional claims).isNone with
          | some p => .ok (pk, p)
          | none =>
            let why := (missingClaim L first.optional claims).getD ""
            checkKeys L policy digest claims verify rest { t with
              signed := true, mismatch := t.mismatch.or (some s!"signed by authority {k.authority}, but {why}") }

def checkRequirement (L : Library) (req : Requirement) (repository digest : String) (verify : VerifyPayloads) :
    Except RequirementError String :=
  let claims := canonicalClaims req.claims
  (checkKeys L req.policy digest claims verify req.keys {}).map fun found =>
    requirementFingerprint L req.uid repository digest (L.sha256 found.1) claims

structure ArtifactClaimRequirement where
  key : String
  value : Option String := none
  values : List String := []
  fromNamespace : Bool := false
  fromArtifact : Option String := none

structure Compiled where
  name : String
  uid : String
  generation : Nat
  selector : StringMap String → Bool
  repositories : List String
  badGlobs : Bool
  allowOther : Bool
  requireDigest : Bool
  keys : List RequirementKey
  claims : List ArtifactClaimRequirement
  err : Option String

/-- `path.Match` on one segment of a valid glob, whose only special character is `*`. -/
def matchSegment : List Char → List Char → Bool
  | [], s => s.isEmpty
  | x :: g, s =>
    if x = '*' then s.tails.any (matchSegment g)
    else
      match s with
      | [] => false
      | c :: s => x = c && matchSegment g s

def matchSegments : List (List Char) → List (List Char) → Bool
  | [], r => r.isEmpty
  | g :: gs, r =>
    if g = ['*', '*'] then r.tails.any (matchSegments gs)
    else
      match r with
      | [] => false
      | s :: r => matchSegment g s && matchSegments gs r

def matchRepository (glob repository : String) : Bool :=
  matchSegments (glob.toList.splitOn '/') (repository.toList.splitOn '/')

def Compiled.governs (p : Compiled) (repository : String) : Bool :=
  p.badGlobs || p.repositories.any fun g => matchRepository g repository

structure Artifact where
  ref : String
  claims : StringMap String
  requirePlatformVerification : Bool

inductive Denied
  | noMatchingPolicy | repositoryNotAllowed | tagReference | policyInvalid | missingClaimValue | claimConflict
  deriving DecidableEq

structure Decision where
  repository : String
  requirements : List Requirement
  policies : List (String × Nat)
  denied : Option (Denied × String)

def metadataName : String := "kubernetes.io/metadata.name"

def labelSet (ns : String) (nsLabels : StringMap String) : StringMap String :=
  if metadataName ∈ nsLabels then nsLabels else nsLabels.insert metadataName ns

def governing (policies : List Compiled) (ns : String) (nsLabels : StringMap String) (repo : String) : List Compiled :=
  (policies.insertionSort fun p q => p.name ≤ q.name).filter fun p => p.selector (labelSet ns nsLabels) && p.governs repo

def readsFromArtifact (policies : List Compiled) (name : String) : Bool :=
  policies.any fun p => p.claims.any fun c => c.fromArtifact = some name

def claimValues (ns : String) (a : Artifact) (policy : String) :
    List ArtifactClaimRequirement → StringMap (List String) → Except (Denied × String) (StringMap (List String))
  | [], values => .ok values
  | c :: rest, values =>
    let accept (v : List String) := claimValues ns a policy rest (values.insert c.key v)
    match c.value with
    | some v => accept [v]
    | none =>
      if ¬ c.values.isEmpty then accept c.values
      else if c.fromNamespace then accept [ns]
      else
        match c.fromArtifact with
        | none => accept []
        | some name =>
          match a.claims.lookup name with
          | some got => accept [got]
          | none => .error (.missingClaimValue, s!"policy {policy} needs the artifact's claims[{name}] (claim {c.key})")

def ownClaims (policy : String) (skip : String → Bool) :
    List (Σ _ : String, String) → StringMap (List String) → Except (Denied × String) (StringMap (List String))
  | [], values => .ok values
  | ⟨k, v⟩ :: rest, values =>
    if skip k then ownClaims policy skip rest values
    else if (values.lookup k).all (v ∈ ·) then ownClaims policy skip rest (values.insert k [v])
    else .error (.claimConflict, s!"the artifact's claim {k}={v} is not one policy {policy} accepts")

def resolve (ns : String) (a : Artifact) (isDigest : Bool) (skip : String → Bool) (p : Compiled) :
    Except (Denied × String) Requirement :=
  match p.err with
  | some e => .error (.policyInvalid, s!"policy {p.name} cannot be enforced: {e}")
  | none =>
    if p.requireDigest && !isDigest then
      .error (.tagReference, s!"policy {p.name} requires a digest reference (repo@sha256:...), got {a.ref}")
    else
      match claimValues ns a p.name p.claims ∅ with
      | .error why => .error why
      | .ok values =>
        (ownClaims p.name skip a.claims.entries values).map fun values =>
          ⟨p.name, p.uid, p.generation, p.keys, canonicalClaims (values.entries.map fun e => ⟨e.1, e.2⟩)⟩

def decideUngoverned (policies : List Compiled) (ns : String) (nsLabels : StringMap String) (a : Artifact)
    (repo : String) : Option (Denied × String) :=
  match (policies.insertionSort fun p q => p.name ≤ q.name).find? fun p =>
      p.selector (labelSet ns nsLabels) && !p.allowOther with
  | some p => some (.repositoryNotAllowed,
      s!"policy {p.name} allows only the repositories it governs in this namespace; no policy governs {repo}")
  | none =>
    if a.requirePlatformVerification then some (.noMatchingPolicy,
      s!"requirePlatformVerification is set, and no policy governs {repo} in this namespace")
    else if a.claims.entries.isEmpty then none
    else some (.noMatchingPolicy, s!"claims are set, and no policy governs {repo} in this namespace to check them")

def refIsDigest (L : Library) (ref : String) : Bool :=
  match L.parseReference ref with
  | .ok r => r.digest.isSome
  | .error _ => false

def decide (L : Library) (policies : List Compiled) (ns : String) (nsLabels : StringMap String) (a : Artifact) :
    Decision :=
  match canonicalRepository L a.ref with
  | .error e => ⟨"", [], [], some (.policyInvalid, "reference " ++ quoteText L (a.ref.toList.map .inl) ++ s!": {e}")⟩
  | .ok repo =>
    let governing := governing policies ns nsLabels repo
    let refs := governing.map fun p => (p.name, p.generation)
    if governing.isEmpty then ⟨repo, [], refs, decideUngoverned policies ns nsLabels a repo⟩
    else
      match governing.mapM (resolve ns a (refIsDigest L a.ref) (readsFromArtifact governing)) with
      | .error why => ⟨repo, [], refs, some why⟩
      | .ok requirements => ⟨repo, requirements, refs, none⟩

def refused (L : Library) (policies : List Compiled) (ns : String) (nsLabels : StringMap String) (a : Artifact)
    (digest : String) (verify : VerifyPayloads) : Bool :=
  let d := decide L policies ns nsLabels a
  d.denied.isSome || d.requirements.any fun req => !(checkRequirement L req d.repository digest verify).toBool

section

variable {L : Library} {policies more : List Compiled} {ns repo digest : String} {nsLabels : StringMap String}
  {a : Artifact} {verify : VerifyPayloads} {p q : Compiled}

theorem mem_governing : p ∈ governing policies ns nsLabels repo ↔
    p ∈ policies ∧ p.selector (labelSet ns nsLabels) = true ∧ p.governs repo = true := by
  simp [governing, List.mem_insertionSort]

theorem ownClaims_congr (policy : String) {skip skip' : String → Bool} {entries : List (Σ _ : String, String)}
    (same : ∀ e ∈ entries, skip e.1 = skip' e.1) (values : StringMap (List String)) :
    ownClaims policy skip entries values = ownClaims policy skip' entries values := by
  induction entries generalizing values with
  | nil => rfl
  | cons e rest ih =>
    have here := same e (by simp)
    have later := ih fun e' mem => same e' (by simp [mem])
    simp only [ownClaims, here, later]

def refuses (L : Library) (ns : String) (a : Artifact) (isDigest : Bool) (skip : String → Bool)
    (repo digest : String) (verify : VerifyPayloads) (p : Compiled) : Bool :=
  match resolve ns a isDigest skip p with
  | .error _ => true
  | .ok req => !(checkRequirement L req repo digest verify).toBool

theorem mapM_refuses {isDigest : Bool} {skip : String → Bool} (l : List Compiled) :
    (match l.mapM (resolve ns a isDigest skip) with
      | .error _ => true
      | .ok reqs => reqs.any fun req => !(checkRequirement L req repo digest verify).toBool) =
    l.any (refuses L ns a isDigest skip repo digest verify) := by
  induction l with
  | nil => rfl
  | cons p rest ih =>
    rw [List.mapM_cons, List.any_cons, ← ih, refuses]
    cases resolve ns a isDigest skip p with
    | error why => rfl
    | ok req =>
      cases rest.mapM (resolve ns a isDigest skip) with
      | error why => exact (Bool.or_true _).symm
      | ok reqs => rfl

theorem refused_governed (canonical : canonicalRepository L a.ref = .ok repo)
    (governed : (governing policies ns nsLabels repo).isEmpty = false) :
    refused L policies ns nsLabels a digest verify = (governing policies ns nsLabels repo).any
      (refuses L ns a (refIsDigest L a.ref) (readsFromArtifact (governing policies ns nsLabels repo)) repo digest verify) := by
  rw [← mapM_refuses, refused, decide, canonical]
  simp only [governed, Bool.false_eq_true, if_false]
  cases (governing policies ns nsLabels repo).mapM (resolve ns a (refIsDigest L a.ref)
    (readsFromArtifact (governing policies ns nsLabels repo))) with
  | error why => rfl
  | ok reqs => rfl

/-! ### What a policy admits -/

/-- What a policy's claim asks the payload to carry. -/
def valueOf (ns : String) (a : Artifact) (c : ArtifactClaimRequirement) : Option (List String) :=
  match c.value with
  | some v => some [v]
  | none =>
    if ¬ c.values.isEmpty then some c.values
    else if c.fromNamespace then some [ns]
    else match c.fromArtifact with
      | none => some []
      | some name => (a.claims.lookup name).map ([·])

/-- The last claim of that key counts. -/
def asked (ns : String) (a : Artifact) (p : Compiled) (key : String) : Option (List String) :=
  (p.claims.reverse.find? (·.key = key)).bind (valueOf ns a)

/-- The artifact's own claims, those in `skip` apart, come before the policy's. -/
def wanted (ns : String) (a : Artifact) (skip : String → Bool) (p : Compiled) (key : String) : Option (List String) :=
  ((a.claims.lookup key).bind fun v => if skip key then none else some [v]).or (asked ns a p key)

/-- One of the keys signed a payload for `digest` that carries what is asked; the keys before it are well formed. -/
inductive Signed (L : Library) (digest : String) (verify : VerifyPayloads) (carries : SignedPayload → Prop) :
    List RequirementKey → Prop
  | here {k rest pk payloads payload} (parsed : L.parsePublicKey k.publicKey = .ok pk)
      (verified : verify (L.encodePEM pk) = .ok payloads) (listed : payload ∈ payloads)
      (same : payload.dockerManifestDigest = digest) (carried : carries payload) : Signed L digest verify carries (k :: rest)
  | later {k rest pk} (parsed : L.parsePublicKey k.publicKey = .ok pk) (others : Signed L digest verify carries rest) :
      Signed L digest verify carries (k :: rest)

/-- The policy is in force for the artifact, and one signed payload carries everything wanted. -/
structure Admits (L : Library) (ns : String) (a : Artifact) (skip : String → Bool) (digest : String)
    (verify : VerifyPayloads) (p : Compiled) : Prop where
  valid : p.err = none
  digested : p.requireDigest = true → refIsDigest L a.ref = true
  present : ∀ c ∈ p.claims, (valueOf ns a c).isSome
  agrees : ∀ key v, a.claims.lookup key = some v → skip key = false → ∀ values, asked ns a p key = some values → v ∈ values
  signed : Signed L digest verify (fun payload => ∀ key values, wanted ns a skip p key = some values →
    ∃ s ∈ values, payload.optional.lookup key = some (.text s)) p.keys

theorem claimValues_cons (policy : String) (c : ArtifactClaimRequirement) (rest : List ArtifactClaimRequirement)
    (values : StringMap (List String)) :
    (∀ v, valueOf ns a c = some v →
      claimValues ns a policy (c :: rest) values = claimValues ns a policy rest (values.insert c.key v)) ∧
    (valueOf ns a c = none → ∃ e, claimValues ns a policy (c :: rest) values = .error e) := by
  rw [claimValues, valueOf]
  cases c.value with
  | some v => simp
  | none =>
    dsimp only
    split
    · simp
    split
    · simp
    cases c.fromArtifact with
    | none => simp
    | some name => cases found : a.claims.lookup name <;> simp [found]

theorem claimValues_spec (policy : String) (claims : List ArtifactClaimRequirement) (values : StringMap (List String)) :
    ((∀ c ∈ claims, (valueOf ns a c).isSome) → ∃ out, claimValues ns a policy claims values = .ok out ∧
      ∀ key, out.lookup key = ((claims.reverse.find? (·.key = key)).bind (valueOf ns a)).or (values.lookup key)) ∧
    ((¬ ∀ c ∈ claims, (valueOf ns a c).isSome) → ∃ e, claimValues ns a policy claims values = .error e) := by
  induction claims generalizing values with
  | nil => exact ⟨fun _ => ⟨values, rfl, fun key => rfl⟩, fun some_ => absurd (List.forall_mem_nil _) some_⟩
  | cons c rest ih =>
    obtain ⟨goes, stops⟩ := @claimValues_cons ns a policy c rest values
    cases value : valueOf ns a c with
    | none => exact ⟨fun all => by simpa [value] using all c List.mem_cons_self, fun _ => stops value⟩
    | some v =>
      rw [goes v value]
      refine ⟨fun all => ?_, fun some_ => (ih _).2 fun all => some_ (List.forall_mem_cons.mpr ⟨by simp [value], all⟩)⟩
      obtain ⟨out, ran, found⟩ := (ih (values.insert c.key v)).1 fun c' member => all c' (List.mem_cons_of_mem _ member)
      refine ⟨out, ran, fun key => ?_⟩
      rw [found, List.reverse_cons, List.find?_append]
      cases last : rest.reverse.find? (·.key = key) with
      | some c' =>
        have member : c' ∈ rest := List.mem_reverse.mp (List.mem_of_find?_eq_some last)
        obtain ⟨v', value'⟩ := Option.isSome_iff_exists.mp (all c' (List.mem_cons_of_mem _ member))
        simp [value']
      | none =>
        by_cases same : c.key = key
        · subst same
          simp [value]
        · simp [same, AList.lookup_insert_ne (Ne.symm same)]

theorem ownClaims_spec (policy : String) (skip : String → Bool) (entries : List (Σ _ : String, String))
    (nodup : (entries.map Sigma.fst).Nodup) (values : StringMap (List String)) :
    ((∀ e ∈ entries, skip e.1 = false → (values.lookup e.1).all (e.2 ∈ ·)) → ∃ out,
      ownClaims policy skip entries values = .ok out ∧ ∀ key, out.lookup key =
        ((List.dlookup key entries).bind fun v => if skip key then none else some [v]).or (values.lookup key)) ∧
    ((¬ ∀ e ∈ entries, skip e.1 = false → (values.lookup e.1).all (e.2 ∈ ·)) →
      ∃ e, ownClaims policy skip entries values = .error e) := by
  induction entries generalizing values with
  | nil => exact ⟨fun _ => ⟨values, rfl, fun key => rfl⟩, fun some_ => absurd (List.forall_mem_nil _) some_⟩
  | cons e rest ih =>
    obtain ⟨k, v⟩ := e
    obtain ⟨new, nodup⟩ := List.nodup_cons.mp nodup
    have absent : List.dlookup k rest = none := List.dlookup_eq_none.mpr new
    rw [ownClaims, List.forall_mem_cons]
    by_cases skipped : skip k = true
    · obtain ⟨goes, stops⟩ := ih nodup values
      rw [if_pos skipped]
      refine ⟨fun all => ?_, fun some_ => stops fun all => some_ ⟨by simp [skipped], all⟩⟩
      obtain ⟨out, ran, found⟩ := goes all.2
      refine ⟨out, ran, fun key => ?_⟩
      rw [found]
      by_cases same : key = k
      · subst same
        simp [absent, skipped]
      · rw [List.dlookup_cons_ne _ _ same]
    · rw [if_neg skipped]
      by_cases accepted : (values.lookup k).all (v ∈ ·) = true
      · obtain ⟨goes, stops⟩ := ih nodup (values.insert k [v])
        have others : ∀ e ∈ rest, (values.insert k [v]).lookup e.1 = values.lookup e.1 := fun e member =>
          AList.lookup_insert_ne fun same => new (List.mem_map.mpr ⟨e, member, same⟩)
        rw [if_pos accepted]
        refine ⟨fun all => ?_, fun some_ => stops fun all => some_ ⟨fun _ => accepted, fun e member => others e member ▸ all e member⟩⟩
        obtain ⟨out, ran, found⟩ := goes fun e member => others e member ▸ all.2 e member
        refine ⟨out, ran, fun key => ?_⟩
        rw [found]
        by_cases same : key = k
        · subst same
          simp [absent, skipped]
        · rw [List.dlookup_cons_ne _ _ same, AList.lookup_insert_ne same]
      · rw [if_neg accepted]
        exact ⟨fun all => absurd (all.1 (by simpa using skipped)) accepted, fun _ => ⟨_, rfl⟩⟩

theorem missingClaim_none (annotations : StringMap Annotation) (claims : List RequiredClaim) :
    missingClaim L annotations claims = none ↔ ∀ c ∈ claims, ∃ s ∈ c.values, annotations.lookup c.key = some (.text s) := by
  induction claims with
  | nil => simp [missingClaim]
  | cons c rest ih =>
    rw [missingClaim, List.forall_mem_cons, ← ih]
    cases annotations.lookup c.key with
    | none => simp
    | some v =>
      cases v with
      | text s => by_cases accepted : s ∈ c.values <;> simp [ Annotation.holds, accepted]
      | other printed => simp [ Annotation.holds]

theorem mem_canonicalClaims (claims : List RequiredClaim) (holds : String → List String → Prop)
    (set : ∀ key values values', (∀ s, s ∈ values ↔ s ∈ values') → (holds key values ↔ holds key values')) :
    (∀ c ∈ canonicalClaims claims, holds c.key c.values) ↔ ∀ c ∈ claims, holds c.key c.values := by
  simp only [canonicalClaims, List.mem_insertionSort, List.forall_mem_map]
  refine forall₂_congr fun c _ => set _ _ _ fun s => ?_
  simp [List.mem_insertionSort]

theorem checkKeys_ok (policy : String) (claims : List RequiredClaim) (keys : List RequirementKey) (t : Tried) :
    (checkKeys L policy digest claims verify keys t).toBool = true ↔
      Signed L digest verify (fun payload => missingClaim L payload.optional claims = none) keys := by
  induction keys generalizing t with
  | nil => exact ⟨nofun, nofun⟩
  | cons k keys ih =>
    -- a key none of whose payloads will do leaves it to the others
    have other {pk} (parsed : L.parsePublicKey k.publicKey = .ok pk)
        (unmet : ∀ payloads, verify (L.encodePEM pk) = .ok payloads →
          ∀ payload ∈ payloads, payload.dockerManifestDigest = digest → missingClaim L payload.optional claims ≠ none) :
        Signed L digest verify (fun payload => missingClaim L payload.optional claims = none) (k :: keys) ↔
          Signed L digest verify (fun payload => missingClaim L payload.optional claims = none) keys := by
      refine ⟨fun signed => ?_, .later parsed⟩
      cases signed with
      | here parsed' verified listed same carried =>
        cases parsed.symm.trans parsed'
        exact absurd carried (unmet _ verified _ listed same)
      | later _ rest => exact rest
    rw [checkKeys]
    dsimp only
    split
    · next e bad => exact ⟨nofun, fun signed => by cases signed <;> simp_all⟩
    next pk parsed =>
    split
    · next e failed => rw [ih, other parsed fun payloads verified => by cases failed.symm.trans verified]
    next payloads verified =>
    have only {payloads'} (again : verify (L.encodePEM pk) = .ok payloads') : payloads' = payloads :=
      Except.ok.inj (again.symm.trans verified)
    split
    · next none =>
      rw [ih, other parsed fun payloads' again payload listed same => ?_]
      have := List.filter_eq_nil_iff.mp none payload (only again ▸ listed)
      simp [same] at this
    next first more these =>
    split
    · next payload found =>
      have listed : payload ∈ payloads.filter fun p => p.dockerManifestDigest = digest :=
        these ▸ List.mem_of_find?_eq_some found
      rw [List.mem_filter, decide_eq_true_iff] at listed
      exact iff_of_true rfl (.here parsed verified listed.1 listed.2 (by simpa using List.find?_some found))
    · next unmet =>
      rw [ih, other parsed fun payloads' again payload listed same => ?_]
      have := List.find?_eq_none.mp unmet payload (these ▸ List.mem_filter.mpr ⟨only again ▸ listed, by simpa using same⟩)
      simpa using this

variable (repo) in
theorem refuses_iff {skip : String → Bool} :
    refuses L ns a (refIsDigest L a.ref) skip repo digest verify p = true ↔ ¬ Admits L ns a skip digest verify p := by
  rw [refuses, resolve]
  cases err : p.err with
  | some e => exact iff_of_true rfl fun admits => by cases err.symm.trans admits.valid
  | none =>
    dsimp only
    by_cases digested : p.requireDigest = true → refIsDigest L a.ref = true
    case neg =>
      rw [if_pos (by simpa using digested)]
      exact iff_of_true rfl fun admits => digested admits.digested
    rw [if_neg (by simpa using digested)]
    by_cases present : ∀ c ∈ p.claims, (valueOf ns a c).isSome
    case neg =>
      obtain ⟨e, failed⟩ := (claimValues_spec p.name p.claims ∅).2 present
      rw [failed]
      exact iff_of_true rfl fun admits => present admits.present
    obtain ⟨values, ran, found⟩ := (claimValues_spec p.name p.claims ∅).1 present
    have found : ∀ key, values.lookup key = asked ns a p key := fun key => by simpa [asked] using found key
    rw [ran]
    dsimp only
    have agree : (∀ e ∈ a.claims.entries, skip e.1 = false → (values.lookup e.1).all (e.2 ∈ ·)) ↔
        ∀ key v, a.claims.lookup key = some v → skip key = false → ∀ values, asked ns a p key = some values → v ∈ values := by
      constructor
      · intro all key v own unread values' asks
        simpa [found, asks] using all ⟨key, v⟩ (AList.mem_lookup_iff.mp own) unread
      · intro all e member unread
        rw [found]
        cases asks : asked ns a p e.1 with
        | none => rfl
        | some values' => simpa using all e.1 e.2 (AList.mem_lookup_iff.mpr member) unread values' asks
    by_cases agrees : ∀ e ∈ a.claims.entries, skip e.1 = false → (values.lookup e.1).all (e.2 ∈ ·)
    case neg =>
      obtain ⟨e, failed⟩ := (ownClaims_spec p.name skip a.claims.entries a.claims.nodupKeys values).2 agrees
      rw [failed]
      exact iff_of_true rfl fun admits => agrees (agree.mpr admits.agrees)
    obtain ⟨out, own, all⟩ := (ownClaims_spec p.name skip a.claims.entries a.claims.nodupKeys values).1 agrees
    rw [own]
    have carries : (fun payload : SignedPayload => missingClaim L payload.optional
          (canonicalClaims (canonicalClaims (out.entries.map fun e => ⟨e.1, e.2⟩))) = none) =
        fun payload => ∀ key values, wanted ns a skip p key = some values →
          ∃ s ∈ values, payload.optional.lookup key = some (.text s) := by
      refine funext fun payload => propext ?_
      rw [missingClaim_none]
      have set : ∀ (key : String) (values values' : List String), (∀ s, s ∈ values ↔ s ∈ values') →
          ((∃ s ∈ values, payload.optional.lookup key = some (.text s)) ↔
            ∃ s ∈ values', payload.optional.lookup key = some (.text s)) := fun key values values' same => by simp [same]
      rw [mem_canonicalClaims _ _ set, mem_canonicalClaims _ _ set, List.forall_mem_map]
      have wants : ∀ key, out.lookup key = wanted ns a skip p key := fun key => by rw [all, found]; rfl
      constructor
      · intro each key values' asks
        exact each ⟨key, values'⟩ (AList.mem_lookup_iff.mp ((wants key).trans asks))
      · intro each e member
        exact each e.1 e.2 ((wants e.1).symm.trans (AList.mem_lookup_iff.mpr member))
    have checked := @checkKeys_ok L digest verify p.name
      (canonicalClaims (canonicalClaims (out.entries.map fun e => ⟨e.1, e.2⟩))) p.keys {}
    rw [carries] at checked
    have same : (checkRequirement L ⟨p.name, p.uid, p.generation, p.keys,
        canonicalClaims (out.entries.map fun e => ⟨e.1, e.2⟩)⟩ repo digest verify).toBool = true ↔
        Admits L ns a skip digest verify p := by
      rw [checkRequirement]
      refine Iff.trans ?_ (checked.trans ⟨fun signed => ⟨err, digested, present, agree.mp agrees, signed⟩, Admits.signed⟩)
      dsimp only
      cases checkKeys L p.name digest _ verify p.keys {} <;> rfl
    rw [← same, Except.map]
    simp

def ReadsNoMore (a : Artifact) (before : List Compiled) (p : Compiled) : Prop :=
  ∀ name ∈ a.claims, readsFromArtifact [p] name = true → readsFromArtifact before name = true

theorem readsFromArtifact_cons {before : List Compiled} (readsNoMore : ReadsNoMore a before p) {name : String}
    (mem : name ∈ a.claims) : readsFromArtifact (p :: before) name = readsFromArtifact before name := by
  have own := readsNoMore name mem
  simp only [readsFromArtifact, List.any_cons, List.any_nil, Bool.or_false] at own ⊢
  exact Bool.or_eq_right_iff_imp.mpr own

end

def plainLibrary : Library where
  parseReference ref := .ok ⟨"ghcr.io", ref, some "sha256:1"⟩
  parsePublicKey text := .ok (bytes text)
  encodePEM key := if key = bytes "stages" then "stages" else ""
  sha256 _ := ""
  isPrint _ := true

def policyOf (name : String) (claims : List ArtifactClaimRequirement) : Compiled where
  name := name
  uid := name
  generation := 1
  selector _ := true
  repositories := ["**"]
  badGlobs := false
  allowOther := true
  requireDigest := true
  keys := [⟨name, name⟩]
  claims := claims
  err := none

def production : Artifact := ⟨"app", AList.singleton "env" "prod", false⟩

def signatures : VerifyPayloads := fun key =>
  .ok [⟨"sha256:1", if key = "stages" then AList.singleton "stage" (.text "prod") else ∅⟩]

end KubeSwift.Artifacts
