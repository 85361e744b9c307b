import KubeSwift.Sandbox.Archive

/-! # The artifact cache of a node

`internal/sandbox/materialize/cachegc.go`, and `accountEntry` of `cmd/sandbox-materialize` with which a run ends. -/

namespace KubeSwift.ArtifactCache

open Export (int64)

/-- `sha256-<digest>`, with `.oci` for an image layout. -/
structure Name where
  digest : String
  oci : Bool := false
  deriving DecidableEq

/-- A directory of the cache, its records and locks; times are since the zero time. -/
structure Entry where
  name : Name
  size : Option Nat := none
  sizeTime : Option Int := none
  legacySize : Option Nat := none
  allocatedSize : Option Nat := none
  used : Option Int := none
  inUse : Bool := false
  materializing : Bool := false
  renameFails : Bool := false

structure Cache where
  entries : List Entry
  nodup : (entries.map (·.name)).Nodup

structure CacheEntry where
  name : Name
  bytes : Int
  legacy : Bool
  lastUse : Int
  deriving DecidableEq

structure CacheLimits where
  maxBytes : Int := 0
  maxPercent : Int := 0
  minAge : Int := 0
  evictLegacy : Bool := false

def CacheLimits.enabled (lim : CacheLimits) : Bool := lim.maxBytes > 0 || lim.maxPercent > 0

structure CacheReport where
  bytes : Int := 0
  limitBytes : Int := 0
  evicted : Nat := 0
  evictedBytes : Int := 0
  overLimit : Bool := false
  legacy : Nat := 0
  legacyBytes : Int := 0

inductive Err
  | gcLock (err : String)
  | readDir (err : String)
  | cacheFull (bytes minAge limitBytes : Int) (legacyBytes : Option Int)

def Err.isCacheFull : Err → Bool
  | .cacheFull .. => true
  | _ => false

/-- What the system answers. A use that could not be recorded leaves its lock at some time, or none. -/
structure Env where
  gcLock : Option String := none
  readDir : Option String := none
  touchFails : Option (Option Int) := none
  sizeWritten : Option Int := some 0
  statfs : Option (Nat × Nat) := none
  sort : List CacheEntry → List CacheEntry
  perm (entries : List CacheEntry) : (sort entries).Perm entries
  sorted (entries : List CacheEntry) : (sort entries).Pairwise fun a b => a.lastUse ≤ b.lastUse

/-- The cache during a pass; `gone` are the entries removed so far. -/
structure Pass where
  entries : List Entry
  report : CacheReport := {}
  gone : List Entry := []
  err : Option Err := none

def account (e : Entry) : CacheEntry where
  name := e.name
  bytes := ((e.size <|> e.legacySize <|> e.allocatedSize).getD 0 : Nat)
  legacy := e.size.isNone
  lastUse := (e.used <|> e.sizeTime).getD 0

def tally (rep : CacheReport) (e : CacheEntry) : CacheReport :=
  let rep := { rep with bytes := int64 (rep.bytes + e.bytes) }
  if e.legacy then { rep with legacy := rep.legacy + 1, legacyBytes := int64 (rep.legacyBytes + e.bytes) } else rep

def limitBytes (statfs : Option (Nat × Nat)) (lim : CacheLimits) : Int :=
  match statfs with
  | some (blocks, bsize) =>
    let fs := (int64 (int64 (blocks * bsize) * lim.maxPercent)).tdiv 100
    if lim.maxPercent > 0 ∧ (lim.maxBytes ≤ 0 ∨ fs < lim.maxBytes) then fs else lim.maxBytes
  | none => lim.maxBytes

/-- `now.Sub(lastUse)`, which stops at the ends of `int64`. -/
def since (now lastUse : Int) : Int := max (-2 ^ 63) (min (2 ^ 63 - 1) (now - lastUse))

def Pass.evict (s : Pass) (name : Name) : Option Pass :=
  match s.entries.find? (·.name = name) with
  | none => none
  | some e =>
    if e.inUse || e.materializing || e.renameFails then none
    else some { s with entries := s.entries.filter (·.name ≠ name), gone := s.gone ++ [e] }

def spared (lim : CacheLimits) (now : Int) (keep : Option Name) (e : CacheEntry) : Bool :=
  (e.legacy && !lim.evictLegacy) || some e.name = keep || since now e.lastUse < lim.minAge

def evictAll (lim : CacheLimits) (now : Int) (keep : Option Name) : List CacheEntry → Pass → Pass
  | [], s => s
  | e :: rest, s =>
    if s.report.bytes ≤ s.report.limitBytes then s
    else if spared lim now keep e then evictAll lim now keep rest s
    else match s.evict e.name with
      | none => evictAll lim now keep rest s
      | some s => evictAll lim now keep rest { s with report := { s.report with
          bytes := int64 (s.report.bytes - e.bytes)
          evicted := s.report.evicted + 1
          evictedBytes := int64 (s.report.evictedBytes + e.bytes) } }

/-- The cache stays over its limit: the entry the pass was to spare goes. -/
def refuse (lim : CacheLimits) (order : List CacheEntry) (keep : Name) (s : Pass) : Pass :=
  match s.evict keep with
  | none => s
  | some s =>
    let size := order.foldl (fun size e => if e.name = keep then e.bytes else size) 0
    let bytes := int64 (s.report.bytes - size)
    let legacy := if s.report.legacyBytes > 0 ∧ lim.evictLegacy = false then some s.report.legacyBytes else none
    { s with
      report := { s.report with bytes }
      err := some (.cacheFull bytes lim.minAge s.report.limitBytes legacy) }

def relieve (lim : CacheLimits) (now : Int) (keep : Option Name) (order : List CacheEntry) (s : Pass) : Pass :=
  let s := evictAll lim now keep order s
  if s.report.bytes ≤ s.report.limitBytes then s
  else
    let s := { s with report := { s.report with overLimit := true } }
    match keep with
    | none => s
    | some keep => refuse lim order keep s

def enforceLimits (env : Env) (lim : CacheLimits) (now : Int) (keep : Option Name) (entries : List Entry) : Pass :=
  match env.gcLock, env.readDir with
  | some err, _ => { entries, err := some (.gcLock err) }
  | none, some err => { entries, err := some (.readDir err) }
  | none, none =>
    let accounted := entries.map account
    let report := { accounted.foldl tally {} with limitBytes := limitBytes env.statfs lim }
    if !lim.enabled || report.bytes ≤ report.limitBytes then { entries, report }
    else relieve lim now keep (env.sort accounted) { entries, report }

/-- What `TouchUse` and, of an entry just written, `RecordSize` put on record. -/
def record (env : Env) (now : Int) (hit : Bool) (e : Entry) : Entry :=
  let used := env.touchFails.getD (some now)
  match hit, e.allocatedSize, env.sizeWritten with
  | false, some n, some t => { e with used, size := some n, sizeTime := some t }
  | _, _, _ => { e with used }

structure Result where
  entry : Name
  cacheHit : Bool

def recorded (env : Env) (now : Int) (res : Result) (cache : Cache) : List Entry :=
  cache.entries.map fun e => if e.name = res.entry then record env now res.cacheHit e else e

def accountEntry (env : Env) (lim : CacheLimits) (now : Int) (res : Result) (cache : Cache) : Pass :=
  let entries := recorded env now res cache
  if lim.enabled then enforceLimits env lim now (some res.entry) entries else { entries }

def total (entries : List Entry) : Int := (entries.map fun e => (account e).bytes).sum

def without (entries gone : List Entry) : List Entry := entries.filter fun e => e.name ∉ gone.map (·.name)

def removable (lim : CacheLimits) (now : Int) (keep : Option Name) (e : Entry) : Bool :=
  !spared lim now keep (account e) && !(e.inUse || e.materializing || e.renameFails)

/-- What is left of `entries` when all that may go among `before` is gone. -/
def left (lim : CacheLimits) (now : Int) (keep : Option Name) (before : List CacheEntry) (entries : List Entry) : List Entry :=
  entries.filter fun e => !(removable lim now keep e && decide (e.name ∈ before.map (·.name)))

/-- Whatever may go in order of use, what is left exceeds the limit, and the run's own entry can be taken away. -/
def Overfull (env : Env) (lim : CacheLimits) (now : Int) (keep : Name) (entries : List Entry) : Prop :=
  lim.enabled = true ∧ env.gcLock = none ∧ env.readDir = none ∧
  (∀ before, before <+: env.sort (entries.map account) →
    limitBytes env.statfs lim < int64 (total (left lim now (some keep) before entries))) ∧
  ∃ e ∈ entries, e.name = keep ∧ (e.inUse || e.materializing || e.renameFails) = false

/-- What was removed of `entries`: nothing in use, and each entry while the rest was over the limit. -/
structure Removed (entries : List Entry) (limit : Int) (s : Pass) : Prop where
  left : s.entries = without entries s.gone
  free : ∀ g ∈ s.gone, g ∈ entries ∧ g.inUse = false
  needed : ∀ before g after, s.gone = before ++ g :: after → limit < int64 (total (without entries before))

variable {entries : List Entry} {order : List CacheEntry} {e : Entry} {s s' : Pass} {lim : CacheLimits}
  {now limit : Int} {keep : Option Name} {name : Name}

theorem tally_bytes (counted : List CacheEntry) (rep : CacheReport) (n : Int) (start : rep.bytes = int64 n) :
    (counted.foldl tally rep).bytes = int64 (n + (counted.map (·.bytes)).sum) := by
  induction counted generalizing rep n with
  | nil => simpa using start
  | cons e counted ih =>
    have next : (tally rep e).bytes = int64 (n + e.bytes) := by
      unfold tally
      split <;> simp [start, int64, Int.bmod_add_bmod]
    rw [List.foldl_cons, ih (tally rep e) (n + e.bytes) next, List.map_cons, List.sum_cons, add_assoc]

theorem evict_some (evicted : s.evict name = some s') : ∃ e ∈ s.entries, e.name = name ∧
    (e.inUse || e.materializing || e.renameFails) = false ∧
    s' = { s with entries := s.entries.filter (·.name ≠ name), gone := s.gone ++ [e] } := by
  unfold Pass.evict at evicted
  split at evicted
  · cases evicted
  next e found =>
    split at evicted <;> cases evicted
    next free =>
      have named : e.name = name := by simpa using List.find?_some found
      exact ⟨e, List.mem_of_find?_eq_some found, named, by simpa using free, rfl⟩

theorem evict_none (nodup : (s.entries.map (·.name)).Nodup) (kept : s.evict name = none) (member : e ∈ s.entries)
    (named : e.name = name) : (e.inUse || e.materializing || e.renameFails) = true := by
  unfold Pass.evict at kept
  split at kept
  · next found => simpa [named] using List.find?_eq_none.mp found e member
  · next e' found =>
    have same : e' = e := List.inj_on_of_nodup_map nodup (List.mem_of_find?_eq_some found) member
      ((by simpa using List.find?_some found : e'.name = name).trans named.symm)
    split at kept
    · next held => exact same ▸ held
    · cases kept

theorem total_filter (nodup : (entries.map (·.name)).Nodup) (member : e ∈ entries) :
    total (entries.filter (·.name ≠ e.name)) = total entries - (account e).bytes := by
  induction entries with
  | nil => cases member
  | cons x entries ih =>
    obtain ⟨new, nodup⟩ := List.nodup_cons.mp nodup
    have apart : ∀ y ∈ entries, y.name ≠ x.name := fun y there same => new (List.mem_map.mpr ⟨y, there, same⟩)
    rcases List.mem_cons.mp member with rfl | member
    · rw [List.filter_cons_of_neg (by simp), List.filter_eq_self.mpr (by simpa using apart)]
      simp [total]
    · rw [List.filter_cons_of_pos (by simpa using (apart e member).symm)]
      simp only [total, List.map_cons, List.sum_cons] at ih ⊢
      rw [ih nodup member]
      omega

variable (removed : Removed entries limit s)
include removed

theorem Removed.evict (exceeds : limit < int64 (total s.entries))
    (evicted : s.evict name = some s') : Removed entries limit s' := by
  obtain ⟨e, there, rfl, free, rfl⟩ := evict_some evicted
  refine ⟨?_, ?_, ?_⟩
  · simp only [removed.left, without, List.filter_filter]
    exact List.filter_congr fun x _ => by simp [or_comm]
  · intro g here
    rcases List.mem_append.mp here with before | last
    · exact removed.free g before
    · rw [List.mem_singleton.mp last]
      simp only [Bool.or_eq_false_iff] at free
      exact ⟨List.mem_of_mem_filter (removed.left ▸ there), free.1.1⟩
  · intro before g after split
    rcases List.eq_nil_or_concat after with rfl | ⟨after, last, rfl⟩
    · obtain ⟨rfl, -⟩ := List.append_inj' split rfl
      rw [← removed.left]
      exact exceeds
    · rw [List.concat_eq_append, ← List.cons_append, ← List.append_assoc] at split
      exact removed.needed before g after (List.append_inj' split rfl).1

/-- Old enough, and of this release unless older ones may go. -/
def Evictable (lim : CacheLimits) (now : Int) (e : CacheEntry) : Prop :=
  (e.legacy → lim.evictLegacy) ∧ lim.minAge ≤ since now e.lastUse

omit removed in
theorem evictable_of_removable (may : removable lim now keep e) : Evictable lim now (account e) := by
  simp only [removable, spared, Bool.and_eq_true, Bool.not_eq_true', Bool.or_eq_false_iff, decide_eq_false_iff_not] at may
  obtain ⟨⟨⟨release, -⟩, old⟩, -⟩ := may
  exact ⟨by simpa using release, by omega⟩

theorem evictAll_removed (counted : s.report.bytes = int64 (total s.entries))
    (nodup : (entries.map (·.name)).Nodup) (known : order ⊆ entries.map account) (limited : s.report.limitBytes = limit)
    (ran : evictAll lim now keep order s = s') :
    Removed entries limit s' ∧ s'.report.bytes = int64 (total s'.entries) ∧ s'.report.limitBytes = limit ∧
    s'.err = s.err ∧ ∃ more, s'.gone = s.gone ++ more ∧ (more.map account).Sublist order ∧
      ∀ g ∈ more, removable lim now keep g := by
  induction order generalizing s with
  | nil =>
    cases ran
    exact ⟨removed, counted, limited, rfl, [], (List.append_nil _).symm, .slnil, List.forall_mem_nil _⟩
  | cons c order ih =>
    obtain ⟨here, later⟩ := List.cons_subset.mp known
    rw [evictAll] at ran
    split at ran
    · cases ran
      exact ⟨removed, counted, limited, rfl, [], (List.append_nil _).symm, List.nil_sublist _, List.forall_mem_nil _⟩
    next exceeds =>
      by_cases skip : evictAll lim now keep order s = s'
      · obtain ⟨removed, counted, limited, err, more, gone, sub, free⟩ := ih removed counted later limited skip
        exact ⟨removed, counted, limited, err, more, gone, sub.cons _, free⟩
      split at ran
      · exact absurd ran skip
      next unspared =>
        split at ran
        · exact absurd ran skip
        next next evicted =>
          have removed' := removed.evict (by omega) evicted
          obtain ⟨e, there, named, unheld, rfl⟩ := evict_some evicted
          obtain ⟨e', member, rfl⟩ := List.mem_map.mp here
          have kept : s.entries.Sublist entries := removed.left ▸ List.filter_sublist
          obtain rfl : e = e' := List.inj_on_of_nodup_map nodup (kept.subset there) member named
          have counted' := total_filter (nodup.sublist (kept.map _)) there
          obtain ⟨removed, counted, limited, err, more, gone, sub, free⟩ :=
            ih (by exact { removed' with }) (by rw [counted, ← named, counted']; exact Int.bmod_sub_bmod) later
              (by exact limited) ran
          refine ⟨removed, counted, limited, err, e :: more, by simpa using gone, sub.cons_cons _, ?_⟩
          exact List.forall_mem_cons.mpr ⟨by simp [removable, unspared, unheld], free⟩

/-- What a run may do to the cache that has `entries` when its own use is recorded. -/
structure Spares (lim : CacheLimits) (now : Int) (res : Result) (entries : List Entry) (limit : Int) (s : Pass) : Prop
    extends Removed entries limit s where
  evictable : ∀ g ∈ s.gone, Evictable lim now (account g) ∨ g.name = res.entry ∧ res.cacheHit = false
  ordered : (s.gone.map account).Pairwise fun a b => a.lastUse ≤ b.lastUse
  within : lim.enabled → s.err = none → s.report.overLimit = false →
    s.report.bytes = int64 (total s.entries) ∧ s.report.bytes ≤ limit
  full : s.err.any Err.isCacheFull → res.entry ∈ s.gone.map (·.name) ∧ res.cacheHit = false

theorem Removed.spares {res : Result} (ordered : (s.gone.map account).Pairwise fun a b => a.lastUse ≤ b.lastUse)
    (free : ∀ g ∈ s.gone, removable lim now keep g) (room : s.err.any Err.isCacheFull = false)
    (within : lim.enabled → s.err = none → s.report.overLimit = false →
      s.report.bytes = int64 (total s.entries) ∧ s.report.bytes ≤ limit) : Spares lim now res entries limit s :=
  ⟨removed, fun g here => .inl (evictable_of_removable (free g here)), ordered, within, by simp [room]⟩

omit removed

/-! ### When the run's own entry goes -/

variable (entries) in
theorem left_nil : left lim now keep [] entries = entries := by simp [left]

theorem left_cons_kept {c : CacheEntry} {before : List CacheEntry}
    (kept : ∀ e ∈ entries, e.name = c.name → removable lim now keep e = false) :
    left lim now keep (c :: before) entries = left lim now keep before entries := by
  refine List.filter_congr fun e member => ?_
  by_cases named : e.name = c.name
  · simp [kept e member named]
  · simp [named]

theorem left_cons_gone {c : CacheEntry} {before : List CacheEntry}
    (gone : ∀ e ∈ entries, e.name = c.name → removable lim now keep e = true) :
    left lim now keep (c :: before) entries = left lim now keep before (entries.filter (·.name ≠ c.name)) := by
  rw [left, left, List.filter_filter]
  refine List.filter_congr fun e member => ?_
  by_cases named : e.name = c.name
  · simp [named, gone e member named]
  · simp [named]

theorem evictAll_left (nodup : (s.entries.map (·.name)).Nodup) (counted : s.report.bytes = int64 (total s.entries))
    (limited : s.report.limitBytes = limit)
    (known : ∀ c ∈ order, ∀ e ∈ s.entries, e.name = c.name → account e = c) :
    (limit < (evictAll lim now keep order s).report.bytes ↔
      ∀ before, before <+: order → limit < int64 (total (left lim now keep before s.entries))) ∧
    (limit < (evictAll lim now keep order s).report.bytes →
      (evictAll lim now keep order s).entries = left lim now keep order s.entries) := by
  induction order generalizing s with
  | nil => simp [evictAll, left_nil, counted]
  | cons c order ih =>
    obtain ⟨here, later⟩ := List.forall_mem_cons.mp known
    have starts : (∀ before, before <+: c :: order → limit < int64 (total (left lim now keep before s.entries))) ↔
        limit < s.report.bytes ∧
        ∀ before, before <+: order → limit < int64 (total (left lim now keep (c :: before) s.entries)) := by
      refine ⟨fun all => ⟨counted ▸ left_nil s.entries ▸ all [] List.nil_prefix, fun before start =>
        all _ (List.cons_prefix_cons.mpr ⟨rfl, start⟩)⟩, fun ⟨first, all⟩ before start => ?_⟩
      rcases List.prefix_cons_iff.mp start with rfl | ⟨before, rfl, shorter⟩
      · rwa [left_nil, ← counted]
      · exact all before shorter
    rw [evictAll, starts]
    split
    · next fits => constructor <;> omega
    next exceeds =>
      have exceeds : limit < s.report.bytes := by omega
      have rest := ih nodup counted limited later
      split
      · next spared =>
        have kept : ∀ e ∈ s.entries, e.name = c.name → removable lim now keep e = false := fun e member named => by
          simp [removable, here e member named, spared]
        simpa only [left_cons_kept kept, exceeds, true_and] using rest
      next unspared =>
        split
        · next unmoved =>
          have kept : ∀ e ∈ s.entries, e.name = c.name → removable lim now keep e = false := fun e member named => by
            simp [removable, evict_none nodup unmoved member named]
          simpa only [left_cons_kept kept, exceeds, true_and] using rest
        next s' evicted =>
          obtain ⟨e, there, named, unheld, rfl⟩ := evict_some evicted
          have goes : ∀ e' ∈ s.entries, e'.name = c.name → removable lim now keep e' = true := by
            intro e' member same
            obtain rfl : e' = e := List.inj_on_of_nodup_map nodup member there (same.trans named.symm)
            simp [removable, here e' member same, unspared, unheld]
          have fewer := total_filter nodup there
          rw [here e there named, named] at fewer
          simp only [exceeds, true_and, left_cons_gone goes]
          refine ih (nodup.sublist (List.filter_sublist.map _)) ?_ limited fun c' member e' kept =>
            later c' member e' (List.mem_of_mem_filter kept)
          rw [counted, fewer]
          exact Int.bmod_sub_bmod

/-- The run published its entry, and nothing that may go was used after it. -/
def MayGo (lim : CacheLimits) (now : Int) (res : Result) (entries : List Entry) : Prop :=
  res.cacheHit = false ∧ ∀ e ∈ entries, removable lim now (some res.entry) e →
    ∀ own ∈ entries, own.name = res.entry → (account e).lastUse ≤ (account own).lastUse

theorem spares_relieve {res : Result} {report : CacheReport} (nodup : (entries.map (·.name)).Nodup)
    (counted : report.bytes = int64 (total entries)) (limited : report.limitBytes = limit)
    (perm : order.Perm (entries.map account)) (sorted : order.Pairwise fun a b => a.lastUse ≤ b.lastUse) :
    Spares lim now res entries limit (relieve lim now (some res.entry) order { entries, report }) ↔
      ((∀ before, before <+: order → limit < int64 (total (left lim now (some res.entry) before entries))) →
        (∃ e ∈ entries, e.name = res.entry ∧ (e.inUse || e.materializing || e.renameFails) = false) →
        MayGo lim now res entries) := by
  have only {e e' : Entry} (here : e ∈ entries) (there : e' ∈ entries) (same : e.name = e'.name) : e = e' :=
    List.inj_on_of_nodup_map nodup here there same
  have known : ∀ c ∈ order, ∀ e ∈ entries, e.name = c.name → account e = c := by
    intro c member e here named
    obtain ⟨e', there, rfl⟩ := List.mem_map.mp (perm.subset member)
    rw [only here there named]
  obtain ⟨stays, rest⟩ := @evictAll_left order { entries, report } lim now limit (some res.entry) nodup counted limited known
  unfold relieve
  generalize ran : evictAll lim now (some res.entry) order { entries, report } = s' at *
  have start : Removed entries limit { entries, report } := ⟨by simp [without], List.forall_mem_nil _, by simp⟩
  obtain ⟨removed, counted, limited, err, more, gone, sub, free⟩ :=
    evictAll_removed start counted nodup perm.subset limited ran
  rw [List.nil_append] at gone
  subst gone
  have room : s'.err.any Err.isCacheFull = false := by simp [err]
  have ordered := sorted.sublist sub
  simp only
  split
  · next fits =>
    refine iff_of_true (removed.spares ordered free room fun _ _ _ => ⟨counted, limited ▸ fits⟩) fun exceeds => ?_
    have := stays.mpr exceeds
    omega
  next exceeds =>
    have exceeds : limit < s'.report.bytes := by omega
    have kept := rest exceeds
    have removed : Removed entries limit { s' with report := { s'.report with overLimit := true } } := { removed with }
    unfold refuse
    split
    · next unmoved =>
      refine iff_of_true (removed.spares ordered free room fun _ _ within => by cases within) fun _ ⟨e, here, named, unheld⟩ => ?_
      have there : e ∈ s'.entries := by simp [kept, left, here, named, removable, spared, account]
      have nodup' : (s'.entries.map (·.name)).Nodup := removed.left ▸ nodup.sublist (List.filter_sublist.map _)
      rw [evict_none (by exact nodup') unmoved there named] at unheld
      cases unheld
    next evicted =>
      have removed' := removed.evict (show limit < int64 (total s'.entries) by omega) evicted
      obtain ⟨own, there, named, unheld, rfl⟩ := evict_some evicted
      have here : own ∈ entries := List.mem_of_mem_filter (removed.left ▸ there)
      constructor
      · rintro spares - -
        refine ⟨(spares.full rfl).2, fun e member may own' member' named' => ?_⟩
        obtain rfl : own' = own := only member' here (named'.trans named.symm)
        have absent : e ∉ s'.entries := by
          rw [kept, left, List.mem_filter]
          have listed : e.name ∈ order.map (·.name) :=
            List.mem_map.mpr ⟨account e, perm.mem_iff.mpr (List.mem_map_of_mem member), rfl⟩
          simp [may, listed]
        obtain ⟨g, left, same⟩ : ∃ g ∈ s'.gone, g.name = e.name := by
          have := removed.left ▸ absent
          simpa [without, member] using this
        obtain rfl : g = e := only (removed.free g left).1 member same
        have order := spares.ordered
        rw [List.map_append, List.pairwise_append] at order
        exact order.2.2 _ (List.mem_map_of_mem left) _ (List.mem_singleton_self _)
      · intro may
        obtain ⟨hit, last⟩ := may (stays.mp exceeds) ⟨own, here, named, unheld⟩
        refine ⟨{ removed' with }, ?_, ?_, (fun _ none => by cases none), fun _ => ⟨by simp [named], hit⟩⟩
        · intro g member
          refine (List.mem_append.mp member).imp (evictable_of_removable ∘ free g) fun is => ⟨?_, hit⟩
          rw [List.mem_singleton.mp is, named]
        · rw [List.map_append]
          refine List.pairwise_append.mpr ⟨ordered, List.pairwise_singleton _ _, fun a before b is => ?_⟩
          obtain ⟨g, member, rfl⟩ := List.mem_map.mp before
          rw [List.mem_singleton.mp is]
          exact last g (removed.free g member).1 (free g member) own here named

theorem record_name (env : Env) (hit : Bool) : (record env now hit e).name = e.name := by
  unfold record
  split <;> rfl

instance : Std.Total fun a b : CacheEntry => a.lastUse ≤ b.lastUse := ⟨fun _ _ => Int.le_total _ _⟩

instance : IsTrans CacheEntry fun a b => a.lastUse ≤ b.lastUse := ⟨fun _ _ _ => Int.le_trans⟩

def system : Env where
  sort := .insertionSort fun a b => a.lastUse ≤ b.lastUse
  perm := List.perm_insertionSort _
  sorted := List.pairwise_insertionSort _

def limits : CacheLimits := { maxBytes := 7, minAge := 5 }

def twoEntries : Cache where
  entries := [{ name := ⟨"a", false⟩, size := some 6, used := some 1 },
    { name := ⟨"b", false⟩, allocatedSize := some 8 }]
  nodup := by decide

end KubeSwift.ArtifactCache
