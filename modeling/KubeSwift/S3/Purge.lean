import KubeSwift.S3.Transfer

/-! # Purging a snapshot

`runDelete` removes what lies under a snapshot's key prefix. -/

namespace KubeSwift.S3

open Paths

variable {L : Library} {faults : Faults} {tree : Tree} {bucket after : Bucket} {key keyPrefix : Text} {keys : List Text}
  {artifacts : List Artifact} {stats : TransferStats} {snap other : SwiftSnapshot}

theorem artifact_listed {a : Artifact} (found : a ∈ uploadedArtifacts L tree) : Listed (objectKeyFor a) := by
  simp only [uploadedArtifacts, buildManifest, List.mem_map, List.mem_insertionSort, List.mem_filter] at found
  obtain ⟨_, ⟨file, ⟨there, -⟩, rfl⟩, rfl⟩ := found
  exact (tree.listed file there).suffix (by decide) (by decide)

theorem s3KeyPrefix_eq (snap : SwiftSnapshot) :
    s3KeyPrefix snap = join [snap.bucketPrefix, snap.namespace_ ++ slash :: snap.name] := by
  have := snap.placed.1.ne_nil
  by_cases empty : snap.bucketPrefix = [] <;> simp_all [s3KeyPrefix, join, List.intercalate_cons_cons]

theorem join_s3KeyPrefix (snap : SwiftSnapshot) (listed : Listed key) :
    join [s3KeyPrefix snap, key] = s3KeyPrefix snap ++ slash :: key := by
  rw [join_listed _ listed, s3KeyPrefix_eq, lead_join _ (snap.placed.1.append snap.named.1), List.append_assoc,
    List.singleton_append]

def objectKeys (L : Library) (snap : SwiftSnapshot) (tree : Tree) : List Text :=
  join [s3KeyPrefix snap, manifestObjectName] ::
    (uploadedArtifacts L tree).map fun a => join [s3KeyPrefix snap, objectKeyFor a]

theorem objectKeys_under (found : key ∈ objectKeys L snap tree) : s3KeyPrefix snap ++ [slash] <+: key := by
  have under {rest : Text} (listed : Listed rest) : s3KeyPrefix snap ++ [slash] <+: join [s3KeyPrefix snap, rest] :=
    ⟨rest, by simp [join_s3KeyPrefix snap listed]⟩
  rcases List.mem_cons.mp found with rfl | found
  · exact under (by decide)
  · obtain ⟨a, there, rfl⟩ := List.mem_map.mp found
    exact under (artifact_listed there)

theorem removeAll_lookup (spared : key ∉ keys) : (removeAll faults keys bucket).1.lookup key = bucket.lookup key := by
  induction keys generalizing bucket with
  | nil => rfl
  | cons first rest ih =>
    simp only [List.mem_cons, not_or] at spared
    have kept := AList.lookup_erase_ne (s := bucket) spared.1
    unfold removeAll
    split
    · split <;> simp [kept]
    · rw [ih spared.2, kept]

theorem removeAll_removes (ended : (removeAll faults keys bucket).2 = .ok ()) (listed : key ∈ keys ∨ key ∉ bucket) :
    key ∉ (removeAll faults keys bucket).1 := by
  induction keys generalizing bucket with
  | nil => simpa [removeAll] using listed
  | cons first rest ih =>
    cases fault : faults.remove first with
    | some landed => simp [removeAll, fault] at ended
    | none =>
      simp only [removeAll, fault] at ended ⊢
      refine ih ended ?_
      rw [AList.mem_erase]
      grind

theorem removeAll_ends (calm : ∀ key, faults.remove key = none) : (removeAll faults keys bucket).2 = .ok () := by
  induction keys generalizing bucket with
  | nil => rfl
  | cons first rest ih => simp [removeAll, calm, ih]

theorem runDelete_eq (faults : Faults) (snap : SwiftSnapshot) (bucket : Bucket) :
    runDelete faults (s3KeyPrefix snap) bucket =
      if faults.list then (bucket, .error (.list (s3KeyPrefix snap ++ [slash])))
      else removeAll faults (bucket.keys.filter (s3KeyPrefix snap ++ [slash]).isPrefixOf) bucket := by
  obtain ⟨front, last, name⟩ := (List.eq_nil_or_concat snap.name).resolve_left snap.named.1.ne_nil
  obtain ⟨before, shape⟩ : ∃ before, s3KeyPrefix snap = before ++ [last] := by
    refine ⟨lead snap.bucketPrefix ++ (snap.namespace_ ++ slash :: front), ?_⟩
    rw [s3KeyPrefix_eq, join_listed _ (snap.placed.1.append snap.named.1), name]
    simp
  have inner := snap.named.2
  simp only [name, List.concat_eq_append, List.mem_append, List.mem_singleton, not_or] at inner
  simp [runDelete, shape, Ne.symm inner.1.2, Ne.symm inner.2.2]

/-- A purge of `snap` reaches another snapshot that lies in its directory, and one around it that stored something below
its key prefix. -/
def Reaches (L : Library) (snap other : SwiftSnapshot) (tree : Tree) : Prop :=
  s3KeyPrefix snap ++ [slash] <+: s3KeyPrefix other ++ [slash] ∨
    ∃ rest, s3KeyPrefix snap = s3KeyPrefix other ++ slash :: rest ∧
      ∃ a ∈ uploadedArtifacts L tree, rest ++ [slash] <+: objectKeyFor a

/-- Of two directories above one key, one lies in the other. -/
theorem under_both {a b rest : Text} (under : a ++ [slash] <+: b ++ slash :: rest) :
    a ++ [slash] <+: b ++ [slash] ∨ ∃ mid, a = b ++ slash :: mid ∧ mid ++ [slash] <+: rest := by
  have own : b ++ [slash] <+: b ++ slash :: rest := ⟨rest, by simp⟩
  rcases List.prefix_or_prefix_of_prefix under own with inside | ⟨more, shape⟩
  · exact .inl inside
  · rcases List.eq_nil_or_concat more with rfl | ⟨mid, last, rfl⟩
    · exact .inl ⟨[], by simpa using shape.symm⟩
    · have ends : (b ++ slash :: mid) ++ [last] = a ++ [slash] := by simpa using shape
      obtain ⟨rfl, -⟩ := List.append_inj' ends rfl
      refine .inr ⟨mid, rfl, ?_⟩
      simpa [List.append_assoc] using under

theorem reaches_iff :
    Reaches L snap other tree ↔ ∃ key ∈ objectKeys L other tree, s3KeyPrefix snap ++ [slash] <+: key := by
  have shaped {rest : Text} (listed : Listed rest) : join [s3KeyPrefix other, rest] = s3KeyPrefix other ++ [slash] ++ rest := by
    simp [join_s3KeyPrefix other listed]
  constructor
  · rintro (inside | ⟨rest, around, a, stored, below⟩)
    · refine ⟨_, List.mem_cons_self, ?_⟩
      rw [shaped (by decide)]
      exact inside.trans (List.prefix_append ..)
    · refine ⟨_, List.mem_cons_of_mem _ (List.mem_map_of_mem stored), ?_⟩
      simpa [shaped (artifact_listed stored), around] using below
  · rintro ⟨key, theirs, under⟩
    rcases List.mem_cons.mp theirs with rfl | theirs
    · rw [join_s3KeyPrefix other (by decide)] at under
      refine (under_both under).imp_right ?_
      rintro ⟨mid, -, below⟩
      have : slash ∈ manifestObjectName := below.subset (by simp)
      exact absurd this (by decide)
    · obtain ⟨a, stored, rfl⟩ := List.mem_map.mp theirs
      rw [join_s3KeyPrefix other (artifact_listed stored)] at under
      exact (under_both under).imp_right fun ⟨mid, around, below⟩ => ⟨mid, around, a, stored, below⟩

theorem prefix_slash {a b x y : Text} (first : slash ∉ a) (second : slash ∉ b)
    (under : a ++ slash :: x <+: b ++ slash :: y) : a = b ∧ x <+: y := by
  obtain ⟨rest, shape⟩ := under
  have split := congrArg parts shape
  rw [List.append_assoc, List.cons_append, parts_append, parts_append, parts_name first, parts_name second] at split
  obtain rfl : a = b := by simpa using congrArg List.head? split
  exact ⟨rfl, rest, by simpa using shape⟩

theorem eq_of_keys_inside (shared : snap.bucketPrefix = other.bucketPrefix)
    (under : s3KeyPrefix snap ++ [slash] <+: s3KeyPrefix other ++ [slash]) : snap = other := by
  simp only [s3KeyPrefix_eq, join_listed _ (SwiftSnapshot.placed _ |>.1.append (SwiftSnapshot.named _).1), shared,
    List.append_assoc, List.prefix_append_right_inj, List.cons_append] at under
  obtain ⟨place, under⟩ := prefix_slash snap.placed.2 other.placed.2 under
  have name := (prefix_slash snap.named.2.1 other.named.2.1 under).1
  cases snap
  cases other
  simp_all

/-- Between snapshots with one prefix in their specs no purge reaches from one to the other. -/
theorem not_reaches_of_same (different : other ≠ snap) (same : other.bucketPrefix = snap.bucketPrefix) :
    ¬ Reaches L snap other tree := by
  rintro (inside | ⟨rest, around, -⟩)
  · exact different (eq_of_keys_inside same.symm inside).symm
  · exact different (eq_of_keys_inside same ⟨rest ++ [slash], by simp [around]⟩)

theorem uploadAll_keeps (there : key ∈ bucket) :
    key ∈ (uploadAll L faults tree keyPrefix artifacts stats bucket).1 := by
  induction artifacts generalizing bucket stats with
  | nil => exact there
  | cons a rest ih =>
    have stored (at_ : Text) (object : Object) : key ∈ bucket.insert at_ object := AList.mem_insert _ |>.mpr (.inr there)
    rw [uploadAll]
    split
    · exact ih there
    · split
      · split
        · split
          · exact stored ..
          · exact there
        · exact ih (stored ..)
      · exact there

theorem uploadAll_stores {a : Artifact} {stats' : TransferStats} (found : a ∈ artifacts)
    (ended : (uploadAll L faults tree keyPrefix artifacts stats bucket).2 = .ok stats') :
    join [keyPrefix, objectKeyFor a] ∈ (uploadAll L faults tree keyPrefix artifacts stats bucket).1 := by
  induction artifacts generalizing bucket stats with
  | nil => cases found
  | cons b rest ih =>
    have first (same : a = b) (after : Bucket) (there : join [keyPrefix, objectKeyFor b] ∈ after) (stats : TransferStats) :
        join [keyPrefix, objectKeyFor a] ∈ (uploadAll L faults tree keyPrefix rest stats after).1 :=
      uploadAll_keeps (same ▸ there)
    rw [uploadAll] at *
    split at ended
    · next skipped =>
      rw [if_pos skipped]
      rcases List.mem_cons.mp found with same | found
      · refine first same _ ?_ _
        obtain ⟨object, there, -⟩ := Option.map_eq_some_iff.mp skipped.2
        exact AList.lookup_isSome.mp (by rw [there]; rfl)
      · exact ih found ended
    · next missing =>
      rw [if_neg missing]
      split at ended
      · split at ended
        · cases ended
        · rcases List.mem_cons.mp found with same | found
          · exact first same _ (AList.mem_insert _ |>.mpr (.inl rfl)) _
          · exact ih found ended
      · cases ended

inductive Uploads (L : Library) : List (SwiftSnapshot × Tree) → Bucket → Prop
  | start (bucket : Bucket) : Uploads L [] bucket
  | failed {done bucket faults snap tree includeMemory after e} (before : Uploads L done bucket)
      (ran : runUpload L faults tree (s3KeyPrefix snap) snap.name includeMemory bucket = (after, .error e)) :
      Uploads L done after
  | succeeded {done bucket faults snap tree includeMemory after stats} (before : Uploads L done bucket)
      (ran : runUpload L faults tree (s3KeyPrefix snap) snap.name includeMemory bucket = (after, .ok stats)) :
      Uploads L ((snap, tree) :: done) after

theorem runUpload_keeps {snapName : Text} {includeMemory : Bool} {result : Except Err TransferStats} (there : key ∈ bucket)
    (ran : runUpload L faults tree keyPrefix snapName includeMemory bucket = (after, result)) : key ∈ after := by
  rw [runUpload] at ran
  split at ran
  · cases ran
    exact there
  dsimp only at ran
  split at ran <;> rename_i uploaded <;> have kept := congrArg Prod.fst uploaded ▸ uploadAll_keeps there
  · cases ran
    exact kept
  have stored (at_ : Text) (object : Object) := (@AList.mem_insert _ _ _ key at_ object _).mpr (.inr kept)
  split at ran <;> cases ran
  · split
    · exact stored ..
    · exact kept
  · exact stored ..

theorem runUpload_stores {includeMemory : Bool} {stats : TransferStats} (found : key ∈ objectKeys L snap tree)
    (ran : runUpload L faults tree (s3KeyPrefix snap) snap.name includeMemory bucket = (after, .ok stats)) :
    key ∈ after := by
  rw [runUpload] at ran
  split at ran
  · cases ran
  dsimp only at ran
  split at ran
  · cases ran
  · next middle _ uploaded =>
    split at ran
    · cases ran
    · obtain ⟨rfl, -⟩ := Prod.mk.inj ran
      rcases List.mem_cons.mp found with rfl | found
      · exact AList.mem_insert _ |>.mpr (.inl rfl)
      · obtain ⟨a, there, rfl⟩ := List.mem_map.mp found
        have stored := congrArg Prod.fst uploaded ▸ uploadAll_stores there (congrArg Prod.snd uploaded)
        exact AList.mem_insert _ |>.mpr (.inr stored)

theorem Uploads.stored {done : List (SwiftSnapshot × Tree)} (uploads : Uploads L done bucket)
    (found : (snap, tree) ∈ done) (mine : key ∈ objectKeys L snap tree) : key ∈ bucket := by
  induction uploads with
  | start => cases found
  | failed before ran ih => exact runUpload_keeps (ih found) ran
  | succeeded before ran ih =>
    rcases List.mem_cons.mp found with same | found
    · cases same
      exact runUpload_stores mine ran
    · exact runUpload_keeps (ih found) ran

theorem runDelete_keeps (spared : ¬ s3KeyPrefix snap ++ [slash] <+: key) :
    (runDelete faults (s3KeyPrefix snap) bucket).1.lookup key = bucket.lookup key := by
  rw [runDelete_eq]
  split
  · rfl
  · exact removeAll_lookup fun taken => spared (List.isPrefixOf_iff_prefix.mp (List.mem_filter.mp taken).2)

theorem runDelete_removes (ended : (runDelete faults (s3KeyPrefix snap) bucket).2 = .ok ())
    (under : s3KeyPrefix snap ++ [slash] <+: key) : key ∉ (runDelete faults (s3KeyPrefix snap) bucket).1 := by
  rw [runDelete_eq] at ended ⊢
  split at ended
  · cases ended
  · next calm =>
    rw [if_neg calm]
    refine removeAll_removes ended (or_iff_not_imp_right.mpr fun there => ?_)
    exact List.mem_filter.mpr ⟨not_not.mp there, List.isPrefixOf_iff_prefix.mpr under⟩

/-- Purging a snapshot removes its objects, and of the others exactly what it reaches; it reaches none that has the same
prefix in its spec. -/
theorem purge_leaves_others {done : List (SwiftSnapshot × Tree)} (uploads : Uploads L done bucket) :
    (faults.list = false → (∀ key, faults.remove key = none) →
      (runDelete faults (s3KeyPrefix snap) bucket).2 = .ok ()) ∧
    ((runDelete faults (s3KeyPrefix snap) bucket).2 = .ok () →
      (∀ tree, ∀ key ∈ objectKeys L snap tree, key ∉ (runDelete faults (s3KeyPrefix snap) bucket).1) ∧
      ((∀ other ∈ done, other.1 ≠ snap → ∀ key ∈ objectKeys L other.1 other.2,
          key ∈ (runDelete faults (s3KeyPrefix snap) bucket).1) ↔
        ∀ other ∈ done, other.1 ≠ snap → ¬ Reaches L snap other.1 other.2)) ∧
    ∀ other ∈ done, other.1 ≠ snap →
      other.1.bucketPrefix = snap.bucketPrefix ∨ ¬ Reaches L snap other.1 other.2 →
      ∀ key ∈ objectKeys L other.1 other.2, key ∈ (runDelete faults (s3KeyPrefix snap) bucket).1 ∧
        (runDelete faults (s3KeyPrefix snap) bucket).1.lookup key = bucket.lookup key := by
  have kept : ∀ other ∈ done, ¬ Reaches L snap other.1 other.2 → ∀ key ∈ objectKeys L other.1 other.2,
      key ∈ (runDelete faults (s3KeyPrefix snap) bucket).1 ∧
        (runDelete faults (s3KeyPrefix snap) bucket).1.lookup key = bucket.lookup key := by
    intro other found apart key theirs
    have same : (runDelete faults (s3KeyPrefix snap) bucket).1.lookup key = bucket.lookup key :=
      runDelete_keeps fun under => apart (reaches_iff.mpr ⟨key, theirs, under⟩)
    refine ⟨?_, same⟩
    rw [← AList.lookup_isSome, same, AList.lookup_isSome]
    exact uploads.stored found theirs
  refine ⟨fun lists removes => ?_, fun ended => ⟨fun tree key mine => runDelete_removes ended (objectKeys_under mine),
    fun whole other found different reaches => ?_, fun apart other found different key theirs =>
      (kept other found (apart other found different) key theirs).1⟩, fun other found different apart => ?_⟩
  · rw [runDelete_eq, lists]
    exact removeAll_ends removes
  · obtain ⟨key, theirs, under⟩ := reaches_iff.mp reaches
    exact runDelete_removes ended under (whole other found different key theirs)
  · exact kept other found (apart.elim (not_reaches_of_same different) id)

private def bare : Library := ⟨fun data => data, fun data => data, fun data => (data, true), fun _ => [], fun _ => none⟩

private def disk : Tree := ⟨[(text "disk", [1])], by decide, by decide⟩

private def outer : SwiftSnapshot := ⟨text "p", text "a", text "b", by decide, by decide⟩

private def nested : SwiftSnapshot := ⟨text "p/a/b", text "x", text "y", by decide, by decide⟩

theorem purge_leaves_others_around : ∃ bucket, ∀ key ∈ objectKeys bare outer disk,
    key ∈ (runDelete {} (s3KeyPrefix nested) bucket).1 := by
  have uploads : Uploads bare [(outer, disk)] _ := .succeeded (.start ∅) (rfl : runUpload bare {} disk _ _ true _ = _)
  have apart : ¬ Reaches bare nested outer disk := reaches_iff.not.mpr (by decide)
  have purged := (@purge_leaves_others bare {} _ nested _ uploads).2.2
  exact ⟨_, fun key mine => (purged (outer, disk) (List.mem_singleton_self _) (by decide) (.inr apart) key mine).1⟩

/-- A snapshot whose prefix is the key prefix of another goes with the other. -/
theorem purge_takes_nested :
    ∃ bucket, Uploads bare [(nested, disk), (outer, disk)] bucket ∧ (runDelete {} (s3KeyPrefix outer) bucket).2 = .ok () ∧
      ∃ key ∈ objectKeys bare nested disk, key ∈ bucket ∧ key ∉ (runDelete {} (s3KeyPrefix outer) bucket).1 := by
  refine ⟨_, .succeeded (.succeeded (.start ∅) (rfl : runUpload bare {} disk _ _ true _ = _))
    (rfl : runUpload bare {} disk _ _ true _ = _), ?_⟩
  decide

end KubeSwift.S3
