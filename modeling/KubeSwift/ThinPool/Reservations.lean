import KubeSwift.ThinPool.Node

/-! # Pool space promised to base builds

A build reserves its space under the registry lock and writes later, without it. Other builds' claims count in full
while their writes already show in the free space. -/

namespace KubeSwift.ThinPool

def KeyMap.sum {α : Type} (f : Key → α → Nat) (m : KeyMap α) : Nat := (m.entries.map fun e => f e.1 e.2).sum

section Sums

variable {α : Type} {f g : Key → α → Nat} {m m' : KeyMap α} {k : Key}

theorem KeyMap.mem_entries {v : α} : ⟨k, v⟩ ∈ m.entries ↔ m.lookup k = some v :=
  AList.mem_lookup_iff.symm

theorem KeyMap.sum_le (sub : ∀ k v, m.lookup k = some v → m'.lookup k = some v)
    (le : ∀ k v, m.lookup k = some v → f k v ≤ g k v) : KeyMap.sum f m ≤ KeyMap.sum g m' := by
  have contained : m.entries.Subperm m'.entries := by
    refine m.nodupKeys.nodup.subperm fun e member => ?_
    exact mem_entries.mpr (sub e.1 e.2 (mem_entries.mp member))
  calc KeyMap.sum f m ≤ KeyMap.sum g m := List.sum_le_sum fun e member => le e.1 e.2 (mem_entries.mp member)
    _ ≤ KeyMap.sum g m' := by
        obtain ⟨l, perm, sub⟩ := contained
        calc (m.entries.map fun e => g e.1 e.2).sum = (l.map fun e => g e.1 e.2).sum :=
              (perm.map _).sum_eq.symm
          _ ≤ (m'.entries.map fun e => g e.1 e.2).sum := (sub.map _).sum_le_sum (by simp)

theorem KeyMap.sum_congr (same : ∀ k v, m.lookup k = some v → f k v = g k v) : KeyMap.sum f m = KeyMap.sum g m :=
  Nat.le_antisymm (sum_le (fun _ _ here => here) fun k v here => (same k v here).le)
    (sum_le (fun _ _ here => here) fun k v here => (same k v here).ge)

theorem KeyMap.sum_add : KeyMap.sum (fun k v => f k v + g k v) m = KeyMap.sum f m + KeyMap.sum g m :=
  List.sum_map_add

theorem KeyMap.sum_insert (k : Key) (v : α) : KeyMap.sum f (m.insert k v) = f k v + KeyMap.sum f (m.erase k) := by
  simp [KeyMap.sum, AList.entries_insert, AList.erase]

theorem KeyMap.sum_erase {v : α} (here : m.lookup k = some v) :
    KeyMap.sum f m = f k v + KeyMap.sum f (m.erase k) := by
  have member : k ∈ m.entries.keys := AList.mem_keys.mp (AList.lookup_isSome.mp (by simp [here]))
  have perm : m.entries.Perm (m.insert k v).entries := by
    refine (List.perm_ext_iff_of_nodup m.nodupKeys.nodup (m.insert k v).nodupKeys.nodup).mpr fun e => ?_
    obtain ⟨a, b⟩ := e
    rw [mem_entries, mem_entries, KeyMap.lookup_insert]
    grind
  exact (perm.map _).sum_eq

end Sums

def uint64 : Nat := 2 ^ 64

def heldByOthers64 (key : Key) (reserved : KeyMap Reservation) : Nat :=
  reserved.entries.foldl (fun held e => if e.1 = key then held else (held + e.2.bytes) % uint64) 0

def RegistryState.reserve64 (key : Key) (bytes free now : Nat) : Mutation (Bool × Nat) := fun st =>
  let kept := dropLapsed key now st.reserved
  let held := heldByOthers64 key kept
  let available := if free > held then free - held else 0
  if available < bytes then
    .ok (if kept.entries.length = st.reserved.entries.length then none else some { st with reserved := kept },
      (false, available))
  else .ok (some { st with reserved := kept.insert key ⟨bytes, some now⟩ }, (true, available))

/-- A `Reserve` under way: `free` is read first, at `began`, and the clock after it. -/
structure Attempt where
  key : Key
  bytes : Nat
  free : Nat
  began : Nat
  now : Option Nat

def Attempt.time (a : Attempt) : Nat := a.now.getD a.began

structure Space where
  status : Status
  registry : RegistryState
  written : Key → Nat
  now : Nat
  pending : Option Attempt

inductive SpaceEvent
  | tick (elapsed : Nat)
  | measure (key : Key) (bytes : Nat)
  | clock
  | commit
  | abort
  | call (o : RegOp) (c : Choice)
  | write (key : Key) (bytes blocks : Nat)
  | release (blocks : Nat)

def blockBytes : Nat := blockSectors * 512

def RegOp.reserves : RegOp → Bool
  | .reserve _ _ => true
  | _ => false

/-- What happens, if it can: the registry lock is exclusive, and a build writes within its claim and its lifetime, and
not while it reserves. -/
def Space.step (s : Space) : SpaceEvent → Option Space
  | .tick elapsed => some { s with now := s.now + elapsed }
  | .measure key bytes =>
    match s.pending with
    | none => some { s with pending := some ⟨key, bytes, s.status.freeBytes, s.now, none⟩ }
    | some _ => none
  | .clock =>
    match s.pending with
    | none => none
    | some a => if a.now = none then some { s with pending := some { a with now := some s.now } } else none
  | .commit =>
    match s.pending with
    | none => none
    | some a =>
      match a.now with
      | none => none
      | some now =>
        match RegistryState.reserve64 a.key a.bytes a.free now s.registry with
        | .error _ => none
        | .ok (changed, (granted, _)) => some { s with
            registry := changed.getD s.registry
            written := if granted then Function.update s.written a.key 0 else s.written
            pending := none }
  | .abort => some { s with pending := none }
  | .call o c =>
    match s.pending, o.mutate c s.registry with
    | none, .ok (changed, _) =>
      if o.reserves then none else some { s with registry := changed.getD s.registry }
    | none, .error _ => some s
    | some _, _ => none
  | .write key bytes blocks =>
    match s.registry.reserved.lookup key with
    | none => none
    | some claim =>
      if claim.live s.now ∧ s.written key + bytes ≤ claim.bytes ∧ blocks * blockBytes ≤ bytes ∧
          s.pending.all (·.key ≠ key) then
        some { s with
          status := { s.status with usedData := s.status.usedData + blocks }
          written := Function.update s.written key (s.written key + bytes) }
      else none
  | .release blocks => some { s with status := { s.status with usedData := s.status.usedData - blocks } }

def Space.run (s : Space) : List SpaceEvent → Option Space
  | [] => some s
  | e :: rest => (s.step e).bind fun s' => s'.run rest

/-- No claim of another key lapses between a `Reserve`'s reading of `free` and its reading of the clock. -/
def Space.steady (s : Space) : SpaceEvent → Bool
  | .clock => s.pending.all fun a => s.registry.reserved.entries.all fun e =>
      e.1 = a.key || !e.2.live a.began || e.2.live s.now
  | _ => true

def Space.timely (s : Space) : List SpaceEvent → Bool
  | [] => true
  | e :: rest => s.steady e && (s.step e).all (·.timely rest)

def owed (now : Nat) (written : Key → Nat) (key : Key) (claim : Reservation) : Nat :=
  if claim.live now then claim.bytes - written key else 0

def Space.outstanding (s : Space) : Nat := KeyMap.sum (owed s.now s.written) s.registry.reserved

def claimed (_ : Key) (claim : Reservation) : Nat := claim.bytes

variable {now : Nat} {key : Key} {st : RegistryState} {s' : Space} {claim : Reservation}

theorem Reservation.live_mono {now' : Nat} (le : now ≤ now') (live : claim.live now') :
    claim.live now := by
  unfold Reservation.live at live ⊢
  cases since : claim.since with
  | none => simp [since] at live
  | some t =>
    simp only [since, decide_eq_true_eq] at live ⊢
    omega

theorem RegistryState.lookup_dropLapsed {reserved : KeyMap Reservation} :
    (dropLapsed key now reserved).lookup k = some claim ↔
      reserved.lookup k = some claim ∧ (k = key ∨ claim.live now) := by
  have general : ∀ (l : List (Sigma fun _ : Key => Reservation)) (m : KeyMap Reservation),
      (l.foldl (fun m e => if e.1 = key ∨ e.2.live now then m else m.erase e.1) m).lookup k =
        if l.any fun e => e.1 = k ∧ ¬(e.1 = key ∨ e.2.live now) then none else m.lookup k := by
    intro l
    induction l with
    | nil => intro m; simp
    | cons e rest ih =>
      intro m
      rw [List.foldl_cons, ih]
      by_cases kept : e.1 = key ∨ e.2.live now
      · have skip : ¬(e.1 = k ∧ ¬(e.1 = key ∨ e.2.live now)) := fun both => both.2 kept
        simp only [if_pos kept, List.any_cons, skip, decide_false, Bool.false_or]
      · grind
  rw [dropLapsed, general]
  have only : ∀ e ∈ reserved.entries, e.1 = k → reserved.lookup k = some e.2 := by
    intro e member same
    exact same ▸ KeyMap.mem_entries.mp member
  have member : reserved.lookup k = some claim → ⟨k, claim⟩ ∈ reserved.entries := KeyMap.mem_entries.mpr
  grind

theorem heldByOthers_eq_sum (key : Key) (reserved : KeyMap Reservation) :
    RegistryState.heldByOthers key reserved = KeyMap.sum claimed (reserved.erase key) := by
  have perm : (reserved.entries.filter fun e => e.1 ≠ key).Perm (reserved.erase key).entries := by
    refine (List.perm_ext_iff_of_nodup (reserved.nodupKeys.nodup.filter _)
      (reserved.erase key).nodupKeys.nodup).mpr fun e => ?_
    obtain ⟨k, claim⟩ := e
    rw [List.mem_filter, KeyMap.mem_entries, KeyMap.mem_entries, KeyMap.lookup_erase]
    grind
  exact (perm.map _).sum_eq

theorem heldByOthers64_eq {reserved : KeyMap Reservation} (small : RegistryState.heldByOthers key reserved < uint64) :
    heldByOthers64 key reserved = RegistryState.heldByOthers key reserved := by
  have general : ∀ (l : List (Sigma fun _ : Key => Reservation)) (held : Nat),
      held + ((l.filter fun e => e.1 ≠ key).map fun e => e.2.bytes).sum < uint64 →
      l.foldl (fun held e => if e.1 = key then held else (held + e.2.bytes) % uint64) held =
        held + ((l.filter fun e => e.1 ≠ key).map fun e => e.2.bytes).sum := by
    intro l
    induction l with
    | nil => intro held _; rfl
    | cons e rest ih =>
      intro held fits
      by_cases own : e.1 = key
      · rw [List.filter_cons_of_neg (by simpa using own)] at fits ⊢
        rw [List.foldl_cons, if_pos own]
        exact ih held fits
      · rw [List.filter_cons_of_pos (by simpa using own), List.map_cons, List.sum_cons] at fits ⊢
        rw [List.foldl_cons, if_neg own]
        have exact : (held + e.2.bytes) % uint64 = held + e.2.bytes := Nat.mod_eq_of_lt (by omega)
        rw [exact, ih _ (by omega)]
        omega
  have all := general reserved.entries 0 (by simpa [RegistryState.heldByOthers] using small)
  simpa [heldByOthers64, RegistryState.heldByOthers] using all

theorem RegistryState.reserve64_eq {bytes free : Nat}
    (small : heldByOthers key (dropLapsed key now st.reserved) < uint64) :
    reserve64 key bytes free now st = reserve key bytes free now st := by
  have available : ∀ held, (if free > held then free - held else 0) = free - held := by
    intro held
    split <;> omega
  simp only [reserve64, reserve, heldByOthers64_eq small, available]

structure Space.Sound (s : Space) : Prop where
  size : s.status.totalData * blockBytes < uint64
  covered : s.outstanding ≤ s.status.freeBytes
  granted : KeyMap.sum claimed s.registry.reserved ≤ s.status.totalData * blockBytes
  within : ∀ key claim, s.registry.reserved.lookup key = some claim → s.written key ≤ claim.bytes
  measured : ∀ a ∈ s.pending, a.time ≤ s.now ∧ a.free ≤ s.status.totalData * blockBytes ∧
    a.free ≤ s.status.freeBytes + KeyMap.sum (fun key _ => s.written key)
      ((RegistryState.dropLapsed a.key a.time s.registry.reserved).erase a.key)

theorem Status.freeBytes_eq (st : Status) : st.freeBytes = (st.totalData - st.usedData) * blockBytes :=
  Nat.mul_assoc _ _ _

theorem Status.freeBytes_le (st : Status) : st.freeBytes ≤ st.totalData * blockBytes := by
  rw [st.freeBytes_eq]
  exact Nat.mul_le_mul_right _ (Nat.sub_le _ _)

variable {s : Space}

variable (sound : s.Sound)
include sound

theorem Space.Sound.tick (elapsed : Nat) :
    Space.Sound { s with now := s.now + elapsed } where
  size := sound.size
  covered := by
    refine le_trans (KeyMap.sum_le (fun _ _ here => here) fun key claim _ => ?_) sound.covered
    unfold owed
    by_cases live : claim.live (s.now + elapsed)
    · have earlier : claim.live s.now := Reservation.live_mono (Nat.le_add_right _ _) live
      simp [live, earlier]
    · simp [live]
  granted := sound.granted
  within := sound.within
  measured a pending := by
    obtain ⟨time, rest⟩ := sound.measured a pending
    exact ⟨Nat.le_add_right_of_le time, rest⟩

theorem Space.Sound.measure (key : Key) (bytes : Nat) :
    Space.Sound { s with pending := some ⟨key, bytes, s.status.freeBytes, s.now, none⟩ } where
  size := sound.size
  covered := sound.covered
  granted := sound.granted
  within := sound.within
  measured a pending := by
    cases pending
    exact ⟨Nat.le_refl _, s.status.freeBytes_le, Nat.le_add_right _ _⟩

theorem Space.Sound.clock {a : Attempt} (pending : a ∈ s.pending) (unread : a.now = none) (steady : s.steady .clock) :
    Space.Sound { s with pending := some { a with now := some s.now } } where
  size := sound.size
  covered := sound.covered
  granted := sound.granted
  within := sound.within
  measured b same := by
    cases same
    obtain ⟨-, bound, read⟩ := sound.measured a pending
    have began : a.time = a.began := by rw [Attempt.time, unread, Option.getD_none]
    have still : ∀ k claim, s.registry.reserved.lookup k = some claim → k ≠ a.key → claim.live a.began →
        claim.live s.now := by
      intro k claim here other live
      have all : s.pending = some a := pending
      simp only [Space.steady, all, Option.all_some, List.all_eq_true] at steady
      simpa [other, live] using steady ⟨k, claim⟩ (KeyMap.mem_entries.mpr here)
    refine ⟨le_rfl, bound, read.trans (Nat.add_le_add_left (KeyMap.sum_le (fun k claim found => ?_) fun _ _ _ => le_rfl) _)⟩
    rw [KeyMap.lookup_erase] at found ⊢
    split at found
    · cases found
    · next other =>
      obtain ⟨here, own | live⟩ := RegistryState.lookup_dropLapsed.mp found
      · exact absurd own other
      · rw [if_neg other]
        exact RegistryState.lookup_dropLapsed.mpr ⟨here, .inr (still k claim here other (began ▸ live))⟩

theorem Space.Sound.abort : Space.Sound { s with pending := none } where
  size := sound.size
  covered := sound.covered
  granted := sound.granted
  within := sound.within
  measured a pending := by cases pending

theorem Space.Sound.drop
    (sub : ∀ key claim, st.reserved.lookup key = some claim → s.registry.reserved.lookup key = some claim) :
    Space.Sound { s with registry := st, pending := none } where
  size := sound.size
  covered := le_trans (KeyMap.sum_le sub fun _ _ _ => Nat.le_refl _) sound.covered
  granted := le_trans (KeyMap.sum_le sub fun _ _ _ => Nat.le_refl _) sound.granted
  within key claim here := sound.within key claim (sub key claim here)
  measured a pending := by cases pending

theorem Space.Sound.release (blocks : Nat) :
    Space.Sound { s with status := { s.status with usedData := s.status.usedData - blocks } } := by
  have more : s.status.freeBytes ≤ ({ s.status with usedData := s.status.usedData - blocks } : Status).freeBytes := by
    rw [Status.freeBytes_eq, Status.freeBytes_eq]
    exact Nat.mul_le_mul_right _ (Nat.sub_le_sub_left (Nat.sub_le _ _) _)
  refine ⟨sound.size, sound.covered.trans more, sound.granted, sound.within, ?_⟩
  intro a pending
  obtain ⟨time, fits, read⟩ := sound.measured a pending
  exact ⟨time, fits, read.trans (Nat.add_le_add_right more _)⟩

omit sound

section Write

variable {s : Space} {key : Key} {claim : Reservation} {bytes blocks : Nat}

def Space.afterWrite (s : Space) (key : Key) (bytes blocks : Nat) : Space :=
  { s with
    status := { s.status with usedData := s.status.usedData + blocks }
    written := Function.update s.written key (s.written key + bytes) }

theorem owed_update (other : k ≠ key) (now : Nat) (written : Key → Nat) (n : Nat) (claim : Reservation) :
    owed now (Function.update written key n) k claim = owed now written k claim := by
  rw [owed, Function.update_of_ne other, owed]

variable (here : s.registry.reserved.lookup key = some claim) (live : claim.live s.now)
include here live

theorem Space.outstanding_afterWrite (blocks : Nat) (fits : s.written key + bytes ≤ claim.bytes) :
    (s.afterWrite key bytes blocks).outstanding + bytes = s.outstanding := by
  have others : KeyMap.sum (owed s.now (Function.update s.written key (s.written key + bytes)))
        (s.registry.reserved.erase key) =
      KeyMap.sum (owed s.now s.written) (s.registry.reserved.erase key) := by
    refine KeyMap.sum_congr fun k v found => ?_
    have other : k ≠ key := by
      rintro rfl
      simp at found
    exact owed_update other _ _ _ _
  change KeyMap.sum (owed s.now (Function.update s.written key (s.written key + bytes))) s.registry.reserved + bytes = _
  rw [outstanding, KeyMap.sum_erase here, KeyMap.sum_erase here, others]
  simp only [owed, if_pos live, Function.update_self]
  omega

theorem Space.Sound.freeBytes_afterWrite (sound : s.Sound) (fits : s.written key + bytes ≤ claim.bytes) (taken : blocks * blockBytes ≤ bytes) :
    (s.afterWrite key bytes blocks).status.freeBytes + blocks * blockBytes = s.status.freeBytes := by
  have room : bytes ≤ s.status.freeBytes :=
    le_trans (Nat.le_of_add_left_le (outstanding_afterWrite here live blocks fits).le) sound.covered
  have free : blocks * blockBytes ≤ (s.status.totalData - s.status.usedData) * blockBytes := by
    rw [← Status.freeBytes_eq]
    exact taken.trans room
  have available : blocks ≤ s.status.totalData - s.status.usedData :=
    Nat.le_of_mul_le_mul_right free (by decide)
  rw [Status.freeBytes_eq, Status.freeBytes_eq, ← Nat.add_mul]
  simp only [afterWrite]
  congr 1
  omega

theorem Space.Sound.measured_afterWrite (sound : s.Sound) {a : Attempt} (pending : a ∈ s.pending) (other : a.key ≠ key)
    (bytes blocks : Nat) : KeyMap.sum (fun k _ => (s.afterWrite key bytes blocks).written k)
        ((RegistryState.dropLapsed a.key a.time s.registry.reserved).erase a.key) =
      KeyMap.sum (fun k _ => s.written k)
        ((RegistryState.dropLapsed a.key a.time s.registry.reserved).erase a.key) + bytes := by
  have still : claim.live a.time := Reservation.live_mono (sound.measured a pending).1 live
  have counted : ((RegistryState.dropLapsed a.key a.time s.registry.reserved).erase a.key).lookup key = some claim := by
    rw [KeyMap.lookup_erase, if_neg other.symm]
    exact RegistryState.lookup_dropLapsed.mpr ⟨here, .inr still⟩
  have rest : ∀ m : KeyMap Reservation, KeyMap.sum (fun k _ => (s.afterWrite key bytes blocks).written k) (m.erase key) =
      KeyMap.sum (fun k _ => s.written k) (m.erase key) := by
    intro m
    refine KeyMap.sum_congr fun k v found => ?_
    have apart : k ≠ key := by
      rintro rfl
      simp at found
    simp only [afterWrite, Function.update_of_ne apart]
  rw [KeyMap.sum_erase counted, KeyMap.sum_erase counted, rest]
  simp only [afterWrite, Function.update_self]
  omega

theorem Space.Sound.write (sound : s.Sound) (fits : s.written key + bytes ≤ claim.bytes) (taken : blocks * blockBytes ≤ bytes)
    (apart : ∀ a ∈ s.pending, a.key ≠ key) : (s.afterWrite key bytes blocks).Sound := by
  have free := sound.freeBytes_afterWrite here live fits taken
  have left := outstanding_afterWrite here live blocks fits
  have covered := sound.covered
  refine ⟨sound.size, by omega, sound.granted, ?_, ?_⟩
  · intro k c found
    by_cases same : k = key
    · subst same
      have : c = claim := Option.some.inj (found.symm.trans here)
      subst this
      simpa [afterWrite] using fits
    · simpa [afterWrite, Function.update_of_ne same] using sound.within k c found
  · intro a pending
    obtain ⟨time, bound, read⟩ := sound.measured a pending
    refine ⟨time, bound, ?_⟩
    have counted := sound.measured_afterWrite here live pending (apart a pending) bytes blocks
    calc a.free ≤ s.status.freeBytes + KeyMap.sum (fun k _ => s.written k)
            ((RegistryState.dropLapsed a.key a.time s.registry.reserved).erase a.key) := read
      _ ≤ (s.afterWrite key bytes blocks).status.freeBytes + (KeyMap.sum (fun k _ => s.written k)
            ((RegistryState.dropLapsed a.key a.time s.registry.reserved).erase a.key) + bytes) := by omega
      _ = _ := by rw [← counted]; rfl

end Write

section Commit

variable {s : Space} {a : Attempt}

def Space.others (s : Space) (a : Attempt) : KeyMap Reservation :=
  (RegistryState.dropLapsed a.key a.time s.registry.reserved).erase a.key

theorem Space.lookup_others (found : (s.others a).lookup k = some claim) :
    k ≠ a.key ∧ s.registry.reserved.lookup k = some claim := by
  rw [others, KeyMap.lookup_erase] at found
  split at found
  · cases found
  · next other => exact ⟨other, (RegistryState.lookup_dropLapsed.mp found).1⟩

theorem Space.Sound.others_granted (sound : s.Sound) :
    KeyMap.sum claimed (s.others a) ≤ s.status.totalData * blockBytes :=
  le_trans (KeyMap.sum_le (fun _ _ found => (lookup_others found).2) fun _ _ _ => Nat.le_refl _) sound.granted

theorem Space.Sound.held_fits (sound : s.Sound) (key : Key) (now : Nat) :
    RegistryState.heldByOthers key (RegistryState.dropLapsed key now s.registry.reserved) < uint64 := by
  rw [heldByOthers_eq_sum]
  exact Nat.lt_of_le_of_lt (sound.others_granted (a := ⟨key, 0, 0, now, none⟩)) sound.size

theorem Space.Sound.others_covered (sound : s.Sound) (pending : a ∈ s.pending)
    (room : a.bytes ≤ a.free - KeyMap.sum claimed (s.others a)) :
    a.bytes + KeyMap.sum (owed s.now s.written) (s.others a) ≤
      s.status.freeBytes := by
  by_cases nothing : a.bytes = 0
  · rw [nothing, Nat.zero_add]
    exact le_trans (KeyMap.sum_le (fun _ _ found => (lookup_others found).2) fun _ _ _ => Nat.le_refl _) sound.covered
  · have parts : KeyMap.sum claimed (s.others a) =
        KeyMap.sum (fun k claim => claim.bytes - s.written k) (s.others a) +
          KeyMap.sum (fun k _ => s.written k) (s.others a) := by
      rw [← KeyMap.sum_add]
      refine KeyMap.sum_congr fun k claim found => ?_
      have := sound.within k claim (lookup_others found).2
      simp only [claimed]
      omega
    have live : KeyMap.sum (owed s.now s.written) (s.others a) ≤
        KeyMap.sum (fun k claim => claim.bytes - s.written k) (s.others a) := by
      refine KeyMap.sum_le (fun _ _ found => found) fun k claim _ => ?_
      unfold owed
      split
      · exact Nat.le_refl _
      · exact Nat.zero_le _
    have read : a.free ≤ s.status.freeBytes + KeyMap.sum (fun k _ => s.written k) (s.others a) :=
      (sound.measured a pending).2.2
    omega

theorem Space.Sound.grant (sound : s.Sound) (pending : a ∈ s.pending)
    (room : a.bytes ≤ a.free - KeyMap.sum claimed (s.others a)) {st : RegistryState}
    (claims : st.reserved =
      (RegistryState.dropLapsed a.key a.time s.registry.reserved).insert a.key ⟨a.bytes, some a.time⟩) :
    Space.Sound { s with registry := st, written := Function.update s.written a.key 0, pending := none } := by
  refine ⟨sound.size, ?_, ?_, ?_, fun _ none => by cases none⟩
  · refine le_trans ?_ (sound.others_covered pending room)
    simp only [outstanding, claims, KeyMap.sum_insert]
    refine Nat.add_le_add ?_ (KeyMap.sum_congr fun k claim found => ?_).le
    · unfold owed
      split
      · exact Nat.sub_le _ _
      · exact Nat.zero_le _
    · exact owed_update (lookup_others found).1 _ _ _ _
  · simp only [claims, KeyMap.sum_insert]
    have bound := (sound.measured a pending).2.1
    have rest := sound.others_granted (a := a)
    change a.bytes + KeyMap.sum claimed (s.others a) ≤ _
    by_cases nothing : a.bytes = 0 <;> omega
  · intro k claim found
    simp only [claims, KeyMap.lookup_insert] at found
    by_cases same : k = a.key
    · simp [same]
    · rw [if_neg same] at found
      have kept : s.registry.reserved.lookup k = some claim := (RegistryState.lookup_dropLapsed.mp found).1
      simpa [Function.update_of_ne same] using sound.within k claim kept

theorem Space.Sound.commit {s' : Space} (sound : s.Sound) (done : s.step .commit = some s') : s'.Sound := by
  cases held : s.pending with
  | none => simp [step, held] at done
  | some a =>
    cases read : a.now with
    | none => simp [step, held, read] at done
    | some now =>
    have time : a.time = now := by rw [Attempt.time, read, Option.getD_some]
    simp only [step, held, read, ← time, RegistryState.reserve64_eq (sound.held_fits a.key a.time),
      RegistryState.reserve] at done
    split_ifs at done with short unchanged
    · cases done
      exact sound.drop fun _ _ found => found
    · cases done
      exact sound.drop fun _ _ found => (RegistryState.lookup_dropLapsed.mp found).1
    · cases done
      rw [heldByOthers_eq_sum] at short
      exact sound.grant (a := a) (by simp [held]) (Nat.not_lt.mp short) rfl

end Commit

theorem RegOp.mutate_reserved {o : RegOp} {c : Choice} {st' : RegistryState} {answer : o.Res}
    (other : o.reserves = false) (done : o.mutate c st = .ok (some st', answer)) :
    ∀ key claim, st'.reserved.lookup key = some claim → st.reserved.lookup key = some claim := by
  cases mutate_changes done <;> grind [reserves]

theorem Space.Sound.call {o : RegOp} {c : Choice} (sound : s.Sound) (done : s.step (.call o c) = some s') :
    s'.Sound := by
  simp only [step] at done
  split at done
  · next changed answer idle outcome =>
    split at done
    · cases done
    · next other =>
      cases done
      have same : s = { s with pending := none } := by rw [← idle]
      rw [same]
      cases changed with
      | none => exact sound.drop fun _ _ found => found
      | some st => exact sound.drop (RegOp.mutate_reserved (by simpa using other) outcome)
  · cases done
    exact sound
  · cases done

theorem Space.Sound.step {e : SpaceEvent} (sound : s.Sound) (steady : s.steady e) (done : s.step e = some s') :
    s'.Sound := by
  cases e with
  | tick elapsed =>
    cases done
    exact sound.tick elapsed
  | measure key bytes =>
    simp only [Space.step] at done
    split at done <;> cases done
    exact sound.measure key bytes
  | clock =>
    simp only [Space.step] at done
    split at done
    · cases done
    · next a pending =>
      split at done <;> cases done
      next unread => exact sound.clock pending unread steady
  | commit => exact sound.commit done
  | abort =>
    cases done
    exact sound.abort
  | call o c => exact sound.call done
  | write key bytes blocks =>
    simp only [Space.step] at done
    split at done
    · cases done
    · next claim here =>
      split at done
      · next allowed =>
        obtain ⟨live, fits, taken, apart⟩ := allowed
        cases done
        refine sound.write here live fits taken fun a pending => ?_
        have found : s.pending = some a := pending
        simpa [found] using apart
      · cases done
  | release blocks =>
    cases done
    exact sound.release blocks

theorem Space.Sound.run {events : List SpaceEvent} (sound : s.Sound) (timely : s.timely events)
    (ran : s.run events = some s') : s'.Sound := by
  induction events generalizing s with
  | nil =>
    cases ran
    exact sound
  | cons e rest ih =>
    obtain ⟨next, done, ran⟩ := Option.bind_eq_some_iff.mp ran
    obtain ⟨steady, later⟩ := Bool.and_eq_true_iff.mp timely
    rw [done] at later
    exact ih (sound.step steady done) later ran

def Space.start (status : Status) (registry : RegistryState) (now : Nat) : Space :=
  ⟨status, { registry with reserved := ∅ }, fun _ => 0, now, none⟩

theorem Space.sound_start {status : Status} (size : status.totalData * blockBytes < uint64)
    (registry : RegistryState) (now : Nat) : (start status registry now).Sound where
  size := size
  covered := Nat.zero_le _
  granted := Nat.zero_le _
  within key claim found := by simp [start] at found
  measured a pending := by cases pending

/-- At every moment the pool has room for what the live claims may still write, and the sum of the other keys' claims
that a `Reserve` would form does not wrap, if no claim lapses between the two readings of a `Reserve`. -/
theorem space_never_overcommitted (status : Status) (size : status.totalData * blockBytes < uint64)
    (registry : RegistryState) (now : Nat) (events : List SpaceEvent) (s : Space)
    (timely : (Space.start status registry now).timely events)
    (ran : (Space.start status registry now).run events = some s) :
    s.outstanding ≤ s.status.freeBytes ∧
      ∀ key time, heldByOthers64 key (RegistryState.dropLapsed key time s.registry.reserved) =
        RegistryState.heldByOthers key (RegistryState.dropLapsed key time s.registry.reserved) := by
  have sound : s.Sound := (Space.sound_start size registry now).run timely ran
  exact ⟨sound.covered, fun key time => heldByOthers64_eq (sound.held_fits key time)⟩

private def twoBuilds : List SpaceEvent :=
  [.measure "a" (2 * blockBytes), .clock, .commit, .measure "b" (2 * blockBytes), .write "a" blockBytes 1, .tick 7, .clock,
    .commit, .write "b" (2 * blockBytes) 2, .measure "c" 1, .clock, .commit]

theorem space_never_overcommitted_twoBuilds :
    ∃ s, (Space.start ⟨0, 4, .readWrite⟩ .fresh 0).run twoBuilds = some s ∧
      s.outstanding = blockBytes ∧ s.outstanding ≤ s.status.freeBytes := by
  have ends : ((Space.start ⟨0, 4, .readWrite⟩ .fresh 0).run twoBuilds).map Space.outstanding =
      some blockBytes := by decide +kernel
  obtain ⟨s, ran, left⟩ := Option.map_eq_some_iff.mp ends
  exact ⟨s, ran, left, (space_never_overcommitted _ (by decide) _ _ _ s (by decide +kernel) ran).1⟩

/-- The claim of `a` is written to after `b` has read the free space, and lapses before `b` reads the clock. -/
theorem space_overcommitted_between_readings :
    ∃ s, (Space.start ⟨0, 4, .readWrite⟩ .fresh 0).run [.measure "a" blockBytes, .clock, .commit, .tick reservationTTL,
        .measure "b" (4 * blockBytes), .write "a" blockBytes 1, .tick 1, .clock, .commit] = some s ∧
      s.status.freeBytes < s.outstanding := by
  have over_ : (((Space.start ⟨0, 4, .readWrite⟩ .fresh 0).run [.measure "a" blockBytes, .clock, .commit,
      .tick reservationTTL, .measure "b" (4 * blockBytes), .write "a" blockBytes 1, .tick 1, .clock, .commit]).map
        fun s => decide (s.status.freeBytes < s.outstanding)) = some true := by decide +kernel
  obtain ⟨s, ran, more⟩ := Option.map_eq_some_iff.mp over_
  exact ⟨s, ran, of_decide_eq_true more⟩

end KubeSwift.ThinPool
