import KubeSwift.Transfer.Credit

/-! # Who writes a tag

A snapshot writes its memory tag and, with its disks, tags made from it. Only the memory tags are compared before
the capture. -/

namespace KubeSwift.Transfer
open Program

variable (K : Site)

def SwiftSnapshot.registry (snap : SwiftSnapshot) : Option Location :=
  if snap.backend = .s3 then none else snap.status.location

def Location.base (l : Location) : String := l.repository ++ ":" ++ l.tag

def SwiftSnapshot.pushed (snap : SwiftSnapshot) : Bool := snap.status.oci.any (·.reference ≠ "")

def SwiftSnapshot.Live (snap : SwiftSnapshot) : Prop :=
  snap.backend ≠ .s3 ∧ snap.deletionTimestamp = false ∧ ¬ (snap.status.phase = .failed ∧ snap.pushed = false)

def Distinct (st : State) (snap : SwiftSnapshot) : Prop :=
  ∀ s ∈ st.snaps, s.uid ≠ snap.uid → ∀ l ∈ s.registry, ∀ l' ∈ snap.registry, l.base ≠ l'.base →
    ∀ t ∈ s.tags K, t ∉ snap.tags K

instance (st : State) (snap : SwiftSnapshot) : Decidable (Distinct K st snap) := by
  unfold Distinct
  infer_instance

def Op.Distinct (st : State) : Op → Prop
  | .updateStatus _ uid _ status => ∀ snap ∈ st.snaps, snap.uid = uid →
      Transfer.Distinct K st { snap with status := status }
  | _ => True

instance (st : State) (o : Op) : Decidable (o.Distinct K st) := by
  cases o <;> unfold Op.Distinct <;> infer_instance

def distinctMachine : Machine Unit State Op Op.Res Err :=
  engine.machine (fun _ st o _ => o.Distinct K st) (fun _ _ => True)

abbrev DistinctRuns (s : Loops Unit State Op Op.Res Err) : Prop :=
  LoopsReach (distinctMachine K) (transferSetting K) emptyNamespace s

def SwiftSnapshot.Active (snap : SwiftSnapshot) : Prop := snap.status.phase.started = true ∧ snap.Live

structure Sound (snap : SwiftSnapshot) : Prop where
  usable : ∀ l, snap.status.location = some l → l.repository ≠ ""
  located : snap.backend ≠ .s3 → snap.status.phase.started = true → snap.status.phase ≠ .failed →
    ∃ l, snap.status.location = some l
  recorded : snap.backend ≠ .s3 → ∀ o, snap.status.oci = some o → o.reference ≠ "" →
    ∃ l, snap.status.location = some l ∧ o.reference = l.base
  waiting : snap.status.phase.started = false → snap.status.oci = none

structure Held (apart : Prop) (st : State) : Prop where
  names : ∀ a ∈ st.snaps, ∀ b ∈ st.snaps, a.name = b.name → a.uid = b.uid
  uids : ∀ a ∈ st.snaps, ∀ b ∈ st.snaps, a.uid = b.uid → b = { a with deletionTimestamp := b.deletionTimestamp }
  known : ∀ a ∈ st.snaps, a.uid ∈ st.known
  sound : ∀ a ∈ st.snaps, Sound a
  writers : ∀ push ∈ st.pushes, push.1 ∈ st.known
  pushes : ∀ a ∈ st.snaps, a.backend ≠ .s3 → ∀ t, (a.uid, t) ∈ st.pushes →
    a.status.phase.started = true ∧ (∃ l, a.status.location = some l) ∧ t ∈ a.tags K
  single : ∀ a ∈ st.snaps, ∀ b ∈ st.snaps, a.Active → b.Active → ∀ l ∈ a.registry, ∀ l' ∈ b.registry,
    l.base = l'.base → a.uid = b.uid
  distinct : apart → ∀ a ∈ st.snaps, Distinct K st a

structure Moves (st st' : State) : Prop where
  known : ∀ uid ∈ st.known, uid ∈ st'.known
  pushes : st'.pushes = st.pushes
  snaps : ∀ s' ∈ st'.snaps,
    (∃ s ∈ st.snaps, ∃ deleted, s' = { s with deletionTimestamp := deleted } ∧
      (s.deletionTimestamp = true → deleted = true)) ∨
    (s'.uid ∉ st.known ∧ s'.status = ⟨.unset, none, [], none, none, []⟩)

structure Knows (snap : SwiftSnapshot) (st : State) : Prop where
  known : snap.uid ∈ st.known
  stored : ∀ s ∈ st.snaps, s.uid = snap.uid → s.backend = snap.backend ∧ s.includeDisk = snap.includeDisk
  begun : snap.status.phase.started = true → ∀ s ∈ st.snaps, s.uid = snap.uid →
    s.status.phase.started = true ∧ s.status.location = snap.status.location ∧ s.status.dataDisks = snap.status.dataDisks
  silent : snap.backend ≠ .s3 → snap.status.phase.started = false → ∀ t, (snap.uid, t) ∉ st.pushes
  renamed : ∀ s ∈ st.snaps, s.uid ≠ snap.uid → s.name = snap.name → s.status.phase.started = false

def Free (snap : SwiftSnapshot) (st : State) : Prop :=
  snap.backend ≠ .s3 → ∀ l, snap.status.location = some l → ∀ s ∈ st.snaps, s.uid ≠ snap.uid → s.Active →
    ∀ l' ∈ s.registry, l'.base ≠ l.base

structure Ready (snap : SwiftSnapshot) (claims : Prop) : Prop where
  sound : Sound snap
  unfailed : snap.status.phase ≠ .failed
  placed : claims → snap.backend ≠ .s3 → ∃ l, snap.status.location = some l

structure During (apart : Prop) (snap : SwiftSnapshot) (claims : Prop) (st : State) : Prop where
  held : Held K apart st
  knows : Knows snap st
  free : claims ∨ snap.status.phase.started = true → Free snap st

variable {K} {apart : Prop} {st st' st'' : State} {snap : SwiftSnapshot}

/-! ### The surroundings -/

theorem Moves.refl (st : State) : Moves st st :=
  ⟨fun _ => id, rfl, fun s here => .inl ⟨s, here, s.deletionTimestamp, rfl, id⟩⟩

theorem Moves.trans (first : Moves st st') (second : Moves st' st'') : Moves st st'' := by
  refine ⟨fun uid member => second.known uid (first.known uid member), second.pushes.trans first.pushes, ?_⟩
  intro s'' here
  rcases second.snaps s'' here with ⟨s', between, deleted', rfl, later⟩ | ⟨new, unset⟩
  · rcases first.snaps s' between with ⟨s, before, deleted, rfl, earlier⟩ | ⟨new, unset⟩
    · exact .inl ⟨s, before, deleted', rfl, later ∘ earlier⟩
    · exact .inr ⟨new, unset⟩
  · exact .inr ⟨fun old => new (first.known _ old), unset⟩

variable {s' : SwiftSnapshot}

theorem Moves.active (moves : Moves st st') (here : s' ∈ st'.snaps) (active : s'.Active) :
    ∃ s ∈ st.snaps, s.Active ∧ s.uid = s'.uid ∧ s.name = s'.name ∧ s.registry = s'.registry := by
  rcases moves.snaps s' here with ⟨s, before, deleted, rfl, later⟩ | ⟨-, unset⟩
  · obtain ⟨started, oci, live, unfailed⟩ := active
    refine ⟨s, before, ⟨started, oci, ?_, unfailed⟩, rfl, rfl, rfl⟩
    cases old : s.deletionTimestamp
    · rfl
    · exact (later old).symm.trans live
  · simp [SwiftSnapshot.Active, unset, Phase.started] at active

theorem Held.moves (held : Held K apart st) (moves : Moves st st')
    (names : ∀ a ∈ st'.snaps, ∀ b ∈ st'.snaps, a.name = b.name → a.uid = b.uid)
    (uids : ∀ a ∈ st'.snaps, ∀ b ∈ st'.snaps, a.uid = b.uid → b = { a with deletionTimestamp := b.deletionTimestamp })
    (known : ∀ a ∈ st'.snaps, a.uid ∈ st'.known) : Held K apart st' where
  names := names
  uids := uids
  known := known
  sound a' here := by
    rcases moves.snaps a' here with ⟨a, before, deleted, rfl, -⟩ | ⟨-, unset⟩
    · exact ⟨(held.sound a before).usable, (held.sound a before).located, (held.sound a before).recorded,
        (held.sound a before).waiting⟩
    · constructor <;> simp [unset, Phase.started]
  writers push member := moves.known _ (held.writers push (moves.pushes ▸ member))
  pushes a' here oci t member := by
    rw [moves.pushes] at member
    rcases moves.snaps a' here with ⟨a, before, deleted, rfl, -⟩ | ⟨new, -⟩
    · exact held.pushes a before oci t member
    · exact (new (held.writers _ member)).elim
  single a' hereA b' hereB activeA activeB l atA l' atB same := by
    obtain ⟨a, beforeA, liveA, uidA, -, registryA⟩ := moves.active hereA activeA
    obtain ⟨b, beforeB, liveB, uidB, -, registryB⟩ := moves.active hereB activeB
    rw [← uidA, ← uidB]
    exact held.single a beforeA b beforeB liveA liveB l (registryA ▸ atA) l' (registryB ▸ atB) same
  distinct holds a' hereA b' hereB other l atB l' atA := by
    have old : ∀ {s' : SwiftSnapshot} {l : Location}, s' ∈ st'.snaps → l ∈ s'.registry →
        ∃ s ∈ st.snaps, ∃ deleted, s' = { s with deletionTimestamp := deleted } := by
      intro s' l here at_
      rcases moves.snaps s' here with ⟨s, before, deleted, same, -⟩ | ⟨-, unset⟩
      · exact ⟨s, before, deleted, same⟩
      · simp [SwiftSnapshot.registry, unset] at at_
    obtain ⟨a, beforeA, _, rfl⟩ := old hereA atA
    obtain ⟨b, beforeB, _, rfl⟩ := old hereB atB
    exact held.distinct holds a beforeA b beforeB other l atB l' atA

theorem Knows.moves (knows : Knows snap st) (moves : Moves st st') : Knows snap st' := by
  have old : ∀ s' ∈ st'.snaps, s'.uid = snap.uid → ∃ s ∈ st.snaps, ∃ deleted, s' = { s with deletionTimestamp := deleted } := by
    intro s' here same
    rcases moves.snaps s' here with ⟨s, before, deleted, same, -⟩ | ⟨new, -⟩
    · exact ⟨s, before, deleted, same⟩
    · exact (new (same ▸ knows.known)).elim
  refine ⟨moves.known _ knows.known, ?_, ?_, moves.pushes ▸ knows.silent, ?_⟩
  · intro s' here same
    obtain ⟨s, before, _, rfl⟩ := old s' here same
    exact knows.stored s before same
  · intro begun s' here same
    obtain ⟨s, before, _, rfl⟩ := old s' here same
    exact knows.begun begun s before same
  · intro s' here other name
    rcases moves.snaps s' here with ⟨s, before, _, rfl, -⟩ | ⟨-, unset⟩
    · exact knows.renamed s before other name
    · simp [unset, Phase.started]

theorem Free.moves (free : Free snap st) (moves : Moves st st') : Free snap st' := by
  intro oci l at_ s' here other active l' at'
  obtain ⟨s, before, live, uid, -, registry⟩ := moves.active here active
  exact free oci l at_ s before (uid ▸ other) live l' (registry ▸ at')

theorem mem_of_event {e : Event} (here : s' ∈ (e.apply st).snaps) :
    (∃ s ∈ st.snaps, ∃ deleted, s' = { s with deletionTimestamp := deleted } ∧
      (s.deletionTimestamp = true → deleted = true)) ∨
    (∃ name uid backend includeDisk, e = .create name uid backend includeDisk ∧
      s' = newSnapshot st name uid backend includeDisk ∧ uid ∉ st.known ∧ st.snapshot? name = none) := by
  cases e with
  | create name uid backend includeDisk =>
    simp only [Event.apply] at here
    split at here
    · exact .inl ⟨s', here, s'.deletionTimestamp, rfl, id⟩
    · next free =>
      rw [not_or, Option.isSome_iff_ne_none, not_not] at free
      rcases List.mem_cons.mp here with new | old
      · exact .inr ⟨name, uid, backend, includeDisk, rfl, new, free.2, free.1⟩
      · exact .inl ⟨s', old, s'.deletionTimestamp, rfl, id⟩
  | delete name =>
    obtain ⟨s, before, rfl⟩ := List.mem_map.mp here
    refine .inl ⟨s, before, ?_⟩
    split
    · exact ⟨true, rfl, fun _ => rfl⟩
    · exact ⟨s.deletionTimestamp, rfl, id⟩
  | gone name => exact .inl ⟨s', (List.mem_filter.mp here).1, s'.deletionTimestamp, rfl, id⟩
  | tick seconds | finishJob name ok report | removeJob name => exact .inl ⟨s', here, s'.deletionTimestamp, rfl, id⟩

theorem known_event (e : Event) : ∀ uid ∈ st.known, uid ∈ (e.apply st).known := by
  intro uid member
  cases e with
  | create name uid' backend includeDisk =>
    simp only [Event.apply]
    split
    · exact member
    · exact List.mem_cons_of_mem _ member
  | _ => exact member

theorem moves_event (e : Event) : Moves st (e.apply st) := by
  refine ⟨known_event e, ?_, ?_⟩
  · cases e with
    | create name uid backend includeDisk =>
      simp only [Event.apply]
      split <;> rfl
    | _ => rfl
  · intro s' here
    rcases mem_of_event here with old | ⟨name, uid, backend, includeDisk, -, rfl, new, -⟩
    · exact .inl old
    · exact .inr ⟨new, rfl⟩

theorem absent_of_snapshot? {name : String} (none : st.snapshot? name = none) : ∀ s ∈ st.snaps, s.name ≠ name := by
  intro s here
  simpa using List.find?_eq_none.mp none s here

theorem Held.event (held : Held K apart st) (e : Event) : Held K apart (e.apply st) := by
  refine held.moves (moves_event e) ?_ ?_ ?_
  · intro a' hereA b' hereB name
    rcases mem_of_event hereA with ⟨a, beforeA, _, rfl, -⟩ | ⟨_, _, _, _, made, rfl, -, none⟩ <;>
    rcases mem_of_event hereB with ⟨b, beforeB, _, rfl, -⟩ | ⟨_, _, _, _, made', rfl, -, none'⟩
    · exact held.names a beforeA b beforeB name
    · exact (absent_of_snapshot? none' a beforeA name).elim
    · exact (absent_of_snapshot? none b beforeB name.symm).elim
    · cases made.symm.trans made'
      rfl
  · intro a' hereA b' hereB uid
    rcases mem_of_event hereA with ⟨a, beforeA, _, rfl, -⟩ | ⟨_, _, _, _, made, rfl, new, -⟩ <;>
    rcases mem_of_event hereB with ⟨b, beforeB, _, rfl, -⟩ | ⟨_, _, _, _, made', rfl, new', -⟩
    · rw [held.uids a beforeA b beforeB uid]
    · exact (new' (uid.subst (held.known a beforeA))).elim
    · exact (new (uid.symm.subst (held.known b beforeB))).elim
    · cases made.symm.trans made'
      rfl
  · intro a' here
    rcases mem_of_event here with ⟨a, before, _, rfl, -⟩ | ⟨_, _, _, _, rfl, rfl, new, none⟩
    · exact known_event e _ (held.known a before)
    · simp [Event.apply, new, none, newSnapshot]

/-! ### One pass -/

variable {l : Location}

variable (located : snap.status.location = some l)
include located

theorem snapshotOCI_located (usable : l.repository ≠ "") :
    K.snapshotOCI snap = some l := by
  simp [Site.snapshotOCI, located, usable]

theorem reference_located (usable : l.repository ≠ "") :
    K.reference snap (K.ociTag snap) = l.base := by
  simp [Site.reference, Site.ociTag, Site.ociConn, snapshotOCI_located located usable, Location.base]

variable {s : SwiftSnapshot}

theorem tags_congr (usable : l.repository ≠ "")
    (location : s.status.location = snap.status.location) (full : s.includeDisk = snap.includeDisk)
    (disks : s.status.dataDisks = snap.status.dataDisks) : s.tags K = snap.tags K := by
  simp only [SwiftSnapshot.tags, Site.reference, Site.ociDiskTag, Site.ociDataDiskTag, Site.ociTag, Site.ociConn,
    snapshotOCI_located located usable, snapshotOCI_located (location.trans located) usable, full, disks]

omit located

structure Fits (K : Site) (snap : SwiftSnapshot) (claims : Prop) (s : Status) : Prop where
  usable : ∀ l, s.location = some l → l.repository ≠ ""
  begun : snap.status.phase.started = true →
    s.phase.started = true ∧ s.location = snap.status.location ∧ s.dataDisks = snap.status.dataDisks
  reference : snap.status.phase.started = true → snap.backend ≠ .s3 → ∀ o, s.oci = some o → o.reference ≠ "" →
    o.reference = K.reference snap (K.ociTag snap)
  waiting : snap.status.phase.started = false →
    s.oci = none ∧ (s.phase.started = true → s.phase ≠ .failed → claims ∧ s.location = snap.status.location)

variable {claims : Prop}

theorem Edit.fits {ok : String → Prop} {s : Status} (sound : Sound snap) (edit : Edit K snap ok claims s) :
    Fits K snap claims s := by
  induction edit with
  | held =>
    refine ⟨sound.usable, fun begun => ⟨begun, rfl, rfl⟩, ?_, ?_⟩
    · intro begun oci o here written
      obtain ⟨l, located, same⟩ := sound.recorded oci o here written
      exact same.trans (reference_located located (sound.usable l located)).symm
    · intro unstarted
      refine ⟨sound.waiting unstarted, ?_⟩
      intro started
      cases unstarted.symm.trans started
  | waits unstarted _ ih => exact ⟨ih.usable, by simp [unstarted], by simp [unstarted], fun _ => ⟨(ih.waiting unstarted).1, nofun⟩⟩
  | located unstarted usable _ ih =>
    refine ⟨?_, by simp [unstarted], by simp [unstarted], fun _ => ⟨(ih.waiting unstarted).1, nofun⟩⟩
    intro l same
    cases same
    exact usable
  | disks unstarted _ ih => exact ⟨ih.usable, by simp [unstarted], by simp [unstarted], ih.waiting⟩
  | captures unstarted claimed same _ ih =>
    exact ⟨ih.usable, by simp [unstarted], by simp [unstarted],
      fun _ => ⟨(ih.waiting unstarted).1, fun _ _ => ⟨claimed, same⟩⟩⟩
  | fails _ ih | failedBy _ _ ih =>
    exact ⟨ih.usable, fun begun => ⟨rfl, (ih.begun begun).2⟩, ih.reference,
      fun unstarted => ⟨(ih.waiting unstarted).1, fun _ unfailed => (unfailed rfl).elim⟩⟩
  | uploads _ begun ih | uploaded begun _ _ ih =>
    exact ⟨ih.usable, fun _ => ⟨rfl, (ih.begun begun).2⟩, ih.reference, by simp [begun]⟩
  | stamped begun _ _ ih =>
    refine ⟨ih.usable, ih.begun, ?_, by simp [begun]⟩
    rintro - oci o same written
    cases same
    cases old : (_ : Status).oci with
    | none => simp [old] at written
    | some o => simpa [old] using ih.reference begun oci o old (by simpa [old] using written)
  | pushed begun reference _ _ ih =>
    refine ⟨ih.usable, fun _ => ⟨rfl, (ih.begun begun).2⟩, ?_, by simp [begun]⟩
    rintro - - o same -
    cases same
    exact reference

section Steps

variable {claims : Prop} {status : Status}

theorem Fits.sound (fits : Fits K snap claims status) (ready : Ready snap claims)
    (backend : s.backend = snap.backend) : Sound { s with status := status } := by
  have sound := ready.sound
  cases started : snap.status.phase.started with
  | true =>
    obtain ⟨begun, location, -⟩ := fits.begun started
    refine ⟨fits.usable, ?_, ?_, ?_⟩
    · intro oci _ _
      obtain ⟨l, located⟩ := sound.located (backend ▸ oci) started ready.unfailed
      exact ⟨l, location.trans located⟩
    · intro oci o here written
      obtain ⟨l, located⟩ := sound.located (backend ▸ oci) started ready.unfailed
      refine ⟨l, location.trans located, ?_⟩
      exact (fits.reference started (backend ▸ oci) o here written).trans
        (reference_located located (sound.usable l located))
    · intro unstarted
      cases begun.symm.trans unstarted
  | false =>
    obtain ⟨none, captures⟩ := fits.waiting started
    refine ⟨fits.usable, ?_, ?_, fun _ => none⟩
    · intro oci begun unfailed
      obtain ⟨claimed, location⟩ := captures begun unfailed
      obtain ⟨l, located⟩ := ready.placed claimed (backend ▸ oci)
      exact ⟨l, location.trans located⟩
    · intro _ o here
      cases none.symm.trans here

theorem Fits.active (fits : Fits K snap claims status) (active : SwiftSnapshot.Active { s with status := status }) :
    (claims ∨ snap.status.phase.started = true) ∧ status.location = snap.status.location := by
  obtain ⟨begun, -, -, unfailed⟩ := active
  cases started : snap.status.phase.started with
  | true => exact ⟨.inr rfl, (fits.begun started).2.1⟩
  | false =>
    obtain ⟨none, captures⟩ := fits.waiting started
    have going : status.phase ≠ .failed := by
      intro failed
      exact unfailed ⟨failed, by simp [SwiftSnapshot.pushed, none]⟩
    exact ⟨.inl (captures begun going).1, (captures begun going).2⟩

theorem mem_written {uid : String} (here : s' ∈ (st.setStatus uid status).snaps) :
    ∃ s ∈ st.snaps, s.uid = uid ∧ s' = { s with status := status, version := s.version + 1 } ∨ s.uid ≠ uid ∧ s = s' := by
  obtain ⟨s, before, rfl⟩ := List.mem_map.mp here
  refine ⟨s, before, ?_⟩
  split
  · next same => exact .inl ⟨same, rfl⟩
  · next other => exact .inr ⟨other, rfl⟩

theorem During.setStatus (going : During K apart snap claims st) (ready : Ready snap claims) (fits : Fits K snap claims status)
    (distinct : apart → ∀ s ∈ st.snaps, s.uid = snap.uid → Distinct K st { s with status := status }) :
    Held K apart (st.setStatus snap.uid status) where
  names a' hereA b' hereB name := by
    obtain ⟨a, beforeA, ⟨-, rfl⟩ | ⟨-, rfl⟩⟩ := mem_written hereA <;>
    obtain ⟨b, beforeB, ⟨-, rfl⟩ | ⟨-, rfl⟩⟩ := mem_written hereB <;>
    exact going.held.names a beforeA b beforeB name
  uids a' hereA b' hereB uid := by
    obtain ⟨a, beforeA, ⟨sameA, rfl⟩ | ⟨otherA, rfl⟩⟩ := mem_written hereA <;>
    obtain ⟨b, beforeB, ⟨sameB, rfl⟩ | ⟨otherB, rfl⟩⟩ := mem_written hereB
    · rw [going.held.uids a beforeA b beforeB uid]
    · exact (otherB (uid.symm.trans sameA)).elim
    · exact (otherA (uid.trans sameB)).elim
    · exact going.held.uids a beforeA b beforeB uid
  known a' here := by
    obtain ⟨a, before, ⟨-, rfl⟩ | ⟨-, rfl⟩⟩ := mem_written here <;> exact going.held.known a before
  sound a' here := by
    obtain ⟨a, before, ⟨same, rfl⟩ | ⟨-, rfl⟩⟩ := mem_written here
    · exact fits.sound (s := { a with version := a.version + 1 }) ready (going.knows.stored a before same).1
    · exact going.held.sound a before
  writers := going.held.writers
  pushes a' here oci t member := by
    obtain ⟨a, before, ⟨same, rfl⟩ | ⟨-, rfl⟩⟩ := mem_written here
    · cases started : snap.status.phase.started with
      | false => exact (going.knows.silent ((going.knows.stored a before same).1 ▸ oci) started t (same ▸ member)).elim
      | true =>
        obtain ⟨-, location, disks⟩ := going.knows.begun started a before same
        obtain ⟨begun, location', disks'⟩ := fits.begun started
        obtain ⟨-, ⟨l, located⟩, tagged⟩ := going.held.pushes a before oci t member
        have kept : status.location = a.status.location := location'.trans location.symm
        refine ⟨begun, ⟨l, kept.trans located⟩, ?_⟩
        exact tags_congr (s := { a with status := status, version := a.version + 1 }) located
          ((going.held.sound a before).usable l located) kept rfl (disks'.trans disks.symm) ▸ tagged
    · exact going.held.pushes a before oci t member
  single a' hereA b' hereB activeA activeB l atA l' atB same := by
    have alone : ∀ {s b : SwiftSnapshot} {l l' : Location}, s.uid = snap.uid → s ∈ st.snaps →
        SwiftSnapshot.Active { s with status := status } → b ∈ st.snaps → b.uid ≠ snap.uid → b.Active →
        l ∈ SwiftSnapshot.registry { s with status := status } → l' ∈ b.registry → l'.base ≠ l.base := by
      intro s b l l' mine before active here other also at_ at'
      obtain ⟨claimed, location⟩ := fits.active active
      have oci : s.backend ≠ .s3 := active.2.1
      refine going.free claimed ((going.knows.stored s before mine).1 ▸ oci) l (location.symm.trans ?_) b here other also l' at'
      simpa [SwiftSnapshot.registry, oci] using at_
    obtain ⟨a, beforeA, ⟨sameA, rfl⟩ | ⟨otherA, rfl⟩⟩ := mem_written hereA <;>
    obtain ⟨b, beforeB, ⟨sameB, rfl⟩ | ⟨otherB, rfl⟩⟩ := mem_written hereB
    · exact sameA.trans sameB.symm
    · exact (alone sameA beforeA activeA beforeB otherB activeB atA atB same.symm).elim
    · exact (alone sameB beforeB activeB beforeA otherA activeA atB atA same).elim
    · exact going.held.single _ beforeA _ beforeB activeA activeB l atA l' atB same
  distinct holds a' hereA b' hereB other l atB l' atA apart := by
    obtain ⟨a, beforeA, ⟨sameA, rfl⟩ | ⟨otherA, rfl⟩⟩ := mem_written hereA <;>
    obtain ⟨b, beforeB, ⟨sameB, rfl⟩ | ⟨otherB, rfl⟩⟩ := mem_written hereB
    · exact (other (sameB.trans sameA.symm)).elim
    · exact distinct holds a beforeA sameA _ beforeB other l atB l' atA apart
    · intro t taggedB taggedA
      exact distinct holds b beforeB sameB _ beforeA other.symm l' atA l atB apart.symm t taggedA taggedB
    · exact going.held.distinct holds _ beforeA _ beforeB other l atB l' atA apart

theorem Knows.setStatus (knows : Knows snap st) (fits : Fits K snap claims status) :
    Knows snap (st.setStatus snap.uid status) := by
  refine ⟨knows.known, ?_, ?_, knows.silent, ?_⟩
  · intro s' here same
    obtain ⟨s, before, ⟨-, rfl⟩ | ⟨-, rfl⟩⟩ := mem_written here <;> exact knows.stored s before same
  · intro started s' here same
    obtain ⟨s, before, ⟨-, rfl⟩ | ⟨other, rfl⟩⟩ := mem_written here
    · exact fits.begun started
    · exact (other same).elim
  · intro s' here other name
    obtain ⟨s, before, ⟨same, rfl⟩ | ⟨-, rfl⟩⟩ := mem_written here
    · exact (other same).elim
    · exact knows.renamed _ before other name

theorem Free.setStatus (free : Free snap st) : Free snap (st.setStatus snap.uid status) := by
  intro oci l at_ s' here other active
  obtain ⟨s, before, ⟨same, rfl⟩ | ⟨-, rfl⟩⟩ := mem_written here
  · exact (other same).elim
  · exact free oci l at_ s before other active

theorem During.createJob {name target : String} (going : During K apart snap claims st) (ready : Ready snap claims)
    (started : snap.status.phase.started = true) (written : snap.backend ≠ .s3 → target ∈ snap.tags K) :
    Held K apart { st with
      jobs := ⟨name, snap.uid, target, .running, none⟩ :: st.jobs, pushes := (snap.uid, target) :: st.pushes } := by
  refine ⟨going.held.names, going.held.uids, going.held.known, going.held.sound, ?_, ?_, going.held.single, going.held.distinct⟩
  · intro push member
    rcases List.mem_cons.mp member with rfl | old
    · exact going.knows.known
    · exact going.held.writers push old
  · intro a here oci t member
    rcases List.mem_cons.mp member with new | old
    · obtain ⟨same, rfl⟩ := Prod.mk.inj new
      obtain ⟨backend, full⟩ := going.knows.stored a here same
      obtain ⟨begun, location, disks⟩ := going.knows.begun started a here same
      obtain ⟨l, located⟩ := ready.sound.located (backend ▸ oci) started ready.unfailed
      refine ⟨begun, ⟨l, location.trans located⟩, ?_⟩
      rw [tags_congr located (ready.sound.usable l located) location full disks]
      exact written (backend ▸ oci)
    · exact going.held.pushes a here oci t old

end Steps

theorem perform_during {c : Choice} {o : Op} {a : o.Res} (going : During K apart snap claims st) (ready : Ready snap claims)
    (own : o.Own K snap (fun _ => True) claims) (distinct : apart → o.Distinct K st) (result : st.perform c o = .ok (st', a)) :
    During K apart snap claims st' := by
  cases o with
  | createJob name owner target =>
    obtain ⟨rfl, -, started, written⟩ := own
    simp only [State.perform] at result
    split at result <;> cases result
    refine ⟨going.createJob ready started written, ?_, going.free⟩
    refine ⟨going.knows.known, going.knows.stored, going.knows.begun, ?_, going.knows.renamed⟩
    intro _ unstarted
    cases started.symm.trans unstarted
  | updateStatus name uid version status =>
    obtain ⟨rfl, edit⟩ := own
    have fits := edit.fits ready.sound
    simp only [State.perform] at result
    split at result
    · cases result
    · split at result <;> cases result
      exact ⟨going.setStatus ready fits distinct, going.knows.setStatus fits, fun may => (going.free may).setStatus⟩
  | _ =>
    cases result
    exact going

/-- As `distinctMachine` where the tags are `apart`, and with no condition otherwise. -/
def taggedMachine (K : Site) (apart : Prop) : Machine Unit State Op Op.Res Err :=
  engine.machine (fun _ st o _ => apart → o.Distinct K st) (fun _ _ => True)

def tagging (K : Site) (apart : Prop) : Spec Unit State Op where
  inv := Held K apart
  rely _ := Moves
  guar _ _ _ := True
  pre _ _ _ := True

theorem wp_during {prog : Act Unit} (owns : Owns K snap (fun _ => True) claims prog fun _ => True)
    (ready : Ready snap claims) (going : During K apart snap claims st) :
    wp (taggedMachine K apart) (tagging K apart) () prog (fun _ _ => True) st := by
  refine wp_mono (fun _ _ _ => trivial) (wp_yields (P := During K apart snap claims) ?_ owns going)
  intro o st own going
  refine ⟨trivial, ?_⟩
  rintro r st' ⟨c, distinct, result⟩
  have honest : Honest (fun _ => True) (snap.jobNames K) o r := by
    unfold Honest
    split <;> simp
  have after : During K apart snap claims st' := by
    rcases effect_of_cases (withFault_cases (Option.some.inj result)) with rfl | ⟨a, done⟩
    · exact going
    · exact perform_during going ready own distinct done
  exact ⟨honest, after.held, trivial, fun st'' moves held =>
    ⟨held, after.knows.moves moves, fun may => (after.free may).moves moves⟩⟩

theorem wp_read {o : Op} {a : o.Res} {Q : Except Err o.Res → State → Prop} (reads : ∀ c, st.perform c o = .ok (st, a))
    (held : Held K apart st) (ok : ∀ st', Moves st st' → Held K apart st' → Q (.ok a) st') (failed : ∀ e st', Q (.error e) st') :
    wp (taggedMachine K apart) (tagging K apart) () (issue o) Q st := by
  refine (wp_call _ _ st).mpr ⟨trivial, ?_⟩
  rintro r st' ⟨c, -, result⟩
  rcases withFault_cases (Option.some.inj result) with ⟨a, rfl, done⟩ | ⟨e, rfl, rfl | ⟨a, done⟩⟩
  · cases (reads c).symm.trans done
    exact ⟨held, trivial, ok⟩
  · exact ⟨held, trivial, fun st'' _ _ => failed e st''⟩
  · cases (reads c).symm.trans done
    exact ⟨held, trivial, fun st'' _ _ => failed e st''⟩

theorem ociReference_eq (oci : snap.backend ≠ .s3) (sound : Sound snap) (located : snap.status.location = some l) :
    K.ociReference snap = l.base := by
  have registry : Site.ociReference.ofRegistry K snap = l.base := by
    simp [Site.ociReference.ofRegistry, snapshotOCI_located located (sound.usable l located), Location.base]
  unfold Site.ociReference
  split
  · next s3 => exact (oci s3).elim
  · split
    · next o here =>
      split
      · next written =>
        obtain ⟨l', located', same⟩ := sound.recorded oci o here written
        cases located.symm.trans located'
        exact same
      · exact registry
    · exact registry

variable (held : Held K apart st)
include held

theorem free_of_unconflicted (knows : Knows snap st) (sound : Sound snap)
    (clear : (ociReferenceHolders K snap st.snaps).any (fun h =>
      (h.status.phase ≠ .unset && h.status.phase ≠ .pending) || (h.creationTimestamp < snap.creationTimestamp ||
        (h.creationTimestamp = snap.creationTimestamp && h.name < snap.name))) = false) : Free snap st := by
  intro oci l located s here other active l' at' same
  have started := active.1
  obtain ⟨oci', live, unfailed⟩ := active.2
  have at_ : s.status.location = some l' := by simpa [SwiftSnapshot.registry, oci'] using at'
  have name : s.name ≠ snap.name := by
    intro same
    cases started.symm.trans (knows.renamed s here other same)
  have reference : K.ociReference s = K.ociReference snap :=
    (ociReference_eq oci' (held.sound s here) at_).trans (same.trans (ociReference_eq oci sound located).symm)
  have holder : s ∈ ociReferenceHolders K snap st.snaps := by
    refine List.mem_filter.mpr ⟨here, ?_⟩
    simp only [SwiftSnapshot.pushed] at unfailed
    simp [name, live, reference]
    exact not_or_of_imp (by simpa using unfailed)
  have begun : s.status.phase ≠ .unset ∧ s.status.phase ≠ .pending := by
    cases phase : s.status.phase <;> simp_all [Phase.started]
  exact Bool.false_ne_true (clear.symm.trans (List.any_eq_true.mpr ⟨s, holder, by simp [begun]⟩))

theorem wp_tagged_handlePending (unstarted : snap.status.phase.started = false)
    (valid : checkBackendDestination snap.backend = true) (knows : Knows snap st) (sound : Sound snap) :
    wp (taggedMachine K apart) (tagging K apart) () (handlePending K snap snap.status) (fun _ _ => True) st := by
  have unfailed : snap.status.phase ≠ .failed := by
    intro failed
    simp [failed, Phase.started] at unstarted
  have idle : ∀ {st}, Held K apart st → Knows snap st → During K apart snap False st :=
    fun held knows => ⟨held, knows, by simp [unstarted]⟩
  have waits : Ready snap False := ⟨sound, unfailed, False.elim⟩
  unfold handlePending
  split
  · next unset =>
    exact wp_during (Prog.yields_seq (owns_resolveLocation valid unset.2) fun _ usable =>
      owns_recordLocation unstarted usable) waits (idle held knows)
  · next placed =>
    have ready : Ready snap True := by
      refine ⟨sound, unfailed, ?_⟩
      intro _ oci
      exact Option.ne_none_iff_exists'.mp fun none => placed ⟨oci, none⟩
    rw [wp_bind]
    unfold ociTagConflict
    split
    · next none =>
      refine wp_during (owns_handlePendingLocal unstarted trivial) ready ⟨held, knows, ?_⟩
      rintro - oci l located
      rw [ociReference_eq oci sound located] at none
      simp [Location.base] at none
    · rw [wp_bind]
      refine wp_read (fun _ => rfl) held ?_ fun _ _ => trivial
      intro st' moves held'
      rw [onOk_ok, wp_pure, onOk_ok]
      have knows' := knows.moves moves
      split
      · exact wp_during (owns_persist rfl (.fails .held)) waits (idle held' knows')
      · next clear =>
        have free := (free_of_unconflicted held knows sound (by simpa using clear)).moves moves
        exact wp_during (owns_handlePendingLocal unstarted trivial) ready ⟨held', knows', fun _ => free⟩

theorem Held.knows (here : snap ∈ st.snaps) : Knows snap st := by
  refine ⟨held.known snap here, ?_, ?_, ?_, ?_⟩
  · intro s there same
    rw [held.uids snap here s there same.symm]
    exact ⟨rfl, rfl⟩
  · intro started s there same
    rw [held.uids snap here s there same.symm]
    exact ⟨started, rfl, rfl⟩
  · intro oci unstarted t member
    cases unstarted.symm.trans (held.pushes snap here oci t member).1
  · intro s there other name
    exact (other (held.names s there snap here name)).elim

theorem Held.free (here : snap ∈ st.snaps) (active : snap.status.phase.started = true ∧
    snap.deletionTimestamp = false ∧ snap.status.phase ≠ .failed) : Free snap st := by
  intro oci l located s there other also l' at' same
  have live : snap.Active := ⟨active.1, oci, active.2.1, fun failed => active.2.2 failed.1⟩
  exact other (held.single s there snap here also live l' at' l (by simp [SwiftSnapshot.registry, oci, located]) same)

theorem wp_tagged_reconcile (name : String) :
    wp (taggedMachine K apart) (tagging K apart) () (reconcile K name) (fun _ _ => True) st := by
  unfold reconcile
  rw [wp_bind]
  refine wp_read (fun _ => rfl) held ?_ fun _ _ => trivial
  intro st' moves held'
  rw [onOk_ok]
  cases found : st.snapshot? name with
  | none => trivial
  | some snap =>
    have here : snap ∈ st.snaps := List.mem_of_find?_eq_some found
    have sound := held.sound snap here
    dsimp only
    split
    · trivial
    · next undeleted =>
      have live : snap.deletionTimestamp = false := by simpa using undeleted
      have knows := (held.knows here).moves moves
      split
      · trivial
      · trivial
      · next ended failed =>
        have begun : snap.status.phase.started = true → During K apart snap False st' := by
          intro started
          refine ⟨held', knows, fun _ => Free.moves ?_ moves⟩
          exact held.free here ⟨started, live, failed⟩
        have ready : Ready snap False := ⟨sound, failed, False.elim⟩
        split
        · refine wp_during (owns_persist rfl (.fails .held)) ready ?_
          cases started : snap.status.phase.started with
          | true => exact begun started
          | false => exact ⟨held', knows, by simp [started]⟩
        · next invalid =>
          split
          · next capturing =>
            have started : snap.status.phase.started = true := by simp [capturing, Phase.started]
            exact wp_during (owns_handleCapturing started) ready (begun started)
          · next uploading =>
            have started : snap.status.phase.started = true := by simp [uploading, Phase.started]
            exact wp_during (owns_handleUploading started) ready (begun started)
          · next capturing uploading =>
            refine wp_tagged_handlePending held' ?_ (by simpa using invalid) knows sound
            cases phase : snap.status.phase <;> simp_all [Phase.started]

omit held

theorem tagging_suits : Suits (taggedMachine K apart) (tagging K apart) (transferSetting K) where
  refl _ := Moves.refl
  trans _ _ _ _ := Moves.trans
  env _ _ held moves := by
    obtain ⟨e, rfl⟩ := moves
    exact ⟨held.event e, fun _ => moves_event e⟩
  starts _ _ _ offer held := by
    obtain ⟨name, rfl⟩ := offer
    exact wp_tagged_reconcile held name

/-- Where the tags of two snapshots differ as their memory tags do, no two live snapshots ever wrote one tag. -/
theorem tags_written_once (K : Site) {s : Loops Unit State Op Op.Res Err} (runs : DistinctRuns K s) :
    ∀ a ∈ s.world.snaps, ∀ b ∈ s.world.snaps, a.uid ≠ b.uid → a.Live → b.Live →
      ∀ t, (a.uid, t) ∈ s.world.pushes → (b.uid, t) ∉ s.world.pushes := by
  have sub : (distinctMachine K).Sub (taggedMachine K True) :=
    ⟨fun _ _ _ _ _ ⟨c, distinct, result⟩ => ⟨c, fun _ => distinct, result⟩, fun _ _ _ => id⟩
  have held : Held K True s.world :=
    (loopsSound_reach (tagging_suits.sub sub ⟨fun _ _ => id, fun _ _ => id, fun _ _ => id⟩)
      (by constructor <;> simp [emptyNamespace]) runs).inv
  intro a hereA b hereB other liveA liveB t pushedA pushedB
  obtain ⟨startedA, ⟨l, locatedA⟩, taggedA⟩ := held.pushes a hereA liveA.1 t pushedA
  obtain ⟨startedB, ⟨l', locatedB⟩, taggedB⟩ := held.pushes b hereB liveB.1 t pushedB
  have atA : l ∈ a.registry := by simp [SwiftSnapshot.registry, liveA.1, locatedA]
  have atB : l' ∈ b.registry := by simp [SwiftSnapshot.registry, liveB.1, locatedB]
  by_cases same : l.base = l'.base
  · exact other (held.single a hereA b hereB ⟨startedA, liveA⟩ ⟨startedB, liveB⟩ l atA l' atB same)
  · exact held.distinct trivial b hereB a hereA other l atA l' atB same t taggedA taggedB

instance (snap : SwiftSnapshot) : Decidable snap.Live := by
  unfold SwiftSnapshot.Live
  infer_instance

def writesDisks (name uid tag : String) : TransferMoves :=
  [.env (.create name uid (fullState tag) true)] ++ capturesOCI name [] ++ passOf name [{}, {}, {}, {}, {}, {}] ++
    [.env (.tick 1)]

theorem tags_written_once_apart :
    ∃ s : Loops Unit State Op Op.Res Err, DistinctRuns smallSite s ∧
      ∃ a ∈ s.world.snaps, ∃ b ∈ s.world.snaps, a.uid ≠ b.uid ∧ a.Live ∧ b.Live ∧
        (a.uid, "registry:x-disk") ∈ s.world.pushes ∧ (b.uid, "registry:y-disk") ∈ s.world.pushes ∧
        ∀ t, (a.uid, t) ∈ s.world.pushes → (b.uid, t) ∉ s.world.pushes := by
  have played : ∃ s : Loops Unit State Op Op.Res Err, DistinctRuns smallSite s ∧
      ∃ a ∈ s.world.snaps, ∃ b ∈ s.world.snaps, a.uid ≠ b.uid ∧ a.Live ∧ b.Live ∧
        (a.uid, "registry:x-disk") ∈ s.world.pushes ∧ (b.uid, "registry:y-disk") ∈ s.world.pushes :=
    exists_of_play (checked_fits (fun st o _ => decide (o.Distinct smallSite st)) fun _ _ _ => of_decide_eq_true)
      (writesDisks "a" "1" "x" ++ writesDisks "b" "2" "y") (by decide +kernel)
  obtain ⟨s, runs, a, hereA, b, hereB, other, liveA, liveB, pushedA, pushedB⟩ := played
  exact ⟨s, runs, a, hereA, b, hereB, other, liveA, liveB, pushedA, pushedB,
    tags_written_once smallSite runs a hereA b hereB other liveA liveB⟩

/-- The memory tag of the one is the disk tag of the other. -/
theorem tags_written_once_unmet :
    ∃ s : Loops Unit State Op Op.Res Err, TransferRuns smallSite s ∧
      ∃ a ∈ s.world.snaps, ∃ b ∈ s.world.snaps, a.creationTimestamp ≠ b.creationTimestamp ∧ a.uid ≠ b.uid ∧
        a.Live ∧ b.Live ∧ (a.uid, "registry:x-disk") ∈ s.world.pushes ∧ (b.uid, "registry:x-disk") ∈ s.world.pushes := by
  exact exists_of_play (checked_fits (fun _ _ _ => true) fun _ _ _ _ => trivial)
    (writesDisks "a" "1" "x" ++ writesDisks "b" "2" "x-disk") (by decide +kernel)

/-- No two snapshots that are under way or done have one destination. -/
theorem destinations_held_once (K : Site) {s : Loops Unit State Op Op.Res Err} (runs : TransferRuns K s) :
    ∀ a ∈ s.world.snaps, ∀ b ∈ s.world.snaps, a.Active → b.Active → ∀ l ∈ a.registry, ∀ l' ∈ b.registry,
      l.base = l'.base → a.uid = b.uid := by
  have sub : (engine.machine (fun _ _ _ _ => True) fun _ _ => True).Sub (taggedMachine K False) :=
    ⟨fun _ _ _ _ _ ⟨c, _, result⟩ => ⟨c, False.elim, result⟩, fun _ _ _ => id⟩
  exact (loopsSound_reach (tagging_suits.sub sub ⟨fun _ _ => id, fun _ _ => id, fun _ _ => id⟩)
      (by constructor <;> simp [emptyNamespace]) runs).inv.single

theorem destinations_held_once_apart : ∃ s, TransferRuns smallSite s ∧ ∃ a ∈ s.world.snaps, ∃ b ∈ s.world.snaps,
    a.uid ≠ b.uid ∧ ∀ l ∈ a.registry, ∀ l' ∈ b.registry, l.base ≠ l'.base := by
  obtain ⟨s, runs, a, hereA, b, hereB, other, activeA, activeB⟩ : ∃ s, TransferRuns smallSite s ∧ ∃ a ∈ s.world.snaps,
      ∃ b ∈ s.world.snaps, a.uid ≠ b.uid ∧ (a.status.phase.started ∧ a.Live) ∧ b.status.phase.started ∧ b.Live :=
    exists_of_play (checked_fits (fun _ _ _ => true) fun _ _ _ _ => trivial)
      (writesDisks "a" "1" "x" ++ writesDisks "b" "2" "x-disk") (by decide +kernel)
  exact ⟨s, runs, a, hereA, b, hereB, other, fun l atA l' atB same =>
    other (destinations_held_once smallSite runs a hereA b hereB activeA activeB l atA l' atB same)⟩

end KubeSwift.Transfer
