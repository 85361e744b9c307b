import KubeSwift.Program.Sequential
import KubeSwift.Transfer.Controller

/-! # What a clone boots from (`internal/controller/swiftguest/clone.go`)

A clone of an s3 or oci snapshot waits for a Job that downloads the artifacts, found by the snapshot's name and the
node. -/

namespace KubeSwift.Clone
open Program Prog
open Transfer (Site)

structure SwiftSnapshot where
  name : String
  uid : String
  version : Nat
  deletionTimestamp : Bool
  ready : Bool
  uploaded : Bool
  handle : String
  nodeName : String
  nodeCopies : List String
  deriving DecidableEq

structure Mark where
  snapshot : String
  dir : String
  uid : String
  deriving DecidableEq

inductive JobState
  | running | complete | failed
  deriving DecidableEq

structure Job where
  name : String
  node : String
  mark : Mark
  owner : String
  state : JobState
  deriving DecidableEq

def hostPathBase : String := "/var/lib/kubeswift/snapshots/"
def maxDirName : Nat := 255

section Names

variable (K : Site)

def snapshotDir (name : String) : String := hostPathBase ++ K.bounded (K.ns ++ "_" ++ name) "" maxDirName

/-- Where versions up to v0.14.1 put s3 and oci captures. -/
def legacyNodeDir (name : String) : String := hostPathBase ++ K.ns ++ "-" ++ name

def trimSlash (s : String) : String :=
  if s.toList.getLast? = some '/' then String.ofList s.toList.dropLast else s

def nodeDir (snap : SwiftSnapshot) : String :=
  if snap.handle ≠ "" then trimSlash snap.handle
  else if snap.nodeName = "" then snapshotDir K snap.name
  else legacyNodeDir K snap.name

def cloneDownloadJobName (snapshot node : String) : String :=
  "clone-dl-" ++ String.ofList ((K.sha256 (K.ns ++ "/" ++ snapshot ++ "@" ++ node)).toList.take 16)

def SwiftSnapshot.mark (snap : SwiftSnapshot) : Mark := ⟨snap.name, nodeDir K snap, snap.uid⟩

end Names

structure State where
  snaps : List SwiftSnapshot
  jobs : List Job
  known : List String
  /-- Whose artifacts fill a directory of a node. -/
  dirs : String → String → Option String

inductive Err
  | conflict | alreadyExists | other
  deriving DecidableEq, Repr

inductive Op
  | getSnapshot (name : String)
  | getJob (name : String)
  | transferCA
  | buildable
  | patchNodeCopies (name uid : String) (version : Nat) (copies : List String)
  | createJob (job : Job)

@[reducible] def Op.Res : Op → Type
  | .getSnapshot _ => Option SwiftSnapshot
  | .getJob _ => Option Job
  | .buildable => Bool
  | .transferCA | .patchNodeCopies _ _ _ _ | .createJob _ => Unit

structure Choice where
  fault : Option (Err × Bool) := none
  yes : Bool := true

def State.snapshot? (st : State) (name : String) : Option SwiftSnapshot := st.snaps.find? (·.name = name)

def State.job? (st : State) (name : String) : Option Job := st.jobs.find? (·.name = name)

def State.perform (st : State) (c : Choice) : (o : Op) → Except Err (State × o.Res)
  | .getSnapshot name => .ok (st, st.snapshot? name)
  | .getJob name => .ok (st, st.job? name)
  | .transferCA => .ok (st, ())
  | .buildable => .ok (st, c.yes)
  | .patchNodeCopies name uid version copies =>
    match st.snapshot? name with
    | some snap =>
      if snap.uid = uid ∧ snap.version = version then
        .ok ({ st with snaps := st.snaps.map fun s =>
          if s.name = name then { s with nodeCopies := copies, version := s.version + 1 } else s }, ())
      else .error .conflict
    | none => .error .other
  | .createJob job =>
    match st.job? job.name with
    | some _ => .error .alreadyExists
    | none => .ok ({ st with jobs := job :: st.jobs }, ())

def engine : Engine Unit Choice State Op Op.Res Err where
  exec _ c st o := some (withFault st c.fault (st.perform c o))
  crash _ st := st

abbrev Act := Prog Op Op.Res Err

def issue (o : Op) : Act o.Res := Prog.call o

def recordNodeCopy (snap : SwiftSnapshot) (node : String) : Act Unit :=
  if node = "" ∨ node = snap.nodeName ∨ node ∈ snap.nodeCopies then pure ()
  else issue (.patchNodeCopies snap.name snap.uid snap.version (snap.nodeCopies ++ [node]))

inductive Verdict
  | done | failed | wait
  deriving DecidableEq

def ensureCloneDownloadJob (K : Site) (guest : String) (snap : SwiftSnapshot) (node : String) : Act Verdict := do
  match ← issue (.getJob (cloneDownloadJobName K snap.name node)) with
  | none => do
    issue .transferCA
    if ← issue .buildable then
      -- recorded first, so that deleting the snapshot finds the copy
      recordNodeCopy snap node
      let job := ⟨cloneDownloadJobName K snap.name node, node, snap.mark K, guest, .running⟩
      match ← (issue (.createJob job)).attempt with
      | .ok _ => pure .wait
      | .error .alreadyExists => pure .wait
      | .error e => .fail e
    else pure .failed
  | some job =>
    match job.state with
    | .complete => pure .done
    | .failed => pure .failed
    | .running => pure .wait

/-- What `prepareCloneFromSnapshot` does for an s3 or oci snapshot before it turns to the source guest. -/
def downloadForClone (K : Site) (guest name node : String) : Act Verdict := do
  match ← issue (.getSnapshot name) with
  | none => pure .failed
  | some snap =>
    if ¬ snap.ready then pure .wait
    else if node = "" ∨ ¬ snap.uploaded then pure .failed
    else ensureCloneDownloadJob K guest snap node

inductive Event
  | tick
  | create (name uid handle nodeName : String)
  | ready (name : String)
  | delete (name : String)
  /-- A cleanup pod of a deleted snapshot has removed the copy on a node. -/
  | clean (name node : String)
  | gone (name : String)
  | completeJob (name : String)
  | failJob (name : String)
  | removeJob (name : String)
  deriving DecidableEq

def newSnapshot (name uid handle nodeName : String) : SwiftSnapshot :=
  ⟨name, uid, 0, false, false, false, handle, nodeName, []⟩

def State.fill (st : State) (node dir : String) (uid : Option String) : State :=
  { st with dirs := fun n d => if n = node ∧ d = dir then uid else st.dirs n d }

def Event.apply (K : Site) (st : State) : Event → State
  | .tick => st
  | .create name uid handle nodeName =>
    if (st.snapshot? name).isSome ∨ uid ∈ st.known then st
    else { st with snaps := newSnapshot name uid handle nodeName :: st.snaps, known := uid :: st.known }
  | .ready name =>
    match st.snapshot? name with
    | none => st
    | some snap =>
      -- the capture lies on its node
      State.fill { st with snaps := st.snaps.map fun s =>
        if s.name = name then { s with ready := true, uploaded := true } else s } snap.nodeName (nodeDir K snap) (some snap.uid)
  | .delete name =>
    { st with snaps := st.snaps.map fun s => if s.name = name then { s with deletionTimestamp := true } else s }
  | .clean name node =>
    match st.snapshot? name with
    | none => st
    | some snap =>
      if snap.deletionTimestamp ∧ (node = snap.nodeName ∨ node ∈ snap.nodeCopies) then
        st.fill node (nodeDir K snap) none
      else st
  | .gone name => { st with snaps := st.snaps.filter fun s => ¬ (s.name = name ∧ s.deletionTimestamp) }
  | .completeJob name =>
    match st.job? name with
    | none => st
    | some job =>
      if job.state = .running then
        State.fill { st with jobs := st.jobs.map fun j => if j = job then { j with state := .complete } else j }
          job.node job.mark.dir (some job.mark.uid)
      else st
  | .failJob name =>
    { st with jobs := st.jobs.map fun j =>
        if j.name = name ∧ j.state = .running then { j with state := .failed } else j }
  | .removeJob name => { st with jobs := st.jobs.filter (·.name ≠ name) }

def Event.creates : Event → Bool
  | .create _ _ _ _ => true
  | _ => false

def cloneSetting (K : Site) : Setting Unit State Op Op.Res Err where
  env st st' := ∃ e : Event, st' = e.apply K st
  quiet _ _ := False
  offered _ prog := ∃ guest name node, prog = (downloadForClone K guest name node >>= fun _ => pure ())

def emptyNamespace : State := ⟨[], [], [], fun _ _ => none⟩

abbrev CloneRuns (K : Site) (s : Loops Unit State Op Op.Res Err) : Prop :=
  LoopsReach (engine.machine (fun _ _ _ _ => True) fun _ _ => True) (cloneSetting K) emptyNamespace s

def Event.Careful (K : Site) (st : State) : Event → Prop
  | .create name uid handle nodeName =>
    (∀ s ∈ st.snaps, nodeDir K s ≠ nodeDir K (newSnapshot name uid handle nodeName)) ∧
    ∀ job ∈ st.jobs, job.mark.snapshot ≠ name ∧ job.mark.dir ≠ nodeDir K (newSnapshot name uid handle nodeName)
  | .clean name node => ∀ s ∈ st.snaps, s.name = name → ∀ job ∈ st.jobs, job.node = node → job.mark.dir ≠ nodeDir K s
  | _ => True

instance (K : Site) (st : State) (e : Event) : Decidable (e.Careful K st) := by
  cases e <;> unfold Event.Careful <;> infer_instance

def orderlySetting (K : Site) : Setting Unit State Op Op.Res Err where
  env st st' := ∃ e : Event, e.creates = false ∧ e.Careful K st ∧ st' = e.apply K st
  quiet st st' := ∃ e : Event, e.Careful K st ∧ st' = e.apply K st
  offered := (cloneSetting K).offered

abbrev OrderlyRuns (K : Site) (s : Loops Unit State Op Op.Res Err) : Prop :=
  LoopsReach (engine.machine (fun _ _ _ _ => True) fun _ _ => True) (orderlySetting K) emptyNamespace s

def Mark.Apart (a b : Mark) : Prop := a = b ∨ a.snapshot ≠ b.snapshot ∧ a.dir ≠ b.dir ∧ a.uid ≠ b.uid

structure Tidy (K : Site) (st : State) : Prop where
  marks : ∀ s ∈ st.snaps, ∀ s' ∈ st.snaps, (s.mark K).Apart (s'.mark K)
  jobs : ∀ job ∈ st.jobs, ∀ s ∈ st.snaps, job.mark.Apart (s.mark K)
  known : ∀ s ∈ st.snaps, s.uid ∈ st.known
  sources : ∀ job ∈ st.jobs, job.mark.uid ∈ st.known
  filled : ∀ job ∈ st.jobs, job.state = .complete → ∀ s ∈ st.snaps, job.mark = s.mark K →
    st.dirs job.node job.mark.dir = some s.uid

structure Shrinks (K : Site) (st st' : State) : Prop where
  snaps : ∀ s' ∈ st'.snaps, ∃ s ∈ st.snaps, s'.mark K = s.mark K
  jobs : ∀ job' ∈ st'.jobs, ∃ job ∈ st.jobs, job'.mark = job.mark ∧ job'.node = job.node
  known : st'.known = st.known

def Knows (K : Site) (snap : SwiftSnapshot) (st : State) : Prop :=
  snap.uid ∈ st.known ∧ ∀ s ∈ st.snaps, (snap.mark K).Apart (s.mark K)

variable {K : Site} {st st' st'' : State} {snap : SwiftSnapshot}

theorem Shrinks.refl (st : State) : Shrinks K st st :=
  ⟨fun s here => ⟨s, here, rfl⟩, fun job here => ⟨job, here, rfl, rfl⟩, rfl⟩

theorem Shrinks.trans (first : Shrinks K st st') (second : Shrinks K st' st'') : Shrinks K st st'' := by
  refine ⟨?_, ?_, second.known.trans first.known⟩
  · intro s'' here
    obtain ⟨s', between, same'⟩ := second.snaps s'' here
    obtain ⟨s, before, same⟩ := first.snaps s' between
    exact ⟨s, before, same'.trans same⟩
  · intro job'' here
    obtain ⟨job', between, mark', node'⟩ := second.jobs job'' here
    obtain ⟨job, before, mark, node⟩ := first.jobs job' between
    exact ⟨job, before, mark'.trans mark, node'.trans node⟩

theorem uid_eq {s s' : SwiftSnapshot} (same : s.mark K = s'.mark K) : s.uid = s'.uid := congrArg Mark.uid same

theorem Tidy.shrinks (tidy : Tidy K st) (shrinks : Shrinks K st st')
    (filled : ∀ job ∈ st'.jobs, job.state = .complete → ∀ s ∈ st'.snaps, job.mark = s.mark K →
      st'.dirs job.node job.mark.dir = some s.uid) : Tidy K st' := by
  refine ⟨?_, ?_, ?_, ?_, filled⟩
  · intro s here s' here'
    obtain ⟨t, before, same⟩ := shrinks.snaps s here
    obtain ⟨t', before', same'⟩ := shrinks.snaps s' here'
    rw [same, same']
    exact tidy.marks t before t' before'
  · intro job here s here'
    obtain ⟨j, before, same, -⟩ := shrinks.jobs job here
    obtain ⟨t, before', same'⟩ := shrinks.snaps s here'
    rw [same, same']
    exact tidy.jobs j before t before'
  · intro s here
    obtain ⟨t, before, same⟩ := shrinks.snaps s here
    rw [shrinks.known, uid_eq same]
    exact tidy.known t before
  · intro job here
    obtain ⟨j, before, same, -⟩ := shrinks.jobs job here
    rw [shrinks.known, same]
    exact tidy.sources j before

theorem Knows.shrinks (knows : Knows K snap st) (shrinks : Shrinks K st st') : Knows K snap st' := by
  refine ⟨shrinks.known ▸ knows.1, ?_⟩
  intro s here
  obtain ⟨t, before, same⟩ := shrinks.snaps s here
  exact same ▸ knows.2 t before

theorem Tidy.snaps (tidy : Tidy K st) {snaps : List SwiftSnapshot}
    (old : ∀ s' ∈ snaps, ∃ s ∈ st.snaps, s'.mark K = s.mark K) :
    Tidy K { st with snaps := snaps } ∧ Shrinks K st { st with snaps := snaps } := by
  have shrinks : Shrinks K st { st with snaps := snaps } := ⟨old, (Shrinks.refl st).jobs (K := K), rfl⟩
  refine ⟨tidy.shrinks shrinks ?_, shrinks⟩
  intro job here done s' there same
  obtain ⟨s, before, also⟩ := old s' there
  rw [uid_eq also]
  exact tidy.filled job here done s before (same.trans also)

theorem mark_map (st : State) (f : SwiftSnapshot → SwiftSnapshot) (kept : ∀ s, (f s).mark K = s.mark K) :
    ∀ s' ∈ st.snaps.map f, ∃ s ∈ st.snaps, s'.mark K = s.mark K := by
  intro s' here
  obtain ⟨s, before, rfl⟩ := List.mem_map.mp here
  exact ⟨s, before, kept s⟩

variable {node : String}

theorem Tidy.fill (tidy : Tidy K st) {dir : String} {uid : Option String}
    (fits : ∀ job ∈ st.jobs, job.state = .complete → ∀ s ∈ st.snaps, job.mark = s.mark K → job.node = node →
      job.mark.dir = dir → uid = some s.uid) : Tidy K (st.fill node dir uid) := by
  refine { tidy with filled := ?_ }
  intro job here done s there same
  simp only [State.fill]
  split
  · next at_ => exact fits job here done s there same at_.1 at_.2
  · exact tidy.filled job here done s there same

theorem Mark.Apart.eq {a b : Mark} (apart : a.Apart b) (dir : a.dir = b.dir) : a = b := by
  rcases apart with same | ⟨-, other, -⟩
  · exact same
  · exact (other dir).elim

theorem mem_of_snapshot? {name : String} (found : st.snapshot? name = some snap) : snap ∈ st.snaps ∧ snap.name = name :=
  ⟨List.mem_of_find?_eq_some found, by simpa using List.find?_some found⟩

theorem Tidy.jobMap (tidy : Tidy K st) {dirs : String → String → Option String} (f : Job → Job)
    (kept : ∀ j, (f j).mark = j.mark ∧ (f j).node = j.node)
    (filled : ∀ j ∈ st.jobs, (f j).state = .complete → ∀ s ∈ st.snaps, j.mark = s.mark K →
      dirs j.node j.mark.dir = some s.uid) :
    Tidy K { st with jobs := st.jobs.map f, dirs } ∧ Shrinks K st { st with jobs := st.jobs.map f, dirs } := by
  have shrinks : Shrinks K st { st with jobs := st.jobs.map f, dirs } := by
    refine ⟨(Shrinks.refl st).snaps, ?_, rfl⟩
    intro j' here
    obtain ⟨j, before, rfl⟩ := List.mem_map.mp here
    exact ⟨j, before, kept j⟩
  refine ⟨tidy.shrinks shrinks ?_, shrinks⟩
  intro j' here done s there same
  obtain ⟨j, before, rfl⟩ := List.mem_map.mp here
  rw [(kept j).1, (kept j).2]
  exact filled j before done s there ((kept j).1.symm.trans same)

theorem Tidy.event (tidy : Tidy K st) {e : Event} (old : e.creates = false) (careful : e.Careful K st) :
    Tidy K (e.apply K st) ∧ Shrinks K st (e.apply K st) := by
  cases e with
  | create name uid handle nodeName => cases old
  | tick => exact ⟨tidy, Shrinks.refl st⟩
  | ready name =>
    simp only [Event.apply]
    split
    · exact ⟨tidy, Shrinks.refl st⟩
    · next snap found =>
      obtain ⟨here, -⟩ := mem_of_snapshot? found
      have kept := mark_map (K := K) st (fun s =>
        if s.name = name then { s with ready := true, uploaded := true } else s) fun s => by split <;> rfl
      obtain ⟨tidy', shrinks⟩ := tidy.snaps kept
      refine ⟨tidy'.fill ?_, { shrinks with }⟩
      intro job there _ s' there' same _ dir
      obtain ⟨s, before, also⟩ := kept s' there'
      have one : s.mark K = snap.mark K :=
        (tidy.marks s before snap here).eq ((congrArg Mark.dir (same.trans also)).symm.trans dir)
      rw [uid_eq also, uid_eq one]
  | delete name =>
    exact tidy.snaps (mark_map st _ fun s => by split <;> rfl)
  | gone name => exact tidy.snaps fun s here => ⟨s, (List.mem_filter.mp here).1, rfl⟩
  | clean name node =>
    simp only [Event.apply]
    split
    · exact ⟨tidy, Shrinks.refl st⟩
    · next snap found =>
      obtain ⟨here, named⟩ := mem_of_snapshot? found
      split
      · refine ⟨tidy.fill ?_, ⟨(Shrinks.refl st).snaps, (Shrinks.refl (K := K) st).jobs, rfl⟩⟩
        intro job there _ s _ _ node dir
        exact (careful snap here named job there node dir).elim
      · exact ⟨tidy, Shrinks.refl st⟩
  | completeJob name =>
    simp only [Event.apply]
    split
    · exact ⟨tidy, Shrinks.refl st⟩
    · next job found =>
      have here : job ∈ st.jobs := List.mem_of_find?_eq_some found
      split
      · refine tidy.jobMap _ ?_ ?_
        · intro j
          split <;> exact ⟨rfl, rfl⟩
        · intro j there done s there' same
          split at done
          · next one =>
            subst one
            rw [if_pos ⟨rfl, rfl⟩, same]
            rfl
          · split
            · next at_ =>
              have one : job.mark = s.mark K :=
                (tidy.jobs job here s there').eq (at_.2.symm.trans (congrArg Mark.dir same))
              rw [one]
              rfl
            · exact tidy.filled j there done s there' same
      · exact ⟨tidy, Shrinks.refl st⟩
  | failJob name =>
    refine tidy.jobMap _ ?_ ?_
    · intro j
      split <;> exact ⟨rfl, rfl⟩
    · intro j there done s there' same
      split at done
      · cases done
      · exact tidy.filled j there done s there' same
  | removeJob name =>
    have shrinks : Shrinks K st { st with jobs := st.jobs.filter (·.name ≠ name) } :=
      ⟨(Shrinks.refl st).snaps, fun j here => ⟨j, (List.mem_filter.mp here).1, rfl, rfl⟩, rfl⟩
    exact ⟨tidy.shrinks shrinks fun j here => tidy.filled j (List.mem_filter.mp here).1, shrinks⟩

theorem Tidy.create (tidy : Tidy K st) {name uid handle nodeName : String}
    (careful : (Event.create name uid handle nodeName).Careful K st) :
    Tidy K ((Event.create name uid handle nodeName).apply K st) := by
  simp only [Event.apply]
  split
  · exact tidy
  · next free =>
    rw [not_or, Option.isSome_iff_ne_none, not_not] at free
    have name_new : ∀ s ∈ st.snaps, s.name ≠ name := fun s here => by simpa using List.find?_eq_none.mp free.1 s here
    have uid_new : ∀ s ∈ st.snaps, s.uid ≠ uid := fun s here same => free.2 (same ▸ tidy.known s here)
    have other : ∀ s ∈ st.snaps, s.mark K ≠ (newSnapshot name uid handle nodeName).mark K :=
      fun s here same => uid_new s here (uid_eq same)
    refine ⟨?_, ?_, ?_, ?_, ?_⟩
    · intro s here s' here'
      rcases List.mem_cons.mp here with rfl | old <;> rcases List.mem_cons.mp here' with rfl | old'
      · exact .inl rfl
      · exact .inr ⟨(name_new s' old').symm, (careful.1 s' old').symm, (uid_new s' old').symm⟩
      · exact .inr ⟨name_new s old, careful.1 s old, uid_new s old⟩
      · exact tidy.marks s old s' old'
    · intro job here s here'
      rcases List.mem_cons.mp here' with rfl | old
      · exact .inr ⟨(careful.2 job here).1, (careful.2 job here).2, fun same => free.2 (same.subst (tidy.sources job here))⟩
      · exact tidy.jobs job here s old
    · intro s here
      rcases List.mem_cons.mp here with rfl | old
      · exact List.mem_cons_self
      · exact List.mem_cons_of_mem _ (tidy.known s old)
    · intro job here
      exact List.mem_cons_of_mem _ (tidy.sources job here)
    · intro job here done s there same
      rcases List.mem_cons.mp there with rfl | old
      · exact ((careful.2 job here).1 (congrArg Mark.snapshot same)).elim
      · exact tidy.filled job here done s old same

def Op.Own (K : Site) (snap : SwiftSnapshot) : Op → Prop
  | .createJob job => job.mark = snap.mark K ∧ job.state = .running
  | _ => True

theorem owns_ensureCloneDownloadJob (guest : String) (snap : SwiftSnapshot) (node : String) :
    (ensureCloneDownloadJob K guest snap node).Within (Op.Own K snap) := by
  refine within_bind ((within_call _).mpr trivial) ?_
  intro found
  cases found with
  | none =>
    refine within_bind ((within_call _).mpr trivial) fun _ => ?_
    refine within_bind ((within_call _).mpr trivial) fun buildable => ?_
    refine within_ite ?_ trivial
    refine within_bind (within_ite trivial ((within_call _).mpr trivial)) fun _ => ?_
    refine within_bind (within_attempt ((within_call _).mpr ⟨rfl, rfl⟩)) fun result => ?_
    split <;> trivial
  | some job =>
    dsimp only
    split <;> trivial

def downloading (K : Site) : Spec Unit State Op where
  inv := Tidy K
  rely _ := Shrinks K
  guar _ _ _ := True
  pre _ _ _ := True

theorem perform_own {c : Choice} {o : Op} {a : o.Res} (tidy : Tidy K st) (knows : Knows K snap st) (own : o.Own K snap)
    (done : st.perform c o = .ok (st', a)) : Tidy K st' ∧ Knows K snap st' := by
  cases o with
  | patchNodeCopies name uid version copies =>
    simp only [State.perform] at done
    split at done
    · split at done <;> cases done
      obtain ⟨tidy', shrinks⟩ := tidy.snaps (mark_map st (fun s =>
        if s.name = name then { s with nodeCopies := copies, version := s.version + 1 } else s) fun s => by split <;> rfl)
      exact ⟨tidy', knows.shrinks shrinks⟩
    · cases done
  | createJob job =>
    simp only [State.perform] at done
    split at done <;> cases done
    refine ⟨⟨tidy.marks, ?_, tidy.known, ?_, ?_⟩, knows⟩
    · intro j here s there
      rcases List.mem_cons.mp here with rfl | old
      · exact own.1 ▸ knows.2 s there
      · exact tidy.jobs j old s there
    · intro j here
      rcases List.mem_cons.mp here with rfl | old
      · exact own.1 ▸ knows.1
      · exact tidy.sources j old
    · intro j here complete
      rcases List.mem_cons.mp here with rfl | old
      · cases own.2.symm.trans complete
      · exact tidy.filled j old complete
  | _ =>
    cases done
    exact ⟨tidy, knows⟩

abbrev anyMachine : Machine Unit State Op Op.Res Err := engine.machine (fun _ _ _ _ => True) fun _ _ => True

theorem wp_own {α : Type} {prog : Act α} (owns : prog.Within (Op.Own K snap)) (tidy : Tidy K st) (knows : Knows K snap st) :
    wp anyMachine (downloading K) () prog (fun _ _ => True) st := by
  refine wp_mono (fun _ _ _ => trivial) (wp_yields (P := fun st => Tidy K st ∧ Knows K snap st) ?_ owns ⟨tidy, knows⟩)
  rintro o st own ⟨tidy, knows⟩
  refine ⟨trivial, ?_⟩
  rintro r st' ⟨c, -, result⟩
  have kept : Tidy K st' ∧ Knows K snap st' := by
    rcases effect_of_cases (withFault_cases (Option.some.inj result)) with rfl | ⟨a, done⟩
    · exact ⟨tidy, knows⟩
    · exact perform_own tidy knows own done
  exact ⟨trivial, kept.1, trivial, fun st'' shrinks tidy'' => ⟨tidy'', kept.2.shrinks shrinks⟩⟩

theorem wp_downloadForClone (guest name node : String) (tidy : Tidy K st) :
    wp anyMachine (downloading K) () (downloadForClone K guest name node) (fun _ _ => True) st := by
  unfold downloadForClone
  rw [wp_bind]
  refine (wp_call _ _ st).mpr ⟨trivial, ?_⟩
  rintro r st' ⟨c, -, result⟩
  rcases withFault_cases (Option.some.inj result) with ⟨a, rfl, done⟩ | ⟨e, rfl, rfl | ⟨a, done⟩⟩
  · cases done
    refine ⟨tidy, trivial, ?_⟩
    intro st'' shrinks tidy''
    rw [onOk_ok]
    cases found : st.snapshot? name with
    | none => trivial
    | some snap =>
      have here := (mem_of_snapshot? found).1
      have knows : Knows K snap st := ⟨tidy.known snap here, tidy.marks snap here⟩
      dsimp only
      split
      · trivial
      · split
        · trivial
        · exact wp_own (owns_ensureCloneDownloadJob guest snap node) tidy'' (knows.shrinks shrinks)
  · exact ⟨tidy, trivial, fun _ _ _ => trivial⟩
  · cases done
    exact ⟨tidy, trivial, fun _ _ _ => trivial⟩

theorem downloading_suits : Suits anyMachine (downloading K) (orderlySetting K) where
  refl _ := Shrinks.refl
  trans _ _ _ _ := Shrinks.trans
  env _ _ tidy moves := by
    obtain ⟨e, old, careful, rfl⟩ := moves
    obtain ⟨tidy', shrinks⟩ := tidy.event old careful
    exact ⟨tidy', fun _ => shrinks⟩
  quiet _ _ tidy moves := by
    obtain ⟨e, careful, rfl⟩ := moves
    cases e with
    | create name uid handle nodeName => exact tidy.create careful
    | _ => exact (tidy.event rfl careful).1
  starts _ _ _ offer tidy := by
    obtain ⟨guest, name, node, rfl⟩ := offer
    rw [wp_bind]
    refine wp_mono ?_ (wp_downloadForClone guest name node tidy)
    intro r _ _
    cases r <;> trivial

theorem answered {o : Op} : (issue o).Yields (fun _ => True) (fun _ _ => True) fun _ => True :=
  yields_call trivial fun _ _ => trivial

theorem complete_of_done {guest : String} {issued : List (State × Op)}
    (reports : Run anyMachine () (ensureCloneDownloadJob K guest snap node) st issued st' (some (.ok .done))) :
    ∃ job ∈ st.jobs, job.name = cloneDownloadJobName K snap.name node ∧ job.state = .complete := by
  refine run_plain (Q := fun r _ => r = .ok .done → ∃ job ∈ st.jobs,
    job.name = cloneDownloadJobName K snap.name node ∧ job.state = .complete) reports ?_ rfl
  unfold ensureCloneDownloadJob
  rw [wp_bind]
  refine (wp_call_plain _ _ st).mpr ?_
  rintro r st' ⟨c, -, result⟩
  rcases withFault_cases (Option.some.inj result) with ⟨a, rfl, done⟩ | ⟨e, rfl, -⟩
  · cases done
    rw [onOk_ok]
    cases found : st.job? (cloneDownloadJobName K snap.name node) with
    | some job =>
      have named : job.name = cloneDownloadJobName K snap.name node := by simpa using List.find?_some found
      dsimp only
      split
      · next complete => exact fun _ => ⟨job, List.mem_of_find?_eq_some found, named, complete⟩
      · exact nofun
      · exact nofun
    | none =>
      -- a Job that is only now created is waited for
      refine wp_mono ?_ (wp_yields (A := fun _ => True) (R := fun _ _ => True) (V := (· ≠ Verdict.done))
        (P := fun _ => True) ?_ ?_ trivial)
      · rintro r _ ⟨-, other⟩ same
        exact (other _ same rfl).elim
      · exact fun _ _ _ _ => ⟨trivial, fun _ _ _ => ⟨trivial, trivial, trivial, fun _ _ _ => trivial⟩⟩
      · refine yields_then answered fun _ => ?_
        refine yields_then answered fun buildable => ?_
        refine yields_ite (fun _ => ?_) fun _ => nofun
        refine yields_then (yields_ite (fun _ => trivial) fun _ => answered) fun _ => ?_
        refine yields_then (yields_attempt answered fun _ => trivial) fun result => ?_
        split
        · exact nofun
        · exact nofun
        · trivial
  · exact nofun

theorem clone_boots_from_own (K : Site) {s : Loops Unit State Op Op.Res Err} (runs : OrderlyRuns K s)
    {snap : SwiftSnapshot} (here : snap ∈ s.world.snaps) {guest node : String}
    (unmixed : ∀ job ∈ s.world.jobs, job.name = cloneDownloadJobName K snap.name node →
      job.mark.snapshot = snap.name ∧ job.node = node)
    {issued : List (State × Op)} {after : State}
    (reports : Run anyMachine () (ensureCloneDownloadJob K guest snap node) s.world issued after (some (.ok .done))) :
    s.world.dirs node (nodeDir K snap) = some snap.uid := by
  have tidy : Tidy K s.world := (loopsSound_reach downloading_suits (by constructor <;> simp [emptyNamespace]) runs).inv
  obtain ⟨job, there, named, complete⟩ := complete_of_done reports
  obtain ⟨snapshot, rfl⟩ := unmixed job there named
  have own : job.mark = snap.mark K := by
    rcases tidy.jobs job there snap here with same | ⟨other, -⟩
    · exact same
    · exact (other snapshot).elim
  have filled := tidy.filled job there complete snap here own
  rw [own] at filled
  exact filled

abbrev CloneMoves := List (LoopMove Unit Choice (String × String × String) Event)

def cloneScript (K : Site) (event : Event → State → State) : Script Unit Choice State Op Op.Res Err (String × String × String) Event where
  engine := engine
  calls := fun (guest, name, node) => downloadForClone K guest name node >>= fun _ => pure ()
  event := event
  check _ _ _ _ := true
  pids := [()]

def carefully (K : Site) (e : Event) (st : State) : State := if e.Careful K st then e.apply K st else st

theorem carefully_eq (e : Event) (st : State) :
    carefully K e st = e.apply K st ∧ e.Careful K st ∨ carefully K e st = Event.tick.apply K st := by
  unfold carefully
  split
  · next careful => exact .inl ⟨rfl, careful⟩
  · exact .inr rfl

theorem orderly_fits : (cloneScript K (carefully K)).Fits (orderlySetting K) (V := (·.creates = false)) (Q := fun _ => True) where
  offers _ call _ := ⟨call.1, call.2.1, call.2.2, rfl⟩
  env e st quietly := by
    rcases carefully_eq (K := K) e st with ⟨same, careful⟩ | same
    · exact ⟨e, quietly, careful, same⟩
    · exact ⟨.tick, rfl, trivial, same⟩
  quiet e st _ := by
    rcases carefully_eq (K := K) e st with ⟨same, careful⟩ | same
    · exact ⟨e, careful, same⟩
    · exact ⟨.tick, trivial, same⟩

theorem clone_fits : (cloneScript K fun e st => e.apply K st).Fits (cloneSetting K) where
  offers _ call _ := ⟨call.1, call.2.1, call.2.2, rfl⟩
  env e _ _ := ⟨e, rfl⟩

def smallSite : Site := ⟨"ns", fun s => s⟩

def clones (guest name node : String) : CloneMoves :=
  [.start () (guest, name, node)] ++ List.replicate 6 (.op () {}) ++
    [.finish (), .env (.completeJob (cloneDownloadJobName smallSite name node))]

def reportsDone (snap : SwiftSnapshot) (node : String) (st : State) : Bool :=
  match (drive engine () [{}] (ensureCloneDownloadJob smallSite "g" snap node) st).2 with
  | some (.ok .done) => true
  | _ => false

theorem run_of_reportsDone (reports : reportsDone snap node st) :
    ∃ issued after, Run anyMachine () (ensureCloneDownloadJob smallSite "g" snap node) st issued after (some (.ok .done)) := by
  unfold reportsDone at reports
  split at reports <;> cases reports
  next result =>
  obtain ⟨issued, run⟩ := run_drive engine (fun _ _ _ _ => True) (fun _ _ => True) [{}]
    (ensureCloneDownloadJob smallSite "g" snap node) st (along_of_forall (fun _ _ _ _ => trivial) _ _) fun _ _ => trivial
  exact ⟨issued, _, result ▸ run⟩

theorem clone_boots_from_own_downloaded :
    ∃ s : Loops Unit State Op Op.Res Err, OrderlyRuns smallSite s ∧ ∃ snap ∈ s.world.snaps, ∃ issued after,
      Run anyMachine () (ensureCloneDownloadJob smallSite "g" snap "n") s.world issued after (some (.ok .done)) ∧
        s.world.dirs "n" (nodeDir smallSite snap) = some snap.uid := by
  have played : ∃ s : Loops Unit State Op Op.Res Err, OrderlyRuns smallSite s ∧ ∃ snap ∈ s.world.snaps,
      reportsDone snap "n" s.world = true ∧ ∀ job ∈ s.world.jobs, job.name = cloneDownloadJobName smallSite snap.name "n" →
        job.mark.snapshot = snap.name ∧ job.node = "n" :=
    exists_of_play orderly_fits ([.quiet (.create "a" "1" "/d" "c"), .quiet (.ready "a")] ++ clones "g" "a" "n")
      (by decide +kernel)
  obtain ⟨s, runs, snap, here, reports, unmixed⟩ := played
  obtain ⟨issued, after, run⟩ := run_of_reportsDone reports
  exact ⟨s, runs, snap, here, issued, after, run, clone_boots_from_own smallSite runs here unmixed run⟩

def removes (name : String) (nodes : List String) : CloneMoves :=
  .env (.delete name) :: nodes.map fun node => .env (.clean name node)

theorem emptied_of_done {uid : String} (played : ∃ s : Loops Unit State Op Op.Res Err, CloneRuns smallSite s ∧
      ∃ snap ∈ s.world.snaps, snap.uid = uid ∧ reportsDone snap "n" s.world = true ∧
        s.world.dirs "n" (nodeDir smallSite snap) = none) :
    ∃ s : Loops Unit State Op Op.Res Err, CloneRuns smallSite s ∧ ∃ snap ∈ s.world.snaps, snap.uid = uid ∧
      (∃ issued after,
        Run anyMachine () (ensureCloneDownloadJob smallSite "g" snap "n") s.world issued after (some (.ok .done))) ∧
      s.world.dirs "n" (nodeDir smallSite snap) = none := by
  obtain ⟨s, runs, snap, here, same, reports, none⟩ := played
  exact ⟨s, runs, snap, here, same, run_of_reportsDone reports, none⟩

/-- A snapshot of the same name finds the Job of the first; and one that is being deleted, its own. -/
theorem clone_boots_from_own_unmet :
    (∃ s : Loops Unit State Op Op.Res Err, CloneRuns smallSite s ∧ ∃ snap ∈ s.world.snaps, snap.uid = "2" ∧
      (∃ issued after,
        Run anyMachine () (ensureCloneDownloadJob smallSite "g" snap "n") s.world issued after (some (.ok .done))) ∧
      s.world.dirs "n" (nodeDir smallSite snap) = none) ∧
    ∃ s : Loops Unit State Op Op.Res Err, CloneRuns smallSite s ∧ ∃ snap ∈ s.world.snaps, snap.uid = "1" ∧
      (∃ issued after,
        Run anyMachine () (ensureCloneDownloadJob smallSite "g" snap "n") s.world issued after (some (.ok .done))) ∧
      s.world.dirs "n" (nodeDir smallSite snap) = none := by
  constructor
  · exact emptied_of_done (exists_of_play clone_fits ([.env (.create "a" "1" "/d" "c"), .env (.ready "a")] ++
      clones "g" "a" "n" ++ removes "a" ["c", "n"] ++
      [.env (.gone "a"), .env (.create "a" "2" "/d" "c"), .env (.ready "a")]) (by decide +kernel))
  · exact emptied_of_done (exists_of_play clone_fits ([.env (.create "a" "1" "/d" "c"), .env (.ready "a")] ++
      clones "g" "a" "n" ++ removes "a" ["c", "n"]) (by decide +kernel))

end KubeSwift.Clone
