import KubeSwift.Transfer.Pass

/-! # Whose upload it was

A transfer Job is found by its name, made from the snapshot's: it says whose Job it is only while no other object's has
it. -/

namespace KubeSwift.Transfer
open Program

variable (K : Site)

structure Clear (st : State) (uid : String) (names : List String) : Prop where
  jobs : ∀ job ∈ st.jobs, job.name ∈ names → job.owner = uid
  snaps : ∀ s ∈ st.snaps, s.uid ≠ uid → ∀ n ∈ s.jobNames K, n ∉ names

def Event.creates : Event → Bool
  | .create _ _ _ _ => true
  | _ => false

def transferSetting : Setting Unit State Op Op.Res Err where
  env st st' := ∃ e : Event, st' = e.apply st
  quiet _ _ := False
  offered _ prog := ∃ name, prog = reconcile K name

def emptyNamespace : State := ⟨0, [], [], [], []⟩

abbrev TransferRuns (s : Loops Unit State Op Op.Res Err) : Prop :=
  LoopsReach (engine.machine (fun _ _ _ _ => True) (fun _ _ => True)) (transferSetting K) emptyNamespace s

def Event.Careful (st : State) : Event → Prop
  | .create name uid _ _ => Clear K st uid (transferJobNames K name [])
  | _ => True

def clearSetting : Setting Unit State Op Op.Res Err where
  env st st' := ∃ e : Event, e.creates = false ∧ st' = e.apply st
  quiet st st' := ∃ e : Event, e.Careful K st ∧ st' = e.apply st
  offered := (transferSetting K).offered

def Op.Careful (st : State) : Op → Prop
  | .updateStatus _ uid _ status => ∀ snap ∈ st.snaps, snap.uid = uid → status.dataDisks ≠ snap.status.dataDisks →
      Clear K st uid (transferJobNames K snap.name status.dataDisks)
  | _ => True

def clearMachine : Machine Unit State Op Op.Res Err :=
  engine.machine (fun _ st o _ => o.Careful K st) (fun _ _ => True)

abbrev ClearRuns (s : Loops Unit State Op Op.Res Err) : Prop :=
  LoopsReach (clearMachine K) (clearSetting K) emptyNamespace s

structure Tidy (st : State) : Prop where
  clear : ∀ snap ∈ st.snaps, Clear K st snap.uid (snap.jobNames K)
  own : ∀ snap ∈ st.snaps, ∀ owner ∈ snap.status.evidence, owner = snap.uid

structure Shrinks (st st' : State) : Prop where
  jobs : ∀ job' ∈ st'.jobs, ∃ job ∈ st.jobs, job'.name = job.name ∧ job'.owner = job.owner
  snaps : ∀ s' ∈ st'.snaps, ∃ s ∈ st.snaps, s'.uid = s.uid ∧ s'.name = s.name ∧ s'.status = s.status

variable {K} {st st' st'' : State}

theorem Shrinks.refl (st : State) : Shrinks st st :=
  ⟨fun job here => ⟨job, here, rfl, rfl⟩, fun s here => ⟨s, here, rfl, rfl, rfl⟩⟩

theorem Shrinks.trans (first : Shrinks st st') (second : Shrinks st' st'') : Shrinks st st'' := by
  constructor
  · intro job'' here
    obtain ⟨job', between, name', owner'⟩ := second.jobs job'' here
    obtain ⟨job, before, name, owner⟩ := first.jobs job' between
    exact ⟨job, before, name'.trans name, owner'.trans owner⟩
  · intro s'' here
    obtain ⟨s', between, uid', name', status'⟩ := second.snaps s'' here
    obtain ⟨s, before, uid, name, status⟩ := first.snaps s' between
    exact ⟨s, before, uid'.trans uid, name'.trans name, status'.trans status⟩

variable {uid : String} {e : Event}

theorem Clear.shrinks {names : List String} (clear : Clear K st uid names) (shrinks : Shrinks st st') :
    Clear K st' uid names := by
  constructor
  · intro job' here member
    obtain ⟨job, before, name, owner⟩ := shrinks.jobs job' here
    exact owner.trans (clear.jobs job before (name ▸ member))
  · intro s' here other n member
    obtain ⟨s, before, uid', name, status⟩ := shrinks.snaps s' here
    have same : s'.jobNames K = s.jobNames K := by
      unfold SwiftSnapshot.jobNames
      rw [name, status]
    exact clear.snaps s before (uid' ▸ other) n (same ▸ member)

theorem Tidy.shrinks (tidy : Tidy K st) (shrinks : Shrinks st st') : Tidy K st' := by
  constructor
  · intro s' here
    obtain ⟨s, before, uid, name, status⟩ := shrinks.snaps s' here
    have same : s'.jobNames K = s.jobNames K := by
      unfold SwiftSnapshot.jobNames
      rw [name, status]
    rw [uid, same]
    exact (tidy.clear s before).shrinks shrinks
  · intro s' here
    obtain ⟨s, before, uid, name, status⟩ := shrinks.snaps s' here
    rw [uid, status]
    exact tidy.own s before

theorem shrinks_event (old : e.creates = false) : Shrinks st (e.apply st) := by
  cases e with
  | tick seconds => exact ⟨(Shrinks.refl st).jobs, (Shrinks.refl st).snaps⟩
  | create name uid backend includeDisk => cases old
  | delete name =>
    refine ⟨fun job here => ⟨job, here, rfl, rfl⟩, ?_⟩
    intro s' here
    obtain ⟨s, before, rfl⟩ := List.mem_map.mp here
    refine ⟨s, before, ?_⟩
    split <;> exact ⟨rfl, rfl, rfl⟩
  | gone name =>
    exact ⟨fun job here => ⟨job, here, rfl, rfl⟩, fun s here => ⟨s, (List.mem_filter.mp here).1, rfl, rfl, rfl⟩⟩
  | finishJob name ok report =>
    refine ⟨?_, fun s here => ⟨s, here, rfl, rfl, rfl⟩⟩
    intro job' here
    obtain ⟨job, before, rfl⟩ := List.mem_map.mp here
    refine ⟨job, before, ?_⟩
    split <;> exact ⟨rfl, rfl⟩
  | removeJob name =>
    exact ⟨fun job here => ⟨job, (List.mem_filter.mp here).1, rfl, rfl⟩, fun s here => ⟨s, here, rfl, rfl, rfl⟩⟩

theorem Tidy.create (tidy : Tidy K st) {name : String} {backend : Backend} {includeDisk : Bool}
    (clear : Clear K st uid (transferJobNames K name [])) :
    Tidy K ((Event.create name uid backend includeDisk).apply st) := by
  simp only [Event.apply]
  split
  · exact tidy
  · constructor
    · intro s here
      rcases List.mem_cons.mp here with rfl | old
      · refine ⟨clear.jobs, ?_⟩
        intro s' there other
        rcases List.mem_cons.mp there with rfl | before
        · exact (other rfl).elim
        · exact clear.snaps s' before other
      · have known := tidy.clear s old
        refine ⟨known.jobs, ?_⟩
        intro s' there other n member
        rcases List.mem_cons.mp there with rfl | before
        · exact fun also => clear.snaps s old other.symm n also member
        · exact known.snaps s' before other n member
    · intro s here
      rcases List.mem_cons.mp here with rfl | old
      · exact nofun
      · exact tidy.own s old

theorem Tidy.event (tidy : Tidy K st) (careful : e.Careful K st) : Tidy K (e.apply st) := by
  by_cases creates : e.creates
  · cases e with
    | create name uid backend includeDisk => exact tidy.create careful
    | _ => cases creates
  · exact tidy.shrinks (shrinks_event (by simpa using creates))

section Steps

variable {uid : String} {names : List String} {c : Choice} {o : Op}

theorem mem_of_job? {name : String} {job : Job} (found : st.job? name = some job) : job ∈ st.jobs ∧ job.name = name :=
  ⟨List.mem_of_find?_eq_some found, by simpa using List.find?_some found⟩

theorem perform_honest (clear : Clear K st uid names) {a : o.Res} (result : st.perform c o = .ok (st', a)) :
    Honest (· = uid) names o (.ok a) := by
  cases o with
  | getJob n =>
    cases result
    cases found : st.job? n with
    | none => trivial
    | some job =>
      intro member
      obtain ⟨there, same⟩ := mem_of_job? found
      exact clear.jobs job there (same ▸ member)
  | jobTransferReport n =>
    cases result
    cases found : st.job? n with
    | none => trivial
    | some job =>
      obtain ⟨there, same⟩ := mem_of_job? found
      cases reported : job.report with
      | none => simp [Honest, reported]
      | some report =>
        simp only [Honest, reported, Option.bind_some, Option.map_some]
        exact fun member => clear.jobs job there (same ▸ member)
  | _ => trivial

theorem Clear.createJob {name target owner : String} (clear : Clear K st uid names) (mine : name ∈ names → owner = uid)
    (jobs : st'.jobs = ⟨name, owner, target, .running, none⟩ :: st.jobs) (snaps : st'.snaps = st.snaps) :
    Clear K st' uid names := by
  constructor
  · intro job here member
    rw [jobs] at here
    rcases List.mem_cons.mp here with rfl | old
    · exact mine member
    · exact clear.jobs job old member
  · rw [snaps]
    exact clear.snaps

variable {status : Status}

theorem mem_setStatus {s' : SwiftSnapshot} (here : s' ∈ (st.setStatus uid status).snaps) :
    ∃ s ∈ st.snaps, s'.uid = s.uid ∧ s'.name = s.name ∧
      (s.uid = uid ∧ s'.status = status ∨ s.uid ≠ uid ∧ s'.status = s.status) := by
  obtain ⟨s, before, rfl⟩ := List.mem_map.mp here
  refine ⟨s, before, ?_⟩
  split
  · next same => exact ⟨rfl, rfl, .inl ⟨same, rfl⟩⟩
  · next other => exact ⟨rfl, rfl, .inr ⟨other, rfl⟩⟩

theorem jobNames_eq {s s' : SwiftSnapshot} (name : s'.name = s.name) (status : s'.status = s.status) :
    s'.jobNames K = s.jobNames K := by
  unfold SwiftSnapshot.jobNames
  rw [name, status]

theorem Clear.setStatus (clear : Clear K st uid names) : Clear K (st.setStatus uid status) uid names := by
  refine ⟨clear.jobs, ?_⟩
  intro s' here other n member
  obtain ⟨s, before, sameUid, name, ⟨same, -⟩ | ⟨-, kept⟩⟩ := mem_setStatus here
  · exact (other (sameUid.trans same)).elim
  · exact clear.snaps s before (sameUid ▸ other) n (jobNames_eq name kept ▸ member)

theorem Tidy.setStatus (tidy : Tidy K st) (own : ∀ owner ∈ status.evidence, owner = uid)
    (careful : ∀ snap ∈ st.snaps, snap.uid = uid → status.dataDisks ≠ snap.status.dataDisks →
      Clear K st uid (transferJobNames K snap.name status.dataDisks)) : Tidy K (st.setStatus uid status) := by
  have fresh : ∀ s ∈ st.snaps, s.uid = uid → Clear K st uid (transferJobNames K s.name status.dataDisks) := by
    intro s here same
    by_cases kept : status.dataDisks = s.status.dataDisks
    · rw [kept, ← same]
      exact tidy.clear s here
    · exact careful s here same kept
  constructor
  · intro s' here
    obtain ⟨s, before, sameUid, name, ⟨same, new⟩ | ⟨other, kept⟩⟩ := mem_setStatus here
    · have here' : Clear K (st.setStatus uid status) uid (transferJobNames K s.name status.dataDisks) :=
        (fresh s before same).setStatus
      unfold SwiftSnapshot.jobNames
      rw [sameUid, name, new, same]
      exact here'
    · have old := tidy.clear s before
      rw [sameUid, jobNames_eq name kept]
      refine ⟨old.jobs, ?_⟩
      intro t' there apart n member
      obtain ⟨t, before', sameUid', name', ⟨same', new'⟩ | ⟨-, kept'⟩⟩ := mem_setStatus there
      · have disjoint := (fresh t before' same').snaps s before other
        unfold SwiftSnapshot.jobNames at member
        rw [name', new'] at member
        exact fun also => disjoint n also member
      · exact old.snaps t before' (sameUid' ▸ apart) n (jobNames_eq name' kept' ▸ member)
  · intro s' here
    obtain ⟨s, before, sameUid, name, ⟨same, new⟩ | ⟨other, kept⟩⟩ := mem_setStatus here
    · rw [sameUid, new, same]
      exact own
    · rw [sameUid, kept]
      exact tidy.own s before

variable {snap : SwiftSnapshot}

theorem perform_clear (tidy : Tidy K st) (clear : Clear K st snap.uid (snap.jobNames K))
    (evidence : ∀ owner ∈ snap.status.evidence, owner = snap.uid) (own : o.Own K snap (· = snap.uid) True)
    (careful : o.Careful K st) {a : o.Res} (result : st.perform c o = .ok (st', a)) :
    Tidy K st' ∧ Clear K st' snap.uid (snap.jobNames K) := by
  cases o with
  | createJob name owner target =>
    obtain ⟨rfl, member, -⟩ := own
    simp only [State.perform] at result
    split at result <;> cases result
    refine ⟨⟨?_, tidy.own⟩, clear.createJob (fun _ => rfl) rfl rfl⟩
    intro s here
    refine (tidy.clear s here).createJob ?_ rfl rfl
    intro also
    by_contra other
    exact clear.snaps s here (Ne.symm other) name also member
  | updateStatus name uid' version status =>
    obtain ⟨rfl, edit⟩ := own
    simp only [State.perform] at result
    split at result
    · cases result
    · split at result <;> cases result
      exact ⟨tidy.setStatus (edit.evidence evidence) careful, clear.setStatus⟩
  | _ =>
    cases result
    exact ⟨tidy, clear⟩

theorem step_clear {r : Except Err o.Res} (tidy : Tidy K st) (clear : Clear K st snap.uid (snap.jobNames K))
    (evidence : ∀ owner ∈ snap.status.evidence, owner = snap.uid) (own : o.Own K snap (· = snap.uid) True)
    (step : (clearMachine K).step () st o r st') :
    Honest (· = snap.uid) (snap.jobNames K) o r ∧ Tidy K st' ∧ Clear K st' snap.uid (snap.jobNames K) := by
  obtain ⟨c, careful, result⟩ := step
  rcases withFault_cases (Option.some.inj result) with ⟨a, rfl, done⟩ | ⟨e, rfl, rfl | ⟨a, done⟩⟩
  · exact ⟨perform_honest clear done, perform_clear tidy clear evidence own careful done⟩
  · refine ⟨?_, tidy, clear⟩
    cases o <;> trivial
  · refine ⟨?_, perform_clear tidy clear evidence own careful done⟩
    cases o <;> trivial

end Steps

def tidying (K : Site) : Spec Unit State Op where
  inv := Tidy K
  rely _ := Shrinks
  guar _ _ _ := True
  pre _ _ _ := True

theorem wp_owns {snap : SwiftSnapshot} {prog : Act Unit} (owns : Owns K snap (· = snap.uid) True prog fun _ => True)
    (evidence : ∀ owner ∈ snap.status.evidence, owner = snap.uid) (tidy : Tidy K st)
    (clear : Clear K st snap.uid (snap.jobNames K)) :
    wp (clearMachine K) (tidying K) () prog (fun _ _ => True) st := by
  refine wp_mono (fun _ _ _ => trivial) (wp_yields (P := fun st => Tidy K st ∧ Clear K st snap.uid (snap.jobNames K))
    ?_ owns ⟨tidy, clear⟩)
  intro o st own known
  refine ⟨trivial, ?_⟩
  intro r st' step
  obtain ⟨honest, tidy', clear'⟩ := step_clear known.1 known.2 evidence own step
  exact ⟨honest, tidy', trivial, fun st'' shrinks tidy'' => ⟨tidy'', clear'.shrinks shrinks⟩⟩

theorem wp_tidy_reconcile (name : String) (tidy : Tidy K st) :
    wp (clearMachine K) (tidying K) () (reconcile K name) (fun _ _ => True) st := by
  unfold reconcile
  rw [wp_bind]
  refine (wp_call _ _ st).mpr ⟨trivial, ?_⟩
  rintro r st' ⟨c, -, result⟩
  rcases withFault_cases (Option.some.inj result) with ⟨found, rfl, done⟩ | ⟨e, rfl, rfl | ⟨a, done⟩⟩
  · cases done
    refine ⟨tidy, trivial, ?_⟩
    intro st'' shrinks tidy''
    rw [onOk_ok]
    cases found : st.snapshot? name with
    | none => trivial
    | some snap =>
      have here : snap ∈ st.snaps := List.mem_of_find?_eq_some found
      have clear := (tidy.clear snap here).shrinks shrinks
      have own := tidy.own snap here
      dsimp only
      split
      · trivial
      · split
        · trivial
        · trivial
        · split
          · exact wp_owns (owns_persist rfl (.fails .held)) own tidy'' clear
          · next ready failed invalid =>
            have valid : checkBackendDestination snap.backend = true := by simpa using invalid
            split
            · next capturing => exact wp_owns (owns_handleCapturing (by simp [capturing, Phase.started])) own tidy'' clear
            · next uploading => exact wp_owns (owns_handleUploading (by simp [uploading, Phase.started])) own tidy'' clear
            · next capturing uploading =>
              refine wp_owns (owns_handlePending ?_ valid trivial) own tidy'' clear
              cases phase : snap.status.phase <;> simp_all [Phase.started]
  · exact ⟨tidy, trivial, fun _ _ _ => trivial⟩
  · cases done
    exact ⟨tidy, trivial, fun _ _ _ => trivial⟩

theorem tidying_suits : Suits (clearMachine K) (tidying K) (clearSetting K) where
  refl _ := Shrinks.refl
  trans _ _ _ _ := Shrinks.trans
  env _ _ tidy moves := by
    obtain ⟨e, old, rfl⟩ := moves
    exact ⟨tidy.shrinks (shrinks_event old), fun _ => shrinks_event old⟩
  quiet _ _ tidy moves := by
    obtain ⟨e, careful, rfl⟩ := moves
    exact tidy.event careful
  starts _ _ _ offer tidy := by
    obtain ⟨name, rfl⟩ := offer
    exact wp_tidy_reconcile name tidy

theorem tidy_empty : Tidy K emptyNamespace :=
  ⟨fun _ here => (List.not_mem_nil here).elim, fun _ here => (List.not_mem_nil here).elim⟩

/-- Every Job that the status of a snapshot rests on was created for that object. -/
theorem credited_with_own_jobs (K : Site) {s : Loops Unit State Op Op.Res Err} (runs : ClearRuns K s) :
    ∀ snap ∈ s.world.snaps, ∀ owner ∈ snap.status.evidence, owner = snap.uid :=
  (loopsSound_reach tidying_suits tidy_empty runs).inv.own

def clearCheck (K : Site) (st : State) (uid : String) (names : List String) : Bool :=
  st.jobs.all (fun job => decide (job.name ∈ names → job.owner = uid)) &&
  st.snaps.all fun s => decide (s.uid ≠ uid → ∀ n ∈ s.jobNames K, n ∉ names)

theorem clear_of_check {names : List String} (checked : clearCheck K st uid names) : Clear K st uid names := by
  obtain ⟨jobs, snaps⟩ := Bool.and_eq_true_iff.mp checked
  exact ⟨fun job here => of_decide_eq_true (List.all_eq_true.mp jobs job here),
    fun s here => of_decide_eq_true (List.all_eq_true.mp snaps s here)⟩

def carefulCheck (K : Site) (st : State) : Op → Bool
  | .updateStatus _ uid _ status => st.snaps.all fun snap =>
    decide (snap.uid ≠ uid) || decide (status.dataDisks = snap.status.dataDisks) ||
      clearCheck K st uid (transferJobNames K snap.name status.dataDisks)
  | _ => true

theorem careful_of_check {o : Op} (checked : carefulCheck K st o) : o.Careful K st := by
  cases o with
  | updateStatus name uid version status =>
    intro snap here same changed
    have any := List.all_eq_true.mp checked snap here
    simp only [same, changed, ne_eq, not_true_eq_false, decide_false, Bool.false_or] at any
    exact clear_of_check any
  | _ => trivial

def carefully (K : Site) (e : Event) (st : State) : State :=
  match e with
  | .create name uid _ _ => if clearCheck K st uid (transferJobNames K name []) then e.apply st else st
  | _ => e.apply st

theorem carefully_quiet (e : Event) (st : State) : (clearSetting K).quiet st (carefully K e st) := by
  unfold carefully
  split
  · next name uid backend includeDisk =>
    split
    · next checked => exact ⟨.create name uid backend includeDisk, clear_of_check checked, rfl⟩
    · exact ⟨.tick 0, trivial, rfl⟩
  · next other =>
    refine ⟨e, ?_, rfl⟩
    cases e with
    | create name uid backend includeDisk => exact (other name uid backend includeDisk rfl).elim
    | _ => trivial

theorem carefully_env (old : e.creates = false) (st : State) : (clearSetting K).env st (carefully K e st) := by
  refine ⟨e, old, ?_⟩
  cases e with
  | create name uid backend includeDisk => cases old
  | _ => rfl

abbrev TransferMoves := List (LoopMove Unit Choice String Event)

def transferScript (K : Site) (check : State → Op → Choice → Bool) (event : Event → State → State) :
    Script Unit Choice State Op Op.Res Err String Event where
  engine := engine
  calls := reconcile K
  event := event
  check _ := check
  pids := [()]

theorem clear_fits : (transferScript K (fun st o _ => carefulCheck K st o) (carefully K)).Fits (clearSetting K)
    (fun _ st o _ => o.Careful K st) (V := (·.creates = false)) (Q := fun _ => True) where
  passes _ _ _ _ := careful_of_check
  offers _ name _ := ⟨name, rfl⟩
  env e st old := carefully_env old st
  quiet e st _ := carefully_quiet e st

theorem checked_fits (check : State → Op → Choice → Bool) {allowed : State → Op → Choice → Prop}
    (passes : ∀ st o c, check st o c = true → allowed st o c) :
    (transferScript K check fun e st => e.apply st).Fits (transferSetting K) fun _ => allowed where
  passes _ := passes
  offers _ name _ := ⟨name, rfl⟩
  env e _ _ := ⟨e, rfl⟩

def passOf (name : String) (choices : List Choice) : TransferMoves :=
  .start () name :: choices.map (.op ()) ++ [.finish ()]

def captures (name : String) (dataDisks : List String) : TransferMoves :=
  passOf name [{}, { start := .capture dataDisks }, {}, {}, {}] ++ passOf name [{}, { capture := .ready }, {}, {}, {}]

def capturesOCI (name : String) (dataDisks : List String) : TransferMoves :=
  passOf name [{}, {}] ++ passOf name [{}, {}, { start := .capture dataDisks }, {}, {}, {}] ++
    passOf name [{}, { capture := .ready }, {}, {}, {}]

def smallSite : Site := ⟨"ns", fun s => s⟩

def fullState (tag : String) : Backend := .oci (some ⟨"registry", tag⟩)

def ownUploads : TransferMoves :=
  .quiet (.create "a" "1" (fullState "x") true) :: capturesOCI "a" ["data"] ++
    passOf "a" [{}, {}, {}, {}, {}, {}, {}, {}] ++
    [.env (.finishJob "a-oci-disk" true (some (some 1, 5))), .env (.finishJob "a-oci-disk-data" true (some (some 2, 5))),
      .env (.finishJob "a-oci-push" true (some (some 3, 5)))] ++
    passOf "a" [{}, {}, {}, {}, {}, {}, {}, {}, {}, {}]

theorem credited_with_own_jobs_uploaded :
    ∃ s : Loops Unit State Op Op.Res Err, ClearRuns smallSite s ∧
      ∃ snap ∈ s.world.snaps, snap.status.phase = .ready ∧ snap.status.evidence.length = 6 ∧
        ∀ owner ∈ snap.status.evidence, owner = snap.uid := by
  have played : ∃ s : Loops Unit State Op Op.Res Err, ClearRuns smallSite s ∧
      ∃ snap ∈ s.world.snaps, snap.status.phase = .ready ∧ snap.status.evidence.length = 6 :=
    exists_of_play clear_fits ownUploads (by decide +kernel)
  obtain ⟨s, runs, snap, here, ready, used⟩ := played
  exact ⟨s, runs, snap, here, ready, used, credited_with_own_jobs smallSite runs snap here⟩

/-- The snapshot is deleted, and one of the same name is taken while the finished Job of the first is still there. -/
def takesOver : TransferMoves :=
  .env (.create "a" "1" .s3 false) :: captures "a" [] ++ [.env (.finishJob "a-s3-upload" true (some (none, 5)))] ++
    [.env (.delete "a"), .env (.gone "a"), .env (.create "a" "2" .s3 false)] ++ captures "a" [] ++
    passOf "a" [{}, {}, {}, {}]

/-- A data disk's name makes the Job of one snapshot bear the name of another's. -/
def sharesName : TransferMoves :=
  .env (.create "a" "1" (fullState "x") true) :: capturesOCI "a" ["b-oci-disk"] ++
    passOf "a" [{}, {}, {}, {}, {}, {}, {}, {}] ++ [.env (.finishJob "a-oci-disk-b-oci-disk" false none)] ++
    [.env (.create "a-oci-disk-b" "2" (fullState "y") true)] ++ capturesOCI "a-oci-disk-b" [] ++
    passOf "a-oci-disk-b" [{}, {}, {}, {}, {}]

theorem credited_with_own_jobs_unmet :
    (∃ s : Loops Unit State Op Op.Res Err, TransferRuns smallSite s ∧
      ∃ snap ∈ s.world.snaps, snap.uid = "2" ∧ snap.status.phase = .ready ∧ "1" ∈ snap.status.evidence) ∧
    ∃ s : Loops Unit State Op Op.Res Err, TransferRuns smallSite s ∧
      ∃ snap ∈ s.world.snaps, snap.uid = "2" ∧ snap.status.phase = .failed ∧ "1" ∈ snap.status.evidence := by
  constructor
  · exact exists_of_play (checked_fits (fun _ _ _ => true) fun _ _ _ _ => trivial) takesOver (by decide +kernel)
  · exact exists_of_play (checked_fits (fun _ _ _ => true) fun _ _ _ _ => trivial) sharesName (by decide +kernel)

end KubeSwift.Transfer
