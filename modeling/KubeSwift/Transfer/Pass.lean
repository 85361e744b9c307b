import KubeSwift.Transfer.Controller

/-! # What one pass does

Every Job a pass creates and every status it writes. -/

namespace KubeSwift.Transfer
open Program Prog

variable (K : Site)

def transferJobNames (name : String) (dataDisks : List String) : List String :=
  K.jobName name "-s3-upload" :: K.jobName name "-oci-push" :: K.jobName name "-oci-disk" ::
    dataDisks.map fun disk => K.jobName name ("-oci-disk-" ++ disk)

def SwiftSnapshot.jobNames (snap : SwiftSnapshot) : List String :=
  transferJobNames K snap.name snap.status.dataDisks

def SwiftSnapshot.tags (snap : SwiftSnapshot) : List String :=
  K.reference snap (K.ociTag snap) ::
    if snap.includeDisk then
      K.reference snap (K.ociDiskTag snap) ::
        snap.status.dataDisks.map fun disk => K.reference snap (K.ociDataDiskTag snap disk)
    else []

def Phase.started : Phase → Bool
  | .unset | .pending => false
  | _ => true

inductive Edit (snap : SwiftSnapshot) (ok : String → Prop) (claims : Prop) : Status → Prop
  | held : Edit snap ok claims snap.status
  | waits {s : Status} (unstarted : snap.status.phase.started = false) (old : Edit snap ok claims s) :
      Edit snap ok claims { s with phase := .pending }
  | located {s : Status} {l : Location} (unstarted : snap.status.phase.started = false) (usable : l.repository ≠ "")
      (old : Edit snap ok claims s) : Edit snap ok claims { s with location := some l, phase := .pending }
  | disks {s : Status} {names : List String} (unstarted : snap.status.phase.started = false)
      (old : Edit snap ok claims s) : Edit snap ok claims { s with dataDisks := names }
  | captures {s : Status} (unstarted : snap.status.phase.started = false) (claimed : claims)
      (same : s.location = snap.status.location) (old : Edit snap ok claims s) :
      Edit snap ok claims { s with phase := .capturing }
  | fails {s : Status} (old : Edit snap ok claims s) : Edit snap ok claims { s with phase := .failed }
  | failedBy {s : Status} {owners : List String} (own : ∀ owner ∈ owners, ok owner) (old : Edit snap ok claims s) :
      Edit snap ok claims (failedBy s owners)
  | uploads {s : Status} (old : Edit snap ok claims s) (begun : snap.status.phase.started = true) :
      Edit snap ok claims { s with phase := .uploading }
  | uploaded {s : Status} {report : Option Report} {owners : List String} (begun : snap.status.phase.started = true)
      (own : ∀ owner ∈ owners, ok owner) (old : Edit snap ok claims s) :
      Edit snap ok claims { s with phase := .ready, s3 := some report, evidence := s.evidence ++ owners }
  | stamped {s : Status} {owners : List String} {reports : List (Option String × Report)}
      (begun : snap.status.phase.started = true) (own : ∀ owner ∈ owners ++ reports.map (·.2.source), ok owner)
      (old : Edit snap ok claims s) : Edit snap ok claims (stampDisks s owners reports)
  | pushed {s : Status} {o : OCIStatus} {owners : List String} (begun : snap.status.phase.started = true)
      (reference : o.reference = K.reference snap (K.ociTag snap)) (own : ∀ owner ∈ owners, ok owner)
      (old : Edit snap ok claims s) :
      Edit snap ok claims { s with phase := .ready, oci := some o, evidence := s.evidence ++ owners }

theorem all_append {ok : String → Prop} {old new : List String} (first : ∀ owner ∈ old, ok owner) (second : ∀ owner ∈ new, ok owner) :
    ∀ owner ∈ old ++ new, ok owner := by
  intro owner member
  rcases List.mem_append.mp member with here | here
  · exact first owner here
  · exact second owner here

variable {K} in
theorem Edit.evidence {snap : SwiftSnapshot} {ok : String → Prop} {claims : Prop} {status : Status}
    (edit : Edit K snap ok claims status) (own : ∀ owner ∈ snap.status.evidence, ok owner) :
    ∀ owner ∈ status.evidence, ok owner := by
  induction edit with
  | held => exact own
  | waits _ _ ih | located _ _ _ ih | disks _ _ ih | captures _ _ _ _ ih | fails _ ih | uploads _ _ ih => exact ih
  | failedBy new _ ih | uploaded _ new _ ih | pushed _ _ new _ ih => exact all_append ih new
  | stamped _ new _ ih =>
    intro owner member
    exact all_append ih new owner (by simpa [stampDisks] using member)

def Op.Own (snap : SwiftSnapshot) (ok : String → Prop) (claims : Prop) : Op → Prop
  | .createJob name owner target => owner = snap.uid ∧ name ∈ snap.jobNames K ∧ snap.status.phase.started = true ∧
      (snap.backend ≠ .s3 → target ∈ snap.tags K)
  | .updateStatus _ uid _ status => uid = snap.uid ∧ Edit K snap ok claims status
  | _ => True

def Honest (ok : String → Prop) (names : List String) : (o : Op) → Except Err o.Res → Prop
  | .getJob n, .ok (some job) => n ∈ names → ok job.owner
  | .jobTransferReport n, .ok (some report) => n ∈ names → ok report.source
  | _, _ => True

abbrev Owns (snap : SwiftSnapshot) (ok : String → Prop) (claims : Prop) {α : Type} (prog : Act α) (V : α → Prop) : Prop :=
  prog.Yields (Op.Own K snap ok claims) (Honest ok (snap.jobNames K)) V

section Programs

variable {K} {snap : SwiftSnapshot} {ok : String → Prop} {claims : Prop} {status : Status}

theorem owns_call {o : Op} {V : o.Res → Prop} (own : o.Own K snap ok claims)
    (answers : ∀ a, Honest ok (snap.jobNames K) o (.ok a) → V a) : Owns K snap ok claims (issue o) V :=
  yields_call own answers

theorem owns_persist {snap' : SwiftSnapshot} (same : snap'.uid = snap.uid) (edit : Edit K snap ok claims status) :
    Owns K snap ok claims (persist snap' status) fun _ => True :=
  yields_then (owns_call ⟨same, edit⟩ fun _ _ => trivial) fun _ => trivial

variable {name : String}

theorem owns_ensureJob {target : String} (mine : name ∈ snap.jobNames K) (begun : snap.status.phase.started = true)
    (written : snap.backend ≠ .s3 → target ∈ snap.tags K) :
    Owns K snap ok claims (ensureJob snap name target) fun _ => True := by
  refine yields_then (yields_attempt (owns_call ⟨rfl, mine, begun, written⟩ fun _ _ => trivial) fun _ => trivial) ?_
  intro result
  split <;> trivial

theorem upload_mem : K.s3UploadJobName snap ∈ snap.jobNames K := by
  simp [SwiftSnapshot.jobNames, transferJobNames, Site.s3UploadJobName]

theorem push_mem : K.ociPushJobName snap ∈ snap.jobNames K := by
  simp [SwiftSnapshot.jobNames, transferJobNames, Site.ociPushJobName]

theorem owns_ensureUploadJob (begun : snap.status.phase.started = true) (s3 : snap.backend = .s3) :
    Owns K snap ok claims (ensureUploadJob K snap) fun _ => True := by
  refine yields_then (owns_call trivial fun _ _ => trivial) ?_
  intro configured
  split
  · exact owns_ensureJob upload_mem begun fun other => (other s3).elim
  · trivial

theorem owns_ensureOCIPushJob (begun : snap.status.phase.started = true) :
    Owns K snap ok claims (ensureOCIPushJob K snap) fun _ => True := by
  refine yields_then (owns_call trivial fun _ _ => trivial) ?_
  intro configured
  split
  · exact owns_ensureJob push_mem begun fun _ => List.mem_cons_self
  · trivial

theorem owns_handlePendingLocal (unstarted : snap.status.phase.started = false) (claimed : claims) :
    Owns K snap ok claims (handlePendingLocal snap snap.status) fun _ => True := by
  refine yields_then (owns_call trivial fun _ _ => trivial) ?_
  intro answer
  cases answer with
  | wait => exact owns_persist rfl (.waits unstarted .held)
  | refuse => exact owns_persist rfl (.fails .held)
  | capture dataDisks =>
    have recorded : ∀ names, Edit K snap ok claims { snap.status with dataDisks := names } :=
      fun names => .disks unstarted .held
    refine yields_then (yields_attempt (owns_call ⟨rfl, recorded _⟩ fun _ _ => trivial) fun _ => trivial) ?_
    intro result
    split
    · exact owns_persist rfl (recorded _)
    · trivial
    · refine yields_then (owns_call trivial fun _ _ => trivial) ?_
      intro sent
      split
      · exact owns_persist rfl (.captures unstarted claimed rfl (recorded _))
      · exact owns_persist rfl (recorded _)

theorem owns_recordLocation {found : Option Location} (unstarted : snap.status.phase.started = false)
    (usable : ∀ l, found = some l → l.repository ≠ "") :
    Owns K snap ok claims (match found with
        | none => persist snap { snap.status with phase := .pending }
        | some location => persist snap { snap.status with location := some location, phase := .pending })
      fun _ => True := by
  cases found with
  | none => exact owns_persist rfl (.waits unstarted .held)
  | some l => exact owns_persist rfl (.located unstarted (usable l rfl) .held)

theorem owns_resolveLocation (valid : checkBackendDestination snap.backend = true) (unset : snap.status.location = none) :
    Owns K snap ok claims (resolveLocation K snap) fun found => ∀ l, found = some l → l.repository ≠ "" := by
  unfold resolveLocation
  split
  · next explicit backend =>
    have named : explicit.repository ≠ "" := by
      rw [backend, checkBackendDestination, Bool.and_eq_true] at valid
      exact of_decide_eq_true valid.1
    intro l same
    cases same
    simp [Site.ociConn, Site.snapshotOCI, Site.snapshotOCI.ofSpec, unset, backend, named]
  · refine yields_then (owns_call trivial fun _ _ => trivial) ?_
    intro repository
    split
    · exact nofun
    · split
      · exact nofun
      · next usable =>
        intro l same
        cases same
        exact usable

theorem owns_handlePending (unstarted : snap.status.phase.started = false)
    (valid : checkBackendDestination snap.backend = true) (claimed : claims) :
    Owns K snap ok claims (handlePending K snap snap.status) fun _ => True := by
  unfold handlePending
  split
  · next unset =>
    exact yields_seq (owns_resolveLocation valid unset.2) fun _ usable => owns_recordLocation unstarted usable
  · refine yields_then ?_ ?_
    · unfold ociTagConflict
      split
      · trivial
      · exact yields_then (owns_call trivial fun _ _ => trivial) fun _ => trivial
    · intro conflict
      split
      · exact owns_persist rfl (.fails .held)
      · exact owns_handlePendingLocal unstarted claimed

theorem owns_handleCapturing (begun : snap.status.phase.started = true) :
    Owns K snap ok claims (handleCapturing K snap snap.status) fun _ => True := by
  refine yields_then (owns_call trivial fun _ _ => trivial) ?_
  intro answer
  cases answer with
  | wait => exact owns_persist rfl .held
  | failed => exact owns_persist rfl (.fails .held)
  | ready =>
    dsimp only
    split
    · next s3 => exact yields_then (owns_ensureUploadJob begun s3) fun _ => owns_persist rfl (.uploads .held begun)
    · exact yields_then (owns_ensureOCIPushJob begun) fun _ => owns_persist rfl (.uploads .held begun)

theorem owns_getJob (mine : name ∈ snap.jobNames K) :
    Owns K snap ok claims (issue (.getJob name)) fun found => ∀ job, found = some job → ok job.owner := by
  refine owns_call trivial ?_
  intro found honest job same
  rw [same] at honest
  exact honest mine

theorem owns_report (mine : name ∈ snap.jobNames K) :
    Owns K snap ok claims (issue (.jobTransferReport name)) fun found => ∀ report, found = some report → ok report.source := by
  refine owns_call trivial ?_
  intro found honest report same
  rw [same] at honest
  exact honest mine

theorem owns_handleUploadingS3 (begun : snap.status.phase.started = true) (s3 : snap.backend = .s3) :
    Owns K snap ok claims (handleUploadingS3 K snap snap.status) fun _ => True := by
  refine yields_seq (owns_getJob upload_mem) ?_
  intro found mine
  split
  · exact yields_then (owns_ensureUploadJob begun s3) fun _ => owns_persist rfl .held
  · next job =>
    have ours : ∀ owner ∈ [job.owner], ok owner := by simpa using mine job rfl
    split
    · exact owns_persist rfl .held
    · exact owns_persist rfl (.failedBy ours .held)
    · have reads : Owns K snap ok claims (issue (.jobTransferReport (K.s3UploadJobName snap))).attempt fun result =>
          ∀ report, result.toOption.join = some report → ok report.source := by
        refine yields_attempt (yields_mono ?_ (owns_report upload_mem)) nofun
        intro found mine report same
        exact mine report same
      refine yields_seq reads ?_
      intro result mine'
      have all : ∀ owner ∈ [job.owner] ++ (result.toOption.join.map Report.source).toList, ok owner := by
        refine all_append ours ?_
        intro owner member
        obtain ⟨report, here, rfl⟩ := Option.map_eq_some_iff.mp (Option.mem_toList.mp member)
        exact mine' report here
      refine owns_persist rfl ?_
      rw [List.append_assoc]
      exact .uploaded begun all .held

def Pushed.sources : Pushed → List String
  | .artifact report => [report.source]
  | .wait => []
  | .unreadable source => source.toList

theorem owns_pushedArtifact (mine : name ∈ snap.jobNames K) :
    Owns K snap ok claims (pushedArtifact name) fun verdict => ∀ owner ∈ verdict.sources, ok owner := by
  refine yields_seq (owns_report mine) ?_
  intro found own
  split
  · next report =>
    have source := own report rfl
    split
    · simpa [Pushed.sources] using source
    · refine yields_then (owns_call trivial fun _ _ => trivial) ?_
      intro isOver
      split
      · simpa [Pushed.sources] using source
      · simp [Pushed.sources]
  · refine yields_then (owns_call trivial fun _ _ => trivial) ?_
    intro isOver
    split <;> simp [Pushed.sources]

theorem owns_handleUploadingOCI (begun : snap.status.phase.started = true) (edit : Edit K snap ok claims status) :
    Owns K snap ok claims (handleUploadingOCI K snap status) fun _ => True := by
  refine yields_seq (owns_getJob push_mem) ?_
  intro found mine
  split
  · exact yields_then (owns_ensureOCIPushJob begun) fun _ => owns_persist rfl edit
  · next job =>
    have ours := mine job rfl
    split
    · exact owns_persist rfl edit
    · exact owns_persist rfl (.failedBy (by simpa using ours) edit)
    · refine yields_seq (owns_pushedArtifact push_mem) ?_
      intro verdict sources
      cases verdict with
      | wait => exact owns_persist rfl edit
      | unreadable source =>
        refine owns_persist rfl (.failedBy ?_ edit)
        simpa [Pushed.sources, ours] using sources
      | artifact report =>
        refine owns_persist rfl (.pushed begun rfl ?_ edit)
        simpa [Pushed.sources, ours] using sources

theorem target_mem {t : ChunkTarget} (member : t ∈ chunkTargets K snap snap.status) :
    t.jobName ∈ snap.jobNames K ∧ (snap.includeDisk = true → K.reference snap t.tag ∈ snap.tags K) := by
  rcases List.mem_cons.mp member with rfl | disk
  · refine ⟨?_, ?_⟩
    · simp [SwiftSnapshot.jobNames, transferJobNames, Site.diskChunkJobName]
    · intro full
      simp [SwiftSnapshot.tags, full]
  · obtain ⟨name, here, rfl⟩ := List.mem_map.mp disk
    refine ⟨?_, ?_⟩
    · simp only [SwiftSnapshot.jobNames, transferJobNames, Site.dataDiskChunkJobName, List.mem_cons]
      exact .inr (.inr (.inr (List.mem_map.mpr ⟨name, here, rfl⟩)))
    · intro full
      simp only [SwiftSnapshot.tags, full, if_true, List.mem_cons]
      exact .inr (.inr (List.mem_map.mpr ⟨name, here, rfl⟩))

def Chunks.owners : Chunks → List String
  | .failed owner => [owner]
  | .done _ owners => owners

theorem owns_ensureChunkJobs (begun : snap.status.phase.started = true) (full : snap.includeDisk = true)
    (targets : List ChunkTarget) (mine : ∀ t ∈ targets, t ∈ chunkTargets K snap snap.status) :
    Owns K snap ok claims (ensureChunkJobs K snap targets) fun chunks => ∀ owner ∈ chunks.owners, ok owner := by
  induction targets with
  | nil => exact nofun
  | cons t rest ih =>
    have later := ih fun t member => mine t (List.mem_cons_of_mem _ member)
    obtain ⟨here, written⟩ := target_mem (mine t (by simp))
    refine yields_seq (owns_getJob here) ?_
    intro found own
    split
    · refine yields_then (owns_ensureJob here begun fun _ => written full) ?_
      intro _
      refine yields_seq later ?_
      intro chunks owners
      cases chunks <;> exact owners
    · next job =>
      have ours := own job rfl
      split
      · simpa [Chunks.owners] using ours
      · refine yields_seq later ?_
        intro chunks owners
        cases chunks <;> exact owners
      · refine yields_seq later ?_
        intro chunks owners
        cases chunks with
        | failed owner => exact owners
        | done all old => simpa [Chunks.owners, ours] using owners

def Reports.sources : Reports → List String
  | .wait => []
  | .unreadable source => source.toList
  | .all reports => reports.map fun entry => entry.2.source

theorem owns_chunkReports (targets : List ChunkTarget) (mine : ∀ t ∈ targets, t ∈ chunkTargets K snap snap.status) :
    Owns K snap ok claims (chunkReports targets) fun reports => ∀ owner ∈ reports.sources, ok owner := by
  induction targets with
  | nil => exact nofun
  | cons t rest ih =>
    have later := ih fun t member => mine t (List.mem_cons_of_mem _ member)
    refine yields_seq (owns_pushedArtifact (target_mem (mine t (by simp))).1) ?_
    intro verdict sources
    cases verdict with
    | wait => exact nofun
    | unreadable source => exact sources
    | artifact report =>
      refine yields_seq later ?_
      intro reports others
      cases reports with
      | wait | unreadable source => exact others
      | all reports =>
        intro owner member
        rcases List.mem_cons.mp member with rfl | before
        · exact sources _ (List.mem_singleton.mpr rfl)
        · exact others owner before

theorem owns_handleFullStateDiskCapture (begun : snap.status.phase.started = true) (full : snap.includeDisk = true) :
    Owns K snap ok claims (handleFullStateDiskCapture K snap snap.status) fun result =>
      ∀ status, result = some status → Edit K snap ok claims status := by
  have stops : ∀ {status : Status}, Edit K snap ok claims status →
      Owns K snap ok claims (persist snap status >>= fun _ => pure (none : Option Status)) fun result =>
        ∀ status, result = some status → Edit K snap ok claims status :=
    fun edit => yields_then (owns_persist rfl edit) fun _ => nofun
  refine yields_then (owns_call trivial fun _ _ => trivial) ?_
  intro configured
  split
  · refine yields_then (owns_call trivial fun _ _ => trivial) ?_
    intro gone
    split
    · refine yields_seq (owns_ensureChunkJobs begun full _ fun _ => id) ?_
      intro chunks owners
      cases chunks with
      | failed owner => exact stops (.failedBy owners .held)
      | done all old =>
        dsimp only
        split
        · refine yields_seq (owns_chunkReports _ fun _ => id) ?_
          intro reports sources
          cases reports with
          | wait => exact stops .held
          | unreadable source => exact stops (.failedBy (all_append owners sources) .held)
          | all reports =>
            intro status same
            cases same
            exact .stamped begun (all_append owners sources) .held
        · exact stops .held
    · exact stops .held
  · exact stops (.fails .held)

theorem owns_handleUploading (begun : snap.status.phase.started = true) :
    Owns K snap ok claims (handleUploading K snap snap.status) fun _ => True := by
  unfold handleUploading
  split
  · next s3 => exact owns_handleUploadingS3 begun s3
  · split
    · next full =>
      refine yields_seq (owns_handleFullStateDiskCapture begun full.1) ?_
      intro result edits
      cases result with
      | none => trivial
      | some status => exact owns_handleUploadingOCI begun (edits status rfl)
    · exact owns_handleUploadingOCI begun .held

end Programs

end KubeSwift.Transfer
