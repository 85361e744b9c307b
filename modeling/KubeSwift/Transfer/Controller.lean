import KubeSwift.Program.Loops

/-! # Uploads of snapshots (`internal/controller/swiftsnapshot`, s3 and oci)

The snapshots of one namespace and the Jobs that move their artifacts. Capture and guest are answers to questions. -/

namespace KubeSwift.Transfer
open Program

structure Site where
  ns : String
  sha256 : String → String

def maxJobName : Nat := 63
def hashLen : Nat := 9
def maxTagLen : Nat := 128

def trimRight (s : String) : String :=
  String.ofList (s.toList.reverse.dropWhile fun c => c = '-' || c = '.').reverse

namespace Site

variable (K : Site)

def shortHash (s : String) : String := String.ofList ((K.sha256 s).toList.take 8)

def bounded (base suffix : String) (max : Nat) : String :=
  let full := base ++ suffix
  if full.length ≤ max then full
  else
    -- the suffix alone may leave no room
    let parts := if max < suffix.length + hashLen + 1 then (full, "") else (base, suffix)
    let head := trimRight (String.ofList (parts.1.toList.take (max - parts.2.length - hashLen)))
    if head = "" then K.shortHash full ++ parts.2 else head ++ "-" ++ K.shortHash full ++ parts.2

def jobName (base suffix : String) : String := K.bounded base suffix maxJobName

def truncateTag (tag : String) : String :=
  if tag.length ≤ maxTagLen then tag
  else String.ofList (tag.toList.take (maxTagLen - 9)) ++ "-" ++ K.shortHash tag

end Site

structure OCISpec where
  repository : String
  tag : String
  deriving DecidableEq

inductive Backend
  | s3
  | oci (explicit : Option OCISpec)
  deriving DecidableEq

inductive Phase
  | unset | pending | capturing | uploading | ready | failed
  deriving DecidableEq, Repr

structure Location where
  repository : String
  tag : String
  deriving DecidableEq

structure Report where
  manifestDigest : Option Nat
  totalBytes : Nat
  source : String
  deriving DecidableEq

structure OCIStatus where
  reference : String
  manifest : Option Report
  disk : Option Report
  dataDisks : List (String × Report)
  deriving DecidableEq

structure Status where
  phase : Phase
  location : Option Location
  dataDisks : List String
  oci : Option OCIStatus
  s3 : Option (Option Report)
  /-- The owners of the Jobs whose outcome or report this status rests on. Not in the API. -/
  evidence : List String
  deriving DecidableEq

structure SwiftSnapshot where
  name : String
  uid : String
  creationTimestamp : Nat
  version : Nat
  deletionTimestamp : Bool
  backend : Backend
  includeDisk : Bool
  status : Status
  deriving DecidableEq

inductive JobState
  | running | complete | failed
  deriving DecidableEq

structure Job where
  name : String
  owner : String
  target : String
  state : JobState
  report : Option (Option Nat × Nat)
  deriving DecidableEq

namespace Site

variable (K : Site) (snap : SwiftSnapshot)

def explicitOCITag : String :=
  match snap.backend with
  | .oci (some o) => if o.tag ≠ "" then o.tag else K.truncateTag (K.ns ++ "-" ++ snap.name)
  | _ => K.truncateTag (K.ns ++ "-" ++ snap.name)

def locationOCITag : String := K.truncateTag (snap.name ++ "-" ++ String.ofList (snap.uid.toList.take 8))

def snapshotOCI : Option Location :=
  match snap.status.location with
  | some l => if l.repository ≠ "" then some l else ofSpec
  | none => ofSpec
where
  ofSpec : Option Location :=
    match snap.backend with
    | .oci (some o) => if o.repository ≠ "" then some ⟨o.repository, K.explicitOCITag snap⟩ else none
    | _ => none

def ociReference : String :=
  match snap.backend with
  | .s3 => ""
  | .oci _ =>
    match snap.status.oci with
    | some o => if o.reference ≠ "" then o.reference else ofRegistry
    | none => ofRegistry
where
  ofRegistry : String :=
    match K.snapshotOCI snap with
    | some c => c.repository ++ ":" ++ c.tag
    | none => ""

def ociConn : Location := (K.snapshotOCI snap).getD ⟨"", ""⟩

def ociTag : String := (K.ociConn snap).tag

def ociDiskTag : String := K.truncateTag (K.ociTag snap ++ "-disk")

def ociDataDiskTag (disk : String) : String := K.truncateTag (K.ociTag snap ++ "-disk-" ++ disk)

def reference (tag : String) : String := (K.ociConn snap).repository ++ ":" ++ tag

def s3UploadJobName : String := K.jobName snap.name "-s3-upload"

def ociPushJobName : String := K.jobName snap.name "-oci-push"

def diskChunkJobName : String := K.jobName snap.name "-oci-disk"

def dataDiskChunkJobName (disk : String) : String := K.jobName snap.name ("-oci-disk-" ++ disk)

def s3Location : String := "s3://" ++ K.ns ++ "/" ++ snap.name ++ "/"

end Site

structure State where
  clock : Nat
  snaps : List SwiftSnapshot
  jobs : List Job
  known : List String
  /-- Every Job ever created, by its owner and what it writes. Not in the API. -/
  pushes : List (String × String)

inductive Err
  | conflict | alreadyExists | notFound | other
  deriving DecidableEq, Repr

inductive Begin
  | wait | refuse | capture (dataDisks : List String)
  deriving DecidableEq

inductive Capture
  | wait | failed | ready
  deriving DecidableEq

inductive Op
  | getSnapshot (name : String)
  | listSnapshots
  | getJob (name : String)
  | createJob (name owner target : String)
  | jobTransferReport (name : String)
  | updateStatus (name uid : String) (version : Nat) (status : Status)
  | resolveLocation
  | guest
  | dispatch
  | captured
  | imageConfigured
  | launcherGone
  | digestReadGraceOver

@[reducible] def Op.Res : Op → Type
  | .getSnapshot _ => Option SwiftSnapshot
  | .listSnapshots => List SwiftSnapshot
  | .getJob _ => Option Job
  | .createJob _ _ _ => Unit
  | .jobTransferReport _ => Option Report
  | .updateStatus _ _ _ _ => Nat
  | .resolveLocation => Option String
  | .guest => Begin
  | .captured => Capture
  | .dispatch | .imageConfigured | .launcherGone | .digestReadGraceOver => Bool

structure Choice where
  fault : Option (Err × Bool) := none
  repository : Option String := none
  start : Begin := .wait
  capture : Capture := .wait
  yes : Bool := true

def State.snapshot? (st : State) (name : String) : Option SwiftSnapshot := st.snaps.find? (·.name = name)

def State.job? (st : State) (name : String) : Option Job := st.jobs.find? (·.name = name)

def State.setStatus (st : State) (uid : String) (status : Status) : State :=
  { st with snaps := st.snaps.map fun snap =>
      if snap.uid = uid then { snap with status := status, version := snap.version + 1 } else snap }

def State.perform (st : State) (c : Choice) : (o : Op) → Except Err (State × o.Res)
  | .getSnapshot name => .ok (st, st.snapshot? name)
  | .listSnapshots => .ok (st, st.snaps)
  | .getJob name => .ok (st, st.job? name)
  | .createJob name owner target =>
    match st.job? name with
    | some _ => .error .alreadyExists
    | none =>
      .ok ({ st with
             jobs := ⟨name, owner, target, .running, none⟩ :: st.jobs
             pushes := (owner, target) :: st.pushes }, ())
  | .jobTransferReport name =>
    .ok (st, (st.job? name).bind fun job => job.report.map fun (digest, bytes) => ⟨digest, bytes, job.owner⟩)
  | .updateStatus name uid version status =>
    match st.snapshot? name with
    | none => .error .notFound
    | some snap =>
      if snap.uid = uid ∧ snap.version = version then .ok (st.setStatus uid status, version + 1)
      else .error .conflict
  | .resolveLocation => .ok (st, c.repository)
  | .guest => .ok (st, c.start)
  | .captured => .ok (st, c.capture)
  | .dispatch => .ok (st, c.yes)
  | .imageConfigured => .ok (st, c.yes)
  | .launcherGone => .ok (st, c.yes)
  | .digestReadGraceOver => .ok (st, c.yes)

def State.exec (c : Choice) (st : State) (o : Op) : State × Except Err o.Res := withFault st c.fault (st.perform c o)

def engine : Engine Unit Choice State Op Op.Res Err where
  exec _ c st o := some (st.exec c o)
  crash _ st := st

inductive Event
  | tick (seconds : Nat)
  | create (name uid : String) (backend : Backend) (includeDisk : Bool)
  | delete (name : String)
  | gone (name : String)
  | finishJob (name : String) (ok : Bool) (report : Option (Option Nat × Nat))
  | removeJob (name : String)
  deriving DecidableEq

def newSnapshot (st : State) (name uid : String) (backend : Backend) (includeDisk : Bool) : SwiftSnapshot where
  name := name
  uid := uid
  creationTimestamp := st.clock
  version := 0
  deletionTimestamp := false
  backend := backend
  includeDisk := includeDisk
  status := ⟨.unset, none, [], none, none, []⟩

def Event.apply (st : State) : Event → State
  | .tick seconds => { st with clock := st.clock + seconds }
  | .create name uid backend includeDisk =>
    if (st.snapshot? name).isSome ∨ uid ∈ st.known then st
    else { st with snaps := newSnapshot st name uid backend includeDisk :: st.snaps, known := uid :: st.known }
  | .delete name =>
    { st with snaps := st.snaps.map fun snap =>
        if snap.name = name then { snap with deletionTimestamp := true } else snap }
  | .gone name => { st with snaps := st.snaps.filter fun snap => ¬ (snap.name = name ∧ snap.deletionTimestamp) }
  | .finishJob name ok report =>
    { st with jobs := st.jobs.map fun job =>
        if job.name = name ∧ job.state = .running then
          { job with state := if ok then .complete else .failed, report := report }
        else job }
  | .removeJob name => { st with jobs := st.jobs.filter (·.name ≠ name) }

abbrev Act := Prog Op Op.Res Err

def issue (o : Op) : Act o.Res := Prog.call o

def persist (snap : SwiftSnapshot) (status : Status) : Act Unit := do
  let _ ← issue (.updateStatus snap.name snap.uid snap.version status)
  pure ()

/-- A Job that is already there is taken for the one wanted. -/
def ensureJob (snap : SwiftSnapshot) (name target : String) : Act Unit := do
  match ← (issue (.createJob name snap.uid target)).attempt with
  | .ok _ => pure ()
  | .error .alreadyExists => pure ()
  | .error e => .fail e

section Reconciler

variable (K : Site)

def ensureUploadJob (snap : SwiftSnapshot) : Act Unit := do
  if ← issue .imageConfigured then ensureJob snap (K.s3UploadJobName snap) (K.s3Location snap)
  else .fail .other

def ensureOCIPushJob (snap : SwiftSnapshot) : Act Unit := do
  if ← issue .imageConfigured then ensureJob snap (K.ociPushJobName snap) (K.reference snap (K.ociTag snap))
  else .fail .other

def resolveLocation (snap : SwiftSnapshot) : Act (Option Location) :=
  match snap.backend with
  | .oci (some _) => pure (some (K.ociConn snap))
  | _ => do
    match ← issue .resolveLocation with
    | none => pure none
    | some repository =>
      -- an invalid repository makes the snapshot wait
      if repository = "" then pure none else pure (some ⟨repository, K.locationOCITag snap⟩)

def ociReferenceHolders (snap : SwiftSnapshot) (all : List SwiftSnapshot) : List SwiftSnapshot :=
  all.filter fun o =>
    o.name ≠ snap.name && !o.deletionTimestamp &&
    !(o.status.phase = .failed && !(o.status.oci.any (·.reference ≠ ""))) &&
    K.ociReference o = K.ociReference snap

def ociTagConflict (snap : SwiftSnapshot) : Act Bool :=
  if K.ociReference snap = "" then pure false
  else do
    let all ← issue .listSnapshots
    pure <| (ociReferenceHolders K snap all).any fun h =>
      let started := h.status.phase ≠ .unset && h.status.phase ≠ .pending
      let older := h.creationTimestamp < snap.creationTimestamp ||
        (h.creationTimestamp = snap.creationTimestamp && h.name < snap.name)
      started || older

def handlePendingLocal (snap : SwiftSnapshot) (status : Status) : Act Unit := do
  match ← issue .guest with
  | .wait => persist snap { status with phase := .pending }
  | .refuse => persist snap { status with phase := .failed }
  | .capture dataDisks =>
    let recorded := { status with dataDisks := if snap.includeDisk then dataDisks else [] }
    match ← (issue (.updateStatus snap.name snap.uid snap.version recorded)).attempt with
    | .error .conflict => persist snap recorded
    | .error e => .fail e
    | .ok version =>
      let snap := { snap with version := version, status := recorded }
      if ← issue .dispatch then persist snap { recorded with phase := .capturing }
      else persist snap recorded

def handlePending (snap : SwiftSnapshot) (status : Status) : Act Unit :=
  if snap.backend ≠ .s3 ∧ status.location = none then do
    match ← resolveLocation K snap with
    | none => persist snap { status with phase := .pending }
    | some location => persist snap { status with location := some location, phase := .pending }
  else do
    if ← ociTagConflict K snap then persist snap { status with phase := .failed }
    else handlePendingLocal snap status

def handleCapturing (snap : SwiftSnapshot) (status : Status) : Act Unit := do
  match ← issue .captured with
  | .wait => persist snap status
  | .failed => persist snap { status with phase := .failed }
  | .ready =>
    match snap.backend with
    | .s3 => do
      ensureUploadJob K snap
      persist snap { status with phase := .uploading }
    | .oci _ => do
      ensureOCIPushJob K snap
      persist snap { status with phase := .uploading }

def failedBy (status : Status) (owners : List String) : Status :=
  { status with phase := .failed, evidence := status.evidence ++ owners }

def handleUploadingS3 (snap : SwiftSnapshot) (status : Status) : Act Unit := do
  match ← issue (.getJob (K.s3UploadJobName snap)) with
  | none => do
    ensureUploadJob K snap
    persist snap status
  | some job =>
    match job.state with
    | .running => persist snap status
    | .failed => persist snap (failedBy status [job.owner])
    | .complete => do
      -- the byte report is best-effort
      let report := ((← (issue (.jobTransferReport (K.s3UploadJobName snap))).attempt).toOption).join
      persist snap
        { status with
          phase := .ready
          s3 := some report
          evidence := status.evidence ++ [job.owner] ++ (report.map Report.source).toList }

inductive Pushed
  | artifact (report : Report)
  | wait
  | unreadable (source : Option String)

def pushedArtifact (jobName : String) : Act Pushed := do
  match ← issue (.jobTransferReport jobName) with
  | some report =>
    if report.manifestDigest.isSome then pure (.artifact report)
    else if ← issue .digestReadGraceOver then pure (.unreadable (some report.source))
    else pure .wait
  | none => if ← issue .digestReadGraceOver then pure (.unreadable none) else pure .wait

def handleUploadingOCI (snap : SwiftSnapshot) (status : Status) : Act Unit := do
  match ← issue (.getJob (K.ociPushJobName snap)) with
  | none => do
    ensureOCIPushJob K snap
    persist snap status
  | some job =>
    match job.state with
    | .running => persist snap status
    | .failed => persist snap (failedBy status [job.owner])
    | .complete => do
      match ← pushedArtifact (K.ociPushJobName snap) with
      | .wait => persist snap status
      | .unreadable source => persist snap (failedBy status (job.owner :: source.toList))
      | .artifact report =>
        persist snap
          { status with
            phase := .ready
            oci := some
              { reference := K.reference snap (K.ociTag snap)
                manifest := some report
                disk := status.oci.bind (·.disk)
                dataDisks := (status.oci.map (·.dataDisks)).getD [] }
            evidence := status.evidence ++ [job.owner, report.source] }

structure ChunkTarget where
  dataName : Option String
  jobName : String
  tag : String

def chunkTargets (snap : SwiftSnapshot) (status : Status) : List ChunkTarget :=
  ⟨none, K.diskChunkJobName snap, K.ociDiskTag snap⟩ ::
    status.dataDisks.map fun disk => ⟨some disk, K.dataDiskChunkJobName snap disk, K.ociDataDiskTag snap disk⟩

inductive Chunks
  | failed (owner : String)
  | done (all : Bool) (owners : List String)

def ensureChunkJobs (snap : SwiftSnapshot) : List ChunkTarget → Act Chunks
  | [] => pure (.done true [])
  | t :: rest => do
    match ← issue (.getJob t.jobName) with
    | none => do
      ensureJob snap t.jobName (K.reference snap t.tag)
      match ← ensureChunkJobs snap rest with
      | .failed owner => pure (.failed owner)
      | .done _ owners => pure (.done false owners)
    | some job =>
      match job.state with
      | .failed => pure (.failed job.owner)
      | .running => do
        match ← ensureChunkJobs snap rest with
        | .failed owner => pure (.failed owner)
        | .done _ owners => pure (.done false owners)
      | .complete => do
        match ← ensureChunkJobs snap rest with
        | .failed owner => pure (.failed owner)
        | .done all owners => pure (.done all (job.owner :: owners))

inductive Reports
  | wait
  | unreadable (source : Option String)
  | all (reports : List (Option String × Report))

def chunkReports : List ChunkTarget → Act Reports
  | [] => pure (.all [])
  | t :: rest => do
    match ← pushedArtifact t.jobName with
    | .wait => pure .wait
    | .unreadable source => pure (.unreadable source)
    | .artifact report =>
      match ← chunkReports rest with
      | .all reports => pure (.all ((t.dataName, report) :: reports))
      | other => pure other

def stampDisks (status : Status) (owners : List String) (reports : List (Option String × Report)) : Status :=
  let oci := status.oci.getD ⟨"", none, none, []⟩
  { status with
    oci := some
      { oci with
        disk := (reports.find? (·.1 = none)).map (·.2)
        dataDisks := reports.filterMap fun (name, report) => name.map fun name => (name, report) }
    evidence := status.evidence ++ owners ++ reports.map fun entry => entry.2.source }

/-- The disk half of a full-state capture: the status with the disks, none if the pass ends here. -/
def handleFullStateDiskCapture (snap : SwiftSnapshot) (status : Status) : Act (Option Status) := do
  if ← issue .imageConfigured then
    -- the source is stopped and its launcher deleted until it is gone
    if ← issue .launcherGone then
      let targets := chunkTargets K snap status
      match ← ensureChunkJobs K snap targets with
      | .failed owner => do
        persist snap (failedBy status [owner])
        pure none
      | .done all owners =>
        if all then do
          match ← chunkReports targets with
          | .wait => do
            persist snap status
            pure none
          | .unreadable source => do
            persist snap (failedBy status (owners ++ source.toList))
            pure none
          | .all reports => pure (some (stampDisks status owners reports))
        else do
          persist snap status
          pure none
    else do
      persist snap status
      pure none
  else do
    persist snap { status with phase := .failed }
    pure none

def handleUploading (snap : SwiftSnapshot) (status : Status) : Act Unit :=
  match snap.backend with
  | .s3 => handleUploadingS3 K snap status
  | .oci _ =>
    if snap.includeDisk ∧ (status.oci.bind (·.disk)) = none then do
      match ← handleFullStateDiskCapture K snap status with
      | none => pure ()
      | some status => handleUploadingOCI K snap status
    else handleUploadingOCI K snap status

def checkBackendDestination : Backend → Bool
  | .oci (some o) => o.repository ≠ "" && o.tag.toList.all fun c => c ≠ ':' && c ≠ '@' && c ≠ '/'
  | _ => true

def reconcile (name : String) : Act Unit := do
  match ← issue (.getSnapshot name) with
  | none => pure ()
  | some snap =>
    if snap.deletionTimestamp then pure ()
    else
      match snap.status.phase with
      | .ready | .failed => pure ()
      | phase =>
        if ¬ checkBackendDestination snap.backend then persist snap { snap.status with phase := .failed }
        else
          match phase with
          | .capturing => handleCapturing K snap snap.status
          | .uploading => handleUploading K snap snap.status
          | _ => handlePending K snap snap.status

end Reconciler

end KubeSwift.Transfer
