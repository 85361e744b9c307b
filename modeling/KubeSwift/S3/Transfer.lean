import KubeSwift.Program.Paths

/-! # Snapshots in an object store

`cmd/snapshot-s3`: a directory is uploaded under the key prefix of `S3KeyPrefix`, and purged. Reads, requests and
writes may fail; a killed upload has failed at its next request. -/

namespace KubeSwift.S3

open Paths

abbrev Bytes := List UInt8

structure SwiftSnapshot where
  bucketPrefix : Text
  namespace_ : Text
  name : Text
  placed : Listed namespace_ ∧ slash ∉ namespace_
  named : Listed name ∧ slash ∉ name ∧ 32 ∉ name
deriving DecidableEq

def s3KeyPrefix (snap : SwiftSnapshot) : Text := join [snap.bucketPrefix, snap.namespace_, snap.name]

structure Artifact where
  path : Text
  bytes : Int
  sha256 : Text
  compression : Text := []
deriving DecidableEq

structure Manifest where
  schemaVersion : Int
  swiftSnapshot : Text
  includeMemory : Bool
  artifacts : List Artifact
  totalBytes : Int
deriving DecidableEq

structure Object where
  data : Bytes
  sha256 : Text
deriving DecidableEq

abbrev Bucket := AList fun _ : Text => Object

/-- SHA-256 in hexadecimal, zstd and JSON. A decoder that fails has written something before. -/
structure Library where
  sha256 : Bytes → Text
  compress : Bytes → Bytes
  decompress : Bytes → Bytes × Bool
  marshal : Manifest → Bytes
  unmarshal : Bytes → Option Manifest

structure Tree where
  files : List (Text × Bytes)
  listed : ∀ file ∈ files, Listed file.1
  distinct : (files.map Prod.fst).Nodup

structure TransferStats where
  transferredBytes : Int := 0
  skippedBytes : Int := 0
  totalBytes : Int := 0
deriving DecidableEq

inductive Err
  | buildManifest
  | openArtifact (path : Text)
  | uploadArtifact (path : Text)
  | uploadManifest
  | emptyPrefix
  | list (scope : Text)
  | remove (key : Text)
deriving DecidableEq

structure Faults where
  walk : Bool := false
  open_ : Text → Bool := fun _ => false
  stat : Text → Bool := fun _ => false
  /-- The put fails, and whether the object is there all the same. -/
  put : Text → Option Bool := fun _ => none
  list : Bool := false
  remove : Text → Option Bool := fun _ => none

def manifestObjectName : Text := text "manifest.json"

def manifestSchemaVersion : Int := 1

def compressionZstd : Text := text "zstd"

def zstdSuffix : Text := text ".zst"

def objectKeyFor (a : Artifact) : Text := if a.compression = compressionZstd then a.path ++ zstdSuffix else a.path

variable (L : Library)

def artifactOf (file : Text × Bytes) : Artifact := ⟨file.1, file.2.length, L.sha256 file.2, []⟩

def buildManifest (tree : Tree) : Manifest :=
  let found := (tree.files.filter (·.1 ≠ manifestObjectName)).map (artifactOf L)
  { schemaVersion := manifestSchemaVersion
    swiftSnapshot := []
    includeMemory := false
    artifacts := found.insertionSort fun a b => a.path ≤ b.path
    totalBytes := (found.map Artifact.bytes).sum }

def uploadAll (faults : Faults) (tree : Tree) (keyPrefix : Text) :
    List Artifact → TransferStats → Bucket → Bucket × Except Err TransferStats
  | [], stats, bucket => (bucket, .ok stats)
  | a :: rest, stats, bucket =>
    let key := join [keyPrefix, objectKeyFor a]
    if faults.stat key = false ∧ (bucket.lookup key).map Object.sha256 = some a.sha256 then
      uploadAll faults tree keyPrefix rest { stats with skippedBytes := stats.skippedBytes + a.bytes } bucket
    else match faults.open_ a.path, tree.files.find? (·.1 = a.path) with
      | false, some (_, data) =>
        let stored := bucket.insert key ⟨L.compress data, a.sha256⟩
        match faults.put key with
        | some landed => (if landed then stored else bucket, .error (.uploadArtifact a.path))
        | none =>
          uploadAll faults tree keyPrefix rest { stats with transferredBytes := stats.transferredBytes + a.bytes } stored
      | _, _ => (bucket, .error (.openArtifact a.path))

def uploadedArtifacts (tree : Tree) : List Artifact :=
  (buildManifest L tree).artifacts.map ({ · with compression := compressionZstd })

def uploadedManifest (tree : Tree) (snapName : Text) (includeMemory : Bool) : Manifest :=
  { buildManifest L tree with swiftSnapshot := snapName, includeMemory, artifacts := uploadedArtifacts L tree }

def runUpload (faults : Faults) (tree : Tree) (keyPrefix snapName : Text) (includeMemory : Bool) (bucket : Bucket) :
    Bucket × Except Err TransferStats :=
  if faults.walk then (bucket, .error .buildManifest)
  else
    let m := uploadedManifest L tree snapName includeMemory
    match uploadAll L faults tree keyPrefix m.artifacts { totalBytes := m.totalBytes } bucket with
    | (bucket, .error e) => (bucket, .error e)
    | (bucket, .ok stats) =>
      let key := join [keyPrefix, manifestObjectName]
      let stored := bucket.insert key ⟨L.marshal m, L.sha256 (L.marshal m)⟩
      match faults.put key with
      | some landed => (if landed then stored else bucket, .error .uploadManifest)
      | none => (stored, .ok stats)

def removeAll (faults : Faults) : List Text → Bucket → Bucket × Except Err Unit
  | [], bucket => (bucket, .ok ())
  | key :: rest, bucket =>
    match faults.remove key with
    | some landed => (if landed then bucket.erase key else bucket, .error (.remove key))
    | none => removeAll faults rest (bucket.erase key)

def runDelete (faults : Faults) (keyPrefix : Text) (bucket : Bucket) : Bucket × Except Err Unit :=
  if keyPrefix.all fun c => c = slash ∨ c = 32 then (bucket, .error .emptyPrefix)
  else
    let scope := (keyPrefix.reverse.dropWhile (· = slash)).reverse ++ [slash]
    if faults.list then (bucket, .error (.list scope))
    else removeAll faults (bucket.keys.filter scope.isPrefixOf) bucket

end KubeSwift.S3
