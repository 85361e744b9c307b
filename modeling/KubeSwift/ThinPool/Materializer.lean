import KubeSwift.ThinPool.Node

namespace KubeSwift.ThinPool
open Program

abbrev Act := Prog Op Op.Res Err

abbrev issue (o : Op) : Act o.Res := Prog.call o

abbrev registry (o : RegOp) : Act o.Res := issue (.registry o)

def maxIDRetries : Nat := 8

def bytesToSectors (b : Nat) : Nat := (b + 511) / 512

def isFileExists (e : Err) : Bool := e = .fileExists

def active (name : DevName) : Act Bool := do
  let names ← issue .ls
  return name ∈ names

def activate (name : DevName) (id : Id) (sectors : Nat) : Act Unit := do
  issue .info
  issue (.create name id sectors)
  issue (.mknodes name)

def createThinBase (id : Id) (name : DevName) (sectors : Nat) (key : Key) : Act Unit := do
  issue (.createThin id key)
  activate name id sectors

def snapshotBase (baseID id : Id) (name : DevName) (sectors : Nat) (guestKey : Key) : Act Unit := do
  issue (.createSnap id baseID guestKey)
  activate name id sectors

def removeDevice (name : DevName) : Act Unit := do
  issue (.remove name)
  issue (.mknodes name)

def unmapIfActive (name : DevName) : Act Unit := do
  if ← active name then removeDevice name else pure ()

-- "Already gone" is the only error of a delete that its callers ignore.
def unlessGone : Except Err Unit → Act Unit
  | .error .noSuchThin => pure ()
  | .error e => .fail e
  | .ok _ => pure ()

def deleteThin (id : Id) (owner : Owner) : Act Unit := do
  let deleted ← (issue (.delete id owner)).attempt
  unlessGone deleted

def allocateBase (digest : Key) : Act (Id × Bool) :=
  if digest = "" then .fail .emptyKey else registry (.allocateBase digest)

def allocateGuest (key : Key) : Act (Id × Bool) :=
  if key = "" then .fail .emptyKey else registry (.allocateGuest key)

def chunk : Nat := blockSectors * 512

def writeUnlessZero (fd : Id) (off : Nat) (buf : List UInt8) : Act Unit :=
  if buf.all (· == 0) then pure () else issue (.writeAt fd off buf)

-- `rest` is what the image's reader has still to deliver; a read shorter than a chunk is its end.
def copySkippingZeros (fd : Id) (limit : Nat) : Nat → List UInt8 → Nat → Act Nat
  | 0, _, off => pure off
  | fuel + 1, rest, off => do
    issue .readFull
    let buf := rest.take chunk
    if buf ≠ [] ∧ limit < off + buf.length then .fail (.imageTooLong limit)
    else do
      writeUnlessZero fd off buf
      if buf.length < chunk then pure (off + buf.length)
      else copySkippingZeros fd limit fuel (rest.drop chunk) (off + buf.length)

def populate (key : Key) (name : DevName) (sizeBytes : Nat) : Act Unit := do
  let src ← issue (.openImage key)
  let dst ← issue (.openDevice name)
  let written ← copySkippingZeros dst sizeBytes (src.length + 1) src 0
  if written > sizeBytes then .fail (.imageTooLong sizeBytes) else issue (.sync dst)

-- An id allocated before and never marked ready is a build that did not finish.
def discardUnfinished (key : Key) (name : DevName) (id : Id) (fresh : Bool) : Act Unit :=
  if fresh then pure ()
  else do
    unmapIfActive name
    deleteThin id (.base key)

-- The pool holding the id already means the registry fell behind: skip the id and try the next.
def makeBase (key : Key) (name : DevName) (sectors : Nat) (id : Id) (retry : Act Id) : Act Id := do
  match ← (createThinBase id name sectors key).attempt with
  | .ok _ => pure id
  | .error e =>
    if isFileExists e then do
      registry (.forgetBase key)
      registry (.advance id)
      retry
    else .fail e

def createBaseWithin (key : Key) (name : DevName) (sectors : Nat) : Nat → Act Id
  | 0 => .fail (.idsTaken key)
  | attempts + 1 => do
    let (id, fresh) ← allocateBase key
    discardUnfinished key name id fresh
    makeBase key name sectors id (createBaseWithin key name sectors attempts)

def createBase (key : Key) (name : DevName) (sectors : Nat) : Act Id :=
  createBaseWithin key name sectors maxIDRetries

def evictLocked (key : Key) : Act Bool := do
  match ← registry (.baseID key) with
  | none => pure false
  | some id =>
    unmapIfActive (baseDeviceName key)
    deleteThin id (.base key)
    registry (.forgetBase key)
    pure true

def evictBase (key : Key) : Act Bool := do
  if ← issue (.tryLock key) then
    (evictLocked key).deferred (issue (.unlock key))
  else pure false

-- The bases still to try, in eviction order, after a reservation that did not fit.
def evictUntilFits (sizeBytes : Nat) (keep : Key) (others shared : Nat) : List Key → Nat → Nat → Act Unit
  | [], evicted, available => .fail (.noRoom available sizeBytes evicted others shared)
  | key :: keys, evicted, available =>
    if key = keep then evictUntilFits sizeBytes keep others shared keys evicted available
    else do
      let gone ← evictBase key
      let (ok, available) ← registry (.reserve keep sizeBytes)
      if ok then pure ()
      else evictUntilFits sizeBytes keep others shared keys (evicted + gone.toNat) available

def makeRoomFor (sizeBytes : Nat) (keep : Key) : Act Unit := do
  let (ok, available) ← registry (.reserve keep sizeBytes)
  if ok then pure ()
  else do
    let (keys, shared) ← registry .evictionOrder
    evictUntilFits sizeBytes keep (keys.filter (· ≠ keep)).length shared keys 0 available

def buildBase (key : Key) (sizeBytes : Nat) : Act Id := do
  let id ← createBase key (baseDeviceName key) (bytesToSectors sizeBytes)
  let writeErr ← (populate key (baseDeviceName key) sizeBytes).attempt
  let rmErr ← (removeDevice (baseDeviceName key)).attempt
  Prog.ofExcept writeErr
  Prog.ofExcept rmErr
  registry (.markBaseReady key)
  registry (.touchBase key)
  pure id

def ensureBaseLocked (key : Key) (sizeBytes needBytes : Nat) : Act Id := do
  if ← registry (.baseReady key) then do
    let id ← registry (.baseID key)
    registry (.touchBase key)
    pure (id.getD 0)
  else do
    makeRoomFor needBytes key
    (buildBase key sizeBytes).deferred (registry (.unreserve key))

def ensureBaseNeeding (key : Key) (sizeBytes needBytes : Nat) : Act Id :=
  if key = "" then .fail .emptyBaseKey
  else do
    issue (.lock key)
    (ensureBaseLocked key sizeBytes needBytes).deferred (issue (.unlock key))

def makeGuest (baseID : Id) (guestKey : Key) (devName : DevName) (sectors : Nat) (id : Id)
    (retry : Act DevName) : Act DevName := do
  match ← (snapshotBase baseID id devName sectors guestKey).attempt with
  | .ok _ => do
    registry (.markGuestCreated guestKey baseID)
    pure devName
  | .error e => do
    registry (.forget guestKey)
    if isFileExists e then do
      registry (.advance id)
      retry
    else .fail e

def createGuestWithin (baseID : Id) (guestKey : Key) (devName : DevName) (sectors : Nat) : Nat → Act DevName
  | 0 => .fail (.idsTaken guestKey)
  | attempts + 1 => do
    let (id, fresh) ← allocateGuest guestKey
    if fresh then
      makeGuest baseID guestKey devName sectors id (createGuestWithin baseID guestKey devName sectors attempts)
    else do
      activate devName id sectors
      pure devName

def createGuestLocked (baseKey guestKey : Key) (devName : DevName) (sectors : Nat) : Act DevName := do
  if ← registry (.baseReady baseKey) then
    match ← registry (.baseID baseKey) with
    | some baseID => createGuestWithin baseID guestKey devName sectors maxIDRetries
    | none => .fail (.readyWithoutId baseKey)
  else .fail (.baseNotReady baseKey)

-- The base's lock is held until the snapshot exists; a guest without a base has none to take.
def createGuest (baseKey guestKey : Key) (devName : DevName) (sectors : Nat) : Act DevName :=
  if baseKey = "" then createGuestLocked baseKey guestKey devName sectors
  else do
    issue (.lock baseKey)
    (createGuestLocked baseKey guestKey devName sectors).deferred (issue (.unlock baseKey))

def ensureGuest (baseKey guestKey : Key) (devName : DevName) (sizeBytes : Nat) : Act DevName := do
  if ← active devName then pure devName
  else match ← registry (.guestID guestKey) with
    | some id =>
      if ← registry (.guestCreated guestKey) then do
        activate devName id (bytesToSectors sizeBytes)
        pure devName
      else do
        registry (.forget guestKey)
        createGuest baseKey guestKey devName (bytesToSectors sizeBytes)
    | none => createGuest baseKey guestKey devName (bytesToSectors sizeBytes)

def releaseKnown (guestKey : Key) : Option Id → Act Unit
  | none => pure ()
  | some id => do
    let st ← issue .status
    if st.mode = .readOnly then .fail .readOnlyPool
    else do
      deleteThin id (.guest guestKey)
      registry (.forget guestKey)

def releaseGuest (guestKey : Key) (devName : DevName) : Act Unit := do
  let known ← registry (.guestID guestKey)
  unmapIfActive devName
  releaseKnown guestKey known

end KubeSwift.ThinPool
