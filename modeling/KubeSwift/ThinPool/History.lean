import KubeSwift.ThinPool.Effects

/-! # Calls of the materializer, one at a time -/

namespace KubeSwift.ThinPool
open Program

inductive Call
  | ensureBase (key : Key) (sizeBytes needBytes : Nat)
  | ensureGuest (baseKey guestKey : Key) (sizeBytes : Nat)
  | evict (key : Key)
  | release (guestKey : Key)
  deriving DecidableEq, Repr

def Call.prog : Call → Act (Option DevName)
  | .ensureBase key sizeBytes needBytes => do
    let _ ← ensureBaseNeeding key sizeBytes needBytes
    pure none
  | .ensureGuest baseKey guestKey sizeBytes => do
    let path ← ThinPool.ensureGuest baseKey guestKey (.guest guestKey) sizeBytes
    pure (some path)
  | .evict key => do
    let _ ← evictBase key
    pure none
  | .release guestKey => do
    releaseGuest guestKey (.guest guestKey)
    pure none

inductive Event
  | call (c : Call) (issued : List (World × Op)) (result : Option (Except Err (Option DevName)))
  | reboot

inductive EventStep (M : Machine Pid World Op Op.Res Err) (start : World → Call → Prop) : World → Event → World → Prop
  | call {w w' : World} {c : Call} {issued : List (World × Op)}
      {result : Option (Except Err (Option DevName))} (may : start w c)
      (run : Run M 0 c.prog w issued w' result) : EventStep M start w (.call c issued result) w'
  | reboot (w : World) : EventStep M start w .reboot w.reboot

inductive History (M : Machine Pid World Op Op.Res Err) (start : World → Call → Prop) :
    World → List Event → World → Prop
  | nil (w : World) : History M start w [] w
  | cons {w w' w'' : World} {e : Event} {es : List Event} (step : EventStep M start w e w')
      (rest : History M start w' es w'') : History M start w (e :: es) w''

variable {start : World → Call → Prop}

theorem History.invariant {M : Machine Pid World Op Op.Res Err} {I : World → Prop} {P : Event → Prop}
    (kept : ∀ w e w', P e → I w → EventStep M start w e w' → I w') {w w' : World} {es : List Event}
    (history : History M start w es w') (all : ∀ e ∈ es, P e) (initially : I w) : I w' := by
  induction history with
  | nil w => exact initially
  | cons step rest ih =>
    exact ih (fun e member => all e (by simp [member])) (kept _ _ _ (all _ (by simp)) initially step)

def anyFault : Machine Pid World Op Op.Res Err :=
  engine.machine (fun _ _ _ _ => True) (fun _ _ => True)

def emptyNode : World := ⟨.absent, fun _ => none, ∅, fun _ => none, fun _ => none⟩

def calm : Choice where
  status := ⟨0, 10, .readWrite⟩
  image := [1]

def runCalmly (steps : Nat) (c : Call) (w : World) : World × Option (Except Err (Option DevName)) :=
  drive engine 0 (List.replicate steps calm) c.prog w

def crashesOnly : Machine Pid World Op Op.Res Err :=
  engine.machine (fun _ _ _ c => c.fault = none) (fun _ _ => True)

variable {allowed : Pid → World → Op → Choice → Prop}

theorem eventStep_runCalmly {mayCrash : Pid → World → Prop} (steps : Nat) (c : Call) (w : World)
    (along : Along engine allowed 0 (List.replicate steps calm) c.prog w)
    (crashes : (runCalmly steps c w).2 = none → ∀ w, mayCrash 0 w) (may : start w c) :
    ∃ issued, EventStep (engine.machine allowed mayCrash) start w
      (.call c issued (runCalmly steps c w).2) (runCalmly steps c w).1 := by
  obtain ⟨issued, run⟩ := run_drive engine allowed mayCrash (List.replicate steps calm) c.prog w along crashes
  exact ⟨issued, .call may run⟩

theorem eventStep_calm (fine : ∀ w o, allowed 0 w o calm) (steps : Nat) (c : Call) (w : World) (may : start w c)
    {r : Option (Except Err (Option DevName))} (result : (runCalmly steps c w).2 = r) :
    ∃ issued, EventStep (engine.machine allowed fun _ _ => True) start w (.call c issued r) (runCalmly steps c w).1 := by
  rw [← result]
  refine eventStep_runCalmly steps c w (along_of_forall (fun c member w o => ?_) c.prog w) (fun _ _ => trivial) may
  rw [List.eq_of_mem_replicate member]
  exact fine w o

abbrev Log := List (Entry Choice World Op)

def Op.mapsAt (name : DevName) : Op → Bool
  | .info | .ls | .mknodes _ => true
  | .create other _ _ | .remove other => other = name
  | _ => false

section Maps

variable {T : (α : Type) → Act α → Prop} {name : DevName} {id : Id} {sectors : Nat}

theorem closed_active (closed : Prog.Closed T) (ls : T _ (issue .ls)) : T _ (active name) :=
  closed.bind ls fun _ => closed.pure _

theorem closed_activate (closed : Prog.Closed T) (maps : ∀ o : Op, o.mapsAt name = true → T _ (issue o)) :
    T _ (activate name id sectors) :=
  closed.bind (maps .info rfl) fun _ =>
    closed.bind (maps (.create name id sectors) (decide_eq_true rfl)) fun _ => maps (.mknodes name) rfl

theorem closed_removeDevice (closed : Prog.Closed T) (maps : ∀ o : Op, o.mapsAt name = true → T _ (issue o)) :
    T _ (removeDevice name) :=
  closed.bind (maps (.remove name) (decide_eq_true rfl)) fun _ => maps (.mknodes name) rfl

theorem closed_unmapIfActive (closed : Prog.Closed T) (maps : ∀ o : Op, o.mapsAt name = true → T _ (issue o)) :
    T _ (unmapIfActive name) :=
  closed.bind (closed_active closed (maps .ls rfl)) fun _ => closed.ite (closed_removeDevice closed maps) (closed.pure _)

theorem closed_deleteThin (closed : Prog.Closed T) {owner : Owner} (delete : T _ (issue (.delete id owner))) :
    T _ (deleteThin id owner) := by
  refine closed.bind (closed.attempt delete) fun deleted => ?_
  unfold unlessGone
  split
  · exact closed.pure _
  · exact closed.fail _
  · exact closed.pure _

end Maps

section Room

variable {T : (α : Type) → Act α → Prop} {key keep : Key}

theorem closed_evictLocked (closed : Prog.Closed T) (known : T _ (registry (.baseID key)))
    (maps : ∀ o : Op, o.mapsAt (baseDeviceName key) = true → T _ (issue o)) (delete : ∀ id, T _ (issue (.delete id (.base key))))
    (forget : T _ (registry (.forgetBase key))) : T _ (evictLocked key) := by
  refine closed.bind known fun id => ?_
  cases id with
  | none => exact closed.pure _
  | some id =>
    refine closed.bind (closed_unmapIfActive closed maps) fun _ => closed.bind (closed_deleteThin closed (delete id)) fun _ => ?_
    exact closed.bind forget fun _ => closed.pure _

theorem closed_evictBase (closed : Prog.Closed T) (tryLock : T _ (issue (.tryLock key))) (unlock : T _ (issue (.unlock key)))
    (locked : T _ (evictLocked key)) : T _ (evictBase key) :=
  closed.bind tryLock fun _ => closed.ite (closed.deferred locked unlock) (closed.pure _)

variable {sizeBytes : Nat}

theorem closed_evictUntilFits (closed : Prog.Closed T) (reserve : T _ (registry (.reserve keep sizeBytes)))
    (evict : ∀ key, T _ (evictBase key)) (others shared : Nat) (keys : List Key) (evicted available : Nat) :
    T _ (evictUntilFits sizeBytes keep others shared keys evicted available) := by
  induction keys generalizing evicted available with
  | nil => exact closed.fail _
  | cons key keys ih =>
    refine closed.ite (ih _ _) (closed.bind (evict key) fun gone => ?_)
    exact closed.bind reserve fun _ => closed.ite (closed.pure _) (ih _ _)

theorem closed_makeRoomFor (closed : Prog.Closed T) (reserve : T _ (registry (.reserve keep sizeBytes)))
    (order : T _ (registry .evictionOrder)) (evict : ∀ key, T _ (evictBase key)) : T _ (makeRoomFor sizeBytes keep) := by
  refine closed.bind reserve fun reserved => closed.ite (closed.pure _) ?_
  exact closed.bind order fun _ => closed_evictUntilFits closed reserve evict _ _ _ _ _

theorem closed_ensureGuest (closed : Prog.Closed T) {baseKey g : Key} {name : DevName}
    (ls : T _ (issue .ls)) (known : T _ (registry (.guestID g))) (created : T _ (registry (.guestCreated g)))
    (activate : ∀ id, T _ (activate name id (bytesToSectors sizeBytes))) (forget : T _ (registry (.forget g)))
    (create : T _ (createGuest baseKey g name (bytesToSectors sizeBytes))) :
    T _ (ensureGuest baseKey g name sizeBytes) := by
  refine closed.bind (closed_active closed ls) fun found => closed.ite (closed.pure _) ?_
  refine closed.bind known fun id => ?_
  cases id with
  | none => exact create
  | some id =>
    refine closed.bind created fun finished => closed.ite ?_ ?_
    · exact closed.bind (activate id) fun _ => closed.pure _
    · exact closed.bind forget fun _ => create

end Room

def Op.plain : Op → Bool
  | .registry (.allocateBase _) | .registry (.allocateGuest _) | .registry (.advance _) | .registry (.forget _)
  | .registry (.forgetBase _) | .registry (.markGuestCreated _ _) => false
  | .createThin _ _ | .createSnap _ _ _ | .delete _ _ | .create _ _ _ | .remove _ => false
  | _ => true

structure Walk (T : (α : Type) → Act α → Prop) : Prop extends Prog.Closed T where
  plain : ∀ o : Op, o.plain = true → T _ (issue o)

namespace Walk

variable {T : (α : Type) → Act α → Prop} {name : DevName} {sectors : Nat}

variable (walk : Walk T)
include walk

theorem copySkippingZeros (fd : Id) (limit fuel : Nat) (rest : List UInt8) (off : Nat) :
    T _ (copySkippingZeros fd limit fuel rest off) := by
  induction fuel generalizing rest off with
  | zero => exact walk.pure _
  | succ fuel ih =>
    refine walk.bind (walk.plain .readFull rfl) fun _ => walk.ite (walk.fail _) ?_
    refine walk.bind (walk.ite (walk.pure _) (walk.plain (.writeAt fd off _) rfl)) fun _ => ?_
    exact walk.ite (walk.pure _) (ih _ _)

theorem buildBase {key : Key} (remove : T _ (removeDevice (baseDeviceName key)))
    (create : ∀ sectors attempts, T _ (createBaseWithin key (baseDeviceName key) sectors attempts)) (sizeBytes : Nat) :
    T _ (buildBase key sizeBytes) := by
  have populate : T _ (populate key (baseDeviceName key) sizeBytes) := by
    refine walk.bind (walk.plain (.openImage key) rfl) fun src => ?_
    refine walk.bind (walk.plain (.openDevice (baseDeviceName key)) rfl) fun dst => ?_
    refine walk.bind (walk.copySkippingZeros _ _ _ _ _) fun written => walk.ite (walk.fail _) ?_
    exact walk.plain (.sync dst) rfl
  refine walk.bind (create _ _) fun id => walk.bind (walk.attempt populate) fun writeErr => ?_
  refine walk.bind (walk.attempt remove) fun rmErr => walk.bind (walk.ofExcept _) fun _ => ?_
  refine walk.bind (walk.ofExcept _) fun _ => walk.bind (walk.plain (.registry (.markBaseReady key)) rfl) fun _ => ?_
  exact walk.bind (walk.plain (.registry (.touchBase key)) rfl) fun _ => walk.pure _

theorem ensureBaseNeeding {key : Key} (evict : ∀ key, T _ (ThinPool.evictBase key))
    (remove : T _ (removeDevice (baseDeviceName key)))
    (create : ∀ sectors attempts, T _ (createBaseWithin key (baseDeviceName key) sectors attempts))
    (sizeBytes needBytes : Nat) : T _ (ensureBaseNeeding key sizeBytes needBytes) := by
  refine walk.ite (walk.fail _) (walk.bind (walk.plain (.lock key) rfl) fun _ => ?_)
  refine walk.deferred ?_ (walk.plain (.unlock key) rfl)
  refine walk.bind (walk.plain (.registry (.baseReady key)) rfl) fun ready => walk.ite ?_ ?_
  · refine walk.bind (walk.plain (.registry (.baseID key)) rfl) fun id => ?_
    exact walk.bind (walk.plain (.registry (.touchBase key)) rfl) fun _ => walk.pure _
  · have room := closed_makeRoomFor walk.toClosed (walk.plain (.registry (.reserve key needBytes)) rfl)
      (walk.plain (.registry .evictionOrder) rfl) evict
    refine walk.bind room fun _ => ?_
    exact walk.deferred (walk.buildBase remove create _) (walk.plain (.registry (.unreserve key)) rfl)

theorem createGuest {g : Key} (create : ∀ base, T _ (createGuestWithin base g name sectors maxIDRetries))
    (baseKey : Key) : T _ (createGuest baseKey g name sectors) := by
  have locked : T _ (createGuestLocked baseKey g name sectors) := by
    refine walk.bind (walk.plain (.registry (.baseReady baseKey)) rfl) fun ready => walk.ite ?_ (walk.fail _)
    refine walk.bind (walk.plain (.registry (.baseID baseKey)) rfl) fun known => ?_
    cases known with
    | none => exact walk.fail _
    | some base => exact create base
  refine walk.ite locked (walk.bind (walk.plain (.lock baseKey) rfl) fun _ => ?_)
  exact walk.deferred locked (walk.plain (.unlock baseKey) rfl)

theorem ensureGuest {g : Key} (activate : ∀ id sectors, T _ (activate name id sectors))
    (forget : T _ (registry (.forget g))) (create : ∀ base sectors attempts, T _ (createGuestWithin base g name sectors attempts))
    (baseKey : Key) (sizeBytes : Nat) : T _ (ensureGuest baseKey g name sizeBytes) :=
  closed_ensureGuest walk.toClosed (walk.plain .ls rfl) (walk.plain (.registry (.guestID g)) rfl)
    (walk.plain (.registry (.guestCreated g)) rfl) (fun id => activate id _) forget
    (walk.createGuest (fun base => create base _ _) baseKey)

end Walk

end KubeSwift.ThinPool
