import KubeSwift.Program.Concurrent
import KubeSwift.Program.Triples
import KubeSwift.ThinPool.History

/-! # A guest is snapshotted from a complete base only

Any number of processes run `EnsureBaseNeeding`, `EnsureGuest` and `evictBase`, under per-key locks. -/

namespace KubeSwift.ThinPool
open Program

def writeLog (p : Pid) : Nat → List UInt8 → Nat → List DeviceEvent
  | 0, _, _ => []
  | fuel + 1, rest, off =>
    let buf := rest.take chunk
    let written := if buf.all (· == 0) then [] else [DeviceEvent.write p off buf]
    if buf.length < chunk then written
    else written ++ writeLog p fuel (rest.drop chunk) (off + buf.length)

def populateLog (p : Pid) (bytes : List UInt8) : List DeviceEvent :=
  writeLog p (bytes.length + 1) bytes 0 ++ [.sync p]

structure Complete (image : Key → List UInt8) (k : Key) (d : Device) : Prop where
  owner : d.owner = .base k
  origin : d.origin = fun _ => 0
  log : ∃ p, d.log = populateLog p (image k)

section Content

theorem writeBytes_zero {content : Nat → UInt8} {off : Nat} {buf : List UInt8} (zeros : buf.all (· == 0))
    (blank : ∀ i, off ≤ i → content i = 0) : writeBytes content off buf = content := by
  funext i
  unfold writeBytes
  split
  · next inside =>
    rw [blank i inside.1, List.getD_eq_getElem _ _ (by omega)]
    exact eq_of_beq (List.all_eq_true.mp zeros _ (List.getElem_mem _))
  · rfl

theorem writeBytes_append {content : Nat → UInt8} {off : Nat} (buf rest : List UInt8) :
    writeBytes (writeBytes content off buf) (off + buf.length) rest = writeBytes content off (buf ++ rest) := by
  funext i
  simp only [writeBytes, List.length_append]
  by_cases first : off ≤ i ∧ i < off + buf.length
  · have later : ¬ (off + buf.length ≤ i ∧ i < off + buf.length + rest.length) := by omega
    have whole : off ≤ i ∧ i < off + (buf.length + rest.length) := by omega
    rw [if_neg later, if_pos first, if_pos whole, List.getD_append _ _ _ _ (by omega)]
  · by_cases second : off + buf.length ≤ i ∧ i < off + buf.length + rest.length
    · have whole : off ≤ i ∧ i < off + (buf.length + rest.length) := by omega
      rw [if_pos second, if_pos whole, List.getD_append_right _ _ _ _ (by omega)]
      congr 1
      omega
    · have whole : ¬ (off ≤ i ∧ i < off + (buf.length + rest.length)) := by omega
      rw [if_neg second, if_neg first, if_neg whole]

theorem writeLog_content (p : Pid) (fuel : Nat) (rest : List UInt8) (off : Nat) (content : Nat → UInt8)
    (enough : rest.length < fuel) (blank : ∀ i, off ≤ i → content i = 0) :
    (writeLog p fuel rest off).foldl DeviceEvent.apply content = writeBytes content off rest := by
  induction fuel generalizing rest off content with
  | zero => omega
  | succ fuel ih =>
    have chunkPos : 0 < chunk := by decide
    have written : (if (rest.take chunk).all (· == 0) then [] else
        [DeviceEvent.write p off (rest.take chunk)]).foldl DeviceEvent.apply content =
        writeBytes content off (rest.take chunk) := by
      split
      · next zeros => exact (writeBytes_zero zeros blank).symm
      · rfl
    rw [writeLog]
    split
    · next short =>
      have all : rest.take chunk = rest := List.take_of_length_le (by simp at short; omega)
      rw [written, all]
    · next full =>
      rw [List.length_take] at full
      rw [List.foldl_append, written, ih]
      · rw [writeBytes_append, List.take_append_drop]
      · rw [List.length_drop]
        omega
      · intro i beyond
        rw [List.length_take] at beyond
        have outside : ¬ (off ≤ i ∧ i < off + (rest.take chunk).length) := by
          rw [List.length_take]
          omega
        rw [writeBytes, if_neg outside]
        exact blank i (by omega)

theorem writeLog_blank (p : Pid) (bytes : List UInt8) :
    (writeLog p (bytes.length + 1) bytes 0).foldl DeviceEvent.apply (fun _ => 0) = fun i => bytes.getD i 0 := by
  rw [writeLog_content p _ bytes 0 _ (Nat.lt_succ_self _) fun _ _ => rfl]
  funext i
  simp only [writeBytes, Nat.zero_le, true_and, Nat.zero_add, Nat.sub_zero]
  split
  · rfl
  · next outside => rw [List.getD_eq_default _ _ (by omega)]

theorem Complete.content {image : Key → List UInt8} {k : Key} {d : Device} (complete : Complete image k d) :
    d.content = fun i => (image k).getD i 0 := by
  obtain ⟨p, log⟩ := complete.log
  rw [Device.content, log, complete.origin, populateLog, List.foldl_append, writeLog_blank]
  rfl

end Content

def steadyImages (image : Key → List UInt8) : Machine Pid World Op Op.Res Err :=
  engine.machine
    (fun _ w o c => (∀ k, o = .openImage k → c.image = image k) ∧ w.registry.nextID + 1 < idLimit)
    (fun _ _ => True)

variable (image : Key → List UInt8)

structure Bases (w : World) : Prop where
  below : ∀ k i, (w.baseView k).entry = some i → i < w.registry.nextID
  distinct : ∀ k k' i, (w.baseView k).entry = some i → (w.baseView k').entry = some i → k = k'
  unnamed : (w.baseView "").entry = none
  ready : ∀ k, (w.baseView k).ready →
    (w.baseView k).entry ≠ none ∧ ∀ d, (w.baseView k).device = some d → Complete image k d

structure Relies (p : Pid) (w w' : World) : Prop where
  counter : w.registry.nextID ≤ w'.registry.nextID
  fresh : ∀ k i, (w'.baseView k).entry = some i → (w.baseView k).entry = some i ∨ w.registry.nextID ≤ i
  held : ∀ k, w.locks k = some p → w'.locks k = some p ∧ w'.baseView k = w.baseView k

def SnapsComplete (w : World) : Op → Prop
  | .createSnap _ base _ => ∃ k, (w.baseView k).entry = some base ∧
      ∀ d, (w.baseView k).device = some d → Complete image k d
  | _ => True

def readySpec : Spec Pid World Op where
  inv := Bases image
  rely := Relies
  guar p w w' := ∀ q, q ≠ p → Relies q w w'
  pre _ w o := SnapsComplete image w o

variable {image}

theorem Relies.refl (p : Pid) (w : World) : Relies p w w :=
  ⟨le_refl _, fun _ _ named => .inl named, fun _ mine => ⟨mine, rfl⟩⟩

variable {p : Pid} {w w' : World}

theorem Relies.trans {a b c : World} (first : Relies p a b) (second : Relies p b c) :
    Relies p a c where
  counter := le_trans first.counter second.counter
  fresh k i named := by
    rcases second.fresh k i named with before | later
    · exact first.fresh k i before
    · exact .inr (le_trans first.counter later)
  held k mine := by
    obtain ⟨still, same⟩ := first.held k mine
    obtain ⟨again, same'⟩ := second.held k still
    exact ⟨again, same'.trans same⟩

theorem compatible_readySpec : Compatible (steadyImages image) (readySpec image) where
  refl := Relies.refl
  trans _ _ _ _ first second := first.trans second
  guar _ q _ _ other _ _ step := step q other
  crash p q w w' other inv dies := by
    obtain ⟨-, rfl⟩ := dies
    refine ⟨le_refl _, fun _ _ named => .inl named, fun k theirs => ⟨?_, rfl⟩⟩
    have kept : w.locks k ≠ some p := fun mine => other (Option.some.inj (theirs.symm.trans mine))
    exact (if_neg kept).trans theirs
  crashInv p w w' inv dies := by
    obtain ⟨-, rfl⟩ := dies
    exact { inv with }

structure Known where
  views : Key → Option BaseView
  spare : Option Id

structure Knows (p : Pid) (K : Known) (w : World) : Prop where
  held : ∀ k v, K.views k = some v → w.locks k = some p ∧ w.baseView k = v
  spare : ∀ i, K.spare = some i → i < w.registry.nextID ∧ ∀ k, (w.baseView k).entry ≠ some i

def Known.put (K : Known) (k : Key) (v : BaseView) : Known :=
  { K with views := Function.update K.views k (some v) }

def Known.drop (K : Known) (k : Key) : Known := { K with views := Function.update K.views k none }

variable {K : Known}

theorem Knows.relies (knows : Knows p K w) (between : Relies p w w') :
    Knows p K w' where
  held k v known := by
    obtain ⟨mine, rfl⟩ := knows.held k v known
    exact between.held k mine
  spare i known := by
    obtain ⟨below, nobody⟩ := knows.spare i known
    refine ⟨lt_of_lt_of_le below between.counter, fun k named => ?_⟩
    rcases between.fresh k i named with before | later
    · exact nobody k before
    · exact Nat.not_lt.mpr later below

theorem apart_step (inv : Bases image w) (locks : ∀ k q, q ≠ p → w.locks k = some q → w'.locks k = some q)
    (counter : w.registry.nextID ≤ w'.registry.nextID) (same : ∀ k, w'.baseView k = w.baseView k) :
    Bases image w' ∧ ∀ q, q ≠ p → Relies q w w' := by
  constructor
  · refine ⟨fun k i => ?_, fun k k' i => ?_, ?_, fun k => ?_⟩
    · rw [same k]
      exact fun named => lt_of_lt_of_le (inv.below k i named) counter
    · rw [same k, same k']
      exact inv.distinct k k' i
    · rw [same ""]
      exact inv.unnamed
    · rw [same k]
      exact inv.ready k
  · intro q other
    exact ⟨counter, fun k i named => .inl (same k ▸ named), fun k theirs => ⟨locks k q other theirs, same k⟩⟩

theorem own_step {k : Key} (inv : Bases image w) (mine : w.locks k = some p) (locks : w'.locks = w.locks)
    (counter : w.registry.nextID ≤ w'.registry.nextID) (others : ∀ k', k' ≠ k → w'.baseView k' = w.baseView k')
    (entry : ∀ i, (w'.baseView k).entry = some i → (w.baseView k).entry = some i ∨
      (i = w.registry.nextID ∧ i < w'.registry.nextID ∧ k ≠ ""))
    (ready : (w'.baseView k).ready → (w'.baseView k).entry ≠ none ∧
      ∀ d, (w'.baseView k).device = some d → Complete image k d) : Bases image w' ∧ ∀ q, q ≠ p → Relies q w w' := by
  -- an entry is the one it was, or the id just given out
  have entries : ∀ k' i, (w'.baseView k').entry = some i →
      (w.baseView k').entry = some i ∨ (k' = k ∧ i = w.registry.nextID ∧ i < w'.registry.nextID) := by
    intro k' i named
    by_cases same : k' = k
    · subst same
      rcases entry i named with before | ⟨new, below, -⟩
      · exact .inl before
      · exact .inr ⟨rfl, new, below⟩
    · rw [others k' same] at named
      exact .inl named
  constructor
  · refine ⟨fun k' i named => ?_, fun a b i nameA nameB => ?_, ?_, fun k' marked => ?_⟩
    · rcases entries k' i named with before | ⟨-, -, below⟩
      · exact lt_of_lt_of_le (inv.below k' i before) counter
      · exact below
    · rcases entries a i nameA with beforeA | ⟨rfl, newA, -⟩ <;>
        rcases entries b i nameB with beforeB | ⟨rfl, newB, -⟩
      · exact inv.distinct a b i beforeA beforeB
      · exact absurd newB (Nat.ne_of_lt (inv.below a i beforeA))
      · exact absurd newA (Nat.ne_of_lt (inv.below b i beforeB))
      · rfl
    · by_cases same : k = ""
      · subst same
        cases named : (w'.baseView "").entry with
        | none => rfl
        | some i =>
          rcases entry i named with before | ⟨-, -, absurd⟩
          · rw [inv.unnamed] at before
            cases before
          · exact (absurd rfl).elim
      · rw [others "" (Ne.symm same)]
        exact inv.unnamed
    · by_cases same : k' = k
      · subst same
        exact ready marked
      · rw [others k' same] at marked ⊢
        exact inv.ready k' marked
  · intro q other
    refine ⟨counter, fun k' i named => ?_, fun k' theirs => ?_⟩
    · rcases entries k' i named with before | ⟨-, new, -⟩
      · exact .inl before
      · exact .inr (le_of_eq new.symm)
    · have apart : k' ≠ k := by
        rintro rfl
        exact other (Option.some.inj (theirs.symm.trans mine))
      exact ⟨locks ▸ theirs, others k' apart⟩

theorem Knows.apart (knows : Knows p K w) (locks : ∀ k, w.locks k = some p → w'.locks k = some p)
    (counter : w.registry.nextID ≤ w'.registry.nextID) (same : ∀ k, w'.baseView k = w.baseView k) :
    Knows p K w' where
  held k v known := by
    obtain ⟨mine, view⟩ := knows.held k v known
    exact ⟨locks k mine, (same k).trans view⟩
  spare i known := by
    obtain ⟨below, nobody⟩ := knows.spare i known
    exact ⟨lt_of_lt_of_le below counter, fun k named => nobody k (same k ▸ named)⟩

theorem Knows.put {k : Key} (knows : Knows p K w) (mine : w.locks k = some p) (locks : w'.locks = w.locks)
    (counter : w.registry.nextID ≤ w'.registry.nextID) (others : ∀ k', k' ≠ k → w'.baseView k' = w.baseView k')
    (entry : ∀ i, (w'.baseView k).entry = some i → (w.baseView k).entry = some i ∨ i = w.registry.nextID) :
    Knows p (K.put k (w'.baseView k)) w' where
  held k' v known := by
    by_cases same : k' = k
    · subst same
      simp only [Known.put, Function.update_self, Option.some.injEq] at known
      exact ⟨locks ▸ mine, known⟩
    · simp only [Known.put, Function.update_of_ne same] at known
      obtain ⟨held, view⟩ := knows.held k' v known
      exact ⟨locks ▸ held, (others k' same).trans view⟩
  spare i known := by
    obtain ⟨below, nobody⟩ := knows.spare i known
    refine ⟨lt_of_lt_of_le below counter, fun k' named => ?_⟩
    by_cases same : k' = k
    · subst same
      rcases entry i named with before | new
      · exact nobody k' before
      · exact absurd new (Nat.ne_of_lt below)
    · exact nobody k' (others k' same ▸ named)

section Triples

variable {p : Pid} {K : Known} {α β : Type}

variable (image) in
def Proves (p : Pid) (K : Known) : Act α → (Except Err α → Known → Prop) → Prop :=
  Shows (steadyImages image) (readySpec image) p (Knows p) K

variable {o : Op}

theorem proves_issue {Q : Except Err o.Res → Known → Prop}
    (pre : ∀ w, Bases image w → Knows p K w → SnapsComplete image w o)
    (effect : ∀ w c w' a, Bases image w → Knows p K w → w.registry.nextID + 1 < idLimit →
      (∀ k, o = .openImage k → c.image = image k) → w.waits o = false → w.perform p c o = .ok (w', a) →
      (Bases image w' ∧ ∀ q, q ≠ p → Relies q w w') ∧
        (∃ K', Knows p K' w' ∧ Q (.ok a) K') ∧ ∀ e, ∃ K', Knows p K' w' ∧ Q (.error e) K')
    (failed : ∀ e, Q (.error e) K) : Proves image p K (issue o) Q := by
  intro w inv knows
  refine ⟨pre w inv knows, ?_⟩
  rintro r w' ⟨c, ⟨steady, limit⟩, action⟩
  have goes : w.waits o = false := by
    by_contra waiting
    simp [engine, World.exec, waiting] at action
  rcases World.exec_cases action with ⟨a, rfl, done⟩ | ⟨e, rfl, rfl | ⟨a, done⟩⟩
  · obtain ⟨⟨inv', step⟩, ⟨K', knows', ok⟩, -⟩ := effect w c w' a inv knows limit steady goes done
    exact ⟨inv', step, fun w'' between _ => ⟨K', knows'.relies between, ok⟩⟩
  · exact ⟨inv, fun q _ => Relies.refl q w', fun w'' between _ => ⟨K, knows.relies between, failed e⟩⟩
  · obtain ⟨⟨inv', step⟩, -, failing⟩ := effect w c w' a inv knows limit steady goes done
    obtain ⟨K', knows', error⟩ := failing e
    exact ⟨inv', step, fun w'' between _ => ⟨K', knows'.relies between, error⟩⟩

theorem proves_apart {A : o.Res → Prop} (plain : o.locking = false)
    (pre : ∀ w, Bases image w → Knows p K w → SnapsComplete image w o)
    (away : ∀ w, Knows p K w → ∀ k, ¬ o.touchesBase w k)
    (settled : ∀ w, Knows p K w → ∀ past, o = .registry (.advance past) → past < w.registry.nextID)
    (answer : ∀ w c w' a, Bases image w → Knows p K w → (∀ k, o = .openImage k → c.image = image k) →
      w.perform p c o = .ok (w', a) → A a) :
    Proves image p K (issue o) fun r K' => K' = K ∧ ∀ a, r = .ok a → A a := by
  refine proves_issue pre ?_ fun e => ⟨rfl, nofun⟩
  intro w c w' a inv knows limit steady _ done
  have locks := World.perform_locks plain done
  have counter := World.perform_counter limit (settled w knows) done
  have same : ∀ k, w'.baseView k = w.baseView k := fun k => World.perform_base_frame (away w knows k) done
  have knows' : Knows p K w' := knows.apart (fun k mine => locks ▸ mine) counter same
  refine ⟨apart_step inv (fun k q _ theirs => locks ▸ theirs) counter same, ?_, fun e => ?_⟩
  · refine ⟨K, knows', rfl, ?_⟩
    rintro _ ⟨⟩
    exact answer w c w' a inv knows steady done
  · exact ⟨K, knows', rfl, nofun⟩

def Op.quiet : Op → Bool
  | .registry (.baseID _) | .registry (.guestID _) | .registry (.allocateGuest _)
  | .registry (.forget _) | .registry (.guestCreated _) | .registry (.markGuestCreated _ _)
  | .registry (.baseReady _) | .registry (.reserve _ _) | .registry (.unreserve _)
  | .registry (.touchBase _) | .registry .evictionOrder => true
  | .create (.guest _) _ _ | .remove (.guest _) => true
  | .info | .mknodes _ | .ls | .status | .openImage _ | .openDevice _ | .readFull => true
  | _ => false

theorem proves_quiet {A : o.Res → Prop} (quiet : o.quiet = true)
    (answer : ∀ w c w' a, Bases image w → Knows p K w → (∀ k, o = .openImage k → c.image = image k) →
      w.perform p c o = .ok (w', a) → A a) :
    Proves image p K (issue o) fun r K' => K' = K ∧ ∀ a, r = .ok a → A a := by
  refine proves_apart ?_ ?_ ?_ ?_ answer
  · cases o <;> first | rfl | cases quiet
  · intro w _ _
    cases o <;> trivial
  · intro w _ k
    unfold Op.quiet at quiet
    split at quiet <;> simp_all [Op.touchesBase, RegOp.touchesBase]
  · rintro w _ past rfl
    cases quiet

theorem proves_quietly (quiet : o.quiet = true) : Proves image p K (issue o) fun _ K' => K' = K :=
  shows_mono (fun _ _ => And.left) (proves_quiet (A := fun _ => True) quiet fun _ _ _ _ _ _ _ _ => trivial)

end Triples

section Locks

variable {p : Pid} {K : Known} {k : Key}

variable {w : World}

theorem taken_lock (inv : Bases image w) (knows : Knows p K w) (free : w.locks k = none) :
    (Bases image (w.setLock k (some p)) ∧ ∀ q, q ≠ p → Relies q w (w.setLock k (some p))) ∧
      Knows p K (w.setLock k (some p)) ∧ K.views k = none ∧
      Knows p (K.put k (w.baseView k)) (w.setLock k (some p)) := by
  have unknown : K.views k = none := by
    cases known : K.views k with
    | none => rfl
    | some v =>
      rw [(knows.held k v known).1] at free
      cases free
  have others : ∀ k' q, w.locks k' = some q → (w.setLock k (some p)).locks k' = some q := by
    intro k' q taken
    have other : k' ≠ k := fun same => by simp [same, free] at taken
    simpa [other] using taken
  have knows' : Knows p K (w.setLock k (some p)) :=
    knows.apart (fun k' mine => others k' p mine) (le_refl _) fun _ => rfl
  refine ⟨apart_step inv (fun k' q _ taken => others k' q taken) (le_refl _) fun _ => rfl, knows', unknown, ?_,
    knows'.spare⟩
  intro k' v known
  by_cases same : k' = k
  · subst same
    simp only [Known.put, Function.update_self, Option.some.injEq] at known
    exact ⟨by simp, known⟩
  · simp only [Known.put, Function.update_of_ne same] at known
    exact knows'.held k' v known

theorem proves_lock : Proves image p K (issue (.lock k)) fun r K' =>
    match r with
    | .ok _ => K.views k = none ∧ ∃ v, K' = K.put k v
    | .error _ => K' = K := by
  refine proves_issue (fun _ _ _ => trivial) ?_ fun e => rfl
  intro w c w' a inv knows _ _ goes done
  cases done
  have free : w.locks k = none := by simpa [World.waits] using goes
  obtain ⟨step, same, unknown, more⟩ := taken_lock inv knows free
  exact ⟨step, ⟨_, more, unknown, _, rfl⟩, fun e => ⟨K, same, rfl⟩⟩

theorem proves_tryLock : Proves image p K (issue (.tryLock k)) fun r K' =>
    match r with
    | .ok true => K.views k = none ∧ ∃ v, K' = K.put k v
    | _ => K' = K := by
  refine proves_issue (fun _ _ _ => trivial) ?_ fun e => rfl
  intro w c w' a inv knows _ _ _ done
  simp only [World.perform] at done
  split at done <;> cases done
  · next free =>
    obtain ⟨step, same, unknown, more⟩ := taken_lock inv knows free
    exact ⟨step, ⟨_, more, unknown, _, rfl⟩, fun e => ⟨K, same, rfl⟩⟩
  · exact ⟨⟨inv, fun q _ => Relies.refl q w⟩, ⟨K, knows, rfl⟩, fun e => ⟨K, knows, rfl⟩⟩

theorem Knows.drop (knows : Knows p K w) : Knows p (K.drop k) w := by
  refine ⟨fun k' v known => ?_, knows.spare⟩
  by_cases same : k' = k
  · simp [Known.drop, same] at known
  · simp only [Known.drop, Function.update_of_ne same] at known
    exact knows.held k' v known

theorem Knows.unlocked (knows : Knows p K w) : Knows p (K.drop k) (w.setLock k none) := by
  refine ⟨fun k' v known => ?_, knows.spare⟩
  by_cases same : k' = k
  · simp [Known.drop, same] at known
  · obtain ⟨mine, view⟩ := (knows.drop (k := k)).held k' v known
    exact ⟨by simpa [same] using mine, view⟩

theorem proves_unlock {v : BaseView} (known : K.views k = some v) :
    Proves image p K (issue (.unlock k)) fun _ K' => K' = K.drop k := by
  have either : Proves image p K (issue (.unlock k)) fun _ K' => K' = K ∨ K' = K.drop k := by
    refine proves_issue (fun _ _ _ => trivial) ?_ fun e => .inl rfl
    intro w c w' a inv knows _ _ _ done
    cases done
    have mine := (knows.held k v known).1
    refine ⟨apart_step inv ?_ (le_refl _) fun _ => rfl, ⟨_, knows.unlocked, .inr rfl⟩,
      fun e => ⟨_, knows.unlocked, .inr rfl⟩⟩
    intro k' q other theirs
    have apart : k' ≠ k := fun same => other (by simpa [same, mine] using theirs.symm)
    simpa [apart] using theirs
  intro w inv knows
  refine wp_mono ?_ (either w inv knows)
  rintro r w' ⟨K', knows', rfl | rfl⟩
  · exact ⟨_, knows'.drop, rfl⟩
  · exact ⟨_, knows', rfl⟩

end Locks

/-! ## Working on one base under its lock -/

section Builds

variable {p : Pid} {V : Key → Option BaseView} {k : Key} {v : BaseView} {α β : Type}

variable (image p V k) in
def Builds (v : BaseView) : Act α → (Except Err α → BaseView → Prop) → Prop :=
  Shows (steadyImages image) (readySpec image) p (fun v w => ∃ s, Knows p ⟨Function.update V k (some v), s⟩ w) v

variable {Q : Except Err α → BaseView → Prop}

theorem builds_iff {m : Act α} : Builds image p V k v m Q ↔
    ∀ s, Proves image p ⟨Function.update V k (some v), s⟩ m fun r K' =>
      ∃ v' s', K' = ⟨Function.update V k (some v'), s'⟩ ∧ Q r v' := by
  constructor
  · intro builds s w inv knows
    refine wp_mono ?_ (builds w inv ⟨s, knows⟩)
    rintro r w' ⟨v', ⟨s', knows'⟩, result⟩
    exact ⟨_, knows', v', s', rfl, result⟩
  · rintro each w inv ⟨s, knows⟩
    refine wp_mono ?_ (each s w inv knows)
    rintro r w' ⟨_, knows', v', s', rfl, result⟩
    exact ⟨v', ⟨s', knows'⟩, result⟩

theorem builds_ofExcept {r : Except Err α} (holds : Q r v) : Builds image p V k v (.ofExcept r) Q := by
  cases r with
  | ok value => exact shows_pure holds
  | error e => exact shows_fail holds

variable {o : Op}

theorem builds_quiet {A : o.Res → Prop} (quiet : o.quiet = true)
    (answer : ∀ w c w' a, Bases image w → w.baseView k = v → (∀ k, o = .openImage k → c.image = image k) →
      w.perform p c o = .ok (w', a) → A a) :
    Builds image p V k v (issue o) fun r v' => v' = v ∧ ∀ a, r = .ok a → A a := by
  refine builds_iff.mpr fun s => ?_
  refine shows_mono ?_ (proves_quiet quiet fun w c w' a inv knows => answer w c w' a inv ?_)
  · rintro r K' ⟨rfl, result⟩
    exact ⟨v, s, rfl, rfl, result⟩
  · exact (knows.held k v (by simp)).2

theorem builds_quietly (quiet : o.quiet = true) : Builds image p V k v (issue o) fun _ v' => v' = v :=
  shows_mono (fun _ _ => And.left) (builds_quiet (A := fun _ => True) quiet fun _ _ _ _ _ _ _ _ => trivial)

theorem builds_own {Q : Except Err o.Res → BaseView → Prop} (plain : o.locking = false)
    (pre : ∀ w, SnapsComplete image w o) (settled : ∀ past, o ≠ .registry (.advance past))
    (only : ∀ w k', Bases image w → w.baseView k = v → o.touchesBase w k' → k' = k) (failed : ∀ e, Q (.error e) v)
    (effect : ∀ w c w' a, Bases image w → w.registry.nextID + 1 < idLimit → w.baseView k = v →
      w.perform p c o = .ok (w', a) → (Q (.ok a) (w'.baseView k) ∧ ∀ e, Q (.error e) (w'.baseView k)) ∧
      (∀ i, (w'.baseView k).entry = some i → v.entry = some i ∨
        (i = w.registry.nextID ∧ i < w'.registry.nextID ∧ k ≠ "")) ∧
      ((w'.baseView k).ready → (w'.baseView k).entry ≠ none ∧
        ∀ d, (w'.baseView k).device = some d → Complete image k d)) : Builds image p V k v (issue o) Q := by
  refine builds_iff.mpr fun s => ?_
  refine proves_issue (fun w _ _ => pre w) ?_ fun e => ⟨v, s, rfl, failed e⟩
  intro w c w' a inv knows limit _ _ done
  obtain ⟨mine, view⟩ := knows.held k v (by simp)
  obtain ⟨⟨after, failing⟩, entry, ready⟩ := effect w c w' a inv limit view done
  rw [← view] at entry
  have locks := World.perform_locks plain done
  have counter := World.perform_counter limit (fun past same => (settled past same).elim) done
  have others : ∀ k', k' ≠ k → w'.baseView k' = w.baseView k' := fun k' other =>
    World.perform_base_frame (fun touched => other (only w k' inv view touched)) done
  have knows' := knows.put mine locks counter others fun i named =>
    (entry i named).imp_right And.left
  simp only [Known.put, Function.update_idem] at knows'
  exact ⟨own_step inv mine locks counter others entry ready, ⟨_, knows', _, s, rfl, after⟩,
    fun e => ⟨_, knows', _, s, rfl, failing e⟩⟩

end Builds

section Bases

variable {p : Pid} {V : Key → Option BaseView} {k : Key} {v : BaseView}

variable {id : Id}

theorem Bases.only {w : World} {k' : Key} (inv : Bases image w) (view : w.baseView k = v) (named : v.entry = some id)
    (touched : (w.baseView k').entry = some id) : k' = k :=
  inv.distinct k' k id touched (view ▸ named)

theorem Bases.complete {w : World} (inv : Bases image w) (view : w.baseView k = v) :
    v.ready → v.entry ≠ none ∧ ∀ d, v.device = some d → Complete image k d :=
  view ▸ inv.ready k

theorem builds_set {o : Op} {u : BaseView} {Q : Except Err o.Res → BaseView → Prop} (plain : o.locking = false)
    (pre : ∀ w, SnapsComplete image w o) (settled : ∀ past, o ≠ .registry (.advance past))
    (only : ∀ w k', Bases image w → w.baseView k = v → o.touchesBase w k' → k' = k)
    (effect : ∀ (w : World) c w' a, w.baseView k = v → w.perform p c o = .ok (w', a) → w'.baseView k = u)
    (entry : ∀ i, u.entry = some i → v.entry = some i)
    (ready : (v.ready → v.entry ≠ none ∧ ∀ d, v.device = some d → Complete image k d) →
      u.ready → u.entry ≠ none ∧ ∀ d, u.device = some d → Complete image k d)
    (failed : ∀ e, Q (.error e) v) (set : ∀ r, Q r u) : Builds image p V k v (issue o) Q := by
  refine builds_own plain pre settled only failed ?_
  intro w c w' a inv _ view done
  rw [effect w c w' a view done]
  exact ⟨⟨set _, fun _ => set _⟩, fun i named => .inl (entry i named), ready (inv.complete view)⟩

def Remapped (v v' : BaseView) : Prop := ∃ mapped, v' = { v with mapped := mapped }

def Kept (v v' : BaseView) : Prop := v'.entry = v.entry ∧ v'.ready = v.ready

theorem Remapped.refl (v : BaseView) : Remapped v v := ⟨v.mapped, rfl⟩

variable {a b : BaseView}

theorem Remapped.kept (remapped : Remapped a b) : Kept a b := by
  obtain ⟨_, rfl⟩ := remapped
  exact ⟨rfl, rfl⟩

theorem Kept.trans {c : BaseView} (first : Kept a b) (second : Kept b c) : Kept a c :=
  ⟨second.1.trans first.1, second.2.trans first.2⟩

theorem builds_remove : Builds image p V k v (issue (.remove (.base k))) fun _ v' => Remapped v v' := by
  refine builds_set (u := { v with mapped := none }) rfl (fun _ => trivial) nofun
    (fun _ _ _ _ touched => (DevName.base.inj touched).symm) ?_ (fun _ named => named) (fun complete => complete)
    (fun _ => .refl _) fun _ => ⟨none, rfl⟩
  rintro w c w' a rfl done
  exact World.perform_removeBase done

theorem builds_removeDevice :
    Builds image p V k v (removeDevice (.base k)) fun _ v' => Remapped v v' := by
  refine shows_bind builds_remove (fun _ _ remapped => remapped) fun _ v' remapped => ?_
  refine shows_mono ?_ (builds_quietly (o := .mknodes (.base k)) rfl)
  rintro r _ rfl
  exact remapped

theorem builds_unmapIfActive :
    Builds image p V k v (unmapIfActive (.base k)) fun _ v' => Remapped v v' := by
  refine shows_bind (R := fun _ v' => v' = v) ?_ ?_ ?_
  · refine shows_bind (builds_quietly (o := .ls) rfl) (fun _ _ same => same) ?_
    rintro names _ rfl
    exact shows_pure rfl
  · rintro e _ rfl
    exact .refl _
  · rintro found _ rfl
    split
    · exact builds_removeDevice
    · exact shows_pure (.refl _)

theorem builds_deleteThin {owner : Owner} (named : v.entry = some id) :
    Builds image p V k v (deleteThin id owner) fun _ v' => Kept v v' := by
  have deleted : Builds image p V k v (issue (.delete id owner)) fun _ v' => Kept v v' := by
    refine builds_set (u := { v with device := none }) rfl (fun _ => trivial) nofun
      (fun w k' inv view touched => inv.only view named touched) ?_ (fun _ named => named)
      (fun complete marked => ⟨(complete marked).1, nofun⟩) (fun _ => ⟨rfl, rfl⟩) fun _ => ⟨rfl, rfl⟩
    rintro w c w' a rfl done
    exact World.perform_delete named done
  refine shows_attempt deleted fun r v' kept => ?_
  unfold unlessGone
  split
  · exact shows_pure kept
  · exact shows_fail kept
  · exact shows_pure kept

theorem builds_activate (id : Id) (sectors : Nat) :
    Builds image p V k v (activate (.base k) id sectors) fun r v' =>
      Remapped v v' ∧ (r = .ok () → v'.mapped = some id) := by
  have create : Builds image p V k v (issue (.create (.base k) id sectors)) fun r v' =>
      Remapped v v' ∧ (r = .ok () → v'.mapped = some id) := by
    refine builds_set (u := { v with mapped := some id }) rfl (fun _ => trivial) nofun
      (fun _ _ _ _ touched => (DevName.base.inj touched).symm) ?_ (fun _ named => named) (fun complete => complete)
      (fun _ => ⟨.refl _, nofun⟩) fun _ => ⟨⟨_, rfl⟩, fun _ => rfl⟩
    rintro w c w' a rfl done
    exact World.perform_createBase done
  refine shows_bind (builds_quietly (o := .info) rfl) ?_ ?_
  · rintro e _ rfl
    exact ⟨.refl _, nofun⟩
  rintro _ _ rfl
  refine shows_bind create (fun e v' created => ⟨created.1, nofun⟩) fun a v' created => ?_
  refine shows_mono ?_ (builds_quietly (o := .mknodes (.base k)) rfl)
  rintro r _ rfl
  exact ⟨created.1, fun _ => created.2 rfl⟩

def blank (k : Key) : Device := ⟨.base k, fun _ => 0, []⟩

theorem builds_createThinBase (sectors : Nat) (named : v.entry = some id) (unmarked : ¬ v.ready) :
    Builds image p V k v (createThinBase id (.base k) sectors k) fun r v' =>
      Kept v v' ∧ (r = .ok () → v'.mapped = some id ∧ v'.device = some (blank k)) := by
  have create : Builds image p V k v (issue (.createThin id k)) fun r v' =>
      Kept v v' ∧ (r = .ok () → v' = { v with device := some (blank k) }) := by
    refine builds_set (u := { v with device := some (blank k) }) rfl (fun _ => trivial) nofun
      (fun w k' inv view touched => inv.only view named touched) ?_ (fun _ named => named)
      (fun _ marked => (unmarked marked).elim) (fun _ => ⟨⟨rfl, rfl⟩, nofun⟩) fun _ => ⟨⟨rfl, rfl⟩, fun _ => rfl⟩
    rintro w c w' a rfl done
    exact World.perform_createThin named done
  refine shows_bind create (fun e v' failed => ⟨failed.1, nofun⟩) ?_
  rintro _ v' ⟨-, made⟩
  obtain rfl := made rfl
  refine shows_mono ?_ (builds_activate id sectors)
  rintro r v' ⟨remapped, mapped⟩
  refine ⟨Kept.trans ⟨rfl, rfl⟩ remapped.kept, fun ok => ⟨mapped ok, ?_⟩⟩
  obtain ⟨_, rfl⟩ := remapped
  rfl

theorem builds_allocateBase (nonempty : k ≠ "") :
    Builds image p V k v (registry (.allocateBase k)) fun r v' =>
      v'.ready = v.ready ∧ ∀ id fresh, r = .ok (id, fresh) → v'.entry = some id := by
  refine builds_own rfl (fun _ => trivial) nofun (fun _ _ _ _ touched => touched.symm) (fun _ => ⟨rfl, nofun⟩) ?_
  rintro w c w' ⟨id, fresh⟩ inv limit rfl done
  rcases World.perform_allocateBase done with ⟨-, named, rfl⟩ | ⟨⟨⟩, unnamed, rfl⟩
  · refine ⟨⟨⟨rfl, ?_⟩, fun _ => ⟨rfl, nofun⟩⟩, fun i => .inl, inv.ready k⟩
    rintro _ _ ⟨⟩
    exact named
  · refine ⟨⟨⟨by simp [World.baseView], ?_⟩, fun _ => ⟨by simp [World.baseView], nofun⟩⟩, fun i given => ?_,
      fun marked => absurd unnamed (inv.ready k marked).1⟩
    · rintro _ _ ⟨⟩
      simp [World.baseView]
    · obtain rfl : w.registry.nextID = i := by simpa [World.baseView] using given
      exact .inr ⟨rfl, by simp [Nat.mod_eq_of_lt limit], nonempty⟩

theorem builds_giveUp {retry : Act Id} {Q : Except Err Id → BaseView → Prop} (named : v.entry = some id)
    (unmarked : ¬ v.ready) (failed : ∀ e v', ¬ v'.ready → Q (.error e) v')
    (again : ∀ v', ¬ v'.ready → Builds image p V k v' retry Q) :
    Builds image p V k v
      (do registry (.forgetBase k); registry (.advance id); retry) Q := by
  refine builds_iff.mpr fun s => ?_
  refine shows_bind (R := fun r K' => ∃ v', ¬ v'.ready ∧
    ∃ s', K' = ⟨Function.update V k (some v'), s'⟩ ∧ (r = .ok () → s' = some id)) ?_ ?_ ?_
  · refine proves_issue (fun _ _ _ => trivial) ?_ fun e => ⟨v, unmarked, s, rfl, nofun⟩
    intro w c w' a inv knows limit _ _ done
    obtain ⟨mine, view⟩ := knows.held k v (by simp)
    have locks := World.perform_locks rfl done
    have counter := World.perform_counter limit (fun _ same => by cases same) done
    have others : ∀ k', k' ≠ k → w'.baseView k' = w.baseView k' := fun k' other =>
      World.perform_base_frame (o := .registry (.forgetBase k)) (fun touched => other (Eq.symm touched)) done
    have gone := World.perform_forgetBase done
    have clear : ¬ (w'.baseView k).ready := by
      rw [gone, view]
      exact fun marked => unmarked marked.1
    have nobody : ∀ k', (w'.baseView k').entry ≠ some id := by
      intro k' theirs
      by_cases same : k' = k
      · rw [same, gone] at theirs
        cases theirs
      · rw [others k' same] at theirs
        exact same (inv.only view named theirs)
    have below : id < w'.registry.nextID :=
      lt_of_lt_of_le (inv.below k id (view ▸ named)) counter
    have knows' := knows.put mine locks counter others fun i theirs => by
      rw [gone] at theirs
      cases theirs
    simp only [Known.put, Function.update_idem] at knows'
    refine ⟨own_step inv mine locks counter others ?_ fun marked => (clear marked).elim, ?_, fun e => ?_⟩
    · intro i theirs
      rw [gone] at theirs
      cases theirs
    · refine ⟨⟨Function.update V k (some (w'.baseView k)), some id⟩, ⟨knows'.held, ?_⟩, _, clear, _, rfl,
        fun _ => rfl⟩
      rintro i ⟨⟩
      exact ⟨below, nobody⟩
    · exact ⟨_, knows', _, clear, _, rfl, nofun⟩
  · rintro e K' ⟨v', clear, s', rfl, -⟩
    exact ⟨v', s', rfl, failed e v' clear⟩
  · rintro a K' ⟨v', clear, s', rfl, spare⟩
    obtain rfl := spare rfl
    refine shows_bind (proves_apart (A := fun _ => True) rfl (fun _ _ _ => trivial) (fun _ _ _ touched => touched) ?_
      fun _ _ _ _ _ _ _ _ => trivial) ?_ ?_
    · rintro w knows past ⟨⟩
      exact (knows.spare id rfl).1
    · rintro e K' ⟨rfl, -⟩
      exact ⟨v', _, rfl, failed e v' clear⟩
    · rintro _ K' ⟨rfl, -⟩
      exact builds_iff.mp (again v' clear) _

end Bases

section Build

variable {p : Pid} {V : Key → Option BaseView} {k : Key} {v : BaseView}

def Built (k : Key) : Except Err Id → BaseView → Prop
  | .ok id, v => v.entry = some id ∧ ¬ v.ready ∧ v.mapped = some id ∧ v.device = some (blank k)
  | .error _, v => ¬ v.ready

variable {id : Id}

theorem builds_makeBase {retry : Act Id} (sectors : Nat) (named : v.entry = some id) (unmarked : ¬ v.ready)
    (again : ∀ v', ¬ v'.ready → Builds image p V k v' retry (Built k)) :
    Builds image p V k v (makeBase k (.base k) sectors id retry) (Built k) := by
  refine shows_attempt (builds_createThinBase sectors named unmarked) ?_
  rintro made v' ⟨⟨entry, ready⟩, device⟩
  have clear : ¬ v'.ready := ready ▸ unmarked
  cases made with
  | ok a => exact shows_pure ⟨entry.trans named, clear, device rfl⟩
  | error e =>
    dsimp only
    split
    · exact builds_giveUp (entry.trans named) clear (fun _ _ unmarked => unmarked) again
    · exact shows_fail clear

theorem builds_discardUnfinished (fresh : Bool) (named : v.entry = some id) :
    Builds image p V k v (discardUnfinished k (.base k) id fresh) fun _ v' => Kept v v' := by
  unfold discardUnfinished
  split
  · exact shows_pure ⟨rfl, rfl⟩
  · refine shows_bind builds_unmapIfActive (fun e v' remapped => remapped.kept) fun _ v' remapped => ?_
    refine shows_mono (fun r v'' kept => remapped.kept.trans kept) (builds_deleteThin ?_)
    exact remapped.kept.1.trans named

theorem builds_createBaseWithin (sectors attempts : Nat) (unmarked : ¬ v.ready) :
    Builds image p V k v (createBaseWithin k (.base k) sectors attempts) (Built k) := by
  induction attempts generalizing v with
  | zero => exact shows_fail unmarked
  | succ attempts ih =>
    unfold createBaseWithin allocateBase
    split
    · exact shows_fail unmarked
    · next nonempty =>
      refine shows_bind (builds_allocateBase nonempty) ?_ ?_
      · rintro e v' ⟨ready, -⟩
        show ¬ v'.ready
        rwa [ready]
      · rintro ⟨id, fresh⟩ v' ⟨ready, named⟩
        have entry := named id fresh rfl
        have clear : ¬ v'.ready := ready ▸ unmarked
        refine shows_bind (builds_discardUnfinished fresh entry) ?_ ?_
        · intro e v'' kept
          show ¬ v''.ready
          rwa [kept.2]
        · intro _ v'' kept
          exact builds_makeBase sectors (kept.1.trans entry) (kept.2 ▸ clear) fun _ clear => ih clear

/-! ### Filling it -/

def Device.extend (d : Device) (events : List DeviceEvent) : Device := { d with log := d.log ++ events }

variable {d : Device}

theorem builds_event {o : Op} {e : DeviceEvent} (plain : o.locking = false) (pre : ∀ w, SnapsComplete image w o)
    (settled : ∀ past, o ≠ .registry (.advance past)) (named : v.entry = some id) (device : v.device = some d)
    (unmarked : ¬ v.ready) (only : ∀ w k', o.touchesBase w k' → (w.baseView k').entry = some id)
    (effect : ∀ (w : World) c w' a, (w.baseView k).entry = some id → w.perform p c o = .ok (w', a) →
      ∃ d, (w.baseView k).device = some d ∧
        w'.baseView k = { w.baseView k with device := some (d.record e) }) :
    Builds image p V k v (issue o) fun r v' =>
      Kept v v' ∧ ∀ a, r = .ok a → v' = { v with device := some (d.extend [e]) } := by
  refine builds_set (u := { v with device := some (d.extend [e]) }) plain pre settled
    (fun w k' inv view touched => inv.only view named (only w k' touched)) ?_ (fun _ named => named)
    (fun _ marked => (unmarked marked).elim) (fun _ => ⟨⟨rfl, rfl⟩, nofun⟩) fun _ => ⟨⟨rfl, rfl⟩, fun _ _ => rfl⟩
  rintro w c w' a rfl done
  obtain ⟨d', found, view⟩ := effect w c w' a named done
  rw [device] at found
  cases found
  exact view

theorem builds_writeUnlessZero {fd off : Nat} (buf : List UInt8) (named : v.entry = some fd)
    (device : v.device = some d) (unmarked : ¬ v.ready) :
    Builds image p V k v (writeUnlessZero fd off buf) fun r v' => Kept v v' ∧ ∀ a, r = .ok a →
      v' = { v with device := some (d.extend (if buf.all (· == 0) then [] else [.write p off buf])) } := by
  unfold writeUnlessZero
  split
  · refine shows_pure ⟨⟨rfl, rfl⟩, fun _ _ => ?_⟩
    simp [Device.extend, ← device]
  · exact builds_event rfl (fun _ => trivial) nofun named device unmarked (fun _ _ touched => touched)
      fun w c w' a => World.perform_record

theorem builds_copySkippingZeros {fd : Id} (limit fuel : Nat) (rest : List UInt8) (off : Nat)
    (named : v.entry = some fd) (device : v.device = some d) (unmarked : ¬ v.ready) :
    Builds image p V k v (copySkippingZeros fd limit fuel rest off) fun r v' => Kept v v' ∧
      ∀ n, r = .ok n → v' = { v with device := some (d.extend (writeLog p fuel rest off)) } := by
  induction fuel generalizing v rest off d with
  | zero =>
    refine shows_pure ⟨⟨rfl, rfl⟩, fun _ _ => ?_⟩
    simp [Device.extend, writeLog, ← device]
  | succ fuel ih =>
    refine shows_bind (builds_quietly (o := .readFull) rfl) ?_ ?_
    · rintro e _ rfl
      exact ⟨⟨rfl, rfl⟩, nofun⟩
    rintro _ _ rfl
    dsimp only
    split
    · exact shows_fail ⟨⟨rfl, rfl⟩, nofun⟩
    refine shows_bind (builds_writeUnlessZero _ named device unmarked) ?_ ?_
    · rintro e v' ⟨kept, -⟩
      exact ⟨kept, nofun⟩
    rintro a v' ⟨-, written⟩
    obtain rfl := written a rfl
    by_cases short : (rest.take chunk).length < chunk
    · rw [if_pos short]
      refine shows_pure ⟨⟨rfl, rfl⟩, fun _ _ => ?_⟩
      rw [writeLog, if_pos short]
    · rw [if_neg short]
      refine shows_mono ?_ (ih _ _ named rfl unmarked)
      rintro r v' ⟨kept, copied⟩
      refine ⟨kept, fun n ok => ?_⟩
      rw [copied n ok, writeLog, if_neg short]
      simp [Device.extend]

theorem builds_populate (sizeBytes : Nat) (named : v.entry = some id) (mapped : v.mapped = some id)
    (device : v.device = some (blank k)) (unmarked : ¬ v.ready) :
    Builds image p V k v (populate k (.base k) sizeBytes) fun r v' => Kept v v' ∧
      (r = .ok () → ∃ d, v'.device = some d ∧ Complete image k d) := by
  refine shows_bind (builds_quiet (A := fun src => src = image k) (o := .openImage k) rfl ?_) ?_ ?_
  · rintro w c w' src - - steady ⟨⟩
    exact steady k rfl
  · rintro e _ ⟨rfl, -⟩
    exact ⟨⟨rfl, rfl⟩, by rintro ⟨⟩⟩
  rintro src _ ⟨rfl, source⟩
  obtain rfl := source src rfl
  refine shows_bind (builds_quiet (A := fun dst => dst = id) (o := .openDevice (.base k)) rfl ?_) ?_ ?_
  · rintro w c w' dst - view - done
    have found : w.maps.lookup (.base k) = some id := (congrArg BaseView.mapped view).trans mapped
    simp only [World.perform, found] at done
    cases done
    rfl
  · rintro e _ ⟨rfl, -⟩
    exact ⟨⟨rfl, rfl⟩, by rintro ⟨⟩⟩
  rintro dst _ ⟨rfl, opened⟩
  obtain rfl := opened dst rfl
  refine shows_bind (builds_copySkippingZeros _ _ _ _ named device unmarked) ?_ ?_
  · rintro e v' ⟨kept, -⟩
    exact ⟨kept, by rintro ⟨⟩⟩
  rintro written v' ⟨-, copied⟩
  obtain rfl := copied written rfl
  split
  · exact shows_fail ⟨⟨rfl, rfl⟩, by rintro ⟨⟩⟩
  · refine shows_mono ?_ (builds_event (o := .sync dst) (e := .sync p) rfl (fun _ => trivial) (by rintro _ ⟨⟩) named rfl
      unmarked (fun _ _ touched => touched) fun w c w' a => World.perform_record)
    rintro r v' ⟨kept, synced⟩
    refine ⟨kept, fun ok => ⟨_, congrArg BaseView.device (synced () ok), rfl, rfl, p, ?_⟩⟩
    simp [Device.extend, blank, populateLog]

theorem builds_markBaseReady (complete : v.entry ≠ none ∧ ∀ d, v.device = some d → Complete image k d) :
    Builds image p V k v (registry (.markBaseReady k)) fun _ _ => True := by
  refine builds_set (u := { v with ready := True }) rfl (fun _ => trivial) nofun (fun _ _ _ _ touched => Eq.symm touched)
    ?_ (fun _ named => named) (fun _ _ => complete) (fun _ => trivial) fun _ => trivial
  rintro w c w' a rfl done
  exact World.perform_markBaseReady done

theorem builds_buildBase (sizeBytes : Nat) (unmarked : ¬ v.ready) :
    Builds image p V k v (buildBase k sizeBytes) fun _ _ => True := by
  refine shows_then (builds_createBaseWithin _ _ unmarked) ?_
  rintro id v' ⟨named, clear, mapped, device⟩
  refine shows_attempt (builds_populate sizeBytes named mapped device clear) ?_
  rintro writeErr v1 ⟨kept1, filled⟩
  refine shows_attempt builds_removeDevice ?_
  rintro rmErr v2 remapped
  refine shows_then (builds_ofExcept (Q := fun r v => r = writeErr ∧ v = v2) ⟨rfl, rfl⟩) ?_
  rintro ⟨⟩ _ ⟨rfl, rfl⟩
  refine shows_then (builds_ofExcept (Q := fun _ v => v = _) rfl) ?_
  rintro _ _ rfl
  obtain ⟨d, found, complete⟩ := filled rfl
  obtain ⟨m, rfl⟩ := remapped
  have whole : v1.entry ≠ none ∧ ∀ d, v1.device = some d → Complete image k d := by
    refine ⟨by simp [kept1.1, named], fun d' found' => ?_⟩
    rw [found] at found'
    cases found'
    exact complete
  refine shows_then (builds_markBaseReady whole) fun _ v3 _ => ?_
  exact shows_then (builds_quietly (o := .registry (.touchBase k)) rfl) fun _ _ _ => shows_pure trivial

end Build

section Calls

variable {p : Pid} {K : Known} {k : Key} {α : Type}

variable {v : BaseView} {V : Key → Option BaseView} {base : Id}

theorem proves_locked {body : Act α} (free : K.views k = none)
    (builds : Builds image p K.views k v body fun _ _ => True) :
    Proves image p (K.put k v) (body.deferred (issue (.unlock k))) fun _ K' => K'.views = K.views := by
  refine shows_deferred (builds_iff.mp builds K.spare) ?_
  rintro r _ ⟨v', s', rfl, -⟩
  refine shows_mono ?_ (proves_unlock (k := k) (v := v') (by simp))
  rintro _ _ rfl
  simp [Known.drop, ← free]

theorem builds_baseID :
    Builds image p V k v (registry (.baseID k)) fun r v' => v' = v ∧ ∀ known, r = .ok known → known = v.entry := by
  refine builds_quiet (o := .registry (.baseID k)) rfl ?_
  rintro w c w' known - rfl - done
  exact (World.perform_baseID done).2

theorem builds_baseReady :
    Builds image p V k v (registry (.baseReady k)) fun r v' =>
      v' = v ∧ ∀ found, r = .ok found → (found = true ↔ v.ready) := by
  refine builds_quiet (o := .registry (.baseReady k)) rfl ?_
  rintro w c w' found - rfl - done
  exact (World.perform_baseReady done).2

theorem builds_evictLocked : Builds image p V k v (evictLocked k) fun _ _ => True := by
  refine shows_then builds_baseID ?_
  rintro known _ ⟨rfl, answer⟩
  cases known with
  | none => exact shows_pure trivial
  | some id =>
    have named := (answer _ rfl).symm
    refine shows_then builds_unmapIfActive fun _ v1 remapped => ?_
    refine shows_then (builds_deleteThin (remapped.kept.1.trans named)) fun _ v2 _ => ?_
    refine shows_then (R := fun _ _ => True) ?_ fun _ v3 _ => shows_pure trivial
    refine builds_set (u := { v2 with entry := none, ready := v2.ready ∧ v2.entry = none, device := none }) rfl (fun _ => trivial) nofun
      (fun _ _ _ _ touched => Eq.symm touched) ?_ nofun (fun complete marked => absurd marked.2 (complete marked.1).1)
      (fun _ => trivial) fun _ => trivial
    rintro w c w' a rfl done
    exact World.perform_forgetBase done

theorem proves_evictBase : Proves image p K (evictBase k) fun _ K' => K'.views = K.views := by
  refine shows_bind proves_tryLock ?_ ?_
  · rintro e _ rfl
    rfl
  · rintro (_ | _) K' locked
    · cases locked
      exact shows_pure rfl
    · obtain ⟨free, v, rfl⟩ := locked
      exact proves_locked free builds_evictLocked

theorem closed_views : Prog.Closed fun _ (m : Act _) => ∀ K, Proves image p K m fun _ K' => K'.views = K.views :=
  closed_shows (fun _ => rfl) fun first later => later.trans first

theorem views_quiet (o : Op) (quiet : o.quiet = true) (K : Known) :
    Proves image p K (issue o) fun _ K' => K'.views = K.views :=
  shows_mono (fun _ _ same => congrArg Known.views same) (proves_quietly quiet)

theorem proves_makeRoomFor (sizeBytes : Nat) (keep : Key) :
    Proves image p K (makeRoomFor sizeBytes keep) fun _ K' => K'.views = K.views :=
  closed_makeRoomFor closed_views (views_quiet (.registry (.reserve keep sizeBytes)) rfl)
    (views_quiet (.registry .evictionOrder) rfl) (fun _ _ => proves_evictBase) K

theorem builds_ensureBaseLocked (sizeBytes needBytes : Nat) :
    Builds image p V k v (ensureBaseLocked k sizeBytes needBytes) fun _ _ => True := by
  refine shows_then builds_baseReady ?_
  rintro found v' ⟨same, answer⟩
  subst v'
  have ready := answer found rfl
  cases found with
  | true =>
    refine shows_then (builds_quietly (o := .registry (.baseID k)) rfl) fun _ _ _ => ?_
    exact shows_then (builds_quietly (o := .registry (.touchBase k)) rfl) fun _ _ _ => shows_pure trivial
  | false =>
    have unmarked : ¬ v.ready := fun marked => Bool.false_ne_true (ready.mpr marked)
    refine shows_then (R := fun _ v' => v' = v) ?_ ?_
    · refine builds_iff.mpr fun s => shows_mono ?_ (proves_makeRoomFor needBytes k)
      rintro r ⟨_, s'⟩ rfl
      exact ⟨_, s', rfl, rfl⟩
    · rintro _ _ rfl
      exact shows_deferred (builds_buildBase sizeBytes unmarked) fun _ _ _ =>
        shows_mono (fun _ _ _ => trivial) (builds_quietly (o := .registry (.unreserve k)) rfl)

theorem proves_ensureBaseNeeding (sizeBytes needBytes : Nat) :
    Proves image p K (ensureBaseNeeding k sizeBytes needBytes) fun _ K' => K'.views = K.views := by
  unfold ensureBaseNeeding
  split
  · exact shows_fail rfl
  · refine shows_bind proves_lock ?_ ?_
    · rintro e _ rfl
      rfl
    · rintro _ _ ⟨free, v, rfl⟩
      exact proves_locked free (builds_ensureBaseLocked sizeBytes needBytes)

def Known.Backed (K : Known) (base : Id) : Prop :=
  ∃ k v, K.views k = some v ∧ v.entry = some base ∧ v.ready

variable {id : Id}

theorem Known.Backed.snaps {g : Key} {w : World} (backed : K.Backed base) (inv : Bases image w) (knows : Knows p K w) :
    SnapsComplete image w (.createSnap id base g) := by
  obtain ⟨k, v, known, named, marked⟩ := backed
  obtain ⟨-, rfl⟩ := knows.held k v known
  exact ⟨k, named, (inv.ready k marked).2⟩

variable (g : Key)
include g

theorem proves_activate_guest (id : Id) (sectors : Nat) :
    Proves image p K (activate (.guest g) id sectors) fun _ K' => K' = K := by
  refine shows_bind (proves_quietly (o := .info) rfl) (fun _ _ same => same) ?_
  rintro _ _ rfl
  refine shows_bind (proves_quietly (o := .create (.guest g) id sectors) rfl) (fun _ _ same => same) ?_
  rintro _ _ rfl
  exact proves_quietly (o := .mknodes (.guest g)) rfl

theorem proves_snapshotBase (sectors : Nat) (backed : K.Backed base) (spare : K.spare = some id) :
    Proves image p K (snapshotBase base id (.guest g) sectors g) fun _ K' => K' = K := by
  refine shows_bind (R := fun _ K' => K' = K) ?_ (fun _ _ same => same) ?_
  · refine shows_mono (fun _ _ => And.left) (proves_apart (A := fun _ => True) rfl
      (fun w inv knows => backed.snaps inv knows) (fun w knows k touched => ?_)
      (fun _ _ _ absurd => by cases absurd) fun _ _ _ _ _ _ _ _ => trivial)
    exact (knows.spare id spare).2 k touched
  · rintro _ _ rfl
    exact proves_activate_guest g id sectors

theorem proves_allocateGuest : Proves image p K (registry (.allocateGuest g)) fun r K' =>
    K'.views = K.views ∧ ∀ id, r = .ok (id, true) → K'.spare = some id := by
  refine proves_issue (fun _ _ _ => trivial) ?_ fun e => ⟨rfl, nofun⟩
  rintro w c w' ⟨id, fresh⟩ inv knows limit - - done
  have locks := World.perform_locks rfl done
  have counter := World.perform_counter limit (fun _ absurd => by cases absurd) done
  have same : ∀ k, w'.baseView k = w.baseView k := fun k =>
    World.perform_base_frame (o := .registry (.allocateGuest g)) (fun touched => touched) done
  have knows' : Knows p K w' := knows.apart (fun k mine => locks ▸ mine) counter same
  refine ⟨apart_step inv (fun k q _ theirs => locks ▸ theirs) counter same, ?_,
    fun e => ⟨K, knows', rfl, nofun⟩⟩
  cases fresh with
  | false => exact ⟨K, knows', rfl, nofun⟩
  | true =>
    obtain ⟨given, above⟩ : id = w.registry.nextID ∧ id < w'.registry.nextID := by
      rcases World.withLock_cases done with ⟨rfl, answer⟩ | ⟨st, rfl, answer⟩ <;>
        simp only [RegOp.mutate, RegistryState.allocateGuest, RegistryState.allocate] at answer <;>
        split at answer <;> cases answer
      have next : (w.registry.nextID + 1) % idLimit = w.registry.nextID + 1 := Nat.mod_eq_of_lt limit
      refine ⟨rfl, lt_of_lt_of_le ?_ (le_max_left _ _)⟩
      rw [next]
      exact Nat.lt_succ_self _
    refine ⟨⟨K.views, some id⟩, ⟨knows'.held, ?_⟩, rfl, ?_⟩
    · rintro i ⟨⟩
      refine ⟨above, fun k named => ?_⟩
      rw [same k] at named
      exact absurd given (Nat.ne_of_lt (inv.below k id named))
    · rintro _ ⟨⟩
      rfl

theorem proves_makeGuest {retry : Act DevName} (sectors : Nat) (backed : K.Backed base)
    (spare : K.spare = some id) (again : Proves image p K retry fun _ K' => K'.views = K.views) :
    Proves image p K (makeGuest base g (.guest g) sectors id retry) fun _ K' => K'.views = K.views := by
  refine shows_attempt (proves_snapshotBase g sectors backed spare) ?_
  rintro made _ rfl
  cases made with
  | ok a =>
    exact closed_views.bind (views_quiet (.registry (.markGuestCreated g base)) rfl) (fun _ _ => shows_pure rfl) _
  | error e =>
    refine shows_bind (proves_quietly (o := .registry (.forget g)) rfl) (fun _ _ same => by rw [same]) ?_
    rintro _ _ rfl
    split
    · refine shows_bind (proves_apart (A := fun _ => True) (o := .registry (.advance id)) rfl
        (fun _ _ _ => trivial) (fun _ _ _ touched => touched) ?_ fun _ _ _ _ _ _ _ _ => trivial) ?_ ?_
      · rintro w knows past ⟨⟩
        exact (knows.spare _ spare).1
      · rintro e _ ⟨rfl, -⟩
        rfl
      · rintro _ _ ⟨rfl, -⟩
        exact again
    · exact shows_fail rfl

theorem proves_createGuestWithin (sectors attempts : Nat) (backed : K.Backed base) :
    Proves image p K (createGuestWithin base g (.guest g) sectors attempts)
      fun _ K' => K'.views = K.views := by
  induction attempts generalizing K with
  | zero => exact shows_fail rfl
  | succ attempts ih =>
    unfold createGuestWithin allocateGuest
    split
    · exact shows_fail rfl
    · refine shows_bind (proves_allocateGuest g) (fun _ _ same => same.1) ?_
      rintro ⟨id, fresh⟩ K' ⟨same, spare⟩
      have backed' : K'.Backed base := by
        obtain ⟨k, v, known, rest⟩ := backed
        exact ⟨k, v, same ▸ known, rest⟩
      cases fresh with
      | true =>
        exact shows_mono (fun _ _ later => later.trans same)
          (proves_makeGuest g sectors backed' (spare id rfl) (ih backed'))
      | false =>
        refine shows_bind (proves_activate_guest g id sectors) (fun _ _ kept => by rw [kept, same]) ?_
        rintro _ _ rfl
        exact shows_pure same

theorem proves_createGuest (sectors : Nat) :
    Proves image p K (createGuest k g (.guest g) sectors) fun _ K' => K'.views = K.views := by
  unfold createGuest
  split
  · next empty =>
    -- no base is ever recorded under the empty key
    refine shows_bind (proves_quiet (A := fun found => found = false) (o := .registry (.baseReady k)) rfl ?_)
      (fun _ _ same => by rw [same.1]) ?_
    · intro w c w' found inv _ _ done
      obtain ⟨-, ready⟩ := World.perform_baseReady done
      rw [empty] at ready
      rw [Bool.eq_false_iff]
      exact fun marked => (inv.ready "" (ready.mp marked)).1 inv.unnamed
    · rintro found _ ⟨rfl, answer⟩
      cases answer found rfl
      exact shows_fail rfl
  · refine shows_bind proves_lock (fun _ _ same => by rw [same]) ?_
    rintro _ _ ⟨free, v, rfl⟩
    refine proves_locked free ?_
    refine shows_then builds_baseReady ?_
    rintro found _ ⟨rfl, ready⟩
    cases found with
    | false => exact shows_fail trivial
    | true =>
      refine shows_then builds_baseID ?_
      rintro known _ ⟨rfl, named⟩
      cases known with
      | none => exact shows_fail trivial
      | some base =>
        refine builds_iff.mpr fun s => shows_mono ?_ (proves_createGuestWithin g sectors maxIDRetries ?_)
        · rintro r ⟨_, s'⟩ rfl
          exact ⟨_, s', rfl, trivial⟩
        · exact ⟨k, _, by simp, (named _ rfl).symm, (ready _ rfl).mp rfl⟩

theorem proves_ensureGuest (sizeBytes : Nat) :
    Proves image p K (ensureGuest k g (.guest g) sizeBytes) fun _ K' => K'.views = K.views :=
  closed_ensureGuest closed_views (views_quiet .ls rfl) (views_quiet (.registry (.guestID g)) rfl)
    (views_quiet (.registry (.guestCreated g)) rfl)
    (fun id _ => shows_mono (fun _ _ same => congrArg Known.views same) (proves_activate_guest g id _))
    (views_quiet (.registry (.forget g)) rfl) (fun _ => proves_createGuest g _) K

end Calls

def Call.releases : Call → Bool
  | .release _ => true
  | _ => false

def Builder : Type := { c : Call // c.releases = false }

def Builder.prog (b : Builder) : Act (Option DevName) := b.1.prog

theorem Builder.wp_prog (b : Builder) (p : Pid) (inv : Bases image w) :
    wp (steadyImages image) (readySpec image) p b.prog (fun _ _ => True) w := by
  have knows : Knows p ⟨fun _ => none, none⟩ w := ⟨nofun, nofun⟩
  have discard : ∀ {α : Type} {m : Act α} {f : α → Option DevName},
      Proves image p ⟨fun _ => none, none⟩ m (fun _ K' => K'.views = fun _ => none) →
      wp (steadyImages image) (readySpec image) p (do let a ← m; pure (f a)) (fun _ _ => True) w := by
    intro α m f proves
    rw [wp_bind]
    refine wp_mono ?_ (proves w inv knows)
    rintro (e | a) w' - <;> trivial
  obtain ⟨c, kind⟩ := b
  cases c with
  | ensureBase key sizeBytes needBytes => exact discard (proves_ensureBaseNeeding sizeBytes needBytes)
  | ensureGuest baseKey guestKey sizeBytes => exact discard (proves_ensureGuest guestKey sizeBytes)
  | evict key => exact discard proves_evictBase
  | release guestKey => cases kind

theorem bases_empty (lost : w.file = .absent) : Bases image w := by
  have registry : w.registry = .fresh := by simp [World.registry, load, lost]
  have none : ∀ k, (w.baseView k).entry = none := by
    intro k
    simp [World.baseView, registry, RegistryState.fresh]
  refine ⟨fun k i named => ?_, fun k k' i named => ?_, none "", fun k marked => ?_⟩
  · rw [none k] at named
    cases named
  · rw [none k] at named
    cases named
  · simp [World.baseView, registry, RegistryState.fresh] at marked

/-- Whatever the processes do and however they fail, a snapshot is issued against a base that some key
has, and what the pool holds there, if anything, is that key's whole image, written and synced by one
process since the device was made. -/
theorem snapshots_complete_base (image : Key → List UInt8) {w : World} (lost : w.file = .absent)
    {s : System Pid World Op Op.Res Err (Option DevName)}
    (reachable : Reachable (steadyImages image) (fun prog => ∃ b : Builder, prog = b.prog) w s)
    {p : Pid} {id base : Id} {g : Key} (pending : (s.procs p).pending = some (.createSnap id base g)) :
    ∃ k, s.world.registry.bases.lookup k = some base ∧ ∀ d, s.world.pool base = some d →
      Complete image k d ∧ d.content = fun i => (image k).getD i 0 := by
  have starts : ∀ p prog w, (∃ b : Builder, prog = b.prog) → (readySpec image).inv w → True →
      wp (steadyImages image) (readySpec image) p prog (fun _ _ => True) w := by
    rintro p _ w ⟨b, rfl⟩ inv -
    exact b.wp_prog p inv
  have sound := sound_reachable (P := fun _ _ => True) (Q := fun _ _ _ => True) compatible_readySpec starts
    (bases_empty lost) (fun _ _ _ _ => trivial) reachable
  obtain ⟨k, named, complete⟩ := sound.pre compatible_readySpec pending
  refine ⟨k, named, fun d found => ?_⟩
  have entry : s.world.registry.bases.lookup k = some base := named
  have device : (s.world.baseView k).device = some d := by
    simp [World.baseView, entry, found]
  exact ⟨complete d device, (complete d device).content⟩

private theorem reached_calmly (moves : List (Move Pid Choice Builder))
    {P : System Pid World Op Op.Res Err (Option DevName) → Prop} [DecidablePred P]
    (view : (engine.play Builder.prog (fun _ w _ c => c.image = [1] ∧ w.registry.nextID + 1 < idLimit) moves
      ⟨emptyNode, fun _ => .idle⟩).map (fun s => decide (P s)) = some true) :
    ∃ s, Reachable (steadyImages fun _ => [1]) (fun prog => ∃ b : Builder, prog = b.prog) emptyNode s ∧ P s := by
  refine exists_of_moves _ moves ?_ (fun _ _ _ => trivial) view
  intro p w o c checked
  rw [decide_eq_true_iff] at checked
  exact ⟨fun k _ => checked.1, checked.2⟩

private def building : List (Move Pid Choice Builder) :=
  .start 0 ⟨.ensureBase "image" 1 1, rfl⟩ :: List.replicate 19 (.op 0 calm)

private def snapshotting : List (Move Pid Choice Builder) :=
  .start 2 ⟨.ensureGuest "image" "guest" 1, rfl⟩ :: List.replicate 6 (.op 2 calm)

theorem snapshots_complete_base_after_build :
    ∃ s : System Pid World Op Op.Res Err (Option DevName),
      Reachable (steadyImages fun _ => [1]) (fun prog => ∃ b : Builder, prog = b.prog) emptyNode s ∧
      (s.procs 2).pending = some (.createSnap 2 1 "guest") ∧
      ∃ k d, s.world.registry.bases.lookup k = some 1 ∧ s.world.pool 1 = some d ∧
        Complete (fun _ => [1]) k d ∧ d.content = fun i => [1].getD i 0 := by
  have reached : ∃ s, Reachable (steadyImages fun _ => [1]) (fun prog => ∃ b : Builder, prog = b.prog) emptyNode s ∧
      (s.procs 2).pending = some (.createSnap 2 1 "guest") ∧ (s.world.pool 1).isSome = true :=
    reached_calmly (building ++ snapshotting) (by decide)
  obtain ⟨s, reachable, pending, there⟩ := reached
  obtain ⟨d, found⟩ := Option.isSome_iff_exists.mp there
  obtain ⟨k, named, complete⟩ := snapshots_complete_base (fun _ => [1]) rfl reachable pending
  exact ⟨s, reachable, pending, k, d, named, found, complete d found⟩

private def evicting : List (Move Pid Choice Builder) :=
  .start 1 ⟨.evict "image", rfl⟩ :: List.replicate 4 (.op 1 calm) ++ [.crash 1]

/-- The registry still calls the deleted base ready, and the next guest's snapshot is issued against an
id at which the pool holds nothing. -/
theorem snapshot_of_evicted_base :
    ∃ s : System Pid World Op Op.Res Err (Option DevName),
      Reachable (steadyImages fun _ => [1]) (fun prog => ∃ b : Builder, prog = b.prog) emptyNode s ∧
      (s.procs 2).pending = some (.createSnap 2 1 "guest") ∧ s.world.pool 1 = none :=
  reached_calmly (building ++ evicting ++ snapshotting) (by decide)

end KubeSwift.ThinPool
