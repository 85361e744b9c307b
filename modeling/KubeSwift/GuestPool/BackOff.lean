import KubeSwift.GuestPool.Controller
import KubeSwift.Program.Triples

/-! # The back-off of a failing replica

The attempt of a replacement is in the failed replica's annotation and, once that is deleted, only in a map of the pass.
-/

namespace KubeSwift.GuestPool
open Program

def Event.ofReplicas : Event → Bool
  | .setTemplate _ | .setPool _ => false
  | _ => true

def poolSetting : Setting Unit World Op Op.Res Err where
  env w w' := ∃ e : Event, e.ofReplicas ∧ w' = e.apply w
  quiet w w' := ∃ e : Event, w' = e.apply w
  offered _ prog := prog = reconcile

def noPool : World := ⟨0, none, [], []⟩

abbrev PoolRuns (s : Loops Unit World Op Op.Res Err) : Prop :=
  LoopsReach (engine.machine (fun _ _ _ _ => True) (fun _ _ => True)) poolSetting noPool s

def annotationOf (n : Nat) : Option Nat := if 0 < n then some n else none

/-- While a replacement is owed no call fails, and a replica that failed young is replaced young. -/
structure Orderly (w : World) (o : Op) (c : Choice) : Prop where
  succeeds : ∀ w' r, w.exec c o = (w', r) → w.owed ≠ [] ∨ w'.owed ≠ [] → ∃ a, r = .ok a
  punctual : ∀ idx g, o = .delete idx → (idx, g) ∈ w.guests → g.failedYoung → w.clock < g.creationTimestamp + replacementBackoffReset

def orderlyMachine : Machine Unit World Op Op.Res Err :=
  engine.machine (fun _ w o c => Orderly w o c) (fun _ w => w.owed = [])

abbrev OrderlyPoolRuns (s : Loops Unit World Op Op.Res Err) : Prop :=
  LoopsReach orderlyMachine poolSetting noPool s

structure Sane (clock : Nat) (g : SwiftGuest) : Prop where
  carried : g.replacementAttempt = annotationOf g.nth
  noted : g.phase = .failed → ∃ t, g.failedAt = some t
  timely : ∀ t, g.failedAt = some t → t ≤ clock

structure Numbered (w : World) : Prop where
  nodup : w.guests.indices.Nodup
  sane : ∀ idx g, (idx, g) ∈ w.guests → Sane w.clock g

structure Aged (g g' : SwiftGuest) : Prop where
  templateHash : g'.templateHash = g.templateHash
  replacementAttempt : g'.replacementAttempt = g.replacementAttempt
  creationTimestamp : g'.creationTimestamp = g.creationTimestamp
  nth : g'.nth = g.nth
  failedAt : ∀ t, g.failedAt = some t → g'.failedAt = some t

theorem Aged.refl (g : SwiftGuest) : Aged g g := ⟨rfl, rfl, rfl, rfl, fun _ same => same⟩

theorem Aged.trans {a b c : SwiftGuest} (first : Aged a b) (second : Aged b c) : Aged a c where
  templateHash := second.templateHash.trans first.templateHash
  replacementAttempt := second.replacementAttempt.trans first.replacementAttempt
  creationTimestamp := second.creationTimestamp.trans first.creationTimestamp
  nth := second.nth.trans first.nth
  failedAt t known := second.failedAt t (first.failedAt t known)

structure Drift (w w' : World) : Prop where
  clock : w.clock ≤ w'.clock
  pool : w'.pool = w.pool
  owed : w'.owed = w.owed
  guests : ∀ idx g', (idx, g') ∈ w'.guests → ∃ g, (idx, g) ∈ w.guests ∧ Aged g g'

theorem Drift.refl (w : World) : Drift w w := ⟨Nat.le_refl _, rfl, rfl, fun _ g here => ⟨g, here, .refl g⟩⟩

theorem Drift.trans {a b c : World} (first : Drift a b) (second : Drift b c) : Drift a c where
  clock := Nat.le_trans first.clock second.clock
  pool := second.pool.trans first.pool
  owed := second.owed.trans first.owed
  guests idx g'' here := by
    obtain ⟨g', between, later⟩ := second.guests idx g'' here
    obtain ⟨g, before, earlier⟩ := first.guests idx g' between
    exact ⟨g, before, earlier.trans later⟩

section Events

variable {w : World}

theorem drift_alter {idx : Nat} {f : SwiftGuest → SwiftGuest} (ages : ∀ g, Aged g (f g)) :
    Drift w { w with guests := w.guests.alter idx f } := by
  refine ⟨Nat.le_refl _, rfl, rfl, ?_⟩
  intro i g' here
  obtain ⟨g, before, rfl⟩ := mem_alter.mp here
  refine ⟨g, before, ?_⟩
  split
  · exact ages g
  · exact .refl g

variable {keep : Nat × SwiftGuest → Bool}

theorem drift_filter : Drift w { w with guests := w.guests.filter keep } :=
  ⟨Nat.le_refl _, rfl, rfl, fun _ g' here => ⟨g', (List.mem_filter.mp here).1, .refl g'⟩⟩

theorem aged_report (g : SwiftGuest) (clock : Nat) (phase : Phase) (guestRunning : Option Bool) :
    Aged g (g.report clock phase guestRunning) := by
  refine ⟨rfl, rfl, rfl, rfl, ?_⟩
  intro t known
  simp [SwiftGuest.report, known]

theorem drift_event {e : Event} (replicas : e.ofReplicas) : Drift w (e.apply w) := by
  cases e with
  | tick seconds => exact ⟨Nat.le_add_right _ _, rfl, rfl, fun _ g here => ⟨g, here, .refl g⟩⟩
  | setStatus idx phase guestRunning => exact drift_alter fun g => aged_report g _ phase guestRunning
  | setFinalizers idx held => exact drift_alter fun g => ⟨rfl, rfl, rfl, rfl, fun _ same => same⟩
  | gone idx => exact drift_filter
  | userDelete idx =>
    have marked : Drift w { w with guests := w.guests.alter idx fun g => { g with deletionTimestamp := true } } :=
      drift_alter fun g => ⟨rfl, rfl, rfl, rfl, fun _ same => same⟩
    exact marked.trans drift_filter
  | setTemplate template => cases replicas
  | setPool pool => cases replicas

theorem Numbered.alter (numbered : Numbered w) {idx : Nat} {f : SwiftGuest → SwiftGuest}
    (sane : ∀ g, Sane w.clock g → Sane w.clock (f g)) : Numbered { w with guests := w.guests.alter idx f } := by
  refine ⟨by simpa using numbered.nodup, ?_⟩
  intro i g' here
  obtain ⟨g, before, rfl⟩ := mem_alter.mp here
  have old := numbered.sane i g before
  split
  · exact sane g old
  · exact old

theorem Numbered.filter (numbered : Numbered w) :
    Numbered { w with guests := w.guests.filter keep } :=
  ⟨numbered.nodup.sublist (List.filter_sublist.map _), fun idx g here => numbered.sane idx g (List.mem_filter.mp here).1⟩

theorem Sane.report {g : SwiftGuest} {clock : Nat} (sane : Sane clock g) (phase : Phase) (guestRunning : Option Bool) :
    Sane clock (g.report clock phase guestRunning) := by
  refine ⟨sane.carried, ?_, ?_⟩
  · intro failed
    by_cases first : g.failedAt = none
    · exact ⟨clock, if_pos ⟨failed, first⟩⟩
    · obtain ⟨t, known⟩ := Option.ne_none_iff_exists'.mp first
      exact ⟨t, by simp [SwiftGuest.report, known]⟩
  · intro t known
    simp only [SwiftGuest.report] at known
    split at known
    · cases known
      exact Nat.le_refl _
    · exact sane.timely t known

theorem Numbered.event (numbered : Numbered w) (e : Event) : Numbered (e.apply w) := by
  cases e with
  | tick seconds =>
    refine ⟨numbered.nodup, fun idx g here => ?_⟩
    have old := numbered.sane idx g here
    exact ⟨old.carried, old.noted, fun t known => Nat.le_trans (old.timely t known) (Nat.le_add_right _ _)⟩
  | setStatus idx phase guestRunning => exact numbered.alter fun g sane => sane.report phase guestRunning
  | setFinalizers idx held => exact numbered.alter fun g sane => { sane with }
  | gone idx => exact numbered.filter
  | userDelete idx =>
    have marked : Numbered { w with guests := w.guests.alter idx fun g => { g with deletionTimestamp := true } } :=
      numbered.alter fun g sane => { sane with }
    exact marked.filter
  | setTemplate template => exact { numbered with }
  | setPool pool => exact { numbered with }

end Events

def Op.Counted (w : World) : Op → Prop
  | .create idx template attempt => attempt = w.nth idx (computeTemplateHash template)
  | _ => True

section Steps

variable {w w' : World} {c : Choice} {o : Op}

theorem perform_numbered (numbered : Numbered w) (counted : o.Counted w) {a : o.Res}
    (result : w.perform c o = .ok (w', a)) : Numbered w' := by
  cases o with
  | delete idx =>
    simp only [World.perform] at result
    split at result <;> cases result
    next g there =>
      by_cases held : g.finalizers
      · have marked : Numbered { w with guests := w.guests.alter idx fun g => { g with deletionTimestamp := true } } :=
          numbered.alter fun g sane => { sane with }
        exact ⟨by simpa [World.deleteGuest, held] using marked.nodup, by simpa [World.deleteGuest, held] using marked.sane⟩
      · have fewer : Numbered { w with guests := w.guests.without idx } := numbered.filter
        exact ⟨by simpa [World.deleteGuest, held] using fewer.nodup, by simpa [World.deleteGuest, held] using fewer.sane⟩
  | create idx template attempt =>
    simp only [World.perform] at result
    split at result <;> cases result
    next free =>
      refine ⟨List.nodup_cons.mpr ⟨get?_eq_none.mp free, numbered.nodup⟩, ?_⟩
      intro i g here
      rcases List.mem_cons.mp here with new | old
      · cases new
        refine ⟨?_, nofun, nofun⟩
        have same : attempt = w.nth idx (computeTemplateHash template) := counted
        simp only [World.newGuest, annotationOf, same]
      · exact numbered.sane i g old
  | getPool | listOwnedGuests | range _ | now | prepare _ | updateStatus =>
    cases result
    exact numbered

theorem orderly_cases {r : Except Err o.Res} (step : orderlyMachine.step () w o r w') :
    ∃ c, Orderly w o c ∧ ((∃ a, r = .ok a ∧ w.perform c o = .ok (w', a)) ∨
      ∃ e, r = .error e ∧ w'.owed = [] ∧ (w' = w ∨ ∃ a, w.perform c o = .ok (w', a))) := by
  obtain ⟨c, orderly, result⟩ := step
  have result : w.exec c o = (w', r) := Option.some.inj result
  refine ⟨c, orderly, ?_⟩
  have settled : ∀ e, r = .error e → w'.owed = [] := by
    intro e failed
    by_contra owed
    obtain ⟨a, fine⟩ := orderly.succeeds w' r result (.inr owed)
    cases fine.symm.trans failed
  cases o with
  | range keys | now =>
    cases result
    exact .inl ⟨_, rfl, rfl⟩
  | _ =>
    rcases withFault_cases result with ⟨a, same, done⟩ | ⟨e, failed, effect⟩
    · exact .inl ⟨a, same, done⟩
    · exact .inr ⟨e, failed, settled e failed, effect⟩

end Steps

def Op.Due (w : World) : Op → Prop
  | .delete idx => ∀ g pool, (idx, g) ∈ w.guests → w.pool = some pool → idx < pool.replicas →
      g.templateHash = computeTemplateHash pool.template → g.creationTimestamp + replacementBackoff g.nth ≤ w.clock
  | _ => True

def counting : Spec Unit World Op where
  inv := Numbered
  rely _ := Drift
  guar _ _ _ := True
  pre _ := fun w o => o.Due w

structure Tally (pool : SwiftGuestPool) (m : IndexMap) (w : World) : Prop where
  spec : w.pool = some pool
  known : ∀ i g g', (i, g) ∈ m → (i, g') ∈ w.guests → Aged g g'
  sane : ∀ i g, (i, g) ∈ m → Sane w.clock g

section Pass

variable {w w₁ w₂ : World} {pool : SwiftGuestPool} {m : IndexMap}

theorem Tally.drift (tally : Tally pool m w) (drift : Drift w w₁) : Tally pool m w₁ := by
  refine ⟨drift.pool.trans tally.spec, ?_, ?_⟩
  · intro i g g'' here there
    obtain ⟨g', before, later⟩ := drift.guests i g'' there
    exact (tally.known i g g' here before).trans later
  · intro i g here
    have old := tally.sane i g here
    exact ⟨old.carried, old.noted, fun t known => Nat.le_trans (old.timely t known) drift.clock⟩

theorem Tally.sub {m' : IndexMap} (tally : Tally pool m w) (sub : m' ⊆ m) : Tally pool m' w :=
  ⟨tally.spec, fun i g g' here => tally.known i g g' (sub here), fun i g here => tally.sane i g (sub here)⟩

variable {g : SwiftGuest} {i idx hash : Nat} {α : Type}

theorem aged_delete {g'' : SwiftGuest} (there : (i, g'') ∈ (w.deleteGuest idx g).guests) :
    ∃ g', (i, g') ∈ w.guests ∧ Aged g' g'' := by
  change (i, g'') ∈ (if g.finalizers then _ else _ : IndexMap) at there
  split at there
  · obtain ⟨g', before, rfl⟩ := mem_alter.mp there
    refine ⟨g', before, ?_⟩
    split
    · exact ⟨rfl, rfl, rfl, rfl, fun _ same => same⟩
    · exact .refl g'
  · exact ⟨g'', (mem_without.mp there).1, .refl g''⟩

theorem Tally.delete (tally : Tally pool m w) (idx : Nat) (g : SwiftGuest) : Tally pool m (w.deleteGuest idx g) := by
  refine ⟨tally.spec, ?_, tally.sane⟩
  intro i g0 g'' here there
  obtain ⟨g', before, later⟩ := aged_delete there
  exact (tally.known i g0 g' here before).trans later

abbrev Pays (P : World → Prop) (m : Act α) (R : α → World → Prop) : Prop :=
  Leaves orderlyMachine counting () P m (Results R fun w => w.owed = [])

section Calls

variable {o : Op} {P : World → Prop} {R : o.Res → World → Prop}

theorem pays_issue (counted : ∀ w, P w → o.Counted w) (due : ∀ w, P w → o.Due w)
    (after : ∀ w c a w₁ w₂, P w → Orderly w o c → w.perform c o = .ok (w₁, a) → Drift w₁ w₂ → R a w₂) :
    Pays P (issue o) R := by
  intro w numbered here
  refine (wp_call o _ w).mpr ⟨due w here, ?_⟩
  intro r w' step
  obtain ⟨c, orderly, ⟨a, rfl, done⟩ | ⟨e, rfl, settled, effect⟩⟩ := orderly_cases step
  · refine ⟨perform_numbered numbered (counted w here) done, trivial, ?_⟩
    intro w'' drift _
    exact after w c a w' w'' here orderly done drift
  · refine ⟨?_, trivial, ?_⟩
    · rcases effect with rfl | ⟨a, done⟩
      · exact numbered
      · exact perform_numbered numbered (counted w here) done
    · intro w'' drift _
      exact drift.owed.trans settled

def Op.reads : Op → Bool
  | .delete _ | .create _ _ _ => false
  | _ => true

theorem pays_read (reads : o.reads = true)
    (after : ∀ w c a w₁, P w → w.perform c o = .ok (w, a) → Drift w w₁ → R a w₁) : Pays P (issue o) R := by
  refine pays_issue (fun _ _ => ?_) (fun _ _ => ?_) fun w c a w₁ w₂ here _ done drift => ?_
  · cases o <;> trivial
  · cases o <;> trivial
  · have same : w₁ = w := by cases o <;> first | cases reads; done | (cases done; rfl)
    rw [same] at done drift
    exact after w c a w₂ here done drift

end Calls

theorem nth_nil (settled : w.owed = []) : w.nth idx hash = 0 := by
  simp [World.nth, settled]

theorem nth_of_owed (same : w₁.owed = w.owed) (idx hash : Nat) : w₁.nth idx hash = w.nth idx hash := by
  simp only [World.nth, same]

theorem nth_filter_ne {debts : List Debt} (other : i ≠ idx) :
    (debts.filter (·.index ≠ idx)).find? (fun debt => debt.index = i ∧ debt.templateHash = hash) =
      debts.find? (fun debt => debt.index = i ∧ debt.templateHash = hash) := by
  rw [List.find?_filter]
  congr 1
  funext debt
  by_cases at_ : debt.index = i
  · simp [at_, other]
  · simp [at_]

theorem nth_filter_self {debts : List Debt} :
    (debts.filter (·.index ≠ idx)).find? (fun debt => debt.index = idx ∧ debt.templateHash = hash) = none := by
  refine List.find?_eq_none.mpr ?_
  intro debt member
  have other : debt.index ≠ idx := by simpa using (List.mem_filter.mp member).2
  simp [other]

theorem nth_delete_of_ne (other : i ≠ idx) : (w.deleteGuest idx g).nth i hash = w.nth i hash := by
  unfold World.nth World.deleteGuest
  dsimp only
  split
  · rw [List.find?_cons_of_neg (by simp [other.symm]), nth_filter_ne other]
  · rw [nth_filter_ne other]

theorem nth_delete_self :
    (w.deleteGuest idx g).nth idx hash = if w.inARow idx g ∧ g.templateHash = hash then g.nth + 1 else 0 := by
  unfold World.nth World.deleteGuest
  by_cases row : w.inARow idx g
  · by_cases same : g.templateHash = hash
    · simp [row, same]
    · rw [if_pos row, List.find?_cons_of_neg (by simp [same]), nth_filter_self]
      simp [same]
  · rw [if_neg row, nth_filter_self]
    simp [row]

theorem mem_owed_delete {debt : Debt} (member : debt ∈ (w.deleteGuest idx g).owed) :
    debt.index = idx ∧ w.inARow idx g ∨ debt ∈ w.owed ∧ debt.index ≠ idx := by
  unfold World.deleteGuest at member
  dsimp only at member
  split at member
  · next row =>
    rcases List.mem_cons.mp member with rfl | old
    · exact .inl ⟨rfl, row⟩
    · exact .inr (by simpa using List.mem_filter.mp old)
  · exact .inr (by simpa using List.mem_filter.mp member)

variable {c : Choice} {now : Nat}

theorem perform_delete {a : Unit} (done : w.perform c (.delete idx) = .ok (w₁, a)) :
    ∃ g, (idx, g) ∈ w.guests ∧ w₁ = w.deleteGuest idx g := by
  simp only [World.perform] at done
  split at done <;> cases done
  next g there => exact ⟨g, mem_of_get? there, rfl⟩

theorem attemptOf_cons_self {attempts : List (Nat × Nat)} {next : Nat} :
    attemptOf ((idx, next) :: attempts) idx = next := by
  simp [attemptOf]

theorem attemptOf_cons_of_ne {attempts : List (Nat × Nat)} {next : Nat} (other : i ≠ idx) :
    attemptOf ((idx, next) :: attempts) i = attemptOf attempts i := by
  unfold attemptOf
  rw [List.find?_cons_of_neg (by simp [other.symm])]

theorem annotationOf_getD (n : Nat) : (annotationOf n).getD 0 = n := by
  unfold annotationOf
  split
  · rfl
  · simp only [Option.getD_none]
    omega

theorem delay_due {clock : Nat} (sane : Sane clock g) (isOver : ¬ 0 < (replacementDelay g hash now).1)
    (same : g.templateHash = hash) : g.creationTimestamp + replacementBackoff g.nth ≤ now := by
  have low : replacementBackoff g.nth ≤ replacementBackoffCap := Nat.min_le_right _ _
  unfold replacementDelay at isOver
  rw [if_neg (not_not_intro same)] at isOver
  simp only [replacementBackoffCap, replacementBackoffReset, sane.carried, annotationOf_getD] at isOver low
  split at isOver
  · omega
  · split at isOver <;> omega

theorem delay_next {clock : Nat} (sane : Sane clock g) :
    (replacementDelay g hash now).2 =
      if g.templateHash = hash ∧ now < g.creationTimestamp + replacementBackoffReset then g.nth + 1 else 0 := by
  unfold replacementDelay
  by_cases same : g.templateHash = hash
  · rw [if_neg (not_not_intro same)]
    by_cases young : now < g.creationTimestamp + replacementBackoffReset
    · have little : ¬ (replacementBackoffReset : Int) ≤ now - g.creationTimestamp := by omega
      simp only [if_neg little, if_pos (And.intro same young), sane.carried, annotationOf_getD]
      split <;> rfl
    · have old : (replacementBackoffReset : Int) ≤ now - g.creationTimestamp := by omega
      simp only [if_pos old, if_neg (fun both : _ ∧ _ => young both.2)]
  · rw [if_pos same, if_neg (fun both : _ ∧ _ => same both.1)]

theorem inARow_iff {g' : SwiftGuest} (there : w.pool = some pool) (current : hash = computeTemplateHash pool.template)
    (below : idx < pool.replicas) (sane : Sane now g) (failed : g.phase = .failed) (later : Aged g g')
    (here : (idx, g') ∈ w.guests) (waited : now ≤ w.clock) (orderly : Orderly w (.delete idx) c) :
    (w.inARow idx g' ∧ g'.templateHash = hash) ↔
      (g.templateHash = hash ∧ now < g.creationTimestamp + replacementBackoffReset) := by
  obtain ⟨t, known⟩ := sane.noted failed
  have early := sane.timely t known
  have known' := later.failedAt t known
  have row : w.inARow idx g' = true ↔ g'.failedYoung = true ∧ g'.templateHash = hash := by
    simp [World.inARow, there, below, ← current]
  rw [row, later.templateHash]
  constructor
  · rintro ⟨⟨young, -⟩, same⟩
    have soon := orderly.punctual idx g' rfl here young
    rw [later.creationTimestamp] at soon
    exact ⟨same, by omega⟩
  · rintro ⟨same, young⟩
    refine ⟨⟨?_, same⟩, same⟩
    simp only [SwiftGuest.failedYoung, known', Option.any_some, later.creationTimestamp, decide_eq_true_eq]
    omega

structure Owing (pool : SwiftGuestPool) (m : IndexMap) (attempts : List (Nat × Nat)) (w : World) : Prop
    extends Tally pool m w where
  counts : ∀ i, attemptOf attempts i = w.nth i (computeTemplateHash pool.template)
  missing : ∀ debt ∈ w.owed, debt.index < pool.replicas ∧ debt.index ∉ m.indices

variable {attempts : List (Nat × Nat)}

theorem Owing.drift (owing : Owing pool m attempts w) (drift : Drift w w₁) : Owing pool m attempts w₁ where
  toTally := owing.toTally.drift drift
  counts i := (owing.counts i).trans (nth_of_owed drift.owed i _).symm
  missing := by
    rw [drift.owed]
    exact owing.missing

theorem notMem_without (absent : i ∉ m.indices) : i ∉ (m.without idx).indices :=
  fun member => absent ((List.filter_sublist.map _).subset member)

theorem notMem_without_self : idx ∉ (m.without idx).indices := by
  intro member
  obtain ⟨entry, here, same⟩ := List.mem_map.mp member
  exact (mem_without.mp here).2 same

theorem pays_replaceFailed (order : List Nat) : Pays (Owing pool m attempts)
    (replaceFailed pool.replicas (computeTemplateHash pool.template) order m attempts)
    fun (m', attempts') => Owing pool m' attempts' := by
  induction order generalizing m attempts with
  | nil => exact results_pure fun _ owing => owing
  | cons idx rest ih =>
    rw [replaceFailed]
    split
    · exact ih
    · next guest found =>
      have listed := mem_of_get? found
      split
      · exact ih
      · next kind =>
        have below : idx < pool.replicas := Nat.lt_of_not_le (not_or.mp kind).1
        have phase : guest.phase = .failed := by simpa using (not_or.mp kind).2
        split
        · exact ih
        · refine results_bind (U := fun now w => Owing pool m attempts w ∧ now ≤ w.clock ∧ Sane now guest)
            (pays_read rfl fun w c now w₁ owing reading drift => ?_) fun now => ?_
          · cases reading
            exact ⟨owing.drift drift, drift.clock, owing.sane idx guest listed⟩
          dsimp only
          split
          · exact leaves_pre (fun _ here => here.1) ih
          · next isOver =>
            refine results_bind (pays_issue (fun _ _ => trivial) ?_ ?_) fun _ => ih
            · rintro w ⟨owing, waited, sane⟩ g' pool' here there _ same
              cases owing.spec.symm.trans there
              have later := owing.known idx guest g' listed here
              rw [later.templateHash] at same
              rw [later.creationTimestamp, later.nth]
              exact Nat.le_trans (delay_due sane isOver same) waited
            · rintro w c _ w₂ w3 ⟨owing, waited, sane⟩ orderly done drift
              obtain ⟨g', here, rfl⟩ := perform_delete done
              have later := owing.known idx guest g' listed here
              have row := inARow_iff owing.spec rfl below sane phase later here waited orderly
              refine Owing.drift ?_ drift
              refine ⟨(owing.toTally.delete idx g').sub fun entry member => (mem_without.mp member).1, ?_, ?_⟩
              · intro i
                by_cases at_ : i = idx
                · subst at_
                  rw [attemptOf_cons_self, nth_delete_self, delay_next sane, later.nth]
                  exact if_congr row.symm rfl rfl
                · rw [attemptOf_cons_of_ne at_, nth_delete_of_ne at_]
                  exact owing.counts i
              · intro debt member
                rcases mem_owed_delete member with ⟨at_, -⟩ | ⟨old, other⟩
                · rw [at_]
                  exact ⟨below, notMem_without_self⟩
                · obtain ⟨low, absent⟩ := owing.missing debt old
                  exact ⟨low, notMem_without absent⟩

theorem owed_of_above (owing : Owing pool m attempts w) (above : pool.replicas ≤ idx) :
    attemptOf attempts idx = 0 := by
  rw [owing.counts idx, World.nth]
  have none_ : (w.owed.find? fun debt => debt.index = idx ∧ debt.templateHash = computeTemplateHash pool.template) = none := by
    refine List.find?_eq_none.mpr ?_
    intro debt member at_
    have below := (owing.missing debt member).1
    have same : debt.index = idx := by simp only [decide_eq_true_eq] at at_; exact at_.1
    omega
  rw [none_]
  rfl

theorem not_inARow_above (there : w.pool = some pool) (above : pool.replicas ≤ idx) : ¬ w.inARow idx g := by
  have no : ¬ idx < pool.replicas := by omega
  simp [World.inARow, there, no]

theorem pays_scaleDown {keepSurge : List Nat} (excess : List Nat) (above : ∀ idx ∈ excess, pool.replicas ≤ idx) :
    Pays (Owing pool m attempts) (scaleDown keepSurge excess m) fun m' => Owing pool m' attempts := by
  induction excess generalizing m with
  | nil => exact results_pure fun _ owing => owing
  | cons idx rest ih =>
    have again := fun {m} => @ih m fun i member => above i (List.mem_cons_of_mem _ member)
    have high := above idx (by simp)
    rw [scaleDown]
    split
    · exact again
    · refine results_bind (pays_issue (fun _ _ => trivial) ?_ ?_) fun _ => again
      · intro w owing g pool' _ there below _
        cases owing.spec.symm.trans there
        omega
      · intro w c _ w₁ w₂ owing _ done drift
        obtain ⟨g, here, rfl⟩ := perform_delete done
        have settled := not_inARow_above (g := g) owing.spec high
        refine Owing.drift ?_ drift
        refine ⟨(owing.toTally.delete idx g).sub fun entry member => (mem_without.mp member).1, ?_, ?_⟩
        · intro i
          by_cases at_ : i = idx
          · subst at_
            rw [owed_of_above owing high, nth_delete_self, if_neg (fun both : _ ∧ _ => settled both.1)]
          · rw [nth_delete_of_ne at_]
            exact owing.counts i
        · intro debt member
          rcases mem_owed_delete member with ⟨-, row⟩ | ⟨old, -⟩
          · exact (settled row).elim
          · obtain ⟨low, absent⟩ := owing.missing debt old
            exact ⟨low, notMem_without absent⟩

structure Creating (pool : SwiftGuestPool) (m : IndexMap) (attempts : List (Nat × Nat)) (rest : List Nat) (w : World) :
    Prop extends Tally pool m w where
  counts : ∀ i ∈ rest, attemptOf attempts i = w.nth i (computeTemplateHash pool.template)
  left : ∀ debt ∈ w.owed, debt.index ∈ rest

theorem Creating.drift {rest : List Nat} (creating : Creating pool m attempts rest w) (drift : Drift w w₁) :
    Creating pool m attempts rest w₁ where
  toTally := creating.toTally.drift drift
  counts i member := (creating.counts i member).trans (nth_of_owed drift.owed i _).symm
  left := by
    rw [drift.owed]
    exact creating.left

theorem perform_create {attempt : Nat} {template : Template} {a : Unit}
    (done : w.perform c (.create idx template attempt) = .ok (w₁, a)) :
    w₁ = { w with
      guests := (idx, w.newGuest idx template attempt) :: w.guests
      owed := w.owed.filter (·.index ≠ idx) } := by
  simp only [World.perform] at done
  split at done <;> cases done
  rfl

theorem Tally.create {attempt : Nat} {template : Template} (tally : Tally pool m w) (new : idx ∉ m.indices) :
    Tally pool m { w with
      guests := (idx, w.newGuest idx template attempt) :: w.guests
      owed := w.owed.filter (·.index ≠ idx) } := by
  refine ⟨tally.spec, ?_, tally.sane⟩
  intro i g g' here there
  rcases List.mem_cons.mp there with same | old
  · cases same
    exact (new (List.mem_map.mpr ⟨(idx, g), here, rfl⟩)).elim
  · exact tally.known i g g' here old

structure Settled (pool : SwiftGuestPool) (m : IndexMap) (w : World) : Prop extends Tally pool m w where
  settled : w.owed = []

theorem Settled.drift (settled : Settled pool m w) (drift : Drift w w₁) : Settled pool m w₁ :=
  ⟨settled.toTally.drift drift, drift.owed.trans settled.settled⟩

theorem pays_createSwiftGuest {P R : World → Prop} {attempt : Nat} (drifts : ∀ w w₁, P w → Drift w w₁ → P w₁)
    (counted : ∀ w, P w → attempt = w.nth idx (computeTemplateHash pool.template))
    (made : ∀ w w₁, P w → Drift { w with
      guests := (idx, w.newGuest idx pool.template attempt) :: w.guests
      owed := w.owed.filter (·.index ≠ idx) } w₁ → R w₁) : Pays P (createSwiftGuest pool idx attempt) fun _ => R := by
  refine results_bind (pays_read rfl fun w _ _ w₁ here _ drift => drifts w w₁ here drift) fun _ => ?_
  refine pays_issue counted (fun _ _ => trivial) fun w c _ w₁ w₂ here _ done drift => ?_
  cases perform_create done
  exact made w w₂ here drift

theorem pays_createMissing (rest : List Nat) (distinct : rest.Nodup) (new : ∀ idx ∈ rest, idx ∉ m.indices) :
    Pays (Creating pool m attempts rest) (createMissing pool attempts rest) fun _ => Settled pool m := by
  induction rest with
  | nil =>
    refine results_pure fun w creating => ⟨creating.toTally, ?_⟩
    exact List.eq_nil_iff_forall_not_mem.mpr fun debt member => by simpa using creating.left debt member
  | cons idx rest ih =>
    obtain ⟨here, distinct'⟩ := List.nodup_cons.mp distinct
    refine results_bind (pays_createSwiftGuest (fun _ _ => Creating.drift) (fun w creating => creating.counts idx (by simp)) ?_)
      fun _ => ih distinct' fun i member => new i (List.mem_cons_of_mem _ member)
    intro w w₁ creating drift
    refine Creating.drift ⟨creating.toTally.create (new idx (by simp)), ?_, ?_⟩ drift
    · intro i member
      have other : i ≠ idx := fun same => here (same ▸ member)
      rw [creating.counts i (List.mem_cons_of_mem _ member), World.nth, World.nth, nth_filter_ne other]
    · intro debt member
      obtain ⟨old, other⟩ := List.mem_filter.mp member
      exact (List.mem_cons.mp (creating.left debt old)).resolve_left (by simpa using other)

def Outdated (pool : SwiftGuestPool) (m : IndexMap) (idx : Nat) : Prop :=
  ∃ g, (idx, g) ∈ m ∧ g.templateHash ≠ computeTemplateHash pool.template

theorem pays_outdated (outdated : Outdated pool m idx) :
    Pays (Settled pool m) (issue (.delete idx)) fun _ => Settled pool m := by
  obtain ⟨g0, listed, old⟩ := outdated
  refine pays_issue (fun _ _ => trivial) ?_ ?_
  · intro w settled g pool' here there _ same
    cases settled.spec.symm.trans there
    exact (old ((settled.known idx g0 g listed here).templateHash.symm.trans same)).elim
  · intro w c _ w₁ w₂ settled _ done drift
    obtain ⟨g, here, rfl⟩ := perform_delete done
    have later := settled.known idx g0 g listed here
    have free : ¬ w.inARow idx g := by
      have other : g.templateHash ≠ computeTemplateHash pool.template := by
        rw [later.templateHash]
        exact old
      simp [World.inARow, settled.spec, other]
    refine Settled.drift ⟨settled.toTally.delete idx g, ?_⟩ drift
    simp [World.deleteGuest, free, settled.settled]

variable (indices : List Nat)
include indices

theorem pays_deleteAll (outdated : ∀ idx ∈ indices, Outdated pool m idx) :
    Pays (Settled pool m) (deleteAll indices) fun _ => Settled pool m := by
  induction indices with
  | nil => exact results_pure fun _ settled => settled
  | cons idx rest ih =>
    refine results_bind (pays_outdated (outdated idx (by simp))) fun _ => ?_
    exact ih fun i member => outdated i (List.mem_cons_of_mem _ member)

theorem pays_replaceIdle {desired : Nat} (outdated : ∀ idx ∈ indices, Outdated pool m idx) :
    Pays (Settled pool m) (replaceIdle m desired indices) fun serving w =>
      (∀ idx ∈ serving, Outdated pool m idx) ∧ Settled pool m w := by
  induction indices with
  | nil => exact results_pure fun _ settled => ⟨nofun, settled⟩
  | cons idx rest ih =>
    have again := ih fun i member => outdated i (List.mem_cons_of_mem _ member)
    rw [replaceIdle]
    split
    · exact again
    · split
      · exact again
      · split
        · refine results_bind again fun serving => results_pure fun w ⟨all, settled⟩ => ⟨?_, settled⟩
          intro i member
          rcases List.mem_cons.mp member with rfl | later
          · exact outdated i (by simp)
          · exact all i later
        · exact results_bind (pays_outdated (outdated idx (by simp))) fun _ => again

theorem pays_createSurge :
    Pays (Settled pool m) (createSurge pool m indices) fun _ => Settled pool m := by
  induction indices with
  | nil => exact results_pure fun _ settled => settled
  | cons idx rest ih =>
    rw [createSurge]
    split
    · exact ih
    · next absent =>
      have new : idx ∉ m.indices := get?_eq_none.mp (by simpa using absent)
      refine results_bind (pays_createSwiftGuest (fun _ _ => Settled.drift)
        (fun w settled => (nth_nil settled.settled).symm) ?_) fun _ => ih
      intro w w₁ settled drift
      refine Settled.drift ⟨settled.toTally.create new, ?_⟩ drift
      simp [settled.settled]

theorem pays_replaceServing {budget : Int} (outdated : ∀ idx ∈ indices, Outdated pool m idx) :
    Pays (Settled pool m) (replaceServing budget indices) fun _ => Settled pool m := by
  induction indices generalizing budget with
  | nil =>
    exact results_pure fun _ settled => settled
  | cons idx rest ih =>
    rw [replaceServing]
    split
    · exact results_pure fun _ settled => settled
    · refine results_bind (pays_outdated (outdated idx (by simp))) fun _ => ?_
      exact ih fun i member => outdated i (List.mem_cons_of_mem _ member)

omit indices

theorem outdated_of_mem (member : idx ∈ outdatedIndices m (computeTemplateHash pool.template)) :
    Outdated pool m idx := by
  have found := (List.mem_insertionSort _).mp member
  obtain ⟨⟨i, g⟩, here, rfl⟩ := List.mem_map.mp found
  exact ⟨g, (List.mem_filter.mp here).1, by simpa using (List.mem_filter.mp here).2⟩

theorem pays_rollingUpdate : Pays (Settled pool m)
    (reconcileRollingUpdate pool m (computeTemplateHash pool.template) pool.replicas) fun _ => Settled pool m := by
  unfold reconcileRollingUpdate
  dsimp only
  split
  · exact pays_deleteAll _ fun _ member => outdated_of_mem member
  · split
    · exact results_pure fun _ settled => settled
    · refine results_bind (pays_replaceIdle _ fun _ member => outdated_of_mem member) fun serving w numbered ⟨all, settled⟩ => ?_
      exact results_bind (pays_createSurge _) (fun _ => pays_replaceServing _ all) w numbered settled

theorem pays_reconcileReplicas :
    Pays (fun w => w.owed = [] ∧ w.pool = some pool) (reconcileReplicas pool) fun _ w => w.owed = [] := by
  have ending : ∀ m, Pays (Settled pool m) (issue .listOwnedGuests >>= fun _ => issue .updateStatus) fun _ w => w.owed = [] := by
    intro m
    refine results_bind (pays_read rfl fun w _ _ w₁ settled _ drift => settled.drift drift) fun _ => ?_
    exact pays_read rfl fun w _ _ w₁ settled _ drift => (settled.drift drift).settled
  refine results_bind (U := fun owned => Owing pool owned []) (leaves_inv (pays_read rfl ?_)) fun owned => ?_
  · rintro w c _ w₁ ⟨numbered, settled, there⟩ listing drift
    cases listing
    refine Owing.drift ⟨⟨there, ?_, numbered.sane⟩, fun i => (nth_nil settled).symm, ?_⟩ drift
    · intro i g g' here here'
      cases eq_of_mem numbered.nodup here here'
      exact .refl g
    · rw [settled]
      exact nofun
  refine results_bind (pays_read rfl fun w _ _ w₁ owing _ drift => owing.drift drift) fun order => ?_
  refine results_bind (pays_replaceFailed order) fun (m, attempts) => ?_
  refine results_bind (pays_scaleDown _ ?_) fun m' => ?_
  · intro idx member
    have found := (List.mem_insertionSort _).mp member
    simpa using (List.mem_filter.mp found).2
  have absent : ∀ idx ∈ findMissingIndices m' pool.replicas, idx ∉ m'.indices := by
    intro idx member
    exact get?_eq_none.mp (by simpa using (List.mem_filter.mp member).2)
  refine results_bind (leaves_pre (fun w owing => ?_) (pays_createMissing _ (List.nodup_range.filter _) absent)) fun _ => ?_
  · refine ⟨owing.toTally, fun i _ => owing.counts i, fun debt member => ?_⟩
    obtain ⟨below, missing⟩ := owing.missing debt member
    exact List.mem_filter.mpr ⟨List.mem_range.mpr below, by simpa using get?_eq_none.mpr missing⟩
  split
  · exact results_bind pays_rollingUpdate fun _ => ending m'
  · exact ending m'

theorem pays_reconcile : Pays (fun w => w.owed = []) reconcile fun _ w => w.owed = [] := by
  refine results_bind (U := fun found w => w.owed = [] ∧ w.pool = found) (pays_read rfl fun w c found w₁ settled reading drift => ?_)
    fun found => ?_
  · cases reading
    exact ⟨drift.owed.trans settled, drift.pool⟩
  split
  · exact results_pure fun _ here => here.1
  · split
    · exact results_pure fun _ here => here.1
    · exact pays_reconcileReplicas

end Pass

theorem counting_rests : Resting orderlyMachine counting poolSetting (fun _ w => w.owed = []) where
  refl _ := Drift.refl
  trans _ _ _ _ := Drift.trans
  env w w' numbered moves := by
    obtain ⟨e, replicas, rfl⟩ := moves
    exact ⟨numbered.event e, fun _ => drift_event replicas⟩
  quiet w w' numbered idle moves := by
    obtain ⟨e, rfl⟩ := moves
    exact ⟨numbered.event e, fun p => by cases e <;> exact idle p⟩
  stable _ _ _ settled drift _ := drift.owed.trans settled
  died _ _ _ _ dies := dies.2 ▸ dies.1
  starts _ _ w offer numbered settled := by
    rw [offer]
    refine wp_mono ?_ (pays_reconcile w numbered settled)
    rintro (_ | _) w' settled <;> exact settled

/-- In an orderly run the n-th replacement in a row carries attempt n, and the pool deletes it only after the
back-off of that attempt. -/
theorem replacements_back_off {s : Loops Unit World Op Op.Res Err} (runs : OrderlyPoolRuns s) :
    (∀ idx g, (idx, g) ∈ s.world.guests → g.replacementAttempt = annotationOf g.nth) ∧
    ∀ idx g pool, s.pending () = some (.delete idx) → (idx, g) ∈ s.world.guests → s.world.pool = some pool →
      idx < pool.replicas → g.templateHash = computeTemplateHash pool.template →
      g.creationTimestamp + replacementBackoff g.nth ≤ s.world.clock := by
  have start : counting.inv noPool := ⟨List.nodup_nil, fun _ _ member => (List.not_mem_nil member).elim⟩
  have sound := restSound_reach counting_rests start (fun _ => rfl) runs
  constructor
  · exact fun idx g here => (sound.inv.sane idx g here).carried
  · intro idx g pool pending here there below current
    exact sound.pre counting_rests.toCompatible pending g pool here there below current

def orderlyCheck (w : World) (o : Op) (c : Choice) : Bool :=
  ((w.exec c o).2.toOption.isSome || w.owed.isEmpty && (w.exec c o).1.owed.isEmpty) &&
  match o with
  | .delete idx => w.guests.all fun entry =>
    decide (entry.1 = idx → entry.2.failedYoung → w.clock < entry.2.creationTimestamp + replacementBackoffReset)
  | _ => true

theorem orderly_of_check {w : World} {o : Op} {c : Choice} (checked : orderlyCheck w o c) : Orderly w o c := by
  obtain ⟨call, young⟩ := Bool.and_eq_true_iff.mp checked
  constructor
  · intro w' r result owed
    rw [result] at call
    cases r with
    | ok a => exact ⟨a, rfl⟩
    | error e =>
      have nothing : w.owed = [] ∧ w'.owed = [] := by simpa [Except.toOption] using call
      exact (owed.elim (fun some_ => some_ nothing.1) fun some_ => some_ nothing.2).elim
  · rintro idx g rfl here failed
    have all := List.all_eq_true.mp young (idx, g) here
    exact of_decide_eq_true all rfl failed

def poolScript (check : World → Op → Choice → Bool) : Script Unit Choice World Op Op.Res Err Unit Event where
  engine := engine
  calls _ := reconcile
  event e w := e.apply w
  check _ := check
  pids := [()]

abbrev PoolMoves := List (LoopMove Unit Choice Unit Event)

theorem pool_fits (check : World → Op → Choice → Bool) {allowed : World → Op → Choice → Prop}
    (passes : ∀ w o c, check w o c → allowed w o c) {mayCrash : Unit → World → Prop} :
    (poolScript check).Fits poolSetting (fun _ => allowed) mayCrash (V := (·.ofReplicas)) (Q := fun _ => True)
      (X := fun _ => False) where
  passes _ := passes
  offers _ _ _ := rfl
  env e _ calm := ⟨e, calm, rfl⟩
  quiet e _ _ := ⟨e, rfl⟩
  crashes _ _ := False.elim

def onePool : SwiftGuestPool := ⟨1, none, ⟨0, some .running⟩, false⟩

def somePass (calls : Nat) : PoolMoves := .start () () :: List.replicate calls (.op () {})

def wholePass (calls : Nat) : PoolMoves := somePass calls ++ [.finish ()]

def failsAfter (seconds : Nat) : PoolMoves := [.env (.setStatus 0 .failed none), .env (.tick seconds)]

def failingTwice : PoolMoves :=
  .quiet (.setPool (some onePool)) :: wholePass 7 ++ failsAfter 10 ++ wholePass 9 ++ failsAfter 20 ++ somePass 4

private def deletesFirst : Option Op → Bool
  | some (.delete 0) => true
  | _ => false

theorem replacements_back_off_twice :
    ∃ s : Loops Unit World Op Op.Res Err, OrderlyPoolRuns s ∧ s.pending () = some (.delete 0) ∧
      ∃ g, (0, g) ∈ s.world.guests ∧ g.nth = 1 ∧ g.replacementAttempt = some 1 ∧ g.creationTimestamp + 20 ≤ s.world.clock := by
  have reached : ∃ s : Loops Unit World Op Op.Res Err, OrderlyPoolRuns s ∧
      deletesFirst (s.pending ()) = true ∧ s.world.pool = some onePool ∧
      ∃ g ∈ s.world.guests.get? 0, g.nth = 1 ∧ g.templateHash = 0 :=
    exists_of_play (pool_fits orderlyCheck fun _ _ _ => orderly_of_check) failingTwice (by decide +kernel)
  obtain ⟨s, runs, pending, there, g, here, number, hash⟩ := reached
  have deleting : s.pending () = some (.delete 0) := by
    unfold deletesFirst at pending
    split at pending
    · assumption
    · cases pending
  obtain ⟨carried, waits⟩ := replacements_back_off runs
  have attempt := carried 0 g (mem_of_get? here)
  have waited := waits 0 g onePool deleting (mem_of_get? here) there (by decide) hash
  rw [number] at attempt waited
  exact ⟨s, runs, deleting, g, mem_of_get? here, number, attempt, waited⟩

/-- A finalizer holds the deleted replica; the pass that creates the next one, once it is gone, no longer knows the
attempt. -/
def heldReplica : PoolMoves :=
  .quiet (.setPool (some onePool)) :: wholePass 7 ++ [.env (.setFinalizers 0 true)] ++ failsAfter 10 ++ wholePass 7 ++
    [.env (.gone 0)] ++ wholePass 7

theorem replacements_back_off_unmet :
    ∃ s : Loops Unit World Op Op.Res Err, PoolRuns s ∧
      ∃ idx g, (idx, g) ∈ s.world.guests ∧ g.nth = 1 ∧ g.replacementAttempt = none := by
  have reached : ∃ s : Loops Unit World Op Op.Res Err, PoolRuns s ∧
      ∃ g ∈ s.world.guests.get? 0, g.nth = 1 ∧ g.replacementAttempt = none :=
    exists_of_play (pool_fits (fun _ _ _ => true) fun _ _ _ _ => trivial) heldReplica (by decide +kernel)
  obtain ⟨s, runs, g, here, replaced⟩ := reached
  exact ⟨s, runs, 0, g, mem_of_get? here, replaced⟩

end KubeSwift.GuestPool
