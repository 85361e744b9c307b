import KubeSwift.Snapshot.Schedule

/-! # Each tick is taken once

A status write can be lost after the snapshot was created. Until one succeeds the snapshot itself is the record of its
tick. An interval has no ticks of its own: its times are counted back from the clock. -/

namespace KubeSwift.Snapshot
open Program

variable {cron : Cron} {w w' : World}

structure Inv (cron : Cron) (w : World) : Prop where
  whole : w.earliest % second = 0
  ordered : w.created.Pairwise (· > ·)
  ticks : ∀ calendar, cron = .spec calendar → ∀ unix ∈ w.created, calendar.ticks (unix * second)
  listed : ∀ snap ∈ w.snaps, snap.unix ∈ w.created
  doomed : ∀ snap ∈ w.snaps, snap.deleting → snap.unix * second ≤ w.earliest
  /-- A tick taken and not on record is no later than the one that was due, and its snapshot is there. -/
  unrecorded : ∀ unix ∈ w.created, w.earliest < unix * second → w.exists unix ∧
    ∃ m t, m ≤ w.now ∧ mostRecentDue cron.next w.earliest m = some t ∧ unix * second ≤ t

structure Drift (w w' : World) : Prop where
  status : w'.sched.status = w.sched.status
  creation : w'.sched.creationTimestamp = w.sched.creationTimestamp
  policy : w'.sched.concurrencyPolicy = w.sched.concurrencyPolicy
  created : w'.created = w.created
  now : w.now ≤ w'.now
  ended : (∀ snap ∈ w.snaps, snapshotTerminal snap.phase) → ∀ snap ∈ w'.snaps, snapshotTerminal snap.phase

theorem Drift.refl (w : World) : Drift w w := ⟨rfl, rfl, rfl, rfl, le_rfl, fun ended => ended⟩

theorem Drift.trans {a b c : World} (first : Drift a b) (second : Drift b c) : Drift a c where
  status := second.status.trans first.status
  creation := second.creation.trans first.creation
  policy := second.policy.trans first.policy
  created := second.created.trans first.created
  now := first.now.trans second.now
  ended ended := second.ended (first.ended ended)

theorem Drift.earliest (drift : Drift w w') : w'.earliest = w.earliest := by
  rw [World.earliest, World.earliest, drift.status, drift.creation]

variable {f : SwiftSnapshot → SwiftSnapshot}

theorem World.mapSnapshot_exists (name : ∀ snap, (f snap).unix = snap.unix)
    (target unix : Nat) : (w.mapSnapshot target f).exists unix = w.exists unix := by
  unfold World.exists World.mapSnapshot
  rw [List.any_map]
  congr 1
  funext snap
  simp only [Function.comp]
  split
  · rw [name]
  · rfl

theorem Inv.mapSnapshot {target : Nat} (inv : Inv cron w) (name : ∀ snap, (f snap).unix = snap.unix)
    (doomed : ∀ snap ∈ w.snaps, snap.unix = target → (f snap).deleting → snap.unix * second ≤ w.earliest) :
    Inv cron (w.mapSnapshot target f) := by
  have source : ∀ snap ∈ (w.mapSnapshot target f).snaps, ∃ old ∈ w.snaps, snap.unix = old.unix ∧
      (snap.deleting → old.unix * second ≤ w.earliest) := by
    intro snap member
    obtain ⟨old, here, rfl⟩ := List.mem_map.mp member
    split
    · next same => exact ⟨old, here, name old, doomed old here same⟩
    · exact ⟨old, here, rfl, inv.doomed old here⟩
  refine ⟨inv.whole, inv.ordered, inv.ticks, ?_, ?_, ?_⟩
  · intro snap member
    obtain ⟨old, here, same, -⟩ := source snap member
    exact same ▸ inv.listed old here
  · intro snap member deleting
    obtain ⟨old, here, same, late⟩ := source snap member
    exact same ▸ late deleting
  · intro unix member late
    rw [World.mapSnapshot_exists name]
    exact inv.unrecorded unix member late

theorem inv_event (inv : Inv cron w) (e : Event) : Inv cron (w.event e) ∧ Drift w (w.event e) := by
  cases e with
  | tick elapsed =>
    refine ⟨{ inv with unrecorded := ?_ }, rfl, rfl, rfl, rfl, Nat.le_add_right _ _, id⟩
    intro unix member late
    obtain ⟨there, m, t, past, due, before⟩ := inv.unrecorded unix member late
    exact ⟨there, m, t, Nat.le_add_right_of_le past, due, before⟩
  | report unix phase capturedAt ready =>
    refine ⟨inv.mapSnapshot (fun snap => ?_) ?_, rfl, rfl, rfl, rfl, le_rfl, ?_⟩
    · unfold SwiftSnapshot.report
      split <;> rfl
    · intro snap member _ deleting
      refine inv.doomed snap member ?_
      unfold SwiftSnapshot.report at deleting
      split at deleting <;> exact deleting
    · intro ended snap member
      obtain ⟨old, here, rfl⟩ := List.mem_map.mp member
      have terminal := ended old here
      split
      · simp [SwiftSnapshot.report, terminal]
      · exact terminal
  | vanish gone =>
    refine ⟨⟨inv.whole, inv.ordered, inv.ticks, ?_, ?_, ?_⟩, rfl, rfl, rfl, rfl, le_rfl, ?_⟩
    · exact fun snap member => inv.listed snap (List.mem_of_mem_filter member)
    · exact fun snap member => inv.doomed snap (List.mem_of_mem_filter member)
    · intro unix member late
      obtain ⟨there, due⟩ := inv.unrecorded unix member late
      refine ⟨?_, due⟩
      obtain ⟨snap, here, same⟩ := List.any_eq_true.mp there
      have name : snap.unix = unix := by simpa using same
      refine List.any_eq_true.mpr ⟨snap, List.mem_filter.mpr ⟨here, ?_⟩, same⟩
      have kept : ¬ snap.deleting := fun deleting => by
        have := inv.doomed snap here deleting
        rw [name] at this
        exact absurd late (Nat.not_lt.mpr this)
      by_cases target : snap.unix = gone
      · have later : ¬ gone * second ≤ w.earliest := by
          rw [← target, name]
          exact Nat.not_le.mpr late
        simp [kept, later]
      · simp [target]
    · exact fun ended snap member => ended snap (List.mem_of_mem_filter member)
  | edit suspend deadline keep =>
    exact ⟨{ inv with }, rfl, rfl, rfl, rfl, le_rfl, id⟩

def tickSpec (cron : Cron) : Spec Unit World Op where
  inv := Inv cron
  rely _ := Drift
  guar _ _ _ := True
  pre _ w
    | .create _ => w.sched.concurrencyPolicy = .forbid → ∀ snap ∈ w.snaps, snapshotTerminal snap.phase
    | _ => True

theorem wp_issue {o : Op} {Q : Except Err o.Res → World → Prop} (pre : (tickSpec cron).pre () w o)
    (still : ∀ e w', Drift w w' → Inv cron w' → Q (.error e) w')
    (does : ∀ c a w', w.perform c o = .ok (w', a) → Inv cron w' ∧
      ∀ w'', Drift w' w'' → Inv cron w'' → Q (.ok a) w'' ∧ ∀ e, Q (.error e) w'') (inv : Inv cron w) :
    wp machine (tickSpec cron) () (issue o) Q w := by
  refine (wp_call o Q w).mpr ⟨pre, ?_⟩
  rintro r w' ⟨c, -, ran⟩
  have outcome : (∃ a, r = .ok a ∧ w.perform c o = .ok (w', a)) ∨
      (∃ e, r = .error e ∧ (w' = w ∨ ∃ a, w.perform c o = .ok (w', a))) := by
    cases o with
    | clock =>
      cases ran
      exact .inl ⟨_, rfl, rfl⟩
    | getSchedule | ownedSnapshots | create | updateStatus | referenceBlocker | delete =>
      exact withFault_cases (Option.some.inj ran)
  rcases outcome with ⟨a, rfl, done⟩ | ⟨e, rfl, rfl | ⟨a, done⟩⟩
  · obtain ⟨kept, rest⟩ := does c a w' done
    exact ⟨kept, trivial, fun w'' drift inv'' => (rest w'' drift inv'').1⟩
  · exact ⟨inv, trivial, fun w'' drift inv'' => still e w'' drift inv''⟩
  · obtain ⟨kept, rest⟩ := does c a w' done
    exact ⟨kept, trivial, fun w'' drift inv'' => (rest w'' drift inv'').2 e⟩

theorem wp_read {o : Op} {Q : Except Err o.Res → World → Prop} (pre : (tickSpec cron).pre () w o)
    (reads : ∀ c a w', w.perform c o = .ok (w', a) → w' = w)
    (still : ∀ e w', Drift w w' → Inv cron w' → Q (.error e) w')
    (does : ∀ c a, w.perform c o = .ok (w, a) → ∀ w', Drift w w' → Inv cron w' → Q (.ok a) w') (inv : Inv cron w) :
    wp machine (tickSpec cron) () (issue o) Q w := by
  refine wp_issue pre still ?_ inv
  intro c a w' done
  obtain rfl := reads c a w' done
  exact ⟨inv, fun w'' drift inv'' => ⟨does c a done w'' drift inv'', fun e => still e w'' drift inv''⟩⟩

theorem wp_tolerate {expected : Err} {call : Act Unit} {Q : Except Err Unit → World → Prop}
    (holds : wp machine (tickSpec cron) () call (fun _ w => Q (.ok ()) w ∧ ∀ e, Q (.error e) w) w) :
    wp machine (tickSpec cron) () (tolerate expected call) Q w := by
  unfold tolerate
  rw [wp_bind, wp_attempt]
  refine wp_mono ?_ holds
  intro r w' ⟨ok, failed⟩
  rw [onOk_ok]
  cases r with
  | ok value => exact ok
  | error e =>
    dsimp only
    split
    · exact ok
    · exact failed e

section Pass

variable {sched : SwiftSnapshotSchedule} {status : Status} {children : List SwiftSnapshot}

structure Current (sched : SwiftSnapshotSchedule) (w : World) : Prop where
  status : w.sched.status = sched.status
  creation : w.sched.creationTimestamp = sched.creationTimestamp
  policy : w.sched.concurrencyPolicy = sched.concurrencyPolicy

theorem Current.drift (current : Current sched w) (drift : Drift w w') : Current sched w' where
  status := drift.status.trans current.status
  creation := drift.creation.trans current.creation
  policy := drift.policy.trans current.policy

theorem Current.earliest (current : Current sched w) :
    w.earliest = sched.status.lastScheduleTime.getD sched.creationTimestamp := by
  rw [World.earliest, current.status, current.creation]

def Status.reaches (status : Status) (sched : SwiftSnapshotSchedule) : Nat :=
  status.lastScheduleTime.getD sched.creationTimestamp

variable (inv : Inv cron w)
include inv

theorem Inv.setStatus (current : Current sched w) (version : Nat) (whole : status.reaches sched % second = 0)
    (covers : status.reaches sched = w.earliest ∨ ∀ unix ∈ w.created, unix * second ≤ status.reaches sched) :
    Inv cron { w with sched := { w.sched with status := status, resourceVersion := version } } := by
  have moved : World.earliest { w with sched := { w.sched with status := status, resourceVersion := version } } =
      status.reaches sched := by
    rw [World.earliest, Status.reaches, ← current.creation]
  rcases covers with same | all
  · exact ⟨moved ▸ whole, inv.ordered, inv.ticks, inv.listed, by rw [moved, same]; exact inv.doomed,
      by rw [moved, same]; exact inv.unrecorded⟩
  · refine ⟨moved ▸ whole, inv.ordered, inv.ticks, inv.listed, ?_, ?_⟩
    · intro snap member _
      rw [moved]
      exact all _ (inv.listed snap member)
    · intro unix member late
      rw [moved] at late
      exact absurd (all unix member) (Nat.not_le.mpr late)

theorem wp_persistStatus (current : Current sched w) (whole : status.reaches sched % second = 0)
    (covers : status.reaches sched = w.earliest ∨ ∀ unix ∈ w.created, unix * second ≤ status.reaches sched) :
    wp machine (tickSpec cron) () (persistStatus sched status)
      (fun r w' => r = .ok () → w'.created = w.created ∧ w'.earliest = status.reaches sched) w := by
  unfold persistStatus
  split
  · next same =>
    intro _
    exact ⟨rfl, by rw [current.earliest, same]; rfl⟩
  · refine wp_issue trivial (fun _ _ _ _ => nofun) ?_ inv
    intro c a w' done
    simp only [World.perform] at done
    split at done <;> cases done
    refine ⟨inv.setStatus current _ whole covers, ?_⟩
    intro w'' drift _
    refine ⟨fun _ => ⟨drift.created, ?_⟩, fun _ => nofun⟩
    rw [drift.earliest, World.earliest, Status.reaches, ← current.creation]

variable (recorded : ∀ snap ∈ children, snap.unix * second ≤ w.earliest)
include recorded

theorem wp_prune : wp machine (tickSpec cron) () (prune children) (fun _ _ => True) w := by
  induction children generalizing w with
  | nil => trivial
  | cons old rest ih =>
    have later : ∀ {w'}, Inv cron w' → w'.earliest = w.earliest →
        wp machine (tickSpec cron) () (prune rest) (fun _ _ => True) w' := by
      intro w' inv' same
      exact ih inv' fun snap member => same ▸ recorded snap (List.mem_cons_of_mem _ member)
    simp only [prune, wp_bind]
    refine wp_read trivial (fun c a w' done => by cases done; rfl) (fun _ _ _ _ => trivial) ?_ inv
    intro c blocked _ w' drift inv'
    rw [onOk_ok]
    split
    · exact later inv' drift.earliest
    · rw [wp_bind]
      refine wp_tolerate (wp_issue trivial ?_ ?_ inv')
      · intro e w'' drift' inv''
        exact ⟨later inv'' (drift'.earliest.trans drift.earliest), fun _ => trivial⟩
      · intro c a w'' done
        simp only [World.perform] at done
        split at done <;> cases done
        refine ⟨inv'.mapSnapshot (fun _ => rfl) ?_, ?_⟩
        · intro snap _ same _
          rw [same, drift.earliest]
          exact recorded old (List.mem_cons_self ..)
        · intro w3 drift' inv3
          have next := later inv3 (drift'.earliest.trans drift.earliest)
          exact ⟨⟨next, fun _ => trivial⟩, fun _ => ⟨next, fun _ => trivial⟩⟩

theorem wp_pruneKeepN : wp machine (tickSpec cron) () (pruneKeepN sched children) (fun _ _ => True) w := by
  unfold pruneKeepN
  split
  · trivial
  · dsimp only
    split
    · trivial
    · refine wp_prune inv fun snap member => recorded snap ?_
      have sorted := List.mem_of_mem_drop member
      exact List.mem_of_mem_filter (List.mem_mergeSort.mp sorted)

omit recorded

def Covered (cron : Cron) (now : Nat) (w : World) : Prop :=
  ∀ unix ∈ w.created, unix * second ≤ w.earliest ∨
    ∃ t, mostRecentDue cron.next w.earliest now = some t ∧ unix * second ≤ t

theorem Inv.covered : Covered cron w.now w := by
  intro unix member
  by_cases late : w.earliest < unix * second
  · obtain ⟨-, m, t, past, due, before⟩ := inv.unrecorded unix member late
    obtain ⟨t', due', onward⟩ := mostRecentDue_mono inv.whole past due
    exact .inr ⟨t', due', before.trans onward⟩
  · exact .inl (Nat.not_lt.mp late)

omit inv

variable {now : Nat}

theorem Covered.drift (covered : Covered cron now w) (drift : Drift w w') : Covered cron now w' := by
  intro unix member
  rw [drift.earliest]
  exact covered unix (drift.created ▸ member)

theorem Covered.le_tick {tick : Nat} (covered : Covered cron now w)
    (due : mostRecentDue cron.next w.earliest now = some tick) : ∀ unix ∈ w.created, unix * second ≤ tick := by
  intro unix member
  rcases covered unix member with early | ⟨t, here, before⟩
  · exact early.trans (mostRecentDue_some cron due).1.le
  · exact (Option.some.inj (here.symm.trans due)) ▸ before

theorem Inv.addSnapshot {tick : Nat} (inv : Inv cron w) (past : now ≤ w.now) (covered : Covered cron now w)
    (due : mostRecentDue cron.next w.earliest now = some tick) (absent : w.exists (tick / second) = false) :
    Inv cron (w.addSnapshot (tick / second)) := by
  obtain ⟨after, -, whole⟩ := mostRecentDue_some cron due
  have exact : tick / second * second = tick := Nat.div_mul_cancel (Nat.dvd_of_mod_eq_zero whole)
  refine ⟨inv.whole, List.pairwise_cons.mpr ⟨?_, inv.ordered⟩, ?_, ?_, ?_, ?_⟩
  · intro unix member
    have before := covered.le_tick due unix member
    have le : unix ≤ tick / second := (Nat.le_div_iff_mul_le second_pos).mpr before
    have other : unix ≠ tick / second := by
      intro same
      have late : w.earliest < unix * second := by rwa [same, exact]
      have there := (inv.unrecorded unix member late).1
      rw [same, absent] at there
      cases there
    exact Nat.lt_of_le_of_ne le other
  · rintro calendar rfl
    exact List.forall_mem_cons.mpr ⟨exact.symm ▸ calendar.mostRecentDue_ticks due, inv.ticks calendar rfl⟩
  · intro snap member
    rcases List.mem_cons.mp member with rfl | old
    · exact List.mem_cons_self ..
    · exact List.mem_cons_of_mem _ (inv.listed snap old)
  · intro snap member deleting
    rcases List.mem_cons.mp member with rfl | old
    · cases deleting
    · exact inv.doomed snap old deleting
  · intro unix member late
    rcases List.mem_cons.mp member with rfl | old
    · exact ⟨by simp [World.exists, World.addSnapshot], now, tick, past, due, exact.le⟩
    · obtain ⟨there, rest⟩ := inv.unrecorded unix old late
      refine ⟨?_, rest⟩
      simp only [World.exists, World.addSnapshot, List.any_cons] at there ⊢
      rw [there, Bool.or_true]

structure Fired (sched : SwiftSnapshotSchedule) (children : List SwiftSnapshot) (status : Status) (w : World) : Prop where
  current : Current sched w
  whole : status.reaches sched % second = 0
  covers : ∀ unix ∈ w.created, unix * second ≤ status.reaches sched
  listed : ∀ snap ∈ children, snap.unix ∈ w.created

theorem wp_fire (inv : Inv cron w) (current : Current sched w) (past : now ≤ w.now) (covered : Covered cron now w)
    (listed : ∀ snap ∈ children, snap.unix ∈ w.created)
    (fresh : (∀ snap ∈ children, snapshotTerminal snap.phase) → ∀ snap ∈ w.snaps, snapshotTerminal snap.phase)
    (kept : status.lastScheduleTime = sched.status.lastScheduleTime) :
    wp machine (tickSpec cron) () (fire sched now children status (mostRecentDue cron.next (status.reaches sched) now))
      (fun r w' => ∀ status', r = .ok status' → Fired sched children status' w') w := by
  have here : status.reaches sched = w.earliest := by rw [Status.reaches, kept, ← current.earliest]
  rw [here]
  cases due : mostRecentDue cron.next w.earliest now with
  | none =>
    rintro status' ⟨⟩
    refine ⟨current, here ▸ inv.whole, ?_, listed⟩
    intro unix member
    rw [here]
    rcases covered unix member with early | ⟨t, none, -⟩
    · exact early
    · cases due.symm.trans none
  | some tick =>
    have whole := (mostRecentDue_some cron due).2.2
    have skipped : ∀ status', (.ok { status with lastScheduleTime := some tick } : Except Err Status) = .ok status' →
        Fired sched children status' w := by
      rintro status' ⟨⟩
      exact ⟨current, whole, covered.le_tick due, listed⟩
    simp only [fire]
    split
    · exact skipped
    · split
      · exact skipped
      · next open_ =>
        rw [wp_bind]
        refine wp_tolerate (wp_issue ?_ ?_ ?_ inv)
        · intro policy
          refine fresh ?_
          rw [current.policy] at policy
          simpa [policy, hasInFlight] using open_
        · intro e w' drift _
          refine ⟨?_, fun _ _ => nofun⟩
          rintro status' ⟨⟩
          exact ⟨current.drift drift, whole, fun unix member => covered.le_tick due unix (drift.created ▸ member),
            fun snap member => drift.created ▸ listed snap member⟩
        · intro c a w' done
          simp only [World.perform] at done
          split at done
          · cases done
          · next absent =>
            cases done
            refine ⟨inv.addSnapshot past covered due (by simpa using absent), ?_⟩
            intro w'' drift _
            have exact : tick / second * second = tick := Nat.div_mul_cancel (Nat.dvd_of_mod_eq_zero whole)
            have fired : Fired sched children { status with lastScheduleTime := some tick } w'' := by
              have still : Current sched (w.addSnapshot (tick / second)) :=
                { current with }
              refine ⟨still.drift drift, whole, ?_, ?_⟩
              · intro unix member
                rw [drift.created] at member
                rcases List.mem_cons.mp member with rfl | old
                · exact exact.le
                · exact covered.le_tick due unix old
              · intro snap member
                rw [drift.created]
                exact List.mem_cons_of_mem _ (listed snap member)
            have next : ∀ status', (.ok { status with lastScheduleTime := some tick } : Except Err Status) =
                .ok status' → Fired sched children status' w'' := by
              rintro status' ⟨⟩
              exact fired
            exact ⟨⟨next, fun _ _ => nofun⟩, fun _ => ⟨next, fun _ _ => nofun⟩⟩

theorem wp_schedule (inv : Inv cron w) (current : Current sched w) :
    wp machine (tickSpec cron) () (schedule cron sched) (fun _ _ => True) w := by
  unfold schedule
  rw [wp_bind]
  refine wp_read trivial (fun c a w' done => by cases done; rfl) (fun _ _ _ _ => trivial) ?_ inv
  rintro c now ⟨⟩ w1 drift1 inv1
  rw [onOk_ok, wp_bind]
  refine wp_read trivial (fun c a w' done => by cases done; rfl) (fun _ _ _ _ => trivial) ?_ inv1
  rintro c children ⟨⟩ w2 drift2 inv2
  have drift := drift1.trans drift2
  refine wp_then (wp_inv inv2 (wp_fire inv2 (current.drift drift) drift.now
    (inv.covered.drift drift) (fun snap member => drift2.created ▸ inv1.listed snap member) drift2.ended rfl))
    (fun _ _ _ => trivial) fun status w3 ⟨inv3, done⟩ => ?_
  obtain ⟨current3, whole, covers, listed⟩ := done status rfl
  rw [wp_bind]
  have same : (readiness sched w1.snaps status).reaches sched = status.reaches sched := by
    unfold readiness
    split <;> rfl
  have written := wp_persistStatus inv3 current3 (same.symm ▸ whole) (.inr (same.symm ▸ covers))
  refine wp_mono ?_ (wp_inv inv3 written)
  intro r w4 ⟨inv4, stored⟩
  cases r with
  | error e => trivial
  | ok value =>
    obtain ⟨created, last⟩ := stored rfl
    refine wp_pruneKeepN inv4 fun snap member => ?_
    rw [last, same]
    exact covers _ (listed snap member)

end Pass

theorem wp_reconcile (inv : Inv cron w) : wp machine (tickSpec cron) () (reconcile (.ok cron)) (fun _ _ => True) w := by
  unfold reconcile
  rw [wp_bind, wp_attempt]
  refine wp_read trivial (fun c a w' done => by cases done; rfl) ?_ ?_ inv
  · intro e w' _ _
    cases e <;> trivial
  · rintro c sched ⟨⟩ w' drift inv'
    have current : Current w.sched w' := { drift with }
    rw [onOk_ok]
    dsimp only
    split
    · have same : (setReady w.sched.status w.sched false "Suspended"
          "spec.suspend is set; no snapshots are created while suspended").reaches w.sched = w'.earliest :=
        current.earliest.symm
      exact wp_mono (fun _ _ _ => trivial) (wp_persistStatus inv' current (same ▸ inv'.whole) (.inl same))
    · exact wp_schedule inv' current

theorem suits_tickSpec (cron : Cron) : Suits machine (tickSpec cron) (setting (.ok cron)) where
  refl _ w := Drift.refl w
  trans _ _ _ _ first second := first.trans second
  env w w' inv moves := by
    obtain ⟨e, rfl⟩ := moves
    obtain ⟨kept, drift⟩ := inv_event inv e
    exact ⟨kept, fun _ => drift⟩
  starts p prog w offer inv := by
    cases offer
    exact wp_reconcile inv

structure Begins (w : World) : Prop where
  created : w.created = []
  snaps : w.snaps = []
  whole : w.earliest % second = 0

theorem Begins.inv (begins : Begins w) : Inv cron w where
  whole := begins.whole
  ordered := by simp [begins.created]
  ticks := by simp [begins.created]
  listed := by simp [begins.snaps]
  doomed := by simp [begins.snaps]
  unrecorded := by simp [begins.created]

/-- However the passes, the snapshots, lost writes and crashes go: the times taken only go forward and are ticks of the
calendar, and with `Forbid` every snapshot of the schedule has ended when one is created. -/
theorem ticks_taken_once (cron : Cron) (w : World) (begins : Begins w) (s : Loops Unit World Op Op.Res Err)
    (runs : Runs (.ok cron) w s) :
    s.world.created.Pairwise (· > ·) ∧
      (∀ calendar, cron = .spec calendar → ∀ unix ∈ s.world.created, calendar.ticks (unix * second)) ∧
      ∀ unix, s.pending () = some (.create unix) → s.world.sched.concurrencyPolicy = .forbid →
        ∀ snap ∈ s.world.snaps, snapshotTerminal snap.phase := by
  have sound := loopsSound_reach (suits_tickSpec cron) begins.inv runs
  exact ⟨sound.inv.ordered, sound.inv.ticks, fun unix pending => sound.pre (suits_tickSpec cron).toCompatible pending⟩

def everyMinute : Calendar where
  ticks t := t % minute = 0
  next s := some (s - s % minute + minute)
  whole t tick := by
    obtain ⟨k, rfl⟩ := Nat.dvd_of_mod_eq_zero tick
    rw [minute, Nat.mul_assoc, Nat.mul_left_comm, Nat.mul_mod_right]
  sound s t found := by
    cases found
    have low : s % minute < minute := Nat.mod_lt _ minute_pos
    refine ⟨?_, (Nat.sub_add_cancel (Nat.mod_le ..)).symm.trans_lt (Nat.add_lt_add_left low _), ?_⟩
    · rw [Nat.add_mod_right]
      exact Nat.sub_mod_eq_zero_of_mod_eq (Nat.mod_mod _ _).symm
    · intro u tick later
      obtain ⟨k, rfl⟩ := Nat.dvd_of_mod_eq_zero tick
      rw [← Nat.div_mul_self_eq_mod_sub_self, ← Nat.succ_mul, Nat.mul_comm minute k]
      have : s / minute < k := (Nat.div_lt_iff_lt_mul minute_pos).mpr (by rwa [Nat.mul_comm])
      exact Nat.mul_le_mul_right _ this
  found s c _ _ _ := ⟨_, rfl⟩

private def fresh : World where
  sched := ⟨"nightly", "* * * * *", false, .forbid, none, none, 0, 1, 1, ⟨none, none, [], none⟩⟩
  snaps := []
  now := 0
  created := []

private def tickScript (cron : Cron) : Script Unit Choice World Op Op.Res Err Unit Event where
  engine := engine
  calls _ := reconcile (.ok cron)
  event e w := w.event e
  check _ _ _ _ := true
  pids := []

private theorem tick_fits (cron : Cron) : (tickScript cron).Fits (setting (.ok cron)) where
  offers _ _ _ := rfl
  env event _ _ := ⟨event, rfl⟩

private def lostWrite : List (LoopMove Unit Choice Unit Event) :=
  [.env (.tick (minute + 5)), .start () (), .op () {}, .op () {}, .op () {}, .op () {}, .crash (),
    .env (.report 60 .ready (some (minute + 7)) none), .start () (), .op () {}, .op () {}, .op () {}, .op () {},
    .op () {}, .finish (), .env (.tick minute), .start () (), .op () {}, .op () {}, .op () {}, .op () {}]

theorem ticks_taken_once_lostWrite :
    ∃ s, Runs (.ok (.spec everyMinute)) fresh s ∧ s.world.created = [120, 60] ∧
      ∀ unix ∈ s.world.created, everyMinute.ticks (unix * second) := by
  have reached : ∃ s, Runs (.ok (.spec everyMinute)) fresh s ∧ s.world.created = [120, 60] :=
    exists_of_play (tick_fits _) lostWrite (by decide +kernel)
  obtain ⟨s, runs, seen⟩ := reached
  exact ⟨s, runs, seen, (ticks_taken_once _ fresh ⟨rfl, rfl, rfl⟩ s runs).2.1 _ rfl⟩

private def lostEach : List (LoopMove Unit Choice Unit Event) :=
  [60, 61, 62].flatMap fun unix =>
    [.env (.tick (if unix = 60 then minute else second)), .start () (), .op () {}, .op () {}, .op () {}, .op () {},
      .crash (), .env (.report unix .ready (some (unix * second)) none)]

/-- One interval of a minute has passed, the next has not; each pass loses its status write and takes a time of its own. -/
theorem interval_taken_again :
    ∃ s, Runs (.ok (.every 60 (by decide))) fresh s ∧ s.world.earliest = 0 ∧ s.world.created = [62, 61, 60] ∧
      (Cron.every 60 (by decide)).next 0 = some minute ∧
      ((Cron.every 60 (by decide)).next minute).any (s.world.now < ·) :=
  exists_of_play (tick_fits _) lostEach (by decide +kernel)

/-- A tick that was taken and is not on record has its snapshot. -/
theorem unrecorded_tick_kept (cron : Cron) (w : World) (begins : Begins w) (s : Loops Unit World Op Op.Res Err)
    (runs : Runs (.ok cron) w s) {unix : Nat} (taken : unix ∈ s.world.created)
    (unrecorded : s.world.earliest < unix * second) : s.world.exists unix :=
  ((loopsSound_reach (suits_tickSpec cron) begins.inv runs).inv.unrecorded unix taken unrecorded).1

theorem unrecorded_tick_kept_crash : ∃ s, Runs (.ok (.spec everyMinute)) fresh s ∧ s.world.exists 60 := by
  obtain ⟨s, runs, taken, unrecorded⟩ : ∃ s, Runs (.ok (.spec everyMinute)) fresh s ∧ 60 ∈ s.world.created ∧
      s.world.earliest < 60 * second := exists_of_play (tick_fits _) (lostWrite.take 7) (by decide +kernel)
  exact ⟨s, runs, unrecorded_tick_kept _ fresh ⟨rfl, rfl, rfl⟩ s runs taken unrecorded⟩

end KubeSwift.Snapshot
