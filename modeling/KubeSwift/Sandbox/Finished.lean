import KubeSwift.Sandbox.ClaimedSlot

/-! # A finished sandbox runs nothing

Deleting the launcher and writing the terminal phase are two calls, and after the write no pass looks at the pod again.
-/

namespace KubeSwift.Workload.Finished
open Program

def stops : Reason → Bool
  | .deadlineExceeded | .livenessProbeFailed | .kernelUnsupported | .secretUnavailable | .completed | .workloadFailed => true
  | _ => false

def Stopped (status : Status) : Prop := isTerminal status.phase = true ∧ ∃ reason, status.reason = some reason ∧ stops reason = true

def Quiet (w : World) (name : String) : Prop :=
  ∀ pod, w.pods name = some pod → pod.controller = w.sb.uid → pod.deleting = true ∨ pod.ended = true

variable {name : String} {o : Op} {version : Nat} {next : SwiftSandbox → Act Unit} {gpu termination outputs : Bool}
  {reason : Reason} {phase : Phase} {pod : Pod}

def setting : Setting Unit World Op Op.Res Err where
  env w w' := ∃ e, w' = w.event e
  quiet _ _ := False
  offered _ prog := prog = reconcile

abbrev Runs (w : World) (s : Loops Unit World Op Op.Res Err) : Prop := LoopsReach machine setting w s

def effective : Op → Choice → Bool
  | .deletePod _, c => c.fault ≠ some false
  | _, _ => true

def lasting : Machine Unit World Op Op.Res Err := engine.machine (fun _ _ o c => effective o c = true) (fun _ _ => True)

abbrev LastingRuns (w : World) (s : Loops Unit World Op Op.Res Err) : Prop := LoopsReach lasting setting w s

/-! ## The invariant -/

variable {w w' : World} {sb : SwiftSandbox}

def Engaged (sb : SwiftSandbox) : Prop := sb.status.outputs ≠ [] ∨ sb.status.phase = .exporting

structure Facts (sb : SwiftSandbox) (w : World) : Prop where
  name : w.sb.name = sb.name
  uid : w.sb.uid = sb.uid
  pooled : w.sb.pooled = sb.pooled
  finalizer : w.sb.outputsFinalizer = sb.outputsFinalizer
  cold : sb.pooled = false → launcherPodName sb = sb.name

structure Safe (sb : SwiftSandbox) (w : World) : Prop extends Facts sb w where
  finished : Stopped sb.status → Quiet w (launcherPodName sb)
  outputs : w.sb.deleting = false → isTerminal sb.status.phase = false → Engaged sb →
    sb.outputsFinalizer = true ∨ (exportingOutputs sb = true ∧ Quiet w (launcherPodName sb))

def Inv (w : World) : Prop := Safe w.sb w

structure Drift (w w' : World) : Prop where
  name : w'.sb.name = w.sb.name
  uid : w'.sb.uid = w.sb.uid
  pooled : w'.sb.pooled = w.sb.pooled
  finalizer : w'.sb.outputsFinalizer = w.sb.outputsFinalizer
  status : w'.sb.status = w.sb.status
  deleting : w'.sb.deleting = false → w.sb.deleting = false
  quiet : ∀ name, Quiet w name → Quiet w' name

theorem Drift.refl (w : World) : Drift w w := ⟨rfl, rfl, rfl, rfl, rfl, id, fun _ => id⟩

theorem Drift.trans {a b c : World} (first : Drift a b) (second : Drift b c) : Drift a c where
  name := second.name.trans first.name
  uid := second.uid.trans first.uid
  pooled := second.pooled.trans first.pooled
  finalizer := second.finalizer.trans first.finalizer
  status := second.status.trans first.status
  deleting kept := first.deleting (second.deleting kept)
  quiet name quiet := second.quiet name (first.quiet name quiet)

def finishedSpec : Spec Unit World Op where
  inv := Inv
  rely _ := Drift
  guar _ _ _ := True
  pre _ _ _ := True

abbrev Stays (P : World → Prop) : Prop := Stable finishedSpec () P

theorem Stays.drift {P : World → Prop} (stays : Stays P) (here : P w) (drift : Drift w w') : P w' := stays.later here drift

instance stays_quiet : Stays (Quiet · name) := ⟨fun quiet drift => drift.quiet name quiet⟩

theorem launcherPodName_congr {a b : SwiftSandbox} (name : a.name = b.name) (status : a.status = b.status) :
    launcherPodName a = launcherPodName b := by
  rw [launcherPodName, launcherPodName, name, status]

instance stays_facts : Stays (Facts sb) where
  later facts drift := ⟨drift.name.trans facts.name, drift.uid.trans facts.uid, drift.pooled.trans facts.pooled,
    drift.finalizer.trans facts.finalizer, facts.cold⟩

instance stays_safe : Stays (Safe sb) where
  later safe drift := ⟨stays_facts.later safe.toFacts drift, fun stopped => drift.quiet _ (safe.finished stopped),
    fun kept going engaged => (safe.outputs (drift.deleting kept) going engaged).imp_right fun ⟨exporting, quiet⟩ =>
      ⟨exporting, drift.quiet _ quiet⟩⟩

theorem Safe.congr {other : SwiftSandbox} (safe : Safe sb w) (name : other.name = sb.name) (uid : other.uid = sb.uid)
    (pooled : other.pooled = sb.pooled) (finalizer : other.outputsFinalizer = sb.outputsFinalizer)
    (status : other.status = sb.status) : Safe other w where
  name := safe.name.trans name.symm
  uid := safe.uid.trans uid.symm
  pooled := safe.pooled.trans pooled.symm
  finalizer := safe.finalizer.trans finalizer.symm
  finished stopped := by
    rw [launcherPodName_congr name status]
    exact safe.finished (status ▸ stopped)
  outputs kept going engaged := by
    rw [launcherPodName_congr name status, finalizer, exportingOutputs, status]
    unfold Engaged at engaged
    rw [status] at going engaged
    exact safe.outputs kept going engaged
  cold isCold := by
    rw [launcherPodName_congr name status, name]
    exact safe.cold (pooled ▸ isCold)

theorem Inv.drift (inv : Inv w) (drift : Drift w w') : Inv w' :=
  (stays_safe.later inv drift).congr drift.name drift.uid drift.pooled drift.finalizer drift.status

theorem Safe.written (safe : Safe sb w) : Inv (w.setStatus sb.status) := by
  have same : Safe sb (w.setStatus sb.status) := ⟨{ safe with },
    safe.finished, safe.outputs⟩
  exact same.congr safe.name safe.uid safe.pooled safe.finalizer rfl

theorem drift_setPod {pod : Option Pod}
    (quiet : ∀ p, pod = some p → ∃ old, w.pods name = some old ∧ p.controller = old.controller ∧
      (old.deleting = true → p.deleting = true) ∧ (old.ended = true → p.ended = true)) :
    Drift w (w.setPod name pod) := by
  refine ⟨rfl, rfl, rfl, rfl, rfl, id, ?_⟩
  intro n before p there ours
  simp only [World.setPod] at there
  split at there
  · next here =>
    obtain ⟨old, was, controller, deleting, ended⟩ := quiet p there
    rw [controller] at ours
    exact (before old (here ▸ was) ours).imp deleting ended
  · exact before p there ours

theorem Pod.observe_ended {pod : Pod} {report : Report} (ended : pod.ended = true) : (pod.observe report).ended = true := by
  have same : (pod.observe report).report.phase = pod.report.phase := by simp [Pod.observe, ended]
  rw [Pod.ended, same]
  exact ended

theorem drift_event (e : Event) : Drift w (w.event e) := by
  cases e with
  | tick | fetch | edit => exact ⟨rfl, rfl, rfl, rfl, rfl, id, fun _ => id⟩
  | deleteSandbox => exact ⟨rfl, rfl, rfl, rfl, rfl, (fun kept => by cases kept), fun _ => id⟩
  | report name report =>
    refine drift_setPod ?_
    intro p there
    obtain ⟨old, was, rfl⟩ := Option.map_eq_some_iff.mp there
    exact ⟨old, was, rfl, id, Pod.observe_ended⟩
  | delete name =>
    refine drift_setPod ?_
    intro p there
    obtain ⟨old, was, rfl⟩ := Option.map_eq_some_iff.mp there
    exact ⟨old, was, rfl, fun _ => rfl, id⟩
  | vanish name =>
    refine drift_setPod ?_
    intro p there
    cases there

def Harmless : Op → Prop
  | .createPod | .updateStatus _ _ | .patchFinalizers _ _ _ _ | .claimSlot _ => False
  | _ => True

theorem drift_perform {c : Choice} {a : o.Res} (harmless : Harmless o) (done : w.perform c o = .ok (w', a)) :
    Drift w w' := by
  cases o with
  | createPod | updateStatus | patchFinalizers | claimSlot => exact harmless.elim
  | getSandbox | clock | resolve | pushOutput | gate | ask =>
    cases done
    exact Drift.refl w
  | getPod | getFetchPod =>
    simp only [World.perform] at done
    split at done <;> cases done
    exact Drift.refl w
  | createFetchPod =>
    simp only [World.perform] at done
    split at done <;> cases done
    exact ⟨rfl, rfl, rfl, rfl, rfl, id, fun _ => id⟩
  | deleteSandbox =>
    cases done
    exact ⟨rfl, rfl, rfl, rfl, rfl, (fun kept => by cases kept), fun _ => id⟩
  | deletePod name =>
    simp only [World.perform] at done
    split at done <;> cases done
    next pod there =>
      refine drift_setPod ?_
      rintro _ ⟨⟩
      exact ⟨pod, there, rfl, fun _ => rfl, id⟩
  | dispatch slot id artifacts =>
    simp only [World.perform] at done
    split at done <;> cases done
    next pod there =>
      have sent : Drift w (w.setPod slot (some (pod.send id artifacts))) := by
        refine drift_setPod ?_
        rintro _ ⟨⟩
        exact ⟨pod, there, rfl, fun deleting => deleting, fun ended => ended⟩
      exact { sent with }

abbrev Goes {α : Type} (P : World → Prop) (m : Act α) (V : α → World → Prop) : Prop :=
  Gives lasting finishedSpec () P m V

variable {P : World → Prop} {α : Type}

theorem goes_issue {V : Except Err o.Res → World → Prop} [∀ r, Stays (V r)]
    (effect : ∀ w c w' r, Inv w → P w → effective o c = true → w.exec c o = (w', r) → Inv w' ∧ V r w') :
    Goes P (issue o).attempt V := by
  refine gives_tried (fun _ _ _ => trivial) ?_
  rintro w r w' inv here ⟨c, takes, ran⟩
  obtain ⟨inv', holds⟩ := effect w c w' r inv here takes (Option.some.inj ran)
  exact ⟨inv', trivial, holds⟩

theorem goes_effect {U : o.Res → World → Prop} [∀ a, Stays (U a)]
    (effect : ∀ w c w' a, Inv w → P w → w.perform c o = .ok (w', a) → Inv w' ∧ U a w') : Goes P (issue o) U := by
  refine gives_performed (fun c w => w.perform c o) (fun c w w' r ran => exec_cases (Option.some.inj ran))
    (fun _ => trivial) (fun _ _ _ => trivial) ?_
  intro c w w' a inv here _ done
  obtain ⟨inv', holds⟩ := effect w c w' a inv here done
  exact ⟨inv', trivial, holds⟩

theorem exec_harmless {c : Choice} {r : Except Err o.Res} (harmless : Harmless o) (ran : w.exec c o = (w', r)) :
    Drift w w' := by
  rcases effect_of_cases (exec_cases ran) with rfl | ⟨a, done⟩
  · exact Drift.refl w'
  · exact drift_perform harmless done

theorem goes_try [Stays P] (harmless : Harmless o) : Goes P (issue o).attempt fun _ => P := by
  refine goes_issue ?_
  intro w c w' r inv here _ ran
  have drift := exec_harmless harmless ran
  exact ⟨inv.drift drift, Stays.drift ‹_› here drift⟩

theorem goes_next [Stays P] {k : o.Res → Act α} {V : α → World → Prop} (harmless : Harmless o)
    (next : ∀ a, Goes P (k a) V) : Goes P (issue o >>= k) V :=
  gives_bind (U := fun _ => P) (gives_attempted (gives_post (fun _ _ kept _ _ => kept) (goes_try harmless))) next

theorem goes_last (harmless : Harmless o) : Goes P (issue o) fun _ _ => True :=
  goes_effect fun _ _ _ _ inv _ done => ⟨inv.drift (drift_perform harmless done), trivial⟩

theorem goes_deletePod [Stays P] : Goes P (issue (.deletePod name)).attempt fun _ w => P w ∧ Quiet w name := by
  refine goes_issue ?_
  intro w c w' r inv here takes ran
  have drift := exec_harmless (o := .deletePod name) trivial ran
  refine ⟨inv.drift drift, Stays.drift ‹_› here drift, ?_⟩
  cases there : w.pods name with
  | none =>
    refine drift.quiet name ?_
    intro p here
    cases there.symm.trans here
  | some pod =>
    have done : w.perform c (.deletePod name) = .ok (w.setPod name (some { pod with deleting := true }), ()) := by
      simp [World.perform, there]
    have moved : w' = w.setPod name (some { pod with deleting := true }) := by
      have exec : withFault w (c.fault.map fun took => (Err.other, took)) (w.perform c (.deletePod name)) = (w', r) := ran
      rw [done] at exec
      cases fault : c.fault with
      | none =>
        rw [fault] at exec
        cases exec
        rfl
      | some took =>
        have effect : took = true := by simpa [effective, fault] using takes
        rw [fault, effect] at exec
        cases exec
        rfl
    intro p here _
    simp only [moved, World.setPod, if_true, Option.some.injEq] at here
    subst here
    exact .inl rfl

def Tells (name : String) : Except Err Pod → World → Prop
  | .ok pod, w => (pod.controller = w.sb.uid → pod.ended = true) → Quiet w name
  | .error e, w => e = .notFound → Quiet w name

instance stays_tells {r : Except Err Pod} : Stays (Tells name r) := by
  refine ⟨fun {w w'} tells drift => ?_⟩
  cases r with
  | ok pod => exact fun ended => drift.quiet name (tells (drift.uid ▸ ended))
  | error e => exact fun absent => drift.quiet name (tells absent)

theorem goes_getPod [Stays P] : Goes P (issue (.getPod name)).attempt fun r w => P w ∧ Tells name r w := by
  refine goes_issue ?_
  intro w c w' r inv here _ ran
  have drift := exec_harmless (o := .getPod name) trivial ran
  refine ⟨inv.drift drift, Stays.drift ‹_› here drift, stays_tells.later ?_ drift⟩
  cases r with
  | ok pod =>
    rcases exec_cases ran with ⟨a, same, done⟩ | ⟨e, failed, -⟩
    · cases same
      simp only [World.perform] at done
      split at done <;> cases done
      next there =>
        intro ended p found ours
        cases there.symm.trans found
        exact .inr (ended ours)
    · cases failed
  | error e =>
    rintro rfl p found
    have answer := (exec_error ran nofun).2
    simp [World.perform, found] at answer

theorem goes_writeStatus {R : Nat → World → Prop} [∀ version, Stays (R version)] (safe : ∀ w, P w → Safe sb w)
    (after : ∀ w version, P w → R version (w.setStatus sb.status)) :
    Goes P (writeStatus sb) fun sb' w => ∃ version, sb' = { sb with resourceVersion := version } ∧ R version w := by
  refine gives_bind (U := R) (goes_effect ?_) fun version => gives_pure fun _ here => ⟨version, rfl, here⟩
  intro w c w' a _ here done
  simp only [World.perform] at done
  split at done <;> cases done
  exact ⟨(safe w here).written, after w _ here⟩

theorem goes_lastly (safe : ∀ w, P w → Safe sb w) : Goes P (lastly (writeStatus sb)) fun _ _ => True :=
  gives_bind (goes_writeStatus (R := fun _ _ => True) safe fun _ _ _ => trivial) fun _ => gives_done

structure Live (sb : SwiftSandbox) (w : World) : Prop extends Facts sb w where
  going : isTerminal w.sb.status.phase = false
  stored : Engaged w.sb → w.sb.outputsFinalizer = true
  phase : isTerminal sb.status.phase = false
  bound : Engaged sb → sb.outputsFinalizer = true

theorem Facts.stored (facts : Facts sb w) : Facts { sb with resourceVersion := version } (w.setStatus sb.status) :=
  { facts with }

instance stays_live : Stays (Live sb) where
  later live drift := by
    refine ⟨stays_facts.later live.toFacts drift, drift.status ▸ live.going, ?_, live.phase, live.bound⟩
    intro engaged
    rw [drift.finalizer]
    unfold Engaged at engaged
    rw [drift.status] at engaged
    exact live.stored engaged

variable (live : Live sb w)
include live

theorem Live.safe : Safe sb w where
  toFacts := live.toFacts
  finished stopped := by
    cases live.phase.symm.trans stopped.1
  outputs _ _ engaged := .inl (live.bound engaged)

theorem Live.edit {status : Status} (phase : isTerminal status.phase = false)
    (engaged : status.outputs ≠ [] ∨ status.phase = .exporting → Engaged sb)
    (podRef : sb.pooled = false → status.podRef = sb.status.podRef ∨ status.podRef = sb.name) :
    Live { sb with status := status } w where
  name := live.name
  uid := live.uid
  pooled := live.pooled
  finalizer := live.finalizer
  going := live.going
  stored := live.stored
  phase := phase
  bound now := live.bound (engaged now)
  cold isCold := by
    rcases podRef isCold with same | named
    · have before := live.cold isCold
      simp only [launcherPodName] at before ⊢
      rw [same]
      exact before
    · simp only [launcherPodName, named, ite_self]

theorem Live.withArtifacts (artifacts : List ArtifactStatus) : Live (sb.withArtifacts artifacts) w :=
  live.edit live.phase id fun _ => .inl rfl

theorem Live.inPhase (phase : Phase) (plain : isTerminal phase = false ∧ phase ≠ .exporting) :
    Live (sb.inPhase phase) w := by
  refine live.edit plain.1 ?_ fun _ => .inl rfl
  rintro (outputs | now)
  · exact .inl outputs
  · exact (plain.2 now).elim

theorem Live.withOutputs {outputs : List OutputStatus} (none : sb.status.outputs = [] → outputs = []) :
    Live (sb.withOutputs outputs) w := by
  refine live.edit live.phase ?_ fun _ => .inl rfl
  rintro (some_ | now)
  · exact .inl fun empty => some_ (none empty)
  · exact .inr now

omit live

theorem goes_write : Goes (Live sb) (writeStatus sb) fun sb' w =>
    ∃ version, sb' = { sb with resourceVersion := version } ∧ Live { sb with resourceVersion := version } w :=
  goes_writeStatus (fun _ live => live.safe) fun _ _ live =>
    ⟨live.toFacts.stored, live.phase, fun engaged => live.finalizer.trans (live.bound engaged), live.phase, live.bound⟩

theorem goes_save : Goes (Live sb) (lastly (writeStatus sb)) fun _ _ => True := goes_lastly fun _ live => live.safe

theorem goes_waitForReference : Goes (Live sb) (waitForReference sb) fun _ _ => True :=
  gives_pre (fun _ live => live.inPhase .pending (by decide)) goes_save

theorem goes_terminal (ends : isTerminal phase = true) :
    Goes (fun w => Facts sb w ∧ (stops reason = true → Quiet w (launcherPodName sb))) (terminal sb phase reason)
      fun _ _ => True := by
  refine goes_next trivial fun now => goes_lastly ?_
  intro w ⟨facts, quiet⟩
  refine ⟨{ facts with }, ?_, ?_⟩
  · rintro ⟨-, why, same, stopping⟩
    cases same
    exact quiet stopping
  · intro _ going
    cases ends.symm.trans going

theorem goes_fail (plain : stops reason = false) : Goes (Live sb) (fail sb reason) fun _ _ => True :=
  gives_pre (fun _ live => ⟨live.toFacts, fun stopping => by cases plain.symm.trans stopping⟩) (goes_terminal rfl)

theorem goes_end (ends : isTerminal phase = true) :
    Goes (fun w => Live sb w ∧ Quiet w (launcherPodName sb)) (terminal sb phase reason) fun _ _ => True :=
  gives_pre (fun _ here => ⟨here.1.toFacts, fun _ => here.2⟩) (goes_terminal ends)

theorem goes_endAfterDelete (launcher : launcherPodName sb = name) (ends : isTerminal phase = true) :
    Goes (Live sb) (do let _ ← (issue (.deletePod name)).attempt; terminal sb phase reason) fun _ _ => True :=
  gives_bind goes_deletePod fun _ => launcher ▸ goes_end ends

theorem goes_failAfterDelete (launcher : launcherPodName sb = name) :
    Goes (Live sb) (failAfterDelete sb name reason) fun _ _ => True :=
  goes_endAfterDelete launcher rfl

theorem Live.edits {sb' : SwiftSandbox} (live : Live sb w) (edits : Edits sb sb') : Live sb' w := by
  rw [edits.same]
  refine live.edit ?_ ?_ fun _ => .inl edits.podRef
  · rcases edits.phase with same | running
    · exact same ▸ live.phase
    · rw [running]
      rfl
  · rw [edits.outputs]
    rintro (outputs | exporting)
    · exact .inl outputs
    · rcases edits.phase with same | running
      · exact .inr (same ▸ exporting)
      · cases running.symm.trans exporting

theorem minds_live : Minds lasting finishedSpec
    (fun sb w => Live sb w ∧ launcherPodName sb = sb.status.podRef) fun _ _ => True where
  edit edits here := by
    refine ⟨here.1.edits edits, ?_⟩
    rw [edits.podRef, ← here.2, launcherPodName, launcherPodName, edits.podRef, edits.same]
  ask asks := by
    refine goes_try ?_
    unfold Asks at asks
    split at asks
    all_goals trivial
  found := gives_post (fun _ _ here => ⟨here, fun _ _ => trivial⟩) (goes_try (o := .getPod _) trivial)
  save := gives_pre (fun _ here => here.1) goes_save
  lost why := by
    refine gives_pre (fun _ here => here.1) (goes_fail ?_)
    rcases why with rfl | rfl <;> rfl
  ends ends w inv here := goes_endAfterDelete here.2 ends w inv here.1
  dispatch _ _ := by
    refine gives_pre (fun _ here => here.1.1) ?_
    unfold redispatch
    split
    · exact goes_fail rfl
    · exact goes_fail rfl
    · refine gives_bind (gives_pre (fun _ live => (live.withArtifacts _).inPhase .running (by decide)) goes_write) ?_
      intro sb'
      exact goes_last trivial

section Cold

theorem goes_collectOutputs (launcher : launcherPodName sb = sb.name) (has : sb.status.outputs ≠ []) :
    Goes (Live sb) (collectOutputs sb pod) fun _ _ => True := by
  have failed : ∀ w, Live sb w →
      Live (sb.withOutputs (markOutputs sb.status.outputs .failed "OutputCollectionFailed")) w :=
    fun _ live => live.withOutputs fun empty => (has empty).elim
  have exporting : ∀ (outputs : List OutputStatus) (why : String) (now : Nat),
      Goes (Live sb) (lastly (writeStatus (sb.exporting outputs why now))) fun _ _ => True :=
    fun _ _ _ => by
      refine gives_pre ?_ goes_save
      exact fun _ live => live.edit rfl (fun _ => .inl has) fun _ => .inl rfl
  unfold collectOutputs
  split
  · exact gives_pre failed (goes_fail rfl)
  · refine goes_next trivial fun now => ?_
    split
    · exact gives_pre failed (goes_fail rfl)
    · split
      · exact gives_pre failed (goes_failAfterDelete launcher)
      · exact exporting _ _ _
  · exact goes_next trivial fun now => exporting _ _ _

theorem goes_finishTerminal :
    Goes (fun w => Live sb w ∧ Quiet w (launcherPodName sb)) (finishTerminal sb pod) fun _ _ => True := by
  have ended : ∀ {code : Option Int} {phase : Phase} {reason : Reason}, isTerminal phase = true →
      Goes (fun w => Live sb w ∧ Quiet w (launcherPodName sb))
        (terminal { sb with status := { sb.status with exitCode := code } } phase reason) fun _ _ => True :=
    fun ends => gives_pre (fun _ here => ⟨here.1.edit here.1.phase id fun _ => .inl rfl, here.2⟩) (goes_end ends)
  unfold finishTerminal
  split
  · exact gives_pre (fun _ here => here.1) (goes_fail rfl)
  · split
    · exact goes_end rfl
    · split
      · exact goes_end rfl
      · split
        · exact goes_end rfl
        · split
          · split <;> exact ended rfl
          · dsimp only
            split
            · exact ended rfl
            · split <;> exact ended rfl

theorem goes_ready :
    Goes (Live sb) (do let sb ← syncWorkloadReady sb; lastly (setPhase sb .running)) fun _ _ => True := by
  rw [syncWorkloadReady, bind_assoc]
  refine goes_next trivial fun ready => ?_
  rw [bind_assoc]
  refine goes_next trivial fun _ => gives_pre ?_ goes_save
  intro w live
  refine Live.inPhase ?_ .running (by decide)
  exact live.edit live.phase id fun _ => .inl rfl

theorem goes_launcherUp {now : Nat} : Goes (Live sb) (launcherUp sb pod now) fun _ _ => True := by
  have named : ∀ {status : Status}, status.podRef = sb.name → launcherPodName { sb with status := status } = sb.name := by
    intro status same
    simp only [launcherPodName, same, ite_self]
  refine gives_pre (Q := Live { recordColdArtifacts sb pod with status := { (recordColdArtifacts sb pod).status with
    startedAt := (recordColdArtifacts sb pod).status.startedAt.or (some now), podRef := (recordColdArtifacts sb pod).name
    reason := some .guestRunning } }) ?_ ?_
  · exact fun _ live => (live.withArtifacts _).edit live.phase id fun _ => .inr rfl
  unfold launcherUp
  split
  · exact goes_failAfterDelete (named rfl)
  · split
    · exact goes_failAfterDelete (named rfl)
    · split
      · exact goes_failAfterDelete (named rfl)
      · exact goes_ready

theorem goes_podState (launcher : launcherPodName sb = sb.name) :
    Goes (fun w => Live sb w ∧ (pod.ended = true → Quiet w sb.name)) (podState sb pod) fun _ _ => True := by
  refine goes_next trivial fun now => ?_
  split
  · exact gives_pre (fun _ here => here.1) (goes_failAfterDelete launcher)
  · split
    · next gone => exact gives_pre (fun _ here => ⟨here.1, launcher ▸ here.2 gone⟩) goes_finishTerminal
    · refine gives_pre (fun _ here => here.1) ?_
      split
      · exact goes_fail rfl
      · split
        · refine gives_pre (fun _ live => live.withArtifacts _) (goes_fail ?_)
          unfold policyFailureReason
          split
          · rfl
          · split <;> rfl
        · split
          · exact goes_launcherUp
          · split
            · exact gives_done
            · exact gives_pre (fun _ live => live.inPhase .materializing (by decide)) goes_save

theorem goes_reconcilePodState (launcher : launcherPodName sb = sb.name) :
    Goes (fun w => Live sb w ∧ (pod.ended = true → Quiet w sb.name)) (reconcilePodState sb pod) fun _ _ => True := by
  unfold reconcilePodState
  split
  · exact goes_podState launcher
  · next has =>
    have some_ : sb.status.outputs ≠ [] := by simpa using has
    unfold observeOutputs
    split
    · exact goes_podState launcher
    · split
      · refine gives_pre (fun _ here => ⟨here.1.withOutputs ?_, here.2⟩) (goes_podState launcher)
        exact fun empty => (some_ empty).elim
      · rw [bind_assoc]
        refine gives_bind (gives_pre ?_ (goes_collectOutputs launcher some_)) fun _ => gives_done
        exact fun _ here => here.1.edit here.1.phase id fun _ => .inl rfl

end Cold

/-! ## Launching -/

structure Same (a b : SwiftSandbox) : Prop where
  name : a.name = b.name
  pooled : a.pooled = b.pooled
  status : a.status = b.status

theorem goes_passing {gates : List Gate} (goes : ∀ sb', Same sb' sb → Goes (Live sb') (next sb') fun _ _ => True) :
    Goes (Live sb) (passing next gates sb) fun _ _ => True := by
  induction gates generalizing sb with
  | nil => exact goes sb ⟨rfl, rfl, rfl⟩
  | cons g rest ih =>
    refine goes_next trivial fun verdict => ?_
    cases verdict with
    | pass => exact ih goes
    | stop => exact gives_done
    | hold => exact goes_save
    | wait why => exact goes_waitForReference
    | refuse why =>
      refine gives_pre (fun _ live => ?_) (goes_fail rfl)
      unfold SwiftSandbox.refusedAt
      split
      · refine live.withOutputs ?_
        intro empty
        rw [empty]
        rfl
      · exact live
    | record =>
      refine gives_bind goes_write fun sb' => ?_
      rintro w inv ⟨version, rfl, live⟩
      refine ih ?_ w inv live
      exact fun sb' same => goes sb' { same with }

theorem goes_orForeign {next : Option Pod → Act Unit}
    (goes : ∀ found, Goes (fun w => Live sb w ∧ ∀ pod, found = some pod → pod.ended = true → Quiet w sb.name) (next found)
      fun _ _ => True) : Goes (Live sb) (orForeign sb next) fun _ _ => True := by
  refine gives_bind goes_getPod fun r => ?_
  split
  · exact gives_pre (fun _ here => ⟨here.1, fun _ found => by cases found⟩) (goes none)
  · exact gives_fail
  · next pod =>
    split
    · exact gives_pre (fun _ here => here.1) goes_waitForReference
    · refine gives_pre (fun _ here => ⟨here.1, ?_⟩) (goes (some pod))
      rintro _ ⟨⟩ ended
      exact here.2 fun _ => ended

theorem Live.starts (live : Live sb w) (inv : Inv w) (same : w'.sb = w.sb) : Live sb w' ∧ Inv w' := by
  have later : Live sb w' :=
    { name := same ▸ live.name
      uid := same ▸ live.uid
      pooled := same ▸ live.pooled
      finalizer := same ▸ live.finalizer
      cold := live.cold
      going := same ▸ live.going
      stored := same ▸ live.stored
      phase := live.phase
      bound := live.bound }
  refine ⟨later, ⟨⟨rfl, rfl, rfl, rfl, ?_⟩, ?_, ?_⟩⟩
  · rw [same]
    exact inv.cold
  · intro stopped
    cases later.going.symm.trans stopped.1
  · exact fun _ _ engaged => .inl (later.stored engaged)

theorem goes_start (starts : ∀ w c a w', World.perform w c o = .ok (w', a) → w'.sb = w.sb) :
    Goes (Live sb) (issue o).attempt fun _ => Live sb := by
  refine goes_issue ?_
  intro w c w' r inv live _ ran
  have same : w'.sb = w.sb := by
    rcases effect_of_cases (exec_cases ran) with rfl | ⟨a, done⟩
    · rfl
    · exact starts w c a w' done
  exact (live.starts inv same).symm

theorem goes_createPod : Goes (Live sb) (createPod sb) fun _ _ => True := by
  refine gives_bind (gives_pre (fun _ live => live.inPhase .materializing (by decide)) goes_write) fun sb' => ?_
  rintro w inv ⟨version, rfl, live⟩
  refine gives_bind (goes_start ?_) (fun r => ?_) w inv live
  · intro w c a w2 done
    simp only [World.perform] at done
    split at done <;> cases done
    rfl
  · split
    · exact gives_done
    · exact goes_orForeign fun _ => gives_done
    · exact gives_fail

theorem goes_withResolved {waits : Artifact → Bool}
    (goes : ∀ artifacts, Goes (Live (sb.withArtifacts artifacts)) (next (sb.withArtifacts artifacts)) fun _ _ => True) :
    Goes (Live sb) (withResolved sb waits next) fun _ _ => True := by
  unfold withResolved
  split
  · exact goes sb.status.artifacts
  · refine goes_next trivial fun asked => ?_
    split
    · exact gives_pre (fun _ live => live.withArtifacts _) (goes _)
    · exact goes_waitForReference
    · exact goes_waitForReference
    · exact gives_pre (fun _ live => live.withArtifacts _) (goes_fail rfl)
    · exact gives_pre (fun _ live => live.withArtifacts _) (goes_fail rfl)

theorem goes_createLaunch : Goes (Live sb) (createLaunch sb) fun _ _ => True := by
  refine goes_passing fun sb1 _ => goes_orForeign fun _ => gives_pre (fun _ here => here.1) ?_
  refine goes_passing fun sb2 _ => goes_next trivial fun now => ?_
  exact goes_withResolved fun artifacts => goes_passing fun sb3 _ => goes_createPod

theorem goes_coldLauncher (launcher : launcherPodName sb = sb.name) : Goes (Live sb) (coldLauncher sb) fun _ _ => True := by
  refine goes_orForeign fun found => ?_
  cases found with
  | none => exact gives_pre (fun _ here => here.1) goes_createLaunch
  | some pod => exact gives_pre (fun _ here => ⟨here.1, here.2 pod rfl⟩) (goes_reconcilePodState launcher)

theorem goes_coldFallback : Goes (Live sb) (coldFallback sb) fun _ _ => True := by
  refine gives_pre ?_ goes_createLaunch
  exact fun _ live => live.edit live.phase id fun _ => .inr rfl

theorem claim_sb {slot : Option String} {artifacts : List ArtifactArg} : (w.claim slot artifacts).1.sb = w.sb := by
  unfold World.claim
  split
  · rfl
  · split
    · rfl
    · split
      · rfl
      · split <;> rfl

theorem goes_checkOut (pooled : sb.pooled = true) : Goes (Live sb) (checkOut sb) fun _ _ => True := by
  refine goes_next trivial fun mountable => ?_
  refine gives_bind (U := fun _ => Live sb) (gives_attempted (gives_post (fun _ _ live _ _ => live) (goes_start ?_)))
    fun claimed => ?_
  · intro w c a w2 done
    have moved := congrArg (fun outcome => outcome.1.sb) (Except.ok.inj done)
    exact moved.symm.trans claim_sb
  · cases claimed with
    | none => exact goes_coldFallback
    | some slot =>
      refine goes_next trivial fun now => gives_pre (fun _ live => ?_) goes_save
      refine live.edit rfl ?_ ?_
      · rintro (outputs | now)
        · exact .inl outputs
        · cases now
      · intro cold
        cases pooled.symm.trans cold

theorem goes_reconcilePooled (pooled : sb.pooled = true) : Goes (Live sb) (reconcilePooled sb) fun _ _ => True := by
  unfold reconcilePooled
  split
  · next named =>
    refine goes_coldLauncher ?_
    simp only [launcherPodName, named, ite_self]
  · split
    · next set =>
      refine gives_pre (fun _ live => ⟨live, ?_⟩) minds_live.reconcileClaimedSlot
      simp only [launcherPodName, set, ne_eq, not_false_eq_true, if_true]
    · refine goes_next trivial fun possible => ?_
      split
      · refine goes_passing fun sb2 same => goes_withResolved fun artifacts => ?_
        exact goes_checkOut (same.pooled.trans pooled)
      · exact goes_coldFallback

theorem goes_launchOrFollow : Goes (Live sb) (launchOrFollow sb) fun _ _ => True := by
  have follow : ∀ sb', Goes (Live sb') (if sb'.pooled then reconcilePooled sb' else coldLauncher sb') fun _ _ => True := by
    intro sb' w inv live
    split
    · next pooled => exact goes_reconcilePooled pooled w inv live
    · next cold => exact goes_coldLauncher (live.cold (by simpa using cold)) w inv live
  unfold launchOrFollow
  dsimp only
  split
  · exact goes_orForeign fun _ => gives_pre (fun _ here => here.1) (goes_passing fun sb' _ => follow sb')
  · exact goes_passing fun sb' _ => follow sb'

/-! ## Outputs -/

structure Held (sb : SwiftSandbox) (w : World) : Prop extends Safe sb w where
  status : w.sb.status = sb.status

instance stays_held : Stays (Held sb) :=
  ⟨fun held drift => ⟨stays_safe.later held.toSafe drift, drift.status.trans held.status⟩⟩

theorem Safe.held (safe : Safe sb w) : Held { sb with resourceVersion := version } (w.setStatus sb.status) :=
  ⟨⟨safe.toFacts.stored, safe.finished, safe.outputs⟩, rfl⟩

def finalized (w : World) (termination outputs gpu : Bool) (version : Nat) : World :=
  { w with sb := { w.sb with
    terminationFinalizer := termination, outputsFinalizer := outputs, gpuFinalizer := gpu
    resourceVersion := version } }

theorem goes_patchFinalizers {R : Nat → World → Prop} [∀ version, Stays (R version)]
    (kept : ∀ w version, Inv w → P w → Inv (finalized w termination outputs gpu version) ∧
      R version (finalized w termination outputs gpu version)) :
    Goes P (issue (.patchFinalizers version termination outputs gpu)) R := by
  refine goes_effect ?_
  intro w c w' a inv here done
  simp only [World.perform] at done
  split at done <;> cases done
  exact kept w _ inv here

theorem goes_launcherStopped [Stays P] (uid : ∀ w, P w → w.sb.uid = sb.uid) :
    Goes P (launcherStopped sb) fun stopped w => P w ∧ (stopped = true → Quiet w (launcherPodName sb)) := by
  refine gives_bind goes_getPod fun r => ?_
  split
  · exact gives_pure fun _ here => ⟨here.1, fun _ => here.2 rfl⟩
  · exact gives_fail
  · refine gives_pure fun w here => ⟨here.1, fun stopped => here.2 fun ours => ?_⟩
    rw [uid w here.1] at ours
    simpa [ours] using stopped

theorem goes_finishOutputs {c : Prop} (done : isTerminal sb.status.phase = false → exportingOutputs sb = true) :
    Goes (fun w => Held sb w ∧ (c → sb.outputsFinalizer = true ∨ Quiet w (launcherPodName sb))) (finishOutputs sb)
      fun left w => ∀ sb', left = some sb' → Held sb' w ∧ (c → Quiet w (launcherPodName sb')) := by
  unfold finishOutputs
  split
  · next absent =>
    refine gives_pure ?_
    rintro w ⟨held, stopped⟩ _ ⟨⟩
    refine ⟨held, fun must => (stopped must).resolve_left ?_⟩
    simpa using absent
  · refine gives_pre (fun _ here => here.1) ?_
    refine gives_bind (goes_launcherStopped fun _ held => held.uid) fun stopped => ?_
    split
    · next yes =>
      refine gives_pre (Q := fun w => Held sb w ∧ Quiet w (launcherPodName sb)) ?_ ?_
      · exact fun _ here => ⟨here.1, here.2 yes⟩
      refine goes_next trivial fun cleaned => ?_
      split
      · refine gives_bind (goes_patchFinalizers (R := fun version w => Held { sb with
          outputsFinalizer := false, resourceVersion := version } w ∧ Quiet w (launcherPodName sb)) ?_) fun version => ?_
        · rintro w version inv ⟨held, quiet⟩
          have same := launcherPodName_congr held.name held.status
          refine ⟨⟨⟨rfl, rfl, rfl, rfl, inv.cold⟩, inv.finished, fun _ going _ => .inr ?_⟩,
            ⟨⟨{ held with finalizer := rfl }, held.finished, fun _ going _ => .inr ⟨done going, quiet⟩⟩, held.status⟩, quiet⟩
          show exportingOutputs w.sb = true ∧ Quiet w (launcherPodName w.sb)
          have going : isTerminal w.sb.status.phase = false := going
          rw [exportingOutputs, held.status] at *
          rw [same]
          exact ⟨done going, quiet⟩
        · refine gives_pure ?_
          rintro w here _ ⟨⟩
          exact ⟨here.1, fun _ => here.2⟩
      · exact gives_pure fun _ _ _ left => by cases left
    · exact gives_pure fun _ _ _ left => by cases left

theorem goes_releaseGPUWhenDone {X : World → Prop} [Stays X] (frame : ∀ w status, X w → X (w.setStatus status))
    (goes : ∀ version, Goes (fun w => Held { sb with resourceVersion := version } w ∧ X w)
      (next { sb with resourceVersion := version }) fun _ _ => True) :
    Goes (fun w => Held sb w ∧ X w) (releaseGPUWhenDone next sb) fun _ _ => True := by
  refine goes_next trivial fun verdict => ?_
  cases verdict with
  | pass => exact goes sb.resourceVersion
  | record =>
    refine gives_bind (goes_writeStatus (R := fun version w => Held { sb with resourceVersion := version } w ∧ X w)
      (fun _ here => here.1.toSafe) fun w _ here => ⟨here.1.toSafe.held, frame w _ here.2⟩) fun sb' => ?_
    rintro w inv ⟨version, rfl, here⟩
    exact goes version w inv here
  | stop | hold | wait | refuse => exact gives_done

def Packaged (outputs : List OutputStatus) : Prop := ∀ o ∈ outputs, (o.state ≠ .pending && o.state ≠ .collecting) = true

theorem exportingOutputs_iff : exportingOutputs sb = true ↔ sb.status.phase = .exporting ∧ Packaged sb.status.outputs := by
  simp only [exportingOutputs, Bool.and_eq_true, decide_eq_true_eq, List.all_eq_true, Packaged]

theorem goes_exportAll [Stays P] {outputs : List OutputStatus} (packaged : Packaged outputs) :
    Goes P (exportAll outputs) fun outputs' w => Packaged outputs' ∧ P w := by
  induction outputs with
  | nil => exact gives_pure fun _ here => ⟨packaged, here⟩
  | cons o rest ih =>
    have later : Packaged rest := fun other member => packaged other (List.mem_cons_of_mem _ member)
    have joined : ∀ {o' : OutputStatus} {outputs'}, (o'.state ≠ .pending && o'.state ≠ .collecting) = true →
        Packaged outputs' → Packaged (o' :: outputs') := by
      intro o' outputs' first others other member
      rcases List.mem_cons.mp member with rfl | old
      · exact first
      · exact others other old
    have here := packaged o (List.mem_cons_self ..)
    unfold exportAll
    split
    · exact gives_bind (ih later) fun outputs' => gives_pure fun _ all => ⟨joined here all.1, all.2⟩
    · refine goes_next trivial fun outcome => ?_
      refine gives_bind (ih later) fun outputs' => gives_pure fun _ all => ⟨joined ?_ all.1, all.2⟩
      cases outcome with
      | same => exact here
      | uploading | exported | failed => rfl

theorem goes_finishExport (exporting : exportingOutputs sb = true) :
    Goes (fun w => Held sb w ∧ (sb.outputsFinalizer = true ∨ Quiet w (launcherPodName sb))) (finishExport sb)
      fun _ _ => True := by
  refine gives_bind (gives_pre (fun _ here => ⟨here.1, fun _ : True => here.2⟩) (goes_finishOutputs fun _ => exporting))
    fun left => ?_
  cases left with
  | none => exact gives_done
  | some sb' =>
    refine gives_pre (Q := fun w => Held sb' w ∧ Quiet w (launcherPodName sb')) ?_ (goes_next trivial fun now => ?_)
    · exact fun _ here => ⟨(here sb' rfl).1, (here sb' rfl).2 trivial⟩
    have marked : ∀ {w exported why}, Held sb' w →
        Facts { sb' with status := setOutputsCondition sb'.status exported why now } w :=
      fun held => { held with }
    split
    · exact gives_pre (fun _ here => ⟨marked here.1, fun _ => here.2⟩) (goes_terminal rfl)
    · exact gives_pre (fun _ here => ⟨marked here.1, nofun⟩) (goes_terminal rfl)

instance stays_stopped {c : Prop} : Stays fun w => c ∨ Quiet w name :=
  ⟨fun stopped drift => stopped.imp_right (drift.quiet name)⟩

theorem goes_reconcileExport (exporting : exportingOutputs sb = true) :
    Goes (fun w => Held sb w ∧ (sb.outputsFinalizer = true ∨ Quiet w (launcherPodName sb))) (reconcileExport sb)
      fun _ _ => True := by
  refine goes_releaseGPUWhenDone (fun _ _ stopped => stopped) fun version => ?_
  obtain ⟨phase, packaged⟩ := exportingOutputs_iff.mp exporting
  refine gives_bind (goes_exportAll packaged) fun outputs => gives_known fun packaged2 => ?_
  have exporting2 : exportingOutputs (SwiftSandbox.withOutputs { sb with resourceVersion := version } outputs) = true :=
    exportingOutputs_iff.mpr ⟨phase, packaged2⟩
  refine gives_bind (goes_writeStatus (R := fun version' w => Held { SwiftSandbox.withOutputs { sb with
    resourceVersion := version } outputs with resourceVersion := version' } w ∧
      (sb.outputsFinalizer = true ∨ Quiet w (launcherPodName sb))) ?_ ?_) fun sb' => ?_
  · exact fun _ ⟨held, stopped⟩ => ⟨{ held with }, held.finished,
      fun _ _ _ => stopped.imp_right fun quiet => ⟨exporting2, quiet⟩⟩
  · rintro w version' ⟨held, stopped⟩
    exact ⟨⟨⟨{ held with }, held.finished,
      fun _ _ _ => stopped.imp_right fun quiet => ⟨exporting2, quiet⟩⟩, rfl⟩, stopped⟩
  · rintro w inv ⟨version', rfl, here⟩
    split
    · refine goes_finishExport ?_ w inv here
      exact exporting2
    · exact gives_done (P := fun _ => True) w inv trivial

theorem goes_admitOutputs : Goes (Live sb) (admitOutputs sb) fun _ _ => True := by
  refine goes_next trivial fun verdict => ?_
  cases verdict with
  | record | stop | hold | wait => exact gives_done
  | refuse why =>
    refine gives_pre (fun _ live => ⟨?_, nofun⟩) (goes_terminal rfl)
    exact { live with }
  | pass =>
    refine gives_bind (goes_patchFinalizers (R := fun version => Safe (SwiftSandbox.withOutputs { sb with
      outputsFinalizer := true, resourceVersion := version } (sb.outputs.map fun name => ⟨name, .pending, ""⟩))) ?_)
      fun version => goes_lastly fun _ safe => safe
    exact fun w version inv live => ⟨⟨⟨rfl, rfl, rfl, rfl, inv.cold⟩, inv.finished, fun _ _ _ => .inl rfl⟩,
      { live with finalizer := rfl }, live.safe.finished, fun _ _ _ => .inl rfl⟩

theorem goes_handleRetention : Goes (fun _ => True) (handleRetention sb) fun _ _ => True := by
  unfold handleRetention
  split
  · refine goes_next trivial fun now => ?_
    split
    · exact gives_tolerate (goes_try trivial)
    · exact gives_done
  · exact gives_done

theorem goes_afterTerminal (ended : isTerminal sb.status.phase = true) :
    Goes (Held sb) (afterTerminal sb) fun _ _ => True := by
  refine gives_pre (fun _ held => ⟨held, trivial⟩)
    (goes_releaseGPUWhenDone (X := fun _ => True) (fun _ _ here => here) fun version => ?_)
  refine gives_bind (gives_pre (fun _ here => ⟨here.1, False.elim⟩) (goes_finishOutputs fun going => ?_)) fun left => ?_
  · cases ended.symm.trans going
  · cases left with
    | none => exact gives_done
    | some sb' => exact gives_pre (fun _ _ => trivial) goes_handleRetention

structure Doomed (sb : SwiftSandbox) (w : World) : Prop extends Held sb w where
  deleting : w.sb.deleting = true

instance stays_doomed : Stays (Doomed sb) where
  later {w w'} doomed drift := by
    refine ⟨stays_held.later doomed.toHeld drift, ?_⟩
    cases now : w'.sb.deleting with
    | true => rfl
    | false => cases doomed.deleting.symm.trans (drift.deleting now)

theorem goes_announce : Goes (Doomed sb) (announce sb) Doomed := by
  refine goes_next trivial fun announced => ?_
  split
  · exact gives_pure fun _ doomed => doomed
  · refine gives_post ?_ (goes_writeStatus (R := fun version => Doomed { sb with resourceVersion := version })
      (fun _ doomed => doomed.toSafe) fun _ _ doomed => ⟨doomed.toSafe.held, doomed.deleting⟩)
    rintro _ w ⟨version, rfl, doomed⟩
    exact doomed

def HandsOn (left : Option SwiftSandbox) (w : World) : Prop := ∀ sb, left = some sb → Doomed sb w

theorem goes_waits : Goes P (pure none) HandsOn :=
  gives_pure fun _ _ _ left => by cases left

theorem goes_handsOn : Goes (Doomed sb) (pure (some sb)) HandsOn := by
  refine gives_pure ?_
  rintro w doomed _ ⟨⟩
  exact doomed

theorem goes_terminateLauncher : Goes (Doomed sb) (terminateLauncher sb) HandsOn := by
  unfold terminateLauncher
  split
  · exact goes_handsOn
  · refine gives_bind (goes_try trivial) fun r => ?_
    split
    · exact gives_bind goes_announce fun _ => goes_handsOn
    · exact gives_fail
    · split
      · exact goes_handsOn
      · split
        · refine gives_bind goes_announce fun sb' => goes_next trivial fun _ => ?_
          exact gives_bind (gives_tolerate (goes_try trivial)) fun _ => goes_waits
        · refine goes_next trivial fun isOver => ?_
          split
          · exact goes_handsOn
          · exact gives_bind goes_announce fun _ => goes_waits

theorem goes_letGo : Goes (Doomed sb) (issue (.patchFinalizers sb.resourceVersion termination outputs gpu))
    fun version => Doomed { sb with
      terminationFinalizer := termination, outputsFinalizer := outputs, gpuFinalizer := gpu
      resourceVersion := version } := by
  refine goes_patchFinalizers fun w version inv doomed => ?_
  have going : w.sb.deleting ≠ false := by simp [doomed.deleting]
  exact ⟨⟨⟨rfl, rfl, rfl, rfl, inv.cold⟩, inv.finished, fun kept => (going kept).elim⟩,
    ⟨⟨{ doomed with finalizer := rfl }, doomed.finished, fun kept => (going kept).elim⟩,
      doomed.status⟩, doomed.deleting⟩

theorem goes_deleteOutputs : Goes (Doomed sb) (deleteOutputs sb) HandsOn := by
  unfold deleteOutputs
  split
  · exact goes_handsOn
  · refine goes_next trivial fun cleaned => ?_
    split
    · exact gives_bind goes_letGo fun _ => goes_handsOn
    · exact goes_waits

theorem goes_releaseNativeGPU : Goes (Doomed sb) (releaseNativeGPU sb) HandsOn :=
  goes_next trivial fun _ => gives_bind goes_letGo fun _ => goes_handsOn

theorem goes_releaseGPU : Goes (Doomed sb) (releaseGPU sb) HandsOn := by
  unfold releaseGPU
  split
  · exact goes_handsOn
  · refine gives_bind (goes_try trivial) fun r => ?_
    split
    · exact goes_releaseNativeGPU
    · exact gives_fail
    · split
      · exact goes_releaseNativeGPU
      · split
        · exact gives_bind (gives_tolerate (goes_try trivial)) fun _ => goes_waits
        · exact goes_waits

theorem goes_dropTerminationFinalizer : Goes (Doomed sb) (dropTerminationFinalizer sb) fun _ _ => True := by
  unfold dropTerminationFinalizer
  split
  · exact gives_bind goes_letGo fun _ => gives_done
  · exact gives_done

theorem goes_onward {m : Act (Option SwiftSandbox)} (first : Goes P m HandsOn)
    (goes : ∀ sb, Goes (Doomed sb) (next sb) fun _ _ => True) :
    Goes P (do match ← m with
      | none => return ()
      | some sb => next sb) fun _ _ => True := by
  refine gives_bind first fun left => ?_
  cases left with
  | none => exact gives_done
  | some sb => exact gives_pre (fun _ handed => handed sb rfl) (goes sb)

theorem goes_handleDeletion : Goes (Doomed sb) (handleDeletion sb) fun _ _ => True := by
  refine goes_onward goes_terminateLauncher fun sb1 => ?_
  refine goes_onward goes_deleteOutputs fun sb2 => ?_
  exact goes_onward goes_releaseGPU fun sb3 => goes_dropTerminationFinalizer

theorem goes_ensureTerminationFinalizer : Goes (Live sb) (ensureTerminationFinalizer sb) Live := by
  unfold ensureTerminationFinalizer
  split
  · exact gives_pure fun _ live => live
  · refine gives_bind (goes_patchFinalizers (R := fun version => Live { sb with
      terminationFinalizer := true, resourceVersion := version }) ?_) fun version => gives_pure fun _ live => live
    intro w version inv live
    have drift : Drift w (finalized w true sb.outputsFinalizer sb.gpuFinalizer version) :=
      ⟨rfl, rfl, rfl, live.finalizer.symm, rfl, id, fun _ => id⟩
    have later := stays_live.later live drift
    exact ⟨inv.drift drift, { later with }, later.going,
      later.stored, later.phase, later.bound⟩

theorem goes_reconcileLive : Goes (Live sb) (reconcileLive sb) fun _ _ => True := by
  refine goes_passing fun sb1 _ => gives_bind goes_ensureTerminationFinalizer fun sb2 => ?_
  split
  · exact goes_admitOutputs
  · exact goes_passing fun sb3 _ => goes_launchOrFollow

def Read (sb : SwiftSandbox) (w : World) : Prop := ∃ w0, Inv w0 ∧ w0.sb = sb ∧ Drift w0 w

instance stays_read : Stays (Read sb) :=
  ⟨fun ⟨w0, inv, same, first⟩ drift => ⟨w0, inv, same, first.trans drift⟩⟩

theorem Read.stays [Stays P] (read : Read sb w) (holds : ∀ w0, Inv w0 → w0.sb = sb → P w0) : P w := by
  obtain ⟨w0, inv, same, drift⟩ := read
  exact Stays.drift ‹_› (holds w0 inv same) drift

theorem goes_getSandbox : Goes (fun _ => True) (issue .getSandbox).attempt
    fun r w => ∀ sb, r = .ok sb → Read sb w := by
  refine goes_issue ?_
  intro w c w' r inv _ _ ran
  have drift := exec_harmless (o := .getSandbox) trivial ran
  refine ⟨inv.drift drift, ?_⟩
  rintro sb rfl
  rcases exec_cases ran with ⟨a, same, done⟩ | ⟨e, failed, -⟩
  · cases same
    cases done
    exact ⟨w, inv, rfl, drift⟩
  · cases failed

theorem goes_reconcile : Goes (fun _ => True) reconcile fun _ _ => True := by
  refine gives_bind goes_getSandbox fun r => ?_
  split
  · exact gives_done
  · exact gives_fail
  · next sb =>
    refine gives_pre (Q := Read sb) (fun _ read => read sb rfl) ?_
    split
    · next deleting =>
      refine gives_pre (fun _ read => read.stays ?_) goes_handleDeletion
      rintro w0 inv rfl
      exact ⟨⟨inv, rfl⟩, deleting⟩
    · next kept =>
      have stays : sb.deleting = false := by simpa using kept
      split
      · next ended =>
        refine gives_pre (fun _ read => read.stays ?_) (goes_afterTerminal ended)
        rintro w0 inv rfl
        exact ⟨inv, rfl⟩
      · next going =>
        have goes : isTerminal sb.status.phase = false := by simpa using going
        split
        · next exporting =>
          refine gives_pre ?_ (goes_reconcileExport exporting)
          refine fun _ read => read.stays (P := fun w => Held sb w ∧ (_ ∨ Quiet w (launcherPodName sb))) ?_
          rintro w0 inv rfl
          refine ⟨⟨inv, rfl⟩, ?_⟩
          exact (inv.outputs stays goes (.inr (exportingOutputs_iff.mp exporting).1)).imp_right And.right
        · next packaging =>
          refine gives_pre (fun _ read => read.stays ?_) goes_reconcileLive
          rintro w0 inv rfl
          have bound : Engaged w0.sb → w0.sb.outputsFinalizer = true := by
            intro engaged
            rcases inv.outputs stays goes engaged with present | ⟨exporting, -⟩
            · exact present
            · exact (packaging exporting).elim
          exact ⟨⟨rfl, rfl, rfl, rfl, inv.cold⟩, goes, bound, goes, bound⟩

theorem suits_finishedSpec : Suits lasting finishedSpec setting where
  refl _ w := Drift.refl w
  trans _ _ _ _ first second := first.trans second
  env w w' inv moves := by
    obtain ⟨e, rfl⟩ := moves
    exact ⟨Inv.drift inv (drift_event e), fun _ => drift_event e⟩
  starts _ _ w offer inv := by
    cases offer
    exact wp_of_ensures (goes_reconcile w inv trivial)

def Fresh (w : World) : Prop := w.sb.status = {}

theorem Fresh.inv (fresh : Fresh w) : Inv w := by
  refine ⟨⟨rfl, rfl, rfl, rfl, ?_⟩, ?_, ?_⟩
  · intro _
    rw [launcherPodName, fresh]
    rfl
  · intro stopped
    rw [fresh] at stopped
    cases stopped.1
  · intro _ _ engaged
    unfold Engaged at engaged
    rw [fresh] at engaged
    rcases engaged with some_ | exporting
    · exact (some_ rfl).elim
    · cases exporting

/-- Where every Delete of a pod takes effect, a sandbox that is finished for one of these reasons runs nothing. -/
theorem finished_quiet (w : World) (fresh : Fresh w) (s : Loops Unit World Op Op.Res Err) (runs : LastingRuns w s)
    (stopped : Stopped s.world.sb.status) : Quiet s.world (launcherPodName s.world.sb) :=
  (loopsSound_reach suits_finishedSpec fresh.inv runs).inv.finished stopped

private def timed : World where
  sb := ⟨"job", "u-1", false, some 5, none, [], [], 0, false, true, false, false, 1, {}⟩
  pods _ := none
  fetch := none
  now := 0
  dispatches := []

private def lifeScript (check : Op → Choice → Bool) : Script Unit Choice World Op Op.Res Err Unit Event where
  engine := engine
  calls _ := reconcile
  event e w := w.event e
  check _ _ o c := check o c
  pids := []

private def up : Report where
  phase := .running
  launcher := .running
  ready := true

private def pass (ops : Nat) : List (LoopMove Unit Choice Unit Event) :=
  .start () () :: List.replicate ops (.op () {})

private def outOfTime (fault : Option Bool) : List (LoopMove Unit Choice Unit Event) :=
  pass 27 ++ [.finish (), .env (.report "job" up)] ++ pass 12 ++ [.finish (), .env (.tick 10)] ++ pass 9 ++
    [.op () { fault := fault }, .op () {}, .op () {}]

private theorem lifeScript_fits (check : Op → Choice → Bool) :
    (lifeScript check).Fits setting fun _ _ o c => check o c = true where
  passes _ _ _ _ passed := passed
  offers _ _ _ := rfl
  env event _ _ := ⟨event, rfl⟩

theorem finished_quiet_lostDelete :
    ∃ w s, Fresh w ∧ Runs w s ∧ Stopped s.world.sb.status ∧ ¬ Quiet s.world (launcherPodName s.world.sb) := by
  have reached : ∃ s, LoopsReach (engine.machine (fun _ _ _ _ => (true : Bool) = true) (fun _ _ => True)) setting timed s ∧
      s.world.sb.status.phase = .failed ∧ s.world.sb.status.reason = some .deadlineExceeded ∧
      ∃ pod ∈ s.world.pods (launcherPodName s.world.sb), pod.controller = s.world.sb.uid ∧ pod.deleting = false ∧
        pod.ended = false :=
    exists_of_play (lifeScript_fits fun _ _ => true) (outOfTime (some false)) (by decide +kernel)
  obtain ⟨s, runs, phase, reason, pod, there, ours, kept, going⟩ := reached
  refine ⟨timed, s, rfl, ?_, ⟨by rw [phase]; rfl, _, reason, rfl⟩, ?_⟩
  · simpa [Runs, machine] using runs
  · intro quiet
    have := quiet pod there ours
    simp [kept, going] at this

theorem finished_quiet_reportedDelete :
    ∃ s, LastingRuns timed s ∧ s.world.sb.status.reason = some .deadlineExceeded ∧
      Quiet s.world (launcherPodName s.world.sb) := by
  have reached : ∃ s, LastingRuns timed s ∧ s.world.sb.status.phase = .failed ∧
      s.world.sb.status.reason = some .deadlineExceeded :=
    exists_of_play (lifeScript_fits effective) (outOfTime (some true)) (by decide +kernel)
  obtain ⟨s, runs, phase, reason⟩ := reached
  exact ⟨s, runs, reason, finished_quiet timed rfl s runs ⟨by rw [phase]; rfl, _, reason, rfl⟩⟩

end KubeSwift.Workload.Finished
