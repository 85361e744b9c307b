import KubeSwift.Migration.Handover
import KubeSwift.Program.Sequential

/-! # A live migration whose destination is gone

Passes in which every call succeeds and nothing else changes the cluster. -/

namespace KubeSwift.Migration
open Program

def calmly (w : World) : Op → Choice → Prop
  | .gpu (.get name), c => c.fault = none ∧ c.gpu.fault = none ∧
      c.gpu.version = (if w.gpus.versions name = [] then none else some ((w.gpus.versions name).length - 1))
  | _, c => c.fault = none ∧ c.gpu.fault = none

def undisturbed : Machine Unit World Op Op.Res Err :=
  engine.machine (fun _ w o c => calmly w o c) (fun _ _ => False)

inductive Passes (mtls : Bool) : Nat → World → World → Prop
  | none (w : World) : Passes mtls 0 w w
  | pass {n : Nat} {w w' w'' : World} {issued : List (World × Op)} {r : Except Err Unit}
      (run : Run undisturbed () (reconcile mtls) w issued w' (some r)) (rest : Passes mtls n w' w'') :
      Passes mtls (n + 1) w w''

theorem undisturbed_answers (w : World) (o : Op) : ∃ r w', undisturbed.step () w o r w' := by
  have chosen : ∃ c, calmly w o c := by
    cases o with
    | gpu o =>
      cases o with
      | get name => exact ⟨{ gpu := { version := _ } }, rfl, rfl, rfl⟩
      | _ => exact ⟨{}, rfl, rfl⟩
    | _ => exact ⟨{}, rfl, rfl⟩
  obtain ⟨c, calm⟩ := chosen
  exact ⟨_, _, c, calm, rfl⟩

theorem passes_total (mtls : Bool) (n : Nat) (w : World) : ∃ w', Passes mtls n w w' := by
  induction n generalizing w with
  | zero => exact ⟨w, .none w⟩
  | succ n ih =>
    obtain ⟨issued, w', r, run⟩ := run_total undisturbed_answers (reconcile mtls) w
    obtain ⟨w'', rest⟩ := ih w'
    exact ⟨w'', .pass run rest⟩

section Rules

variable {p : Unit} {w w' : World} {o : Op} {r : Except Err o.Res}

theorem calmly_fault {c : Choice} (calm : calmly w o c) : c.fault = none := by
  cases o with
  | gpu o => cases o <;> exact calm.1
  | _ => exact calm.1

theorem undisturbed_cases (action : undisturbed.step p w o r w') : ∃ c, calmly w o c ∧
    ((∃ a, r = .ok a ∧ w.perform c o = .ok (w', a)) ∨ (∃ e, r = .error e ∧ w' = w ∧ w.perform c o = .error e)) := by
  obtain ⟨c, calm, action⟩ := action
  have none := calmly_fault calm
  have done : withFault w (c.fault.map _) (w.perform c o) = (w', r) :=
    Option.some.inj action
  rw [none] at done
  exact ⟨c, calm, withFault_none done⟩

section Found

variable {β : Type} {object : Option β} {x : β} {f : Choice → β → World × o.Res}
  (performs : ∀ c, w.perform c o = World.found object (f c))
include performs

theorem wp_found {Q : Except Err o.Res → World → Prop} (there : ∀ c x, object = some x → Q (.ok (f c x).2) (f c x).1)
    (absent : object = none → Q (.error .notFound) w) : wp undisturbed .plain p (issue o) Q w := by
  rw [wp_call_plain]
  intro r w' action
  obtain ⟨c, -, done⟩ := undisturbed_cases action
  rw [performs c] at done
  cases object with
  | none =>
    rcases done with ⟨a, -, done⟩ | ⟨e, rfl, rfl, failed⟩
    · cases done
    · cases failed
      exact absent rfl
  | some x =>
    rcases done with ⟨a, rfl, done⟩ | ⟨e, rfl, rfl, failed⟩
    · obtain ⟨rfl, rfl⟩ := Prod.mk.inj (Except.ok.inj done)
      exact there c x rfl
    · cases failed

variable {Q : Except Err (Option o.Res) → World → Prop}

theorem wp_lookup_found (there : ∀ c x, object = some x → Q (.ok (some (f c x).2)) (f c x).1)
    (absent : object = none → Q (.ok none) w) : wp undisturbed .plain p (lookup (issue o)) Q w := by
  simp only [lookup, wp_bind, wp_attempt]
  apply wp_found performs
  · intro c x here
    exact there c x here
  · intro none
    exact absent none

theorem wp_present {Q : Except Err o.Res → World → Prop} (there : object = some x)
    (after : ∀ c, Q (.ok (f c x).2) (f c x).1) : wp undisturbed .plain p (issue o) Q w := by
  subst there
  refine wp_found performs ?_ nofun
  rintro c _ ⟨⟩
  exact after c

theorem wp_lookup_present (there : object = some x) (after : ∀ c, Q (.ok (some (f c x).2)) (f c x).1) :
    wp undisturbed .plain p (lookup (issue o)) Q w := by
  simp only [lookup, wp_bind, wp_attempt]
  exact wp_present performs there after

end Found

variable {α : Type} {Q : Except Err α → World → Prop} {f : Option SwiftGuest → Act α}

theorem wp_readGuest_calm (after : wp undisturbed .plain p (f w.guest) Q w) :
    wp undisturbed .plain p (readGuest >>= f) Q w := by
  rw [wp_bind]
  apply wp_lookup_found (fun _ => rfl)
  · intro _ guest there
    rwa [there] at after
  · intro absent
    rwa [absent] at after

theorem wp_readPod_calm {name : String} {f : Option Pod → Act α}
    (after : wp undisturbed .plain p (f (w.pods name)) Q w) : wp undisturbed .plain p (readPod name >>= f) Q w := by
  rw [wp_bind]
  apply wp_lookup_found (fun _ => rfl)
  · intro _ pod there
    rwa [there] at after
  · intro absent
    rwa [absent] at after

end Rules

def Settles {α : Type} (m : Act α) : Prop :=
  ∀ p w, wp undisturbed .plain p m (fun r w' => (∃ a, r = .ok a) ∧ w'.migration = w.migration) w

section Settles

variable {α β : Type}

theorem settles_pure (a : α) : Settles (pure a : Act α) := fun _ _ => ⟨⟨a, rfl⟩, rfl⟩

variable {m : Act α}

theorem Settles.andThen {f : α → Act β} (settles : Settles m) {p : Unit} {w : World} {Q : Except Err β → World → Prop}
    (rest : ∀ a w', w'.migration = w.migration → wp undisturbed .plain p (f a) Q w') :
    wp undisturbed .plain p (m >>= f) Q w := by
  rw [wp_bind]
  refine wp_mono ?_ (settles p w)
  intro r w' done
  obtain ⟨⟨a, rfl⟩, same⟩ := done
  exact rest a w' same

theorem settles_bind {f : α → Act β} (first : Settles m) (rest : ∀ a, Settles (f a)) : Settles (m >>= f) := by
  intro p w
  apply first.andThen
  intro a w' same
  refine wp_mono ?_ (rest a p w')
  intro r w'' done
  exact ⟨done.1, done.2.trans same⟩

theorem settles_ite {c : Prop} [Decidable c] {n : Act α} (whenTrue : c → Settles m) (whenFalse : ¬ c → Settles n) :
    Settles (if c then m else n) := by
  split
  · exact whenTrue ‹_›
  · exact whenFalse ‹_›

theorem settles_lookup {o : Op} (away : o.onMigration = false)
    (performs : ∀ (w : World) c e, w.perform c o = .error e → e = .notFound) : Settles (lookup (issue o)) := by
  intro p w
  simp only [lookup, wp_bind, wp_attempt]
  rw [wp_call_plain]
  intro r w' action
  obtain ⟨c, -, ⟨a, rfl, done⟩ | ⟨e, rfl, rfl, failed⟩⟩ := undisturbed_cases action
  · exact ⟨⟨_, rfl⟩, World.perform_migration away done⟩
  · rw [performs w' c e failed]
    exact ⟨⟨_, rfl⟩, rfl⟩

theorem settles_ignoreNotFound {o : Op} (away : o.onMigration = false)
    (performs : ∀ (w : World) c e, w.perform c o = .error e → e = .notFound) : Settles (ignoreNotFound (issue o)) :=
  settles_bind (settles_lookup away performs) fun _ => settles_pure ()

theorem found_error {γ : Type} {object : Option γ} {f : γ → β} {e : Err} (failed : World.found object f = .error e) :
    e = .notFound := by
  cases object with
  | none =>
    cases failed
    rfl
  | some x => cases failed

theorem settles_deletePod (name : String) (force : Bool) : Settles (ignoreNotFound (issue (.deletePod name force))) :=
  settles_ignoreNotFound rfl fun _ _ _ => found_error

theorem settles_clearAction (name : String) (own : Pod → Bool) : Settles (clearAction name own) := by
  refine settles_bind (settles_lookup rfl fun _ _ _ => found_error) ?_
  intro pod
  cases pod with
  | none => exact settles_pure ()
  | some pod =>
    exact settles_ite (fun _ => settles_ignoreNotFound rfl fun _ _ _ => found_error) fun _ => settles_pure ()

theorem settles_withGuest (absent : Settles (f none))
    (there : ∀ guest, Settles (f (some guest))) : Settles (readGuest >>= f) := by
  refine settles_bind (settles_lookup rfl fun _ _ _ => found_error) ?_
  intro guest
  cases guest with
  | none => exact absent
  | some guest => exact there guest

theorem settles_clearLauncherCancel (mig : SwiftMigration) : Settles (clearLauncherCancel mig) :=
  settles_withGuest (settles_pure ()) fun _ => settles_clearAction _ _

theorem settles_deleteAbandonedDestination (mig : SwiftMigration) {res : AbortResolution}
    (settled : res.settled = true) : Settles (deleteAbandonedDestination mig res) := by
  unfold deleteAbandonedDestination
  refine settles_ite (fun unsettled => ?_) fun _ => settles_withGuest (settles_pure ()) fun _ => ?_
  · rw [settled] at unsettled
    cases unsettled
  · cases dstPodName mig with
    | error e => exact settles_pure ()
    | ok name => exact settles_deletePod name _

theorem settles_cleanupDstPod (status : SwiftMigrationStatus) : Settles (cleanupDstPod status) := by
  unfold cleanupDstPod
  split
  · exact settles_pure ()
  · exact settles_ite (fun _ => settles_pure ()) fun _ => settles_deletePod _ _

end Settles

section Release

variable {p : Unit} {w w' : World}

theorem undisturbed_get {name : String} {r : Except Err (Except GPU.Err GPU.SwiftGPUNode)}
    (action : undisturbed.step p w (.gpu (.get name)) r w') :
    w' = w ∧ (r = .ok (.error .notFound) ∨
      ∃ n, r = .ok (.ok n) ∧ n.name = name ∧ (w.gpus.versions name).length = n.resourceVersion + 1) := by
  obtain ⟨c, ⟨-, calm, latest⟩, done⟩ := undisturbed_cases action
  simp only [World.perform, GPU.World.exec, calm, GPU.World.perform, latest] at done
  rcases done with ⟨a, rfl, done⟩ | ⟨e, -, -, failed⟩
  · obtain ⟨rfl, same⟩ := Prod.mk.inj (Except.ok.inj done)
    by_cases none : w.gpus.versions name = []
    · simp only [none, if_true, Option.bind_none, withFault] at same ⊢
      exact ⟨trivial, .inl (by rw [← same])⟩
    · have bound : (w.gpus.versions name).length - 1 < (w.gpus.versions name).length := by
        have := List.length_pos_iff.mpr none
        omega
      simp only [none, if_false, Option.bind_some, GPU.World.read, List.getElem?_eq_getElem bound, Option.map_some,
        withFault] at same ⊢
      refine ⟨trivial, .inr ⟨_, by rw [← same], rfl, ?_⟩⟩
      show _ = (w.gpus.versions name).length - 1 + 1
      omega
  · cases failed

theorem undisturbed_update {name : String} {version : Nat} {st : GPU.SwiftGPUNodeStatus}
    {r : Except Err (Except GPU.Err Unit)} (current : (w.gpus.versions name).length = version + 1)
    (action : undisturbed.step p w (.gpu (.update name version st)) r w') :
    r = .ok (.ok ()) ∧ w'.migration = w.migration := by
  obtain ⟨c, ⟨-, calm⟩, done⟩ := undisturbed_cases action
  simp only [World.perform, GPU.World.exec, calm, GPU.World.perform, current, if_true, withFault] at done
  rcases done with ⟨a, rfl, done⟩ | ⟨e, -, -, failed⟩
  · obtain ⟨rfl, rfl⟩ := Prod.mk.inj (Except.ok.inj done)
    exact ⟨rfl, rfl⟩
  · cases failed

theorem settles_release (allocatedTo node : String) :
    Settles (onGPUs (GPU.releaseFromNodeFor allocatedTo node)) := by
  intro p w
  unfold GPU.releaseFromNodeFor
  split
  · exact settles_pure () p w
  · rw [onGPUs_bind, onGPUs_attempt, wp_bind, wp_bind, wp_call_plain]
    intro r w' action
    obtain ⟨rfl, rfl | ⟨n, rfl, rfl, current⟩⟩ := undisturbed_get action
    · exact ⟨⟨(), rfl⟩, rfl⟩
    · show wp undisturbed .plain p (onGPUs (GPU.clearOn allocatedTo n)) _ _
      unfold GPU.clearOn
      split
      · rw [onGPUs_issue, wp_bind, wp_call_plain]
        intro r w' action
        obtain ⟨rfl, kept⟩ := undisturbed_update current action
        exact ⟨⟨(), rfl⟩, kept⟩
      · exact ⟨⟨(), rfl⟩, rfl⟩

variable (mig : SwiftMigration)
include mig

theorem settles_releaseTargetReservation (guest : SwiftGuest) :
    Settles (releaseTargetReservation mig guest) := by
  refine settles_ite (fun _ => settles_pure ()) fun _ => ?_
  intro p w
  rw [wp_bind, wp_attempt]
  refine wp_mono ?_ (settles_release _ _ p w)
  intro r w' done
  obtain ⟨⟨a, rfl⟩, same⟩ := done
  exact ⟨⟨(), rfl⟩, same⟩

theorem settles_cleanupSourceGuest (restore : Bool) :
    Settles (cleanupSourceGuest mig restore) := by
  refine settles_withGuest (settles_pure ()) fun guest => settles_ite (fun _ => settles_pure ()) fun _ => ?_
  refine settles_bind (settles_lookup rfl fun _ _ _ => found_error) ?_
  intro guest
  cases guest with
  | none => exact settles_pure ()
  | some guest => exact settles_ite (fun _ => settles_releaseTargetReservation mig guest) fun _ => settles_pure ()

theorem settles_undoFailed (status : SwiftMigrationStatus) (post : Bool) :
    Settles (undoFailed mig status post) := by
  refine settles_bind (settles_cleanupSourceGuest mig _) fun _ => settles_ite (fun _ => ?_) fun _ => settles_pure ()
  exact settles_bind (settles_withGuest (settles_pure ()) fun _ => settles_clearAction _ _) fun _ => settles_cleanupDstPod status

theorem settles_onTerminalPhase (status : SwiftMigrationStatus) :
    Settles (onTerminalPhase mig status) := by
  refine settles_ite (fun _ => settles_pure ()) fun _ => settles_ite (fun _ => settles_undoFailed _ _ _) fun _ => ?_
  exact settles_withGuest (settles_pure ()) fun _ => settles_undoFailed _ _ _

end Release

structure Stranded (mig : SwiftMigration) (guest : SwiftGuest) (w : World) : Prop where
  migration : w.migration = some mig
  phase : mig.status.phase = .stopAndCopy
  mode : mig.status.mode = .live
  guest : w.guest = some guest
  gone : ∀ name, dstPodName mig = .ok name → w.pods name = none

def Retained (mig : SwiftMigration) (guest : SwiftGuest) (w : World) : Prop :=
  isPostCutover mig = false ∧ srcReportedComplete mig (w.pods (srcPodLookupName mig guest)) = false

def Finished (post deleting : Bool) (w : World) : Prop :=
  ∃ mig, w.migration = some mig ∧ isTerminalPhase mig.status.phase = true ∧ mig.status.mode = .live ∧
    isPostCutover mig = post ∧ mig.deleting = deleting

def Unfinalized (w : World) : Prop := ∀ mig, w.migration = some mig → mig.finalizer = false

def Ended (mig : SwiftMigration) (w : World) : Prop :=
  if mig.deleting then ∀ left, w.migration = some left → left.finalizer = false
  else ∃ left, w.migration = some left ∧ isTerminalPhase left.status.phase = true

section Stranded

variable {p : Unit} {w : World} {mig : SwiftMigration} {guest : SwiftGuest}

theorem wp_liveCommitted_post (post : isPostCutover mig = true) {Q : Except Err Bool → World → Prop}
    (after : Q (.ok true) w) : wp undisturbed .plain p (liveCommitted mig) Q w := by
  unfold liveCommitted
  rwa [if_pos post]

variable {Q : Except Err Unit → World → Prop} {status : SwiftMigrationStatus} {mtls : Bool}

variable (there : w.migration = some mig)
include there

theorem wp_persist_calm (changes : mig.status ≠ status)
    (after : ∀ terminalAt time, Q (.ok ()) (w.setMigration (some
      { mig with
        status := ({ status with terminalAt } : SwiftMigrationStatus).stamped time
        resourceVersion := mig.resourceVersion + 1 }))) :
    wp undisturbed .plain p (persist mig status) Q w := by
  unfold persist ignoreNotFound
  rw [if_neg changes, wp_bind]
  apply wp_lookup_present (fun _ => rfl) there
  intro c
  simp only [onOk_ok, wp_pure, World.withStatus, SwiftMigrationStatus.merge_self]
  split
  · exact after true c.time
  · exact after status.terminalAt c.time

theorem wp_recordFailure_calm (going : isTerminalPhase mig.status.phase = false)
    (mode : status.mode = .live) (conditions : status.conditions = mig.status.conditions) (message : String)
    (reason : FailureReason) {resolution : AbortResolution} (resolved : resolution.outcome = .noSend) :
    wp undisturbed .plain p (recordFailure mig resolution (failedStatus status message reason))
      (fun _ => Finished (isPostCutover mig) mig.deleting) w := by
  unfold recordFailure
  rw [if_neg (by simp [resolved])]
  apply (settles_clearLauncherCancel mig).andThen
  intro _ w1 same1
  apply (settles_onTerminalPhase mig _).andThen
  intro _ w2 same2
  apply wp_persist_calm ((same2.trans same1).trans there)
  · intro same
    rw [same] at going
    cases going
  · intro terminalAt time
    exact ⟨_, rfl, rfl, mode, congrArg Conditions.podRefSwapped conditions, rfl⟩

theorem wp_released_calm (deleting : mig.deleting = true) :
    wp undisturbed .plain p (issue (.ensure .nodeIdentities) >>= fun _ => removeFinalizer mig)
      (fun _ => Unfinalized) w := by
  rw [wp_bind, wp_call_plain]
  intro r w' action
  obtain ⟨c, -, ⟨a, rfl, done⟩ | ⟨e, -, -, failed⟩⟩ := undisturbed_cases action
  · cases done
    unfold removeFinalizer ignoreNotFound
    split
    · rw [wp_bind]
      apply wp_lookup_present (fun _ => rfl) there
      intro _
      have removed : World.remaining (World.withFinalizer mig false) = none := by
        simp [World.remaining, World.withFinalizer, deleting]
      intro mig' left
      rw [removed] at left
      cases left
    next absent =>
      intro mig' left
      rw [there] at left
      cases left
      simpa using absent
  · cases failed

theorem wp_finishDeletion_calm (deleting : mig.deleting = true) (committed resolved : Bool) :
    wp undisturbed .plain p (finishDeletion mig committed resolved) (fun _ => Unfinalized) w := by
  unfold finishDeletion
  apply (settles_cleanupSourceGuest mig _).andThen
  intro _ w1 same1
  have here : w1.migration = some mig := same1.trans there
  split
  · apply (settles_cleanupDstPod _).andThen
    intro _ w2 same2
    exact wp_released_calm (same2.trans here) deleting
  · exact wp_released_calm here deleting

omit there

theorem wp_reconcile_finished (finished : Finished true true w) :
    wp undisturbed .plain p (reconcile mtls) (fun _ => Unfinalized) w := by
  obtain ⟨mig, there, terminal, mode, post, deleting⟩ := finished
  unfold reconcile
  rw [wp_bind]
  apply wp_lookup_present (fun _ => rfl) there
  intro _
  show wp undisturbed .plain p (if mig.deleting then _ else _) _ w
  rw [if_pos deleting]
  unfold finishCutoverBeforeDeletion
  rw [wp_bind, if_pos (by simp [terminal])]
  show wp undisturbed .plain p (handleCancellation mig) _ w
  unfold handleCancellation
  split
  next absent =>
    intro mig' left
    rw [there] at left
    cases left
    simpa using absent
  unfold deletionCommitted
  rw [if_pos mode, wp_bind]
  apply wp_liveCommitted_post post
  exact wp_finishDeletion_calm there deleting true false

theorem ended_of_one (holds : wp undisturbed .plain () (reconcile mtls) (fun _ => Ended mig) w) {w' : World}
    (passes : Passes mtls 1 w w') : Ended mig w' := by
  cases passes with
  | pass run rest =>
    cases rest
    exact run_plain run holds

theorem ended_of_two (first : wp undisturbed .plain () (reconcile mtls) (fun _ => Finished true true) w)
    (deleting : mig.deleting = true) {w' : World} (passes : Passes mtls 2 w w') : Ended mig w' := by
  cases passes with
  | pass run rest =>
    have finished := run_plain run first
    cases rest with
    | pass run rest =>
      cases rest
      unfold Ended
      rw [if_pos deleting]
      exact run_plain run (wp_reconcile_finished finished)

variable (stranded : Stranded mig guest w)
include stranded

theorem wp_stopAndCopyLive_calm
    {Q : Except Err Handled → World → Prop} (fails : ∀ message reason, Q (.ok (.failure message reason, status)) w) :
    wp undisturbed .plain p (handleStopAndCopyLive mtls mig status) Q w := by
  apply wp_readGuest_calm
  rw [stranded.guest]
  apply wp_readPod_calm
  cases named : dstPodName mig with
  | error e => exact fails _ _
  | ok name =>
    apply wp_readPod_calm
    rw [stranded.gone name named]
    exact fails _ _

theorem wp_dispatchPhase_stranded
    (fails : ∀ message reason, wp undisturbed .plain p
      (failMigration mig { mig.status with startedAt := true } message reason) Q w) :
    wp undisturbed .plain p (dispatchPhase mtls mig) Q w := by
  have live : isLiveMode mig { mig.status with startedAt := true } = true := by simp [isLiveMode, stranded.mode]
  unfold dispatchPhase
  rw [wp_bind, if_pos (.inr (.inr live))]
  show wp undisturbed .plain p (runPhase mtls mig { mig.status with startedAt := true }) _ w
  unfold runPhase
  rw [stranded.phase]
  unfold handleStopAndCopy
  rw [if_pos live, wp_bind]
  apply wp_stopAndCopyLive_calm stranded
  exact fails

theorem wp_reconcile_calm (proceeds : mig.deleting = false → wp undisturbed .plain p (proceed mtls mig) Q w)
    (asked : mig.deleting = true → wp undisturbed .plain p (do
      if ← finishCutoverBeforeDeletion mig then proceed mtls mig else handleCancellation mig) Q w) :
    wp undisturbed .plain p (reconcile mtls) Q w := by
  unfold reconcile
  rw [wp_bind]
  apply wp_lookup_present (fun _ => rfl) stranded.migration
  intro _
  show wp undisturbed .plain p (if mig.deleting then _ else _) Q w
  split
  · next deleting => exact asked deleting
  · next kept => exact proceeds (by simpa using kept)

section Retained

variable (retained : Retained mig guest w)
include retained

theorem wp_liveCommitted_retained {Q : Except Err Bool → World → Prop} (after : Q (.ok false) w) :
    wp undisturbed .plain p (liveCommitted mig) Q w := by
  unfold liveCommitted
  rw [if_neg (by simp [retained.1]), if_neg (by simp [stranded.mode])]
  apply wp_readGuest_calm
  rw [stranded.guest]
  apply wp_readPod_calm
  rw [retained.2]
  cases named : dstPodName mig with
  | error e => exact after
  | ok name =>
    apply wp_readPod_calm
    rw [stranded.gone name named]
    exact after

theorem wp_resolveSourceOwnership_retained
    {Q : Except Err AbortResolution → World → Prop} (after : ∀ detail, Q (.ok ⟨.noSend, .none, detail⟩) w) :
    wp undisturbed .plain p (resolveSourceOwnership mig) Q w := by
  unfold resolveSourceOwnership
  rw [wp_bind]
  apply wp_liveCommitted_retained stranded retained
  apply wp_readGuest_calm
  rw [stranded.guest]
  cases named : dstPodName mig with
  | error e => exact after _
  | ok name =>
    apply wp_readPod_calm
    rw [stranded.gone name named]
    exact after _

theorem wp_transitionCancelLive_calm (ended : ∀ w', Finished (isPostCutover mig) mig.deleting w' → Q (.ok ()) w') :
    wp undisturbed .plain p (transitionCancelLive mig) Q w := by
  unfold transitionCancelLive
  rw [wp_bind]
  apply wp_resolveSourceOwnership_retained stranded retained
  intro detail
  apply (settles_deleteAbandonedDestination mig rfl).andThen
  intro _ w1 same1
  apply (settles_clearLauncherCancel mig).andThen
  intro _ w2 same2
  have there : w2.migration = some mig := (same2.trans same1).trans stranded.migration
  unfold finalizeCancelled
  rw [wp_bind, wp_attempt, wp_call_plain]
  intro r w3 action
  obtain ⟨c, -, done⟩ := undisturbed_cases action
  simp only [World.perform, there, if_true] at done
  rcases done with ⟨a, rfl, done⟩ | ⟨e, -, -, failed⟩
  · cases done
    apply ended
    refine ⟨_, rfl, ?_, ?_, ?_, rfl⟩
    · simp [World.withStatus, SwiftMigrationStatus.stamped, isTerminalPhase]
    · simp [World.withStatus, SwiftMigrationStatus.stamped, stranded.mode]
    · simp [World.withStatus, SwiftMigrationStatus.stamped, isPostCutover]
  · cases failed

theorem wp_handleCancellation_calm (deleting : mig.deleting = true) :
    wp undisturbed .plain p (handleCancellation mig) (fun _ => Unfinalized) w := by
  unfold handleCancellation
  split
  next absent =>
    intro mig' left
    rw [stranded.migration] at left
    cases left
    simpa using absent
  unfold deletionCommitted
  rw [if_pos stranded.mode, wp_bind]
  apply wp_liveCommitted_retained stranded retained
  rw [onOk_ok, if_pos ⟨rfl, stranded.mode, by simp [stranded.phase, isTerminalPhase]⟩, wp_bind]
  apply wp_resolveSourceOwnership_retained stranded retained
  intro detail
  show wp undisturbed .plain p (deleteAbandonedDestination mig ⟨.noSend, .none, detail⟩ >>= _) _ w
  apply (settles_deleteAbandonedDestination mig rfl).andThen
  intro _ w1 same1
  apply (settles_clearLauncherCancel mig).andThen
  intro _ w2 same2
  exact wp_finishDeletion_calm ((same2.trans same1).trans stranded.migration) deleting _ _

theorem wp_reconcile_deleted
    (deleting : mig.deleting = true) : wp undisturbed .plain () (reconcile mtls) (fun _ => Ended mig) w := by
  have ends : wp undisturbed .plain () (handleCancellation mig) (fun _ => Ended mig) w := by
    refine wp_mono ?_ (wp_handleCancellation_calm stranded retained deleting)
    intro _ w' released
    simp only [Ended, deleting, if_true]
    exact released
  apply wp_reconcile_calm stranded
  · intro kept
    rw [kept] at deleting
    cases deleting
  · intro _
    unfold finishCutoverBeforeDeletion
    rw [wp_bind]
    split
    · exact ends
    · apply wp_liveCommitted_retained stranded retained
      exact ends

end Retained

section Returned

variable (returned : isPostCutover mig = true ∨ Retained mig guest w)
include returned

theorem wp_failMigration_calm (mode : status.mode = .live)
    (conditions : status.conditions = mig.status.conditions) (message : String) (reason : FailureReason) :
    wp undisturbed .plain p (failMigration mig status message reason)
      (fun _ => Finished (isPostCutover mig) mig.deleting) w := by
  have going : isTerminalPhase mig.status.phase = false := by simp [stranded.phase, isTerminalPhase]
  unfold failMigration resolveBeforeFailing
  rw [wp_bind]
  rcases returned with post | retained
  · rw [if_pos (by simp [post])]
    show wp undisturbed .plain p (recordFailure mig ⟨.noSend, .none, ""⟩ (failedStatus status message reason)) _ w
    exact wp_recordFailure_calm stranded.migration going mode conditions message reason rfl
  · rw [if_neg (by simp [isLiveMode, mode, retained.1]), wp_bind]
    apply wp_resolveSourceOwnership_retained stranded retained
    intro detail
    show wp undisturbed .plain p (recordFailure mig ⟨.noSend, .none, detail⟩ (failedStatus status message reason)) _ w
    exact wp_recordFailure_calm stranded.migration going mode conditions message reason rfl

theorem wp_ensureFinalizer_calm {Q : Except Err SwiftMigration → World → Prop}
    (after : ∀ mig' w', Stranded mig' guest w' → (isPostCutover mig' = true ∨ Retained mig' guest w') →
      isPostCutover mig' = isPostCutover mig → mig'.deleting = mig.deleting → Q (.ok mig') w') :
    wp undisturbed .plain p (ensureFinalizer mig) Q w := by
  unfold ensureFinalizer
  split
  · exact after mig w stranded returned rfl rfl
  next absent =>
    apply wp_present (fun _ => rfl) stranded.migration
    intro _
    have remains : World.remaining (World.withFinalizer mig true) = some (World.withFinalizer mig true) := by
      simp [World.remaining, World.withFinalizer]
    rw [remains]
    exact after _ _ ⟨rfl, stranded.phase, stranded.mode, stranded.guest, stranded.gone⟩ returned rfl rfl

theorem wp_honorCancel_calm {Q : Except Err (Option SwiftMigration) → World → Prop}
    (ended : ∀ w', Finished (isPostCutover mig) mig.deleting w' → Q (.ok none) w')
    (after : ∀ mig' w', Stranded mig' guest w' → (isPostCutover mig' = true ∨ Retained mig' guest w') →
      isPostCutover mig' = isPostCutover mig → mig'.deleting = mig.deleting → Q (.ok (some mig')) w') :
    wp undisturbed .plain p (honorCancel mig) Q w := by
  unfold honorCancel
  split
  · exact after mig w stranded returned rfl rfl
  rw [wp_bind]
  rcases returned with post | retained
  · apply wp_liveCommitted_post post
    show wp undisturbed .plain p (markCancelIgnored mig >>= _) Q w
    rw [wp_bind]
    unfold markCancelIgnored
    split
    · exact after mig w stranded (.inl post) rfl rfl
    · apply wp_present (fun _ => rfl) stranded.migration
      intro c
      refine after _ _ ⟨rfl, ?_, ?_, stranded.guest, stranded.gone⟩ (.inl ?_) ?_ rfl
      all_goals simp only [World.withStatus, SwiftMigrationStatus.merge_self]
      · exact stranded.phase
      · exact stranded.mode
      · exact post
      · rfl
  · apply wp_liveCommitted_retained stranded retained
    show wp undisturbed .plain p (transitionCancelLive mig >>= _) Q w
    rw [wp_bind]
    apply wp_transitionCancelLive_calm stranded retained
    intro w' finished
    exact ended w' finished

theorem wp_proceed_calm :
    wp undisturbed .plain p (proceed mtls mig) (fun _ => Finished (isPostCutover mig) mig.deleting) w := by
  unfold proceed
  rw [if_neg (by simp [stranded.phase, isTerminalPhase]), wp_bind]
  apply wp_ensureFinalizer_calm stranded returned
  intro mig1 w1 stranded1 returned1 post1 deleting1
  rw [onOk_ok, wp_bind, ← post1, ← deleting1]
  apply wp_honorCancel_calm stranded1 returned1
  · intro w2 finished
    exact finished
  · intro mig2 w2 stranded2 returned2 post2 deleting2
    rw [← post2, ← deleting2]
    apply wp_dispatchPhase_stranded stranded2
    intro message reason
    apply wp_failMigration_calm stranded2 returned2
    · exact stranded2.mode
    · rfl

theorem wp_reconcile_kept (kept : mig.deleting = false) :
    wp undisturbed .plain () (reconcile mtls) (fun _ => Ended mig) w := by
  apply wp_reconcile_calm stranded
  · intro _
    refine wp_mono ?_ (wp_proceed_calm stranded returned)
    intro _ w' finished
    obtain ⟨left, there, terminal, -⟩ := finished
    simp only [Ended, kept]
    exact ⟨left, there, terminal⟩
  · intro deleting
    rw [kept] at deleting
    cases deleting

end Returned

theorem wp_reconcile_committed (post : isPostCutover mig = true)
    (deleting : mig.deleting = true) (finalizer : mig.finalizer = true) :
    wp undisturbed .plain () (reconcile mtls) (fun _ => Finished true true) w := by
  apply wp_reconcile_calm stranded
  · intro kept
    rw [kept] at deleting
    cases deleting
  · intro _
    unfold finishCutoverBeforeDeletion
    rw [wp_bind, if_neg (by simp [finalizer, stranded.phase, isTerminalPhase, stranded.mode])]
    apply wp_liveCommitted_post post
    rw [onOk_ok, if_pos rfl]
    simpa only [post, deleting] using wp_proceed_calm stranded (.inl post)

end Stranded

/-- The source has reported the hand-over, and the guest still points at it. -/
structure Orphaned (mig : SwiftMigration) (owner : SwiftGuest) (w : World) : Prop extends Stranded mig owner w where
  pre : isPostCutover mig = false
  complete : srcReportedComplete mig (w.pods (srcPodLookupName mig owner)) = true

/-- So far, and nothing lets the object go. -/
def Stuck (deleting : Bool) (guest : SwiftGuest) (w : World) : Prop :=
  ∃ mig, Orphaned mig guest w ∧ mig.deleting = deleting ∧ (mig.deleting = true → mig.finalizer = true)

section Orphaned

variable {p : Unit} {w : World} {mig : SwiftMigration} {guest : SwiftGuest} {status : SwiftMigrationStatus} {mtls : Bool}
  (handed : Orphaned mig guest w)
include handed

theorem wp_liveCommitted_complete {Q : Except Err Bool → World → Prop} (after : Q (.ok true) w) :
    wp undisturbed .plain p (liveCommitted mig) Q w := by
  unfold liveCommitted
  rw [if_neg (by simp [handed.pre]), if_neg (by simp [handed.mode])]
  apply wp_readGuest_calm
  rw [handed.guest]
  apply wp_readPod_calm
  rw [handed.complete]
  exact after

theorem wp_failMigration_held (mode : status.mode = .live) (message : String) (reason : FailureReason) :
    wp undisturbed .plain p (failMigration mig status message reason) (fun _ w' => w' = w) w := by
  unfold failMigration resolveBeforeFailing resolveSourceOwnership
  rw [wp_bind, if_neg (by simp [isLiveMode, mode, handed.pre]), wp_bind, wp_bind]
  apply wp_liveCommitted_complete handed
  rfl

theorem wp_ensureFinalizer_held {Q : Except Err SwiftMigration → World → Prop}
    (after : ∀ mig' w', Orphaned mig' guest w' → mig'.deleting = mig.deleting → mig'.finalizer = true → Q (.ok mig') w') :
    wp undisturbed .plain p (ensureFinalizer mig) Q w := by
  unfold ensureFinalizer
  split
  · next present => exact after mig w handed rfl present
  · apply wp_present (fun _ => rfl) handed.migration
    intro _
    have remains : World.remaining (World.withFinalizer mig true) = some (World.withFinalizer mig true) := by
      simp [World.remaining, World.withFinalizer]
    rw [remains]
    exact after _ _ ⟨⟨rfl, handed.phase, handed.mode, handed.guest, handed.gone⟩, handed.pre, handed.complete⟩ rfl rfl

theorem wp_honorCancel_held {Q : Except Err (Option SwiftMigration) → World → Prop}
    (after : ∀ mig' w', Orphaned mig' guest w' → mig'.deleting = mig.deleting → mig'.finalizer = mig.finalizer →
      Q (.ok (some mig')) w') : wp undisturbed .plain p (honorCancel mig) Q w := by
  unfold honorCancel
  split
  · exact after mig w handed rfl rfl
  rw [wp_bind]
  apply wp_liveCommitted_complete handed
  show wp undisturbed .plain p (markCancelIgnored mig >>= _) Q w
  rw [wp_bind]
  unfold markCancelIgnored
  split
  · exact after mig w handed rfl rfl
  · apply wp_present (fun _ => rfl) handed.migration
    intro c
    refine after _ _ ⟨⟨rfl, ?_, ?_, handed.guest, handed.gone⟩, ?_, ?_⟩ rfl rfl
    all_goals simp only [World.withStatus, SwiftMigrationStatus.merge_self]
    · exact handed.phase
    · exact handed.mode
    · exact handed.pre
    · exact handed.complete

theorem wp_proceed_held :
    wp undisturbed .plain p (proceed mtls mig) (fun _ w' => Stuck mig.deleting guest w') w := by
  unfold proceed
  rw [if_neg (by simp [handed.phase, isTerminalPhase]), wp_bind]
  apply wp_ensureFinalizer_held handed
  intro mig1 w1 handed1 deleting1 finalizer1
  rw [onOk_ok, wp_bind]
  apply wp_honorCancel_held handed1
  intro mig2 w2 handed2 deleting2 finalizer2
  apply wp_dispatchPhase_stranded handed2.toStranded
  intro message reason
  refine wp_mono ?_ (wp_failMigration_held handed2 (by exact handed2.mode) message reason)
  rintro _ _ rfl
  exact ⟨mig2, handed2, deleting2.trans deleting1, fun _ => finalizer2.trans finalizer1⟩

omit handed in
theorem wp_reconcile_held {deleting : Bool} (stuck : Stuck deleting guest w) :
    wp undisturbed .plain p (reconcile mtls) (fun _ w' => Stuck deleting guest w') w := by
  obtain ⟨mig, handed, rfl, finalized⟩ := stuck
  apply wp_reconcile_calm handed.toStranded
  · intro _
    exact wp_proceed_held handed
  · intro deleting
    unfold finishCutoverBeforeDeletion
    rw [wp_bind, if_neg (by simp [finalized deleting, handed.phase, isTerminalPhase, handed.mode])]
    apply wp_liveCommitted_complete handed
    exact wp_proceed_held handed

omit handed in
theorem passes_held {deleting : Bool} {n : Nat} {w' : World} (passes : Passes mtls n w w')
    (stuck : Stuck deleting guest w) : Stuck deleting guest w' := by
  induction passes with
  | none w => exact stuck
  | pass run rest ih => exact ih (run_plain run (wp_reconcile_held stuck))

omit handed in
theorem Stuck.not_ended (stuck : Stuck mig.deleting guest w) : ¬ Ended mig w := by
  obtain ⟨left, handed, deleting, finalized⟩ := stuck
  intro ended
  unfold Ended at ended
  split at ended
  · next gone =>
    have absent := ended left handed.migration
    rw [finalized (deleting.trans gone)] at absent
    cases absent
  · obtain ⟨left', there, terminal⟩ := ended
    cases handed.migration.symm.trans there
    simp [handed.phase, isTerminalPhase] at terminal

end Orphaned

/-- Once a live migration in `StopAndCopy` has lost its destination pod, a few undisturbed passes end it, unless the
source reports the hand-over, the guest has not been pointed at the destination, and nobody lets the object go. -/
theorem stranded_migration_ends (mtls : Bool) {w : World} {mig : SwiftMigration} {guest : SwiftGuest}
    (stranded : Stranded mig guest w) :
    (∃ n, (∃ w', Passes mtls n w w') ∧ ∀ w', Passes mtls n w w' → Ended mig w') ↔
      isPostCutover mig = true ∨ srcReportedComplete mig (w.pods (srcPodLookupName mig guest)) = false ∨
        mig.deleting = true ∧ mig.finalizer = false := by
  constructor
  · rintro ⟨n, ⟨w', passes⟩, ends⟩
    by_contra closed
    simp only [not_or, not_and, Bool.not_eq_true, Bool.not_eq_false] at closed
    obtain ⟨pre, complete, finalized⟩ := closed
    have stuck : Stuck mig.deleting guest w := ⟨mig, ⟨stranded, pre, complete⟩, rfl, finalized⟩
    exact (passes_held passes stuck).not_ended (ends w' passes)
  intro open_
  by_cases released : mig.deleting = true ∧ mig.finalizer = false
  · refine ⟨0, passes_total mtls 0 w, ?_⟩
    rintro w' ⟨⟩
    simp only [Ended, released.1, if_true]
    intro left there
    cases stranded.migration.symm.trans there
    exact released.2
  replace open_ : isPostCutover mig = true ∨ srcReportedComplete mig (w.pods (srcPodLookupName mig guest)) = false :=
    open_.imp_right fun rest => rest.resolve_right released
  cases post : isPostCutover mig with
  | false =>
    have retained : Retained mig guest w := ⟨post, open_.resolve_left (by simp [post])⟩
    refine ⟨1, passes_total mtls 1 w, fun w' => ended_of_one ?_⟩
    cases deleting : mig.deleting with
    | false => exact wp_reconcile_kept stranded (.inr retained) deleting
    | true => exact wp_reconcile_deleted stranded retained deleting
  | true =>
    cases deleting : mig.deleting with
    | false => exact ⟨1, passes_total mtls 1 w, fun w' => ended_of_one (wp_reconcile_kept stranded (.inl post) deleting)⟩
    | true =>
      have finalizer : mig.finalizer = true := by simpa [deleting] using released
      refine ⟨2, passes_total mtls 2 w, fun w' => ended_of_two ?_ deleting⟩
      exact wp_reconcile_committed stranded post deleting finalizer

/-! ## A source that reports the hand-over -/

def World.alterPod (w : World) (name : String) (f : Pod → Option Pod) : World :=
  w.setPod name ((w.pods name).bind f)

theorem between_alterPod (w : World) (name : String) (f : Pod → Option Pod) : Between w (w.alterPod name f) where
  migration mig here := ⟨mig, here, rfl⟩
  pods mig dst _ _ absent := by
    rw [World.alterPod, World.setPod_pods]
    split
    · next same => rw [← same, absent, Option.bind_none]
    · exact absent
  podRef mig dst guest _ _ there points := ⟨guest, there, points⟩

inductive LiveEvent
  | ready (name : String) | report (name : String) (status : Report) (id : ActionID) | lose (name : String)
  | replace (name uid : String) | delete | cancel

def LiveEvent.apply : LiveEvent → World → World
  | .ready name, w => w.alterPod name fun pod =>
    some { pod with phase := .running, ready := true, podIP := "10.0.0.2" }
  | .report name status id, w => w.alterPod name fun pod => some { pod with status, statusID := id }
  | .lose name, w => w.alterPod name fun _ => none
  | .replace name uid, w => w.alterPod name fun _ => some { (default : Pod) with uid }
  | .delete, w => w.setMigration (w.migration.map fun mig => { mig with deleting := true })
  | .cancel, w => w.setMigration (w.migration.map fun mig => { mig with cancelRequested := true })

theorem LiveEvent.between (event : LiveEvent) (w : World) : Between w (event.apply w) := by
  cases event with
  | ready name | report name status id | lose name | replace name uid => exact between_alterPod w name _
  | delete | cancel =>
    refine ⟨?_, fun _ _ _ _ absent => absent, fun _ _ guest _ _ there points => ⟨guest, there, points⟩⟩
    intro mig here
    obtain ⟨old, was, rfl⟩ := Option.map_eq_some_iff.mp here
    exact ⟨old, was, rfl⟩

def liveScript : Script Unit Choice Watched Op Op.Res Err Bool LiveEvent where
  engine := watchedEngine
  calls := reconcile
  event event w := { w with cluster := event.apply w.cluster }
  check _ _ _ _ := true
  pids := [()]

def runningGuest : World where
  migration := some { (default : SwiftMigration) with
    name := "m", uid := "abcdef", guestRef := "vm", target := "b", specMode := .live }
  guest := some { (default : SwiftGuest) with
    uid := "uid-vm", migrationEnabled := true, podRef := some ⟨"vm", "uid-src"⟩ }
  pods := Function.update (fun _ => none) "vm"
    (some { (default : Pod) with uid := "uid-src", controller := some ⟨"vm", "uid-vm"⟩ })
  profiles _ := none
  gpus := ⟨fun _ => []⟩

def livePass (ops : Nat) : List (LoopMove Unit Choice Bool LiveEvent) :=
  .start () false :: List.replicate ops (.op () {}) ++ [.finish ()]

def transfer : List (LoopMove Unit Choice Bool LiveEvent) :=
  livePass 3 ++ livePass 11 ++ livePass 12 ++ [.quiet (.ready "vm-mig-abcdef")] ++ livePass 9 ++
    livePass 8 ++ [.quiet (.report "vm-mig-abcdef" .receiveReady (.recv "m" 1))] ++ livePass 7

theorem liveScript_fits : liveScript.Fits surroundings (V := fun _ => False) (Q := fun _ => True) where
  offers _ mtls _ := ⟨mtls, rfl⟩
  quiet event w _ := ⟨event.between w.cluster, rfl, rfl⟩

theorem runningGuest_created : Created runningGuest where
  named := by
    intro mig here
    cases here
    decide
  fresh := by
    intro mig here
    cases here
    decide
  absent := by
    intro mig name here isDst
    cases here
    have dst : name = "vm-mig-abcdef" := Except.ok.inj (isDst.symm.trans (by decide))
    subst dst
    refine ⟨by decide, ?_⟩
    intro guest there
    cases there
    decide

private def Lost (complete : Bool) (w : World) (mig : SwiftMigration) (guest : SwiftGuest) : Prop :=
  mig.status.phase = .stopAndCopy ∧ mig.status.mode = .live ∧ IsDst mig "vm-mig-abcdef" ∧
    w.pods "vm-mig-abcdef" = none ∧ (guest.podRef.map fun ref => ref.name) = mig.status.sourcePodRef ∧
    isPostCutover mig = false ∧ mig.finalizer = true ∧ mig.cancelRequested = false ∧ mig.deleting = false ∧
    srcReportedComplete mig (w.pods (srcPodLookupName mig guest)) = complete

private instance (complete : Bool) (w : World) (mig : SwiftMigration) (guest : SwiftGuest) :
    Decidable (Lost complete w mig guest) := by
  unfold Lost
  infer_instance

private theorem stranded_of_lost (complete : Bool) (reached : ∃ s, LoopsReach watched surroundings ⟨runningGuest, false, false⟩ s ∧
      ∃ mig ∈ s.world.cluster.migration, ∃ guest ∈ s.world.cluster.guest, Lost complete s.world.cluster mig guest) :
    ∃ s mig guest, LoopsReach watched surroundings ⟨runningGuest, false, false⟩ s ∧
      Stranded mig guest s.world.cluster ∧ Lost complete s.world.cluster mig guest := by
  obtain ⟨s, reach, mig, here, guest, there, holds⟩ := reached
  refine ⟨s, mig, guest, reach, ⟨here, holds.1, holds.2.1, there, ?_⟩, holds⟩
  intro name named
  obtain ⟨-, -, dst, gone, -⟩ := holds
  have same : name = "vm-mig-abcdef" := Except.ok.inj (named.symm.trans dst)
  rw [same, gone]

theorem stranded_migration_ends_during_transfer :
    ∃ s mig guest, LoopsReach watched surroundings ⟨runningGuest, false, false⟩ s ∧
      Stranded mig guest s.world.cluster ∧
      ∃ n, (∃ w', Passes false n s.world.cluster w') ∧ ∀ w', Passes false n s.world.cluster w' → Ended mig w' := by
  obtain ⟨s, mig, guest, reach, stranded, holds⟩ := stranded_of_lost false
    (exists_of_play liveScript_fits (transfer ++ [.quiet (.lose "vm-mig-abcdef")]) (by decide))
  obtain ⟨-, -, -, -, -, -, -, -, -, unreported⟩ := holds
  exact ⟨s, mig, guest, reach, stranded, (stranded_migration_ends false stranded).mpr (.inr (.inl unreported))⟩

/-- The source reports the hand-over and then the destination is lost: no number of passes ends it. -/
theorem handed_over_migration_never_ends :
    ∃ w s mig guest, Created w ∧ LoopsReach watched surroundings ⟨w, false, false⟩ s ∧
      Stranded mig guest s.world.cluster ∧ (guest.podRef.map fun ref => ref.name) = mig.status.sourcePodRef ∧
      ∀ mtls n w', Passes mtls n s.world.cluster w' → ¬ Ended mig w' := by
  obtain ⟨s, mig, guest, reach, stranded, holds⟩ := stranded_of_lost true (exists_of_play liveScript_fits
    (transfer ++ [.quiet (.report "vm" .complete (.send "m" 1)), .quiet (.lose "vm-mig-abcdef")]) (by decide))
  obtain ⟨-, -, -, -, points, pre, finalizer, -, -, complete⟩ := holds
  refine ⟨runningGuest, s, mig, guest, runningGuest_created, reach, stranded, points, ?_⟩
  intro mtls n w' passes
  exact (passes_held passes ⟨mig, ⟨stranded, pre, complete⟩, rfl, fun _ => finalizer⟩).not_ended

end KubeSwift.Migration
