import KubeSwift.Migration.Offline

/-! # A pass over an offline migration

Whatever the calls answer, a pass writes what `Guard` allows, and it leaves a reservation exposed only after a
failed call. -/

namespace KubeSwift.Migration
open Program Prog

section Cleanup

variable {mig : SwiftMigration} {know : Core → Prop} {owned : Prop} {w : Traced}

abbrev Unmarked (mig : SwiftMigration) : Traced → Prop := On mig (fun core => core.inProgress ≠ mig.name) False

theorem minds_releaseTargetReservation {guest : SwiftGuest} (unmarked : guest.inProgress ≠ mig.name) :
    Minds (Amid mig (· = guest.core) False) (releaseTargetReservation mig guest) fun _ => Unmarked mig := by
  have known : ∀ core, core = guest.core → core.inProgress ≠ mig.name := by
    intro core same
    rw [same]
    exact unmarked
  intro w _ amid
  unfold releaseTargetReservation
  split
  · next here =>
    refine ⟨amid.weaken known id, amid.sheltered ?_⟩
    intro g there
    exact .inr (.inr ((SwiftGuest.gpusOn_core (amid.guest g there) _).mpr here))
  · next away =>
    rw [wp_bind, wp_attempt]
    refine wp_mono ?_ (wp_releaseFromNodeFor amid ?_)
    · intro r w' released
      cases r with
      | ok _ =>
        have none := released.none amid.offline.placed
        exact ⟨released.amid.weaken known id, none.sheltered released.amid⟩
      | error e =>
        have on : On mig (· = guest.core) False w' := released
        rcases e with _ | _ | _ | _ | e | _
        case gpu =>
          cases e
          case notFound => exact on.weaken known id
          all_goals exact on.covered
        all_goals exact on.covered
    · intro w' m st amid' there version
      refine .release version.target.symm ?_
      intro g present
      have same := amid'.guest g present
      rw [version.target, version.name]
      exact ⟨fun on => away ((SwiftGuest.gpusOn_core same _).mp on), known _ same⟩

theorem minds_cleanupSourceGuest (restore : Bool)
    (keeps : restore = false → ∀ core, know core → core.inProgress = mig.name → core.nodeName = mig.target)
    (restores : restore = true → mig.status.phase = .stopAndCopy → ∀ core, know core → core.inProgress = mig.name →
      owned) : Minds (On mig know owned) (cleanupSourceGuest mig restore) fun _ => Unmarked mig := by
  refine results_bind minds_readGuest fun found => ?_
  cases found with
  | none => exact results_pure fun w on => on.weaken (fun _ => False.elim) False.elim
  | some guest =>
    refine leaves_known fun knows w _ on => ?_
    show wp traced offlineSpec () (if guest.inProgress ≠ mig.name then _ else _) _ w
    by_cases own : guest.inProgress = mig.name
    · rw [if_neg (by simpa using own), wp_bind, wp_lookup]
      refine wp_patchGuest on.toAmid rfl rfl ?_ ?_ ?_ ?_
      · intro m there version
        cases restore with
        | false =>
          refine .keep (own.trans version.name.symm) ?_
          rw [version.target]
          exact keeps rfl guest.core knows own
        | true =>
          simp only [true_and]
          refine .restore (own.trans version.name.symm) ?_
          rw [version.status]
          exact fun copying => on.owned (restores rfl copying guest.core knows own)
      · intro guest' w2 core amid2 pinned
        have unmarked : guest'.inProgress ≠ mig.name := by
          have empty : guest'.inProgress = "" := congrArg Core.inProgress core
          rw [empty]
          exact amid2.offline.named.symm
        rw [← core] at amid2
        show wp traced offlineSpec () (if (restore && guest'.hasVFIODevices) = true then _ else _) _ w2
        split
        · exact minds_releaseTargetReservation unmarked w2 amid2.inv amid2
        · next kept =>
          refine ⟨amid2.weaken (fun core same => same ▸ unmarked) id, ?_⟩
          cases restore with
          | false => exact pinned (keeps rfl guest.core knows own)
          | true =>
            refine amid2.sheltered fun g there => .inr (.inl ?_)
            have vfio : g.hasVFIODevices = guest'.hasVFIODevices := congrArg Core.vfio (amid2.guest g there)
            rw [vfio]
            simpa using kept
      · intro w2 on2
        exact on2.weaken (fun _ => False.elim) id
      · intro fault w2 on2
        exact onFound_fault (Q := onOk _ _) fault fun e => on2.covered
    · rw [if_pos own]
      exact on.weaken (fun core same => same ▸ own) False.elim

variable {s : SwiftMigrationStatus}

theorem minds_onTerminalPhase (offline : Offline mig) (phase : s.phase = .failed)
    (mode : s.mode ≠ .live) (node : s.destinationNode = "" ∨ s.destinationNode = mig.target)
    (failable : mig.status.phase = .stopAndCopy → s.destinationNode = mig.target ∧
      ∀ core, know core → core.inProgress = mig.name → core.nodeName = mig.target ∨ owned) :
    Minds (On mig know owned) (onTerminalPhase mig s) fun _ => Unmarked mig := by
  unfold onTerminalPhase
  rw [if_neg (by simpa using phase), if_neg mode]
  refine results_bind minds_readGuest fun found => ?_
  cases found with
  | none => exact results_pure fun w on => on.weaken (fun _ => False.elim) False.elim
  | some guest =>
    refine leaves_known fun knows => ?_
    show Minds _ (undoFailed mig s _) _
    generalize cut : (decide (guest.nodeName = s.destinationNode) && decide (s.destinationNode ≠ "")) = post
    refine results_bind (minds_cleanupSourceGuest (!post) ?_ ?_) fun _ => ?_
    · intro isOver core same _
      rw [Bool.not_eq_false'] at isOver
      rw [isOver, Bool.and_eq_true, decide_eq_true_eq, decide_eq_true_eq] at cut
      rw [same]
      exact cut.1.trans (node.resolve_left cut.2)
    · intro back copying core same own
      obtain ⟨moving, known⟩ := failable copying
      refine (known guest.core knows (same ▸ own)).resolve_left fun started => ?_
      rw [Bool.not_eq_true'] at back
      have here : guest.nodeName = s.destinationNode := Eq.trans started moving.symm
      have named : s.destinationNode ≠ "" := by
        rw [moving]
        exact offline.placed
      simp [here, named, back] at cut
    · rw [if_neg (fun live => mode live.2)]
      exact results_pure fun _ cleaned => cleaned

end Cleanup

section Dispatch

variable {mig : SwiftMigration} {know : Core → Prop} {owned : Prop}

structure Dispatchable (mig : SwiftMigration) (know : Core → Prop) (owned : Prop) (h : Handled) : Prop where
  status : OfflineStatus mig h.2
  fails : ∀ message reason, h.1 = .failure message reason → h.2.phase = mig.status.phase ∧
    (mig.status.phase = .stopAndCopy → ∀ core, know core → core.inProgress = mig.name →
      core.nodeName = mig.target ∨ owned)
  goes : (∀ message reason, h.1 ≠ .failure message reason) → ∀ w, On mig know owned w → StatusWrite mig w.cluster h.2

def HandedOn (mig : SwiftMigration) (h : Handled) (w : Traced) : Prop :=
  ∃ know owned, Dispatchable mig know owned h ∧ On mig know owned w

theorem not_live (offline : Offline mig) (mode : s.mode ≠ .live) : isLiveMode mig s = false := by
  simp [isLiveMode, mode, offline.mode]

theorem plain_still (mig : SwiftMigration) : Plain mig Still where
  getGuest := trivial
  getProfile _ := trivial
  clock _ := trivial
  check _ := trivial
  ensure _ := trivial
  patchPod _ _ _ _ := trivial

variable (running : isTerminalPhase mig.status.phase = false)
include running

theorem minds_failMigration {message : String} {reason : FailureReason} (offline : Offline mig) (status : OfflineStatus mig s)
    (phase : s.phase = mig.status.phase)
    (failable : mig.status.phase = .stopAndCopy → ∀ core, know core → core.inProgress = mig.name →
      core.nodeName = mig.target ∨ owned) :
    Minds (On mig know owned) (failMigration mig s message reason) fun _ => Sheltered := by
  unfold failMigration resolveBeforeFailing
  rw [if_pos (by simp [not_live offline status.mode])]
  have cancels : (clearLauncherCancel mig).Yields Still Heeds (fun _ => True) :=
    yields_clearLauncherCancel (plain_still mig) fun _ _ => trivial
  show Minds _ (recordFailure mig ⟨.noSend, .none, ""⟩ (failedStatus s message reason)) _
  refine minds_still cancels fun _ _ => results_bind (minds_onTerminalPhase offline rfl status.mode status.node ?_) fun _ => ?_
  · intro copying
    exact ⟨status.moving (.inr (.inl (phase.trans copying))), failable copying⟩
  · refine leaves_pre (fun w on => ⟨on, .fail running rfl on.guest⟩) (minds_persist ⟨status.mode, status.node, ?_⟩)
    intro moving
    rcases moving with phase | phase | phase <;> cases phase

theorem minds_dispatchResult {h : Handled} (offline : Offline mig)
    (result : Dispatchable mig know owned h) : Minds (On mig know owned) (dispatchResult mig h) fun _ => Sheltered := by
  obtain ⟨outcome, s⟩ := h
  cases outcome with
  | failure message reason =>
    obtain ⟨phase, failable⟩ := result.fails message reason rfl
    exact minds_failMigration running offline result.status phase failable
  | advance | requeue => exact leaves_pre (fun w on => ⟨on, result.goes nofun w on⟩) (minds_persist result.status)

theorem minds_handled {handler : Act Handled} (offline : Offline mig)
    (handles : Minds (On mig know owned) handler (HandedOn mig)) :
    Minds (On mig know owned) (handler >>= dispatchResult mig) fun _ => Sheltered :=
  results_bind handles fun _ w inv ⟨_, _, result, on⟩ => minds_dispatchResult running offline result w inv on

omit running

structure Stepped (mig : SwiftMigration) (goal : Phase) (h : Handled) : Prop where
  status : OfflineStatus mig h.2
  phase : h.2.phase = mig.status.phase ∨ (h.2.phase = goal ∧ h.1 = .advance)

theorem minds_stepped {goal : Phase} {handler : Act Handled} (yields : handler.Yields Still Heeds (Stepped mig goal))
    (failable : mig.status.phase = .stopAndCopy → ∀ core, know core → core.inProgress = mig.name →
      core.nodeName = mig.target ∨ owned)
    (goes : ∀ s w, On mig know owned w → s.phase = goal → StatusWrite mig w.cluster s) :
    Minds (On mig know owned) handler (HandedOn mig) := by
  refine results_mono (leaves_still yields) (fun h _ ⟨stepped, on⟩ => ⟨know, owned, ⟨stepped.status, ?_, ?_⟩, on⟩)
    fun _ on => on.covered
  · intro message reason failed
    refine ⟨stepped.phase.resolve_right fun next => ?_, failable⟩
    rw [next.2] at failed
    cases failed
  · intro _ w on
    rcases stepped.phase with same | next
    · exact .same same
    · exact goes h.2 w on next.1

end Dispatch

/-! ## The handlers -/

section Handlers

variable {mig : SwiftMigration} {know : Core → Prop} {owned : Prop} {w : Traced} {s : SwiftMigrationStatus} {goal : Phase}

variable (here : OfflineStatus mig s)
include here

theorem stepped_runChecks {passed : SwiftMigrationStatus → Act Handled} {checks : List Check} (phase : s.phase = mig.status.phase)
    (passes : (passed s).Yields Still Heeds (Stepped mig goal)) :
    (runChecks s passed checks).Yields Still Heeds (Stepped mig goal) :=
  yields_runChecks (plain_still mig) (fun _ _ => ⟨here, .inl phase⟩)
    (fun _ _ _ _ => ⟨{ here with }, .inl phase⟩) passes

theorem stepped_validatingOffline (phase : s.phase = mig.status.phase) :
    (handleValidatingOffline mig s).Yields Still Heeds (Stepped mig .preparing) := by
  refine yields_withGuest (show Still .getGuest from trivial) ⟨here, .inl phase⟩ fun guest _ => ?_
  refine yields_unless ⟨here, .inl phase⟩ fun _ => ?_
  have fits : ∀ {s' : SwiftMigrationStatus}, s'.mode = .offline → s'.destinationNode = mig.target → OfflineStatus mig s' := by
    intro s' mode node
    refine ⟨?_, .inr node, fun _ => node⟩
    rw [mode]
    nofun
  exact stepped_runChecks (fits rfl rfl) phase ⟨fits rfl rfl, .inr ⟨rfl, rfl⟩⟩

theorem stepped_validating (mtls : Bool) (offline : Offline mig) (phase : s.phase = mig.status.phase) :
    (handleValidating mtls mig s).Yields Still Heeds (Stepped mig .preparing) := by
  have goes : ∀ s', OfflineStatus mig s' → s'.phase = mig.status.phase →
      (handleValidatingMode mtls mig s').Yields Still Heeds (Stepped mig .preparing) := by
    intro s' here' phase'
    unfold handleValidatingMode
    rw [if_neg (by simp [not_live offline here'.mode])]
    exact stepped_validatingOffline here' phase'
  have auto : resolveAutoMode.Yields Still Heeds (fun mode => mode ≠ some .live) := by
    refine yields_withGuest (show Still .getGuest from trivial) nofun fun guest _ => ?_
    refine yields_unless nofun fun _ => ?_
    refine yields_seq (yields_call trivial fun _ answer => answer) fun verdict answer => ?_
    cases verdict with
    | pass => exact absurd rfl answer
    | fail | wait => exact nofun
  refine stepped_runChecks here phase ?_
  apply yields_ite
  · intro _
    refine yields_seq auto fun mode notLive => ?_
    cases mode with
    | none => exact ⟨here, .inl phase⟩
    | some mode => exact goes _ ⟨fun live => notLive (congrArg some live), here.node, here.moving⟩ phase
  · intro _
    exact goes s here phase

theorem stepped_stopSourcePod (guest : SwiftGuest) (phase : s.phase = mig.status.phase)
    (preparing : mig.status.phase = .preparing) :
    (stopSourcePod mig guest s).Yields Still Heeds (Stepped mig .stopAndCopy) := by
  refine yields_then (yields_readPod trivial fun _ => trivial) fun pod => ?_
  cases pod with
  | none =>
    have node := here.moving (.inl (phase.trans preparing))
    exact stepped_runChecks here phase ⟨⟨here.mode, .inr node, fun _ => node⟩, .inr ⟨rfl, rfl⟩⟩
  | some pod =>
    have waits : Stepped mig .stopAndCopy (.requeue, { s with phaseDetail := "waiting for source pod termination" }) :=
      ⟨{ here with }, .inl phase⟩
    dsimp only
    split
    · exact yields_then (yields_ignoreNotFound (yields_call trivial fun _ _ => trivial)) fun _ => waits
    · exact waits

omit here

variable {guest : SwiftGuest}

theorem yields_resolveGPUProfile : (resolveGPUProfile mig guest).Yields Still Heeds fun _ => True := by
  unfold resolveGPUProfile
  split
  · trivial
  · exact yields_call trivial fun _ _ => trivial

variable (preparing : mig.status.phase = .preparing)
include preparing

theorem minds_reserveTargetGPUs (vfio : guest.hasVFIODevices = true) :
    Minds (On mig (· = guest.core) owned) (reserveTargetGPUs mig guest)
      (Results (fun _ => Amid mig (· = guest.core) False) (On mig (· = guest.core) False)) := by
  refine leaves_attempt (leaves_still yields_resolveGPUProfile) fun resolved => ?_
  cases resolved with
  | error e => exact results_pure fun _ on => on.weaken (fun _ => id) False.elim
  | ok profile =>
    intro w _ on
    rw [wp_bind, wp_attempt]
    refine wp_mono ?_ (wp_reserveOnNode on.2 profile (.inl preparing) fun core same => same ▸ vfio)
    rintro (e | al) w' reserved
    · exact reserved
    · exact reserved.1

theorem minds_claimGuest (unmarked : guest.inProgress = "" ∨ guest.inProgress = mig.name) :
    Minds (Amid mig (· = guest.core) False) (claimGuest mig guest) fun _ =>
      On mig (fun core => core.inProgress = mig.name) False := by
  have marked : ∀ {know w'}, Amid mig know False w' → (∀ core, know core → core.inProgress = mig.name) →
      On mig (fun core => core.inProgress = mig.name) False w' := by
    intro know w' amid' own
    exact ⟨amid'.weaken own id, amid'.sheltered fun g there => .inl (own _ (amid'.guest g there))⟩
  intro w _ amid
  unfold claimGuest
  split
  · next free =>
    refine wp_patchGuest amid rfl rfl ?_ ?_ (fun _ on => on.covered) fun _ _ on => on.covered
    · intro m there version
      rw [← version.name]
      exact .claim (by rw [version.status]; exact preparing) free
    · intro guest' w' core amid' _
      exact marked amid' fun core same => same ▸ rfl
  · next taken => exact marked amid fun core same => same ▸ unmarked.resolve_left taken

theorem minds_handlePreparing (mtls : Bool) (offline : Offline mig) (here : OfflineStatus mig s)
    (phase : s.phase = mig.status.phase) :
    Minds (On mig know owned) (handlePreparing mtls mig s) (HandedOn mig) := by
  have still : ∀ {outcome : Outcome} {know owned}, Minds (On mig know owned) (pure (outcome, s)) (HandedOn mig) := by
    intro outcome know owned
    refine results_pure fun w' on' => ⟨know, owned, ⟨here, ?_, ?_⟩, on'⟩
    · intro _ _ _
      refine ⟨phase, fun copying => ?_⟩
      cases preparing.symm.trans copying
    · intro _ _ _
      exact .same phase
  unfold handlePreparing
  rw [if_neg (by simp [not_live offline here.mode])]
  refine results_bind minds_readGuest fun found => ?_
  cases found with
  | none => exact still
  | some guest =>
    refine leaves_known fun _ => ?_
    show Minds _ (if guest.inProgress ≠ "" ∧ guest.inProgress ≠ mig.name then _ else _) _
    split
    · exact still
    next free =>
    have unmarked : guest.inProgress = "" ∨ guest.inProgress = mig.name := by
      by_contra neither
      exact free ⟨fun empty => neither (.inl empty), fun own => neither (.inr own)⟩
    have reserves : Minds (On mig (· = guest.core) owned)
        (if guest.hasVFIODevices then reserveTargetGPUs mig guest else pure (.ok ()))
        (Results (fun _ => Amid mig (· = guest.core) False) (On mig (· = guest.core) False)) := by
      split
      · next vfio => exact minds_reserveTargetGPUs preparing vfio
      · exact results_pure fun _ on => on.toAmid.weaken (fun _ => id) False.elim
    refine results_bind reserves fun reserved => ?_
    cases reserved with
    | error e => exact still
    | ok _ =>
      refine results_bind (minds_claimGuest preparing unmarked) fun guest' => ?_
      refine minds_stepped (stepped_stopSourcePod here guest' phase preparing) ?_ ?_
      · intro copying
        cases preparing.symm.trans copying
      · intro s' _ _ next
        exact .copy preparing next

omit preparing

theorem SwiftGuest.gpusOn_gpuNode (named : gpuNode guest ≠ "") : guest.gpusOn (gpuNode guest) := by
  unfold gpuNode SwiftGuest.gpusOn at *
  cases gpu : guest.gpu with
  | none => simp [gpu] at named
  | some gpu => rfl

theorem SwiftGuest.mergeStatus_core {base : SwiftGuest} (same : guest.core = base.core) (gpu : Option GPUStatus) :
    (guest.mergeStatus base { base with gpu }).core = { base with gpu }.core := by
  have kept : (guest.mergeStatus base { base with gpu }).hasVFIODevices = guest.hasVFIODevices := rfl
  rw [core, kept, core, Core.mk.injEq]
  refine ⟨congrArg Core.inProgress same, congrArg Core.runPolicy same, congrArg Core.nodeName same, ?_, ?_⟩
  · exact patched_base (congrArg Core.gpu same)
  · exact congrArg Core.vfio same

theorem Amid.marked (amid : Amid mig know owned w) (own : ∀ core, know core → core.inProgress = mig.name) :
    On mig know owned w :=
  ⟨amid, amid.sheltered fun g there => .inl (own _ (amid.guest g there))⟩

variable (copying : mig.status.phase = .stopAndCopy)
include copying

theorem minds_stamp {gpu : GPUStatus} (own : guest.inProgress = mig.name) :
    Minds (fun w => On mig (· = guest.core) False w ∧ ∀ m, w.cluster.migration = some m → Version mig m →
        Stamp m w.cluster guest { guest with gpu := some gpu })
      (issue (.patchGuestStatus guest { guest with gpu := some gpu })) fun guest' w =>
        guest'.core = { guest with gpu := some gpu }.core ∧ On mig (· = guest'.core) False w := by
  rintro w - ⟨on, stamp⟩
  refine ⟨fun m there => ⟨fun g present => ⟨on.guest g present, stamp m there (on.version m there)⟩,
    fun _ => on.covered⟩, ?_⟩
  intro r w' action
  obtain ⟨c, -, after, outcome⟩ := traced_outcome action
  have moved : ∀ guest', w.cluster.perform c (.patchGuestStatus guest { guest with gpu := some gpu }) =
      .ok (w'.cluster, guest') → guest'.core = { guest with gpu := some gpu }.core ∧ On mig (· = guest'.core) False w' := by
    intro guest' did
    obtain ⟨old, present, equal⟩ := World.found_ok did
    obtain ⟨cluster, rfl⟩ := Prod.mk.inj equal
    have core := SwiftGuest.mergeStatus_core (on.guest old present) (some gpu)
    have amid' : Amid mig (· = (old.mergeStatus guest { guest with gpu := some gpu }).core) False w' := by
      refine ⟨?_, on.offline, ?_, ?_, False.elim⟩
      · rw [← cluster]
        exact on.version
      · intro resuming
        cases copying.symm.trans resuming
      · rw [← cluster]
        intro g there
        cases there
        rfl
    refine ⟨core, amid'.marked ?_⟩
    intro c same
    rw [same, core]
    exact own
  rcases outcome with ⟨guest', rfl, did⟩ | ⟨e, rfl, same | ⟨a, did⟩⟩
  · obtain ⟨core, on'⟩ := moved guest' did
    exact on'.ends fun _ on'' => ⟨core, on''⟩
  · exact (on.called after (same ▸ .refl _)).ends fun _ on'' => on''.covered
  · exact (moved a did).2.ends fun _ on'' => on''.covered

structure Bootable (mig : SwiftMigration) (guest : SwiftGuest) : Prop where
  own : guest.inProgress = mig.name
  gpus : guest.hasVFIODevices = true → guest.gpusOn mig.target

theorem minds_cutoverGPUs (own : guest.inProgress = mig.name) (vfio : guest.hasVFIODevices = true) :
    Minds (On mig (· = guest.core) owned) (cutoverGPUs mig guest) fun guest' w =>
      Bootable mig guest' ∧ On mig (· = guest'.core) False w := by
  have marked : ∀ core, core = guest.core → core.inProgress = mig.name := fun core same => same ▸ own
  unfold cutoverGPUs
  split
  · next here => exact results_pure fun w on => ⟨⟨own, fun _ => here⟩, on.weaken (fun _ => id) False.elim⟩
  next away =>
  refine minds_still yields_resolveGPUProfile fun profile _ w _ on => ?_
  rw [wp_bind]
  refine wp_mono ?_ (wp_reserveOnNode on profile (.inr copying) fun core same => same ▸ vfio)
  rintro (e | al) w2 reserved
  · exact On.covered reserved
  obtain ⟨amid2, addresses, holds, recorded⟩ := reserved
  -- the stamp, once the source holds nothing any more
  have stamps : Minds (fun w' => Amid mig (· = guest.core) False w' ∧ Holds mig w'.cluster mig.target addresses ∧
      (gpuNode guest ≠ "" → Holds mig w'.cluster (gpuNode guest) []))
      (issue (.patchGuestStatus guest { guest with gpu := some (stampedGPU mig guest al) })) fun guest' w =>
        Bootable mig guest' ∧ On mig (· = guest'.core) False w := by
    refine results_mono (leaves_pre ?_ (minds_stamp copying own)) ?_ fun _ => id
    · rintro w' ⟨amid', holds', left⟩
      refine ⟨amid'.marked marked, fun m there version => ⟨version.status ▸ copying, own.trans version.name.symm,
        version.target ▸ away, ⟨_, rfl, version.target.symm, ?_⟩, ?_⟩⟩
      · intro address member
        obtain ⟨g, chosen, rfl⟩ := List.mem_map.mp member
        rw [version.target, version.allocatedTo]
        exact (holds' ⟨m, there⟩ _).mpr (recorded g chosen)
      · intro named
        rw [version.allocatedTo]
        refine List.eq_nil_iff_forall_not_mem.mpr fun address member => ?_
        exact absurd ((left named ⟨m, there⟩ address).mp member) (by simp)
    · rintro guest' w' ⟨core, on'⟩
      refine ⟨⟨?_, fun _ => ?_⟩, on'⟩
      · exact (congrArg Core.inProgress core).trans own
      · exact (SwiftGuest.gpusOn_core core _).mpr rfl
  show wp traced offlineSpec () (if gpuNode guest ≠ "" ∧ gpuNode guest ≠ mig.target then _ else _) _ w2
  split
  · next source =>
    rw [wp_bind]
    refine wp_mono ?_ (wp_releaseFromNodeFor amid2 ?_)
    · rintro (e | _) w3 released
      · exact On.covered released
      · exact stamps w3 released.amid.inv
          ⟨released.amid, released.others mig.target addresses source.2.symm holds, released.none⟩
    · intro w' m st amid' there version
      refine .leave ?_ ?_ ?_
      · rw [version.target]
        exact source.2
      · rw [version.status]
        exact copying
      · intro g present
        have same := amid'.guest g present
        rw [version.name]
        exact ⟨marked _ same, (congrArg Core.vfio same).trans vfio,
          (SwiftGuest.gpusOn_core same _).mpr (SwiftGuest.gpusOn_gpuNode source.1)⟩
  · next same =>
    refine stamps w2 amid2.inv ⟨amid2, holds, fun named => absurd (SwiftGuest.gpusOn_gpuNode named) ?_⟩
    have target : gpuNode guest = mig.target := by
      by_contra other
      exact same ⟨named, other⟩
    rw [target]
    exact away

structure Started (mig : SwiftMigration) (core : Core) : Prop where
  own : core.inProgress = mig.name
  running : core.runPolicy = .running
  node : core.nodeName = mig.target
  gpus : core.vfio = true → (core.gpu.map fun gpu => gpu.nodeName) = some mig.target

theorem minds_startOnTarget (bootable : Bootable mig guest) :
    Minds (On mig (· = guest.core) owned) (startOnTarget mig guest) fun _ => On mig (Started mig) False := by
  intro w _ on
  unfold startOnTarget
  split
  · rw [wp_bind]
    refine wp_patchGuest on.toAmid rfl rfl ?_ ?_ (fun _ on' => on'.covered) fun _ _ on' => on'.covered
    · intro m there version
      rw [← version.target]
      refine .start (version.status ▸ copying) (bootable.own.trans version.name.symm) ?_
      rw [version.target]
      exact bootable.gpus
    · intro guest' w' core amid' pinned
      refine ⟨amid'.weaken ?_ id, pinned rfl⟩
      intro core same
      subst same
      exact ⟨bootable.own, rfl, rfl, bootable.gpus⟩
  · next started =>
    refine on.weaken ?_ False.elim
    intro core same
    subst same
    have running : guest.runPolicy = .running := by
      by_contra other
      exact started (.inl other)
    have node : guest.nodeName = mig.target := by
      by_contra other
      exact started (.inr other)
    exact ⟨bootable.own, running, node, bootable.gpus⟩

omit copying

theorem stepped_awaitScheduling (here : OfflineStatus mig s) (phase : s.phase = mig.status.phase)
    (copying : mig.status.phase = .stopAndCopy) :
    (awaitScheduling mig s).Yields Still Heeds (Stepped mig .resuming) := by
  have node := here.moving (.inr (.inl (phase.trans copying)))
  refine yields_then (yields_readPod trivial fun _ => trivial) fun pod => ?_
  cases pod with
  | none => exact ⟨{ here with }, .inl phase⟩
  | some pod =>
    dsimp only
    repeat' split
    · exact ⟨here, .inl phase⟩
    · exact ⟨{ here with }, .inl phase⟩
    · exact ⟨here, .inl phase⟩
    · exact ⟨⟨here.mode, .inr node, fun _ => node⟩, .inr ⟨rfl, rfl⟩⟩

theorem minds_handleStopAndCopy (mtls : Bool) (offline : Offline mig) (here : OfflineStatus mig s)
    (phase : s.phase = mig.status.phase) (copying : mig.status.phase = .stopAndCopy) :
    Minds (On mig know owned) (handleStopAndCopy mtls mig s) (HandedOn mig) := by
  have stays : ∀ {message reason know owned}, (∀ core, know core → core.inProgress ≠ mig.name) →
      Minds (On mig know owned) (pure (.failure message reason, s)) (HandedOn mig) := by
    intro message reason know owned unmarked
    refine results_pure fun w' on' => ⟨know, owned, ⟨here, ?_, ?_⟩, on'⟩
    · intro _ _ _
      exact ⟨phase, fun _ core known own => absurd own (unmarked core known)⟩
    · intro going
      exact absurd rfl (going _ _)
  unfold handleStopAndCopy
  rw [if_neg (by simp [not_live offline here.mode])]
  refine results_bind minds_readGuest fun found => ?_
  cases found with
  | none => exact stays fun _ => False.elim
  | some guest =>
    refine leaves_known fun _ => ?_
    show Minds _ (if guest.inProgress ≠ mig.name then _ else _) _
    split
    · next unmarked => exact stays fun core same => same ▸ unmarked
    next marked =>
    have own : guest.inProgress = mig.name := by simpa using marked
    have cuts : Minds (On mig (· = guest.core) owned)
        (if guest.hasVFIODevices then cutoverGPUs mig guest else pure guest)
        fun guest' w => Bootable mig guest' ∧ On mig (· = guest'.core) False w := by
      split
      · next vfio => exact minds_cutoverGPUs copying own vfio
      · next without =>
        exact results_pure fun w on => ⟨⟨own, fun has => absurd has without⟩, on.weaken (fun _ => id) False.elim⟩
    refine results_bind cuts fun guest' => leaves_known fun bootable => ?_
    refine results_bind (minds_startOnTarget copying bootable) fun _ => ?_
    refine minds_stepped (stepped_awaitScheduling here phase copying) ?_ ?_
    · intro _ core started _
      exact .inl started.node
    · intro s' w2 on2 next
      refine .resume copying next fun g there => ?_
      have started := on2.guest g there
      exact ⟨started.running, started.node, started.gpus⟩

theorem minds_unclaimGuest (resuming : mig.status.phase = .resuming) :
    Minds (On mig (· = guest.core) owned) (unclaimGuest mig guest) fun _ => On mig (fun _ => True) False := by
  have less : ∀ {know w'}, On mig know False w' → On mig (fun _ => True) False w' := fun on' =>
    on'.weaken (fun _ _ => trivial) id
  intro w _ on
  unfold unclaimGuest
  split
  · next own =>
    rw [wp_bind, wp_attempt]
    refine wp_patchGuest on.toAmid rfl rfl ?_ ?_ (fun _ => less) fun _ _ => less
    · intro m there version
      exact .finish (version.status ▸ resuming) (own.trans version.name.symm)
    · intro guest' w' core amid' _
      refine less ⟨amid', amid'.sheltered fun g there => ?_⟩
      by_cases vfio : g.hasVFIODevices = true
      · exact .inr (.inr (amid'.settled resuming g there vfio))
      · exact .inr (.inl (by simpa using vfio))
  · exact on.weaken (fun _ _ => trivial) False.elim

theorem minds_handleResuming (offline : Offline mig) (here : OfflineStatus mig s) (phase : s.phase = mig.status.phase)
    (resuming : mig.status.phase = .resuming) : Minds (On mig know owned) (handleResuming mig s) (HandedOn mig) := by
  have still : ∀ {h : Handled} {know owned}, OfflineStatus mig h.2 → h.2.phase = mig.status.phase →
      Minds (On mig know owned) (pure h) (HandedOn mig) := by
    intro h know owned fits same
    refine results_pure fun w' on' => ⟨know, owned, ⟨fits, ?_, ?_⟩, on'⟩
    · intro _ _ _
      refine ⟨same, fun copying => ?_⟩
      cases resuming.symm.trans copying
    · intro _ _ _
      exact .same same
  have waits : ∀ {outcome : Outcome} {detail : String} {know owned},
      Minds (On mig know owned) (pure (outcome, { s with phaseDetail := detail })) (HandedOn mig) :=
    still { here with } phase
  unfold handleResuming
  rw [if_neg (by simp [not_live offline here.mode])]
  refine results_bind minds_readGuest fun found => ?_
  cases found with
  | none => exact still here phase
  | some guest =>
    refine leaves_known fun _ => minds_still (V := fun _ => True) (yields_readPod trivial fun _ => trivial) fun pod _ => ?_
    cases pod with
    | none => exact waits
    | some dst =>
      dsimp only
      split
      · exact still here phase
      split
      · exact waits
      split
      · exact waits
      split
      · exact waits
      refine results_bind (minds_unclaimGuest resuming) fun _ => results_pure fun w on => ?_
      refine ⟨_, _, ⟨⟨here.mode, here.node, ?_⟩, ?_, ?_⟩, on⟩
      · intro moving
        rcases moving with phase | phase | phase <;> cases phase
      · intro _ _ failed
        cases failed
      · intro _ _ _
        exact .complete resuming rfl

end Handlers

section Pass

variable {mig : SwiftMigration} {know : Core → Prop} {owned : Prop} {w : Traced}

theorem minds_timeout : Minds (On mig know owned) (issue (.clock .timeout)) fun expired =>
    if expired then On mig know True else On mig know owned := by
  intro w _ on
  refine ⟨fun m _ => ⟨trivial, fun _ => on.covered⟩, ?_⟩
  intro r w' action
  have on' := (on.still (show Still (.clock .timeout) from trivial) action).1
  refine ⟨on'.inv, trivial, ?_⟩
  intro w'' later _
  have on'' := on'.rely later
  obtain ⟨c, -, after, ⟨expired, rfl, did⟩ | ⟨e, rfl, -⟩⟩ := traced_outcome action
  · cases expired with
    | false => exact on''
    | true =>
      refine ⟨⟨on''.version, on''.offline, on''.settled, on''.guest, fun _ => ?_⟩, on''.covered⟩
      have same : w'.cluster = w.cluster := (Prod.mk.inj (Except.ok.inj did)).1.symm
      refine later.1.steady.owned (fun early => later.2.1.trans early) ?_
      cases lacks : unowned w.cluster with
      | true =>
        left
        rw [after]
        simp [Traced.after, givesUp, lacks]
      | false =>
        right
        rw [same]
        exact lacks
  · exact on''.covered

theorem Offline.started (offline : Offline mig) : OfflineStatus mig { mig.status with startedAt := true } :=
  ⟨offline.status.mode, offline.status.node, offline.status.moving⟩

theorem minds_runPhase (mtls : Bool) (offline : Offline mig) :
    Minds (On mig know owned) (runPhase mtls mig { mig.status with startedAt := true }) fun _ => Sheltered := by
  have here := offline.started
  have validates : mig.status.phase = .unset ∨ mig.status.phase = .pending →
      Minds (On mig know owned) (persist mig { mig.status with
        startedAt := true, phase := .validating, phaseDetail := "validating migration request" }) fun _ => Sheltered := by
    intro before
    refine leaves_pre (fun w on => ⟨on, .validate before rfl⟩) (minds_persist ⟨here.mode, here.node, ?_⟩)
    intro moving
    rcases moving with phase | phase | phase <;> cases phase
  unfold runPhase
  split
  · next unset => exact validates (.inl unset)
  · next pending => exact validates (.inr pending)
  · next validating =>
    refine minds_handled (by rw [validating]; rfl) offline (minds_stepped (stepped_validating here mtls offline rfl) ?_ ?_)
    · intro copying
      cases validating.symm.trans copying
    · intro s' _ _ next
      exact .prepare validating next
  · next preparing =>
    exact minds_handled (by rw [preparing]; rfl) offline (minds_handlePreparing preparing mtls offline here rfl)
  · next copying =>
    exact minds_handled (by rw [copying]; rfl) offline (minds_handleStopAndCopy mtls offline here rfl copying)
  · next resuming =>
    exact minds_handled (by rw [resuming]; rfl) offline (minds_handleResuming offline here rfl resuming)
  · exact results_pure fun _ on => on.covered

theorem minds_dispatchPhase (mtls : Bool) (offline : Offline mig) (running : isTerminalPhase mig.status.phase = false) :
    Minds (On mig know owned) (dispatchPhase mtls mig) fun _ => Sheltered := by
  have expires : Minds (On mig know owned)
      (if mig.status.phase = .unset ∨ mig.status.phase = .pending ∨ isLiveMode mig { mig.status with startedAt := true } then
        pure false else issue (.clock .timeout)) fun expired => if expired then On mig know True else On mig know owned := by
    split
    · exact results_pure fun _ on => on
    · exact minds_timeout
  refine results_bind expires fun expired => ?_
  cases expired with
  | false => exact minds_runPhase mtls offline
  | true =>
    have failure : (offlineTimeoutFailure mig).Yields Still Heeds (fun outcome => outcome = timeoutFailure mig) := by
      apply yields_ite
      · intro _
        rfl
      · intro _
        exact yields_then
          (yields_attempt (yields_call trivial fun _ _ => trivial) fun _ => trivial) fun _ => rfl
    refine minds_still failure fun outcome same => ?_
    subst same
    refine minds_dispatchResult running offline ⟨offline.started, ?_, ?_⟩
    · intro _ _ _
      exact ⟨rfl, fun _ _ _ _ => .inr trivial⟩
    · intro going
      exact absurd rfl (going _ _)

theorem minds_finishTerminal (ended : isTerminalPhase mig.status.phase = true) :
    Minds (On mig know owned) (finishTerminal mig) fun _ => Sheltered := by
  have receives : (clearDestinationReceive mig).Yields Still Heeds (fun _ => True) :=
    handles_clearDestinationReceive (plain_still mig) fun _ => trivial
  have cancels : (clearLauncherCancel mig).Yields Still Heeds (fun _ => True) :=
    yields_clearLauncherCancel (plain_still mig) fun _ _ => trivial
  refine minds_still receives fun _ _ => minds_still cancels fun _ _ => ?_
  split
  · refine minds_still (V := fun _ => True) (yields_call trivial fun _ _ => trivial) fun _ _ => ?_
    exact leaves_pre (fun _ on => ⟨on, .inl ended⟩) minds_removeFinalizer
  · exact minds_retention

theorem minds_proceed (mtls : Bool) : Minds (On mig know owned) (proceed mtls mig) fun _ => Sheltered := by
  unfold proceed
  split
  · next ended => exact minds_finishTerminal ended
  · next ended =>
    refine results_bind minds_ensureFinalizer fun mig' w inv ⟨status, on⟩ => ?_
    have running : isTerminalPhase mig'.status.phase = false := by
      rw [status]
      simpa using ended
    unfold honorCancel
    rw [if_pos (by simp [on.offline.status.mode])]
    exact minds_dispatchPhase mtls on.offline running w inv on

theorem minds_deletionCommitted (offline : Offline mig) :
    Minds (On mig know owned) (deletionCommitted mig) fun committed w => ∃ know',
      (committed = true → ∀ core, know' core → core.nodeName = mig.target) ∧ On mig know' owned w := by
  unfold deletionCommitted
  rw [if_neg offline.status.mode]
  split
  · exact results_pure fun _ on => ⟨know, nofun, on⟩
  · next placed =>
    refine results_bind minds_readGuest fun found => ?_
    cases found with
    | none => exact results_pure fun _ on => ⟨_, nofun, on⟩
    | some guest =>
      refine results_pure fun _ on => ⟨_, ?_, on.2⟩
      intro started core same
      rw [decide_eq_true_eq] at started
      rw [same]
      exact Eq.trans started (offline.status.node.resolve_left placed)

theorem minds_handleCancellation (offline : Offline mig) :
    Minds (On mig know True) (handleCancellation mig) fun _ => Sheltered := by
  unfold handleCancellation
  split
  · exact results_pure fun _ on => on.covered
  · refine results_bind (minds_deletionCommitted offline) fun committed w inv ⟨know', moved, on⟩ => ?_
    rw [if_neg fun live => offline.status.mode live.2.1]
    refine results_bind (minds_cleanupSourceGuest (!committed) ?_ fun _ _ _ _ _ => trivial) (fun _ => ?_) w inv on
    · intro isOver core known _
      exact moved (by simpa using isOver) core known
    · rw [if_neg fun live => offline.status.mode live.2.1]
      refine minds_still (V := fun _ => True) (yields_call trivial fun _ _ => trivial) fun _ _ => ?_
      exact leaves_pre (fun _ on => ⟨on, .inr on.guest⟩) minds_removeFinalizer

theorem minds_reconcile (mtls : Bool) : Minds Sheltered (reconcile mtls) fun _ => Sheltered := by
  intro w inv sheltered
  rw [reconcile, wp_bind, wp_lookup, wp_call]
  refine ⟨fun m _ => ⟨trivial, fun _ => sheltered⟩, ?_⟩
  intro r w1 action
  obtain ⟨c, -, done, after⟩ := traced_cases action
  obtain ⟨same, found⟩ := World.exec_read (show w.cluster.perform c .getMigration =
    World.found w.cluster.migration fun mig => (w.cluster, mig) from rfl) done
  have inv1 : offlineSpec.inv w1 := by
    intro m there
    rw [same] at there ⊢
    exact inv m there
  have sheltered1 : Sheltered w1 :=
    Steady.covered (Around.steady (same ▸ .refl _)) (after_hurt after) sheltered
  refine ⟨inv1, trivial, ?_⟩
  intro w2 later inv2
  have sheltered2 := sheltered_rely sheltered1 later
  rcases found with ⟨mig, there, rfl⟩ | ⟨-, rfl⟩ | ⟨fault, rfl⟩
  · obtain ⟨offline, settled⟩ := inv mig there
    have on : On mig (fun _ => True) (mig.deleting = true) w2 := by
      refine On.rely (w := w1) ⟨⟨?_, offline, ?_, fun _ _ => trivial, ?_⟩, sheltered1⟩ later
      · intro m there'
        rw [same, there] at there'
        cases there'
        exact .refl mig
      · rw [same]
        exact settled
      · intro deleting
        cases lacks : unowned w.cluster with
        | true =>
          left
          rw [after]
          simp [Traced.after, givesUp, lacks, deleting]
        | false =>
          right
          rw [same]
          exact lacks
    show wp traced offlineSpec () (if mig.deleting = true then _ else _) _ w2
    split
    · next deleting =>
      have notLive : finishCutoverBeforeDeletion mig = pure false := by
        unfold finishCutoverBeforeDeletion
        rw [if_pos (by simp [offline.status.mode])]
      rw [notLive]
      exact minds_handleCancellation offline w2 inv2 (on.weaken (fun _ => id) fun _ => deleting)
    · exact minds_proceed mtls w2 inv2 on
  · exact sheltered2
  · exact onFound_fault (Q := onOk _ _) fault fun e => sheltered2

end Pass

theorem resting_offline : Resting traced offlineSpec offlineSetting (fun _ => Sheltered) where
  refl _ w := ⟨.refl _, rfl, rfl⟩
  trans _ _ _ _ first second := ⟨first.1.trans second.1, second.2.1.trans first.2.1, second.2.2.trans first.2.2⟩
  env w w' inv moves := by
    refine ⟨?_, fun _ => moves⟩
    intro m there
    obtain ⟨mig, before, version⟩ := moves.1.edited there
    obtain ⟨offline, settled⟩ := inv mig before
    refine ⟨version.offline offline, ?_⟩
    rw [version.status, version.target]
    intro resuming guest present vfio
    obtain ⟨old, was, same⟩ := moves.1.guest guest present
    rw [SwiftGuest.gpusOn_core same]
    exact settled resuming old was ((congrArg Core.vfio same).symm.trans vfio)
  quiet _ _ _ _ moves := moves.elim
  stable p _ _ sheltered later _ := sheltered_rely (p := p) sheltered later
  died _ w w' _ dies := by
    rw [dies.2]
    cases lies : exposed w.cluster with
    | true => exact .inl (by simp [tracedEngine, lies])
    | false => exact .inr lies
  starts _ prog w offer inv sheltered := by
    obtain ⟨mtls, rfl⟩ := offer
    refine wp_mono ?_ (minds_reconcile mtls w inv sheltered)
    rintro (_ | _) w' sheltered' <;> exact sheltered'

end KubeSwift.Migration
