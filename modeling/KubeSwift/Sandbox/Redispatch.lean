import KubeSwift.Sandbox.ClaimedSlot

/-! # Dispatching a checked out workload again

The attempt is read back from the id on the slot, what to leave out from the status, which is written first. The slot
carries the newest dispatch. -/

namespace KubeSwift.Workload
open Program

def claimedPass : Act Unit := do
  let sb ← issue .getSandbox
  reconcileClaimedSlot sb

def claimedSetting : Setting Unit World Op Op.Res Err where
  env w w' := ∃ e, w' = w.event e
  quiet _ _ := False
  offered _ prog := prog = claimedPass

abbrev ClaimedRuns (w : World) (s : Loops Unit World Op Op.Res Err) : Prop := LoopsReach machine claimedSetting w s

structure CheckedOut (w : World) : Prop where
  distinct : Distinct w.sb.artifacts
  dispatched : ∃ asked statuses mountable, resolveArtifactRequests (fun _ => false) w.sb.artifacts asked = .ready statuses ∧
    w.dispatches = [⟨w.sb.uid, (firstDispatch w.sb.artifacts statuses mountable).1⟩]
  recorded : ∃ asked statuses mountable, resolveArtifactRequests (fun _ => false) w.sb.artifacts asked = .ready statuses ∧
    w.sb.status.artifacts = (firstDispatch w.sb.artifacts statuses mountable).2
  slot : ∀ pod, w.pods w.sb.status.podRef = some pod →
    ∃ last, w.dispatches.getLast? = some last ∧ pod.execActionID = last.id ∧ pod.execActionArgs = .sent last.artifacts

structure Checkout where
  uid : String
  artifacts : List Artifact
  slot : String

variable {d : Checkout} {w w' : World} {log : List Dispatch} {sb : SwiftSandbox}

structure Lawful (d : Checkout) (log : List Dispatch) : Prop where
  ids : log.map (·.id) = (List.range log.length).map fun k => actionIDFor d.uid (k + 1)
  bounded : log.length ≤ maxDispatchAttempts
  shrinking : log.IsChain fun earlier later => later.artifacts.Sublist earlier.artifacts
  required : ∀ sent ∈ log, ∀ a ∈ d.artifacts, a.optional = false → a.name ∈ sent.artifacts.map (·.name)

def OnSlot (log : List Dispatch) (pod : Pod) : Prop :=
  ∃ last, log.getLast? = some last ∧ pod.execActionID = last.id ∧ pod.execActionArgs = .sent last.artifacts

structure Mine (d : Checkout) (sb : SwiftSandbox) : Prop where
  uid : sb.uid = d.uid
  spec : sb.artifacts = d.artifacts
  podRef : sb.status.podRef = d.slot
  kept : Kept d.artifacts sb.status.artifacts

structure Inv (d : Checkout) (w : World) : Prop where
  distinct : Distinct d.artifacts
  mine : Mine d w.sb
  lawful : Lawful d w.dispatches
  slot : ∀ pod, w.pods d.slot = some pod → OnSlot w.dispatches pod

variable {attempt : Nat} {slot : Pod} {last : Dispatch} {o : Op} {sb' : SwiftSandbox}

theorem Mine.edit (mine : Mine d sb) (edits : Edits sb sb') : Mine d sb' where
  uid := edits.uid.trans mine.uid
  spec := by
    rw [edits.same]
    exact mine.spec
  podRef := edits.podRef.trans mine.podRef
  kept := mine.spec ▸ edits.kept (mine.spec.symm ▸ mine.kept)

theorem Lawful.next {keep : List ArtifactArg} (lawful : Lawful d log) (newest : log.getLast? = some last)
    (more : log.length < maxDispatchAttempts) (fewer : keep.Sublist last.artifacts)
    (required : ∀ a ∈ d.artifacts, a.optional = false → a.name ∈ keep.map (·.name)) :
    Lawful d (log ++ [⟨actionIDFor d.uid (log.length + 1), keep⟩]) where
  ids := by
    rw [List.map_append, lawful.ids, List.length_append, List.length_singleton, List.range_succ, List.map_append]
    rfl
  bounded := by simpa using Nat.succ_le_of_lt more
  shrinking := by
    refine lawful.shrinking.append (by simp) ?_
    intro x here y there
    rw [newest, Option.mem_some_iff] at here
    simp only [List.head?_cons, Option.mem_some_iff] at there
    subst here there
    exact fewer
  required sent member := by
    rcases List.mem_append.mp member with old | new
    · exact lawful.required sent old
    · rw [List.mem_singleton.mp new]
      exact required

theorem Lawful.newest (lawful : Lawful d log) (newest : log.getLast? = some last) :
    1 ≤ log.length ∧ last.id = actionIDFor d.uid log.length := by
  obtain ⟨before, rfl⟩ := List.getLast?_eq_some_iff.mp newest
  have ids := lawful.ids
  rw [List.length_append, List.length_singleton, List.range_succ, List.map_append, List.map_append] at ids
  have tails := List.append_inj_right ids (by simp)
  exact ⟨by simp, by simpa using tails⟩

theorem Inv.setPod (inv : Inv d w) {name : String} {pod : Option Pod}
    (same : ∀ p, pod = some p → ∃ old, w.pods name = some old ∧ p.execActionID = old.execActionID ∧
      p.execActionArgs = old.execActionArgs) : Inv d (w.setPod name pod) := by
  refine { inv with slot := ?_ }
  intro p there
  simp only [World.setPod] at there
  split at there
  · next here =>
    obtain ⟨old, before, id, args⟩ := same p there
    obtain ⟨last, newest, sentId, sentArgs⟩ := inv.slot old (here ▸ before)
    exact ⟨last, newest, id.trans sentId, args.trans sentArgs⟩
  · exact inv.slot p there

theorem Inv.event (inv : Inv d w) (e : Event) : Inv d (w.event e) ∧ (w.event e).dispatches = w.dispatches := by
  have mine : ∀ {sb}, sb.uid = w.sb.uid → sb.artifacts = w.sb.artifacts → sb.status = w.sb.status → Mine d sb := by
    intro sb uid spec status
    exact ⟨uid.trans inv.mine.uid, spec.trans inv.mine.spec, status ▸ inv.mine.podRef, status ▸ inv.mine.kept⟩
  cases e with
  | tick | fetch => exact ⟨{ inv with }, rfl⟩
  | deleteSandbox | edit => exact ⟨{ inv with mine := mine rfl rfl rfl }, rfl⟩
  | report name report | delete name =>
    refine ⟨inv.setPod ?_, rfl⟩
    intro p there
    obtain ⟨old, before, rfl⟩ := Option.map_eq_some_iff.mp there
    exact ⟨old, before, rfl, rfl⟩
  | vanish name =>
    refine ⟨inv.setPod ?_, rfl⟩
    intro p there
    cases there

def Harmless (d : Checkout) : Op → Prop
  | .dispatch _ _ _ | .claimSlot _ | .createPod => False
  | .updateStatus _ status => status.podRef = d.slot ∧ Kept d.artifacts status.artifacts
  | _ => True

theorem Inv.perform {c : Choice} {a : o.Res} (inv : Inv d w) (harmless : Harmless d o)
    (done : w.perform c o = .ok (w', a)) : Inv d w' ∧ w'.dispatches = w.dispatches := by
  have same : Inv d w ∧ w.dispatches = w.dispatches := ⟨inv, rfl⟩
  cases o with
  | dispatch | claimSlot | createPod => exact harmless.elim
  | getSandbox | clock | resolve | pushOutput | gate | ask =>
    cases done
    exact same
  | getPod | getFetchPod =>
    simp only [World.perform] at done
    split at done <;> cases done
    exact same
  | deletePod name =>
    simp only [World.perform] at done
    split at done <;> cases done
    next pod there =>
      refine ⟨inv.setPod ?_, rfl⟩
      rintro _ ⟨⟩
      exact ⟨pod, there, rfl, rfl⟩
  | updateStatus version status =>
    simp only [World.perform] at done
    split at done <;> cases done
    exact ⟨{ inv with mine := { inv.mine with podRef := harmless.1, kept := harmless.2 } }, rfl⟩
  | patchFinalizers =>
    simp only [World.perform] at done
    split at done <;> cases done
    exact ⟨{ inv with mine := { inv.mine with } }, rfl⟩
  | deleteSandbox =>
    cases done
    exact ⟨{ inv with mine := { inv.mine with } }, rfl⟩
  | createFetchPod =>
    simp only [World.perform] at done
    split at done <;> cases done
    exact ⟨{ inv with }, rfl⟩

def dispatchSpec (d : Checkout) : Spec Unit World Op where
  inv := Inv d
  rely _ w w' := w'.dispatches = w.dispatches
  guar _ _ _ := True
  pre _ _ _ := True

abbrev Silent {α : Type} (d : Checkout) (log : List Dispatch) (m : Act α) (V : α → Prop) : Prop :=
  Gives machine (dispatchSpec d) () (fun w => w.dispatches = log) m fun a w => V a ∧ w.dispatches = log

theorem silent_try {V : o.Res → Prop} (harmless : Harmless d o)
    (told : ∀ w c w0 a, Inv d w → w.dispatches = log → w.perform c o = .ok (w0, a) → V a) :
    Silent d log (issue o).attempt fun r => ∀ a, r = .ok a → V a := by
  intro w inv here
  rw [Ensures, wp_attempt]
  refine (wp_call o _ w).mpr ⟨trivial, ?_⟩
  rintro r w' ⟨c, -, ran⟩
  have known : (Inv d w' ∧ w'.dispatches = w.dispatches) ∧ ∀ a, r = .ok a → V a := by
    rcases exec_cases (Option.some.inj ran) with ⟨a, rfl, done⟩ | ⟨e, rfl, rfl | ⟨a, done⟩⟩
    · refine ⟨inv.perform harmless done, ?_⟩
      rintro _ ⟨⟩
      exact told w c w' a inv here done
    · exact ⟨⟨inv, rfl⟩, by rintro _ ⟨⟩⟩
    · exact ⟨inv.perform harmless done, by rintro _ ⟨⟩⟩
  refine ⟨known.1.1, trivial, ?_⟩
  rintro w'' later - _ ⟨⟩
  exact ⟨known.2, (later.trans known.1.2).trans here⟩

theorem silent_step (harmless : Harmless d o) : Silent d log (issue o).attempt fun _ => True :=
  gives_post (fun _ _ kept => ⟨trivial, kept.2⟩)
    (silent_try (V := fun _ => True) harmless fun _ _ _ _ _ _ _ => trivial)

theorem silent_next {α : Type} {k : o.Res → Act α} {V : α → World → Prop} (harmless : Harmless d o)
    (next : ∀ a, Gives machine (dispatchSpec d) () (fun w => w.dispatches = log) (k a) V) :
    Gives machine (dispatchSpec d) () (fun w => w.dispatches = log) (issue o >>= k) V :=
  gives_bind (U := fun _ w => w.dispatches = log)
    (gives_attempted (gives_post (fun _ _ kept _ _ => kept.2) (silent_step harmless))) next

theorem silent_writeStatus (mine : Mine d sb) :
    Silent d log (writeStatus sb) fun sb' => Mine d sb' ∧ sb'.status = sb.status :=
  silent_next ⟨mine.podRef, mine.kept⟩ fun _ => gives_pure fun _ here =>
    ⟨⟨{ mine with }, rfl⟩, here⟩

theorem silent_lastly (mine : Mine d sb) : Silent d log (lastly (writeStatus sb)) fun _ => True :=
  gives_bind (silent_writeStatus mine) fun _ => gives_pure fun _ here => ⟨trivial, here.2⟩

theorem silent_terminal {phase : Phase} {reason : Reason} (mine : Mine d sb) :
    Silent d log (terminal sb phase reason) fun _ => True :=
  silent_next trivial fun _ => silent_lastly { mine with }

theorem keptArtifacts_required {statuses : List ArtifactStatus} (distinct : Distinct d.artifacts)
    (kept : Kept d.artifacts statuses)
    {artifacts : List ArtifactArg} (before : ∀ a ∈ d.artifacts, a.optional = false → a.name ∈ artifacts.map (·.name)) :
    ∀ a ∈ d.artifacts, a.optional = false → a.name ∈ (keptArtifacts statuses artifacts).map (·.name) := by
  intro a member required
  obtain ⟨arg, here, name⟩ := List.mem_map.mp (before a member required)
  refine List.mem_map.mpr ⟨arg, List.mem_filter.mpr ⟨here, ?_⟩, name⟩
  rw [name]
  exact kept.artifactStatus_required distinct member required

theorem Lawful.answered (lawful : Lawful d log) (newest : log.getLast? = some last) (id : slot.execActionID = last.id)
    (decodes : Decodes sb slot attempt) (uid : sb.uid = d.uid) : attempt = log.length := by
  obtain ⟨some_, lastId⟩ := lawful.newest newest
  rw [Decodes, uid] at decodes
  split at decodes
  · next empty =>
    -- an id is empty only where the uid is, and that is no attempt
    have first : actionIDFor d.uid log.length = "" := lastId.symm.trans (id.symm.trans empty)
    have blank : d.uid = "" := by
      unfold actionIDFor at first
      split at first
      · exact first
      · simp at first
    rw [blank] at decodes
    cases decodes
  · rw [id, lastId] at decodes
    exact actionAttempt_actionIDFor some_ lawful.bounded decodes

theorem gives_dispatch {keep : List ArtifactArg} (mine : Mine d sb) (newest : log.getLast? = some last)
    (more : log.length < maxDispatchAttempts) (fewer : keep.Sublist last.artifacts)
    (required : ∀ a ∈ d.artifacts, a.optional = false → a.name ∈ keep.map (·.name)) :
    Gives machine (dispatchSpec d) () (fun w => w.dispatches = log)
      (issue (.dispatch sb.status.podRef (actionIDFor sb.uid (log.length + 1)) keep)) fun _ _ => True := by
  rintro w inv rfl
  refine (wp_call _ _ w).mpr ⟨trivial, ?_⟩
  rintro r w' ⟨c, -, ran⟩
  refine ⟨?_, trivial, fun _ _ _ _ _ => trivial⟩
  have sends : ∀ a, w.perform c (.dispatch sb.status.podRef (actionIDFor sb.uid (w.dispatches.length + 1)) keep) =
      .ok (w', a) → Inv d w' := by
    intro a done
    simp only [World.perform] at done
    split at done <;> cases done
    next pod there =>
      rw [mine.uid, mine.podRef]
      refine ⟨inv.distinct, inv.mine, inv.lawful.next newest more fewer required, ?_⟩
      intro p here
      simp only [World.send, World.setPod, if_true, Option.some.injEq] at here
      subst here
      exact ⟨_, List.getLast?_concat, rfl, rfl⟩
  rcases exec_cases (Option.some.inj ran) with ⟨a, rfl, done⟩ | ⟨e, rfl, rfl | ⟨a, done⟩⟩
  · exact sends a done
  · exact inv
  · exact sends a done

theorem gives_redispatch (mine : Mine d sb) (decodes : Decodes sb slot attempt) (more : attempt < maxDispatchAttempts) :
    Gives machine (dispatchSpec d) () (fun w => OnSlot w.dispatches slot) (redispatch sb slot attempt)
      fun _ _ => True := by
  rintro w inv ⟨last, newest, id, args⟩
  obtain rfl := inv.lawful.answered newest id decodes mine.uid
  have required := keptArtifacts_required inv.distinct mine.kept
    (inv.lawful.required last (List.mem_of_getLast? newest))
  simp only [redispatch, args]
  refine gives_bind (silent_writeStatus (mine.edit (edits_withArtifacts fun kept => kept.markDispatched _).running)) ?_ w inv rfl
  intro sb'
  simp only [and_assoc]
  exact gives_known fun mine' => gives_pre (fun _ here => here.2)
    (gives_dispatch mine' newest more List.filter_sublist required)

theorem minds_dispatchSpec (d : Checkout) :
    Minds machine (dispatchSpec d) (fun sb _ => Mine d sb) fun slot w => OnSlot w.dispatches slot where
  edit edits mine := mine.edit edits
  ask := by
    rintro sb slot o asks w inv ⟨mine, onSlot⟩
    have harmless : Harmless d o := by
      unfold Asks at asks
      split at asks
      all_goals trivial
    refine ensures_mono ?_ (silent_step harmless w inv rfl)
    exact fun _ _ here => ⟨mine, here.2 ▸ onSlot⟩
  found := by
    intro sb w inv mine
    refine ensures_mono ?_ (silent_try (o := .getPod sb.status.podRef) (V := fun slot => OnSlot w.dispatches slot)
      trivial ?_ w inv rfl)
    · exact fun _ _ here => ⟨mine, here.2 ▸ here.1⟩
    · intro w c w0 slot inv same done
      simp only [World.perform] at done
      split at done <;> cases done
      next there => exact same ▸ inv.slot slot (mine.podRef ▸ there)
  save w inv mine := ensures_mono (fun _ _ _ => trivial) (silent_lastly mine w inv rfl)
  lost _ w inv mine := ensures_mono (fun _ _ _ => trivial) (silent_terminal mine w inv rfl)
  ends _ w inv mine := ensures_mono (fun _ _ _ => trivial)
    (gives_bind (silent_step (o := .deletePod _) trivial) (fun _ => gives_pre (fun _ here => here.2) (silent_terminal mine)) w inv rfl)
  dispatch decodes more := gives_known fun mine => gives_redispatch mine decodes more

theorem gives_claimedPass : Gives machine (dispatchSpec d) () (fun _ => True) claimedPass fun _ _ => True := by
  refine gives_bind (U := fun sb _ => Mine d sb) ?_ fun sb => (minds_dispatchSpec d).reconcileClaimedSlot
  intro w inv _
  refine gives_attempted (gives_post (fun _ _ here => here.1) (silent_try (o := .getSandbox) trivial ?_)) w inv rfl
  intro w c w0 sb inv _ done
  cases done
  exact inv.mine

theorem suits_dispatchSpec (d : Checkout) : Suits machine (dispatchSpec d) claimedSetting where
  refl _ _ := rfl
  trans _ _ _ _ first second := second.trans first
  env w w' inv moves := by
    obtain ⟨e, rfl⟩ := moves
    obtain ⟨kept, same⟩ := inv.event e
    exact ⟨kept, fun _ => same⟩
  starts _ _ w offer inv := by
    cases offer
    exact wp_of_ensures (gives_claimedPass w inv trivial)

theorem CheckedOut.inv (out : CheckedOut w) : Inv ⟨w.sb.uid, w.sb.artifacts, w.sb.status.podRef⟩ w := by
  obtain ⟨asked, statuses, mountable, ready, sent⟩ := out.dispatched
  obtain ⟨asked', statuses', mountable', ready', recorded⟩ := out.recorded
  refine ⟨out.distinct, ⟨rfl, rfl, rfl, ?_⟩, ?_, out.slot⟩
  · rw [recorded]
    exact (firstDispatch_required out.distinct ready' mountable').2
  · rw [sent]
    refine ⟨rfl, by simp [maxDispatchAttempts], by simp, ?_⟩
    intro first member
    rw [List.mem_singleton.mp member]
    exact (firstDispatch_required out.distinct ready mountable).1

/-- At most four dispatches, under the ids of the attempts in order, each with no artifact the one before it did
not have, and every one with every required artifact. -/
theorem redispatch_bounded (w : World) (out : CheckedOut w) (s : Loops Unit World Op Op.Res Err)
    (runs : ClaimedRuns w s) :
    s.world.dispatches.map (·.id) =
      (List.range s.world.dispatches.length).map (fun k => actionIDFor w.sb.uid (k + 1)) ∧
    s.world.dispatches.length ≤ 4 ∧
    s.world.dispatches.IsChain (fun earlier later => later.artifacts ⊆ earlier.artifacts) ∧
    ∀ sent ∈ s.world.dispatches, ∀ a ∈ w.sb.artifacts, a.optional = false → a.name ∈ sent.artifacts.map (·.name) := by
  have sound := loopsSound_reach (suits_dispatchSpec _) out.inv runs
  have lawful := sound.inv.lawful
  exact ⟨lawful.ids, lawful.bounded, lawful.shrinking.imp fun _ _ fewer => fewer.subset, lawful.required⟩

private def model : Artifact := ⟨"model", false, none⟩

private def extra : Artifact := ⟨"extra", true, some 0⟩

private def asked (a : Artifact) : Asked := ⟨false, none, .found ⟨"sha256:" ++ a.name, by simp⟩⟩

private def resolvedBoth : List ArtifactStatus :=
  [⟨"model", "sha256:model", .resolved, ""⟩, ⟨"extra", "sha256:extra", .resolved, ""⟩]

private def sentBoth : List ArtifactArg := [⟨"model", "sha256:model"⟩, ⟨"extra", "sha256:extra"⟩]

private def checkedOut : World where
  sb := ⟨"job", "u-1", true, none, none, [model, extra], [], 0, false, true, false, false, 1,
    { phase := .running, podRef := "pool-slot-a", startedAt := some 0, reason := some .checkedOut
      artifacts := markDispatched ["model", "extra"] resolvedBoth }⟩
  pods name := if name = "pool-slot-a" then some ⟨"u-1", false, "u-1", .sent sentBoth, { phase := .running }⟩ else none
  fetch := none
  now := 1
  dispatches := [⟨"u-1", sentBoth⟩]

private def dispatchScript : Script Unit Choice World Op Op.Res Err Unit Event where
  engine := engine
  calls _ := claimedPass
  event e w := w.event e
  check _ _ _ _ := true
  pids := []

private def missingExtra : Report where
  phase := .running
  execStatusID := "u-1"
  execStatus := .failed
  execStatusDetail := "ArtifactMissing: extra"

/-- The optional artifact is missing. The first pass records it as skipped and loses its patch; the next sends the
workload again. -/
private def lostPatch : List (LoopMove Unit Choice Unit Event) :=
  [.env (.report "pool-slot-a" missingExtra),
    .start () (), .op () {}, .op () {}, .op () {}, .op () {}, .op () {}, .op () { fault := some false }, .finish (),
    .start () (), .op () {}, .op () {}, .op () {}, .op () {}, .op () {}, .op () {}, .finish ()]

theorem redispatch_bounded_lostPatch :
    ∃ s, ClaimedRuns checkedOut s ∧
      s.world.dispatches = [⟨"u-1", sentBoth⟩, ⟨"u-1-2", [⟨"model", "sha256:model"⟩]⟩] ∧ s.world.dispatches.length ≤ 4 := by
  have fits : dispatchScript.Fits claimedSetting := { offers := fun _ _ _ => rfl, env := fun event _ _ => ⟨event, rfl⟩ }
  have reached : ∃ s, ClaimedRuns checkedOut s ∧
      s.world.dispatches = [⟨"u-1", sentBoth⟩, ⟨"u-1-2", [⟨"model", "sha256:model"⟩]⟩] :=
    exists_of_play fits lostPatch (by decide +kernel)
  obtain ⟨s, runs, seen⟩ := reached
  have ready : resolveArtifactRequests (fun _ => false) checkedOut.sb.artifacts asked = .ready resolvedBoth := rfl
  have out : CheckedOut checkedOut := by
    refine ⟨by decide, ⟨asked, resolvedBoth, true, ready, by decide +kernel⟩,
      ⟨asked, resolvedBoth, true, ready, by decide +kernel⟩, ?_⟩
    intro pod there
    cases there
    exact ⟨_, rfl, rfl, rfl⟩
  exact ⟨s, runs, seen, (redispatch_bounded checkedOut out s runs).2.1⟩

end KubeSwift.Workload
