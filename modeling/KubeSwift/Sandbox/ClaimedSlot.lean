import KubeSwift.Program.Triples
import KubeSwift.Sandbox.Workload

/-! # Following a claimed slot -/

namespace KubeSwift.Workload
open Program

structure Edits (sb sb' : SwiftSandbox) : Prop where
  same : sb' = { sb with status := sb'.status }
  phase : sb'.status.phase = sb.status.phase ∨ sb'.status.phase = .running
  podRef : sb'.status.podRef = sb.status.podRef
  outputs : sb'.status.outputs = sb.status.outputs
  kept : Kept sb.artifacts sb.status.artifacts → Kept sb.artifacts sb'.status.artifacts

variable {sb sb' : SwiftSandbox} {slot : Pod} {attempt : Nat} {missing : List String}

theorem Edits.uid (edits : Edits sb sb') : sb'.uid = sb.uid := by
  rw [edits.same]

theorem Edits.trans {sb'' : SwiftSandbox} (first : Edits sb sb') (second : Edits sb' sb'') : Edits sb sb'' where
  same := by rw [second.same, first.same]
  phase := by
    rcases second.phase with same | running
    · exact same ▸ first.phase
    · exact .inr running
  podRef := second.podRef.trans first.podRef
  outputs := second.outputs.trans first.outputs
  kept kept := by
    have spec : sb'.artifacts = sb.artifacts := by rw [first.same]
    exact spec ▸ second.kept (spec.symm ▸ first.kept kept)

theorem Edits.running (edits : Edits sb sb') : Edits sb (sb'.inPhase .running) :=
  ⟨congrArg (fun s => SwiftSandbox.inPhase s .running) edits.same, .inr rfl, edits.podRef, edits.outputs, edits.kept⟩

theorem edits_withArtifacts {statuses : List ArtifactStatus}
    (kept : Kept sb.artifacts sb.status.artifacts → Kept sb.artifacts statuses) : Edits sb (sb.withArtifacts statuses) :=
  ⟨rfl, .inl rfl, rfl, rfl, kept⟩

theorem edits_artifactsMounted (slot : Pod) : Edits sb (artifactsMounted sb slot) := by
  refine edits_withArtifacts fun kept => kept.map (fun s => by split <;> rfl) ?_
  intro s skips
  split at skips
  · cases skips
  · exact .inl skips

theorem edits_afterFetch (fetch : List String) (skipped : List (String × String)) :
    Edits sb (afterFetch sb fetch skipped) := by
  refine edits_withArtifacts fun kept => Kept.map ?_ (fun s => by split <;> rfl) ?_
  · refine kept.foldl_setArtifactState _ Prod.fst .skipped Prod.snd ?_
    exact fun _ s member => (List.mem_filter.mp member).2
  · intro s skips
    split at skips
    · cases skips
    · exact .inl skips

theorem edits_markFetching (fetch : List String) : Edits sb (markFetching sb fetch) := by
  refine edits_withArtifacts fun kept => kept.map (fun s => by split <;> rfl) ?_
  intro s skips
  split at skips
  · cases skips
  · exact .inl skips

theorem edits_failArtifacts (names : List String) (reason message : String) :
    Edits sb (sb.withArtifacts (failArtifacts sb.artifacts sb.status.artifacts names reason message)) :=
  edits_withArtifacts fun kept => kept.foldl_setArtifactState _ id .failed (fun _ => reason) nofun

structure Sorted.Sound (sb : SwiftSandbox) (sorted : Sorted) : Prop where
  kept : Kept sb.artifacts sb.status.artifacts → Kept sb.artifacts sorted.artifacts
  wait : ∀ name ∈ sorted.wait, artifactOptional sb.artifacts name

theorem sortMissing_sound {now : Nat} {acc : Sorted} (sound : acc.Sound sb) :
    (sortMissing sb attempt now missing acc).Sound sb := by
  induction missing generalizing acc with
  | nil => exact sound
  | cons name rest ih =>
    rw [sortMissing]
    split
    · exact { sound with }
    · next a found =>
      have optional : a.optional = true → artifactOptional sb.artifacts name := by
        intro optional
        rw [artifactOptional, found]
        exact optional
      split
      · exact ih { sound with }
      · next asked =>
        have here := optional (by simpa using asked)
        split
        · refine ih ⟨sound.kept, ?_⟩
          intro n member
          rcases List.mem_append.mp member with old | new
          · exact sound.wait n old
          · exact List.mem_singleton.mp new ▸ here
        · exact ih ⟨fun kept => (sound.kept kept).setArtifactState name .skipped _ fun _ => here, sound.wait⟩

def Asks : Op → Prop
  | .clock | .getFetchPod | .createFetchPod _ | .gate _ | .ask _ => True
  | _ => False

def Decodes (sb : SwiftSandbox) (slot : Pod) (attempt : Nat) : Prop :=
  actionAttempt (if slot.execActionID = "" then sb.uid else slot.execActionID) sb.uid = some attempt

structure Minds (M : Machine Unit World Op Op.Res Err) (S : Spec Unit World Op) (P : SwiftSandbox → World → Prop)
    (A : Pod → World → Prop) : Prop where
  edit : ∀ {sb sb' w}, Edits sb sb' → P sb w → P sb' w
  ask : ∀ {sb slot o}, Asks o →
    Gives M S () (fun w => P sb w ∧ A slot w) (issue o).attempt fun _ w => P sb w ∧ A slot w
  found : ∀ {sb}, Gives M S () (P sb) (issue (.getPod sb.status.podRef)).attempt fun r w =>
    P sb w ∧ ∀ slot, r = .ok slot → A slot w
  save : ∀ {sb}, Gives M S () (P sb) (lastly (writeStatus sb)) fun _ _ => True
  lost : ∀ {sb reason}, reason = .slotEnded ∨ reason = .slotLost → Gives M S () (P sb) (fail sb reason) fun _ _ => True
  ends : ∀ {sb phase reason}, isTerminal phase = true → Gives M S () (P sb)
    (do let _ ← (issue (.deletePod sb.status.podRef)).attempt; terminal sb phase reason) fun _ _ => True
  dispatch : ∀ {sb slot attempt}, Decodes sb slot attempt → attempt < maxDispatchAttempts →
    Gives M S () (fun w => P sb w ∧ A slot w) (redispatch sb slot attempt) fun _ _ => True

section Slot

variable {M : Machine Unit World Op Op.Res Err} {S : Spec Unit World Op} {P : SwiftSandbox → World → Prop}
  {A : Pod → World → Prop} {o : Op}

theorem gives_tolerate {expected : Err} {call : Act Unit} {P : World → Prop}
    (tried : Gives M S () P call.attempt fun _ => P) : Gives M S () P (tolerate expected call) fun _ => P := by
  refine gives_bind tried fun r => ?_
  split
  · exact gives_pure fun _ here => here
  · split
    · exact gives_pure fun _ here => here
    · exact gives_fail

theorem Decodes.edit (decodes : Decodes sb slot attempt) (edits : Edits sb sb') : Decodes sb' slot attempt := by
  rwa [Decodes, edits.uid]

variable (minds : Minds M S P A)
include minds

theorem Minds.next {α : Type} {k : o.Res → Act α} {V : α → World → Prop} (asks : Asks o)
    (rest : ∀ a, Gives M S () (fun w => P sb w ∧ A slot w) (k a) V) :
    Gives M S () (fun w => P sb w ∧ A slot w) (issue o >>= k) V :=
  gives_bind (U := fun _ w => P sb w ∧ A slot w)
    (gives_attempted (gives_post (fun _ _ kept _ _ => kept) (minds.ask asks))) rest

theorem Minds.again (edits : Edits sb sb') (decodes : Decodes sb slot attempt) (more : attempt < maxDispatchAttempts) :
    Gives M S () (fun w => P sb w ∧ A slot w) (redispatch sb' slot attempt) fun _ _ => True :=
  gives_pre (fun _ here => ⟨minds.edit edits here.1, here.2⟩) (minds.dispatch (decodes.edit edits) more)

theorem Minds.failAfterDelete {reason : Reason} (edits : Edits sb sb') :
    Gives M S () (P sb) (failAfterDelete sb' sb.status.podRef reason) fun _ _ => True := by
  refine gives_pre (fun _ known => minds.edit edits known) ?_
  rw [← edits.podRef]
  exact minds.ends rfl

theorem Minds.ensureArtifactFetch :
    Gives M S () (fun w => P sb w ∧ A slot w) (ensureArtifactFetch sb slot missing) fun _ w => P sb w ∧ A slot w := by
  refine gives_bind (minds.ask trivial) fun r => ?_
  split
  · dsimp only
    split
    · exact gives_pure fun _ here => here
    · refine minds.next trivial fun _ => ?_
      exact gives_bind (gives_tolerate (minds.ask trivial)) fun _ => gives_pure fun _ here => here
  · exact gives_fail
  · split
    · exact gives_pure fun _ here => here
    · exact gives_pure fun _ here => here

theorem Minds.fetchMissing {now : Nat} {sorted : Sorted} (decodes : Decodes sb slot attempt)
    (more : attempt < maxDispatchAttempts) (wait : ∀ name ∈ sorted.wait, artifactOptional sb.artifacts name) :
    Gives M S () (fun w => P sb w ∧ A slot w) (fetchMissing sb slot attempt now sorted) fun _ _ => True := by
  refine gives_bind minds.ensureArtifactFetch fun state => ?_
  cases state with
  | failed message => exact gives_pre (fun _ here => here.1) (minds.failAfterDelete (edits_failArtifacts _ _ _))
  | done skipped => exact minds.again (edits_afterFetch _ skipped) decodes more
  | running =>
    dsimp only
    split
    · exact minds.again (edits_withArtifacts fun kept => kept.foldl_setArtifactState _ id .skipped _ fun _ => wait) decodes more
    · exact gives_pre (fun _ here => minds.edit (edits_markFetching _).running here.1) minds.save

theorem Minds.artifactsMissing (decodes : Decodes sb slot attempt) :
    Gives M S () (fun w => P sb w ∧ A slot w) (artifactsMissing sb slot attempt missing) fun left w =>
      ∀ sb', left = some sb' → P sb' w := by
  unfold Workload.artifactsMissing
  split
  · refine gives_pure ?_
    rintro w here _ ⟨⟩
    exact here.1
  · next few =>
    have more : attempt < maxDispatchAttempts := Nat.not_le.mp few
    refine minds.next trivial fun now => ?_
    have sound : (sortMissing sb attempt now missing ⟨[], [], sb.status.artifacts, false⟩).Sound sb :=
      sortMissing_sound ⟨id, nofun⟩
    generalize sortMissing sb attempt now missing ⟨[], [], sb.status.artifacts, false⟩ = sorted at sound ⊢
    have edits := edits_withArtifacts sound.kept
    have onward : ∀ {m : Act Unit}, Gives M S () (fun w => P sb w ∧ A slot w) m (fun _ _ => True) →
        Gives M S () (fun w => P sb w ∧ A slot w) (m >>= fun _ => pure none) fun left w =>
          ∀ sb', left = some sb' → P sb' w :=
      fun first => gives_bind first fun _ => gives_pure fun _ _ _ ended => by cases ended
    dsimp only
    split
    · refine gives_pure ?_
      rintro w here _ ⟨⟩
      exact minds.edit edits here.1
    · split
      · exact onward (minds.again edits decodes more)
      · exact onward (gives_pre (fun _ here => ⟨minds.edit edits here.1, here.2⟩)
          (minds.fetchMissing (decodes.edit edits) more sound.wait))

theorem Minds.refuseCheckout {detail : String} :
    Gives M S () (P sb) (refuseCheckout sb detail) fun _ _ => True := by
  unfold Workload.refuseCheckout
  dsimp only
  split
  · exact minds.failAfterDelete (edits_failArtifacts _ _ _)
  · exact minds.ends rfl

theorem Minds.slotFailed (decodes : Decodes sb slot attempt) :
    Gives M S () (fun w => P sb w ∧ A slot w) (slotFailed sb slot attempt) fun _ _ => True := by
  unfold Workload.slotFailed
  split
  · exact gives_pre (fun _ here => here.1) minds.refuseCheckout
  · refine gives_bind (minds.artifactsMissing decodes) fun left => ?_
    cases left with
    | none => exact gives_done
    | some sb' => exact gives_pre (fun _ left => left sb' rfl) minds.refuseCheckout

theorem Minds.slotComplete :
    Gives M S () (P sb) (slotComplete sb slot) fun _ _ => True := by
  have exited : Edits sb { sb with status := { sb.status with
      exitCode := some ((parseInt32 slot.report.execStatusDetail).getD 0) } } := ⟨rfl, .inl rfl, rfl, rfl, id⟩
  refine gives_pre (fun _ known => minds.edit (exited.trans (edits_artifactsMounted slot)) known) ?_
  unfold Workload.slotComplete
  dsimp only
  split
  · exact minds.ends rfl
  · exact minds.ends rfl

theorem Minds.slotRunning :
    Gives M S () (fun w => P sb w ∧ A slot w) (slotRunning sb slot) fun _ _ => True := by
  unfold Workload.slotRunning
  split
  · exact gives_pre (fun _ here => here.1) (minds.lost (.inl rfl))
  · split
    · exact gives_pre (fun _ here => here.1) (minds.ends rfl)
    · refine minds.next trivial fun _ => ?_
      rw [syncWorkloadReady, bind_assoc]
      refine minds.next trivial fun ready => ?_
      rw [bind_assoc]
      refine minds.next trivial fun _ => ?_
      have asked : Edits sb { sb with status := { sb.status with workloadReady := some ready } } :=
        ⟨rfl, .inl rfl, rfl, rfl, id⟩
      refine gives_pre (fun _ here => minds.edit (Edits.running ?_) here.1) minds.save
      split
      · exact asked.trans (edits_artifactsMounted slot)
      · exact asked

theorem Minds.reconcileClaimedSlot :
    Gives M S () (P sb) (reconcileClaimedSlot sb) fun _ _ => True := by
  refine gives_bind minds.found fun r => ?_
  split
  · exact gives_pre (fun _ here => here.1) (minds.lost (.inr rfl))
  · exact gives_fail
  · next slot =>
    refine gives_pre (fun _ here => ⟨here.1, here.2 slot rfl⟩) (minds.next trivial fun now => ?_)
    split
    · exact gives_pre (fun _ here => here.1) (minds.ends rfl)
    · unfold followSlot
      dsimp only
      split
      · exact minds.slotRunning
      · next attempt decodes =>
        generalize (if slot.execActionID = "" then sb.uid else slot.execActionID) = id
        split
        · exact minds.slotRunning
        · split
          · exact gives_pre (fun _ here => here.1) minds.slotComplete
          · exact minds.slotFailed decodes
          all_goals exact minds.slotRunning

end Slot

end KubeSwift.Workload
