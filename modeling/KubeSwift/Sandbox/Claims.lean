import KubeSwift.Program.Triples
import KubeSwift.Sandbox.SlotPass

/-! # Claims of warm slots are exclusive -/

namespace KubeSwift.Sandbox
open Program Prog

structure Terms where
  slotState : Option String
  sandbox : Option String
  controller : Option OwnerReference
  action : Option String
  actionID : Option String
  actionArgs : Option String
  deriving DecidableEq

def Manifest.terms (m : Manifest) : Terms where
  slotState := m.labels slotStateLabelKey
  sandbox := m.labels sandboxLabelKey
  controller := m.controller
  action := m.annotations annSandboxExecAction
  actionID := m.annotations annSandboxExecActionID
  actionArgs := m.annotations annSandboxExecActionArgs

structure Terms.Idle (t : Terms) : Prop where
  state : t.slotState = some slotStateWarm
  action : t.action = none
  actionID : t.actionID = none
  actionArgs : t.actionArgs = none

structure Terms.ClaimedBy (t : Terms) (ref : OwnerReference) : Prop where
  state : t.slotState = some slotStateClaimed
  sandbox : t.sandbox = some ref.name
  controller : t.controller = some ref
  action : (t.action = some "run" ∧ t.actionID = some ref.uid) ∨
    (t.action = none ∧ t.actionID = none ∧ t.actionArgs = none)

theorem StringMap.set_self (m : StringMap) (key value : String) : m.set key value key = some value :=
  Function.update_self key _ m

variable {key : String} {w : World}

theorem StringMap.set_of_ne (m : StringMap) {other : String} (value : String) (different : other ≠ key) :
    m.set key value other = m other :=
  Function.update_of_ne different _ m

theorem controller_upsertOwnerRef {owner : OwnerReference} (controls : owner.controller = true)
    {refs : List OwnerReference} (others : ∀ ref ∈ refs, ref.controller = false) :
    (upsertOwnerRef owner refs).find? (fun ref => ref.controller) = some owner := by
  unfold upsertOwnerRef
  split
  · next i found =>
    obtain ⟨bound, -⟩ := List.findIdx?_eq_some_iff_getElem.mp found
    clear found
    induction refs generalizing i with
    | nil => simp at bound
    | cons ref refs ih =>
      cases i with
      | zero => simp [controls]
      | succ i =>
        have other := others ref (by simp)
        rw [List.set_cons_succ, List.find?_cons_of_neg (by simp [other])]
        exact ih (fun r member => others r (by simp [member])) i (by simpa using bound)
  · have none : refs.find? (fun ref => ref.controller) = none := by
      rw [List.find?_eq_none]
      intro ref member
      simp [others ref member]
    simp [List.find?_append, none, controls]

theorem nonControllerRefs_controller {refs : List OwnerReference} :
    ∀ ref ∈ nonControllerRefs refs, ref.controller = false := by
  intro ref member
  simpa using (List.mem_filter.mp member).2

theorem setControllerReference_nonController (owner : OwnerReference) (refs : List OwnerReference) :
    setControllerReference owner (nonControllerRefs refs) = .ok (upsertOwnerRef owner (nonControllerRefs refs)) := by
  have none : (nonControllerRefs refs).find? (fun ref => ref.controller) = none := by
    rw [List.find?_eq_none]
    intro ref member
    simp [nonControllerRefs_controller ref member]
  simp [setControllerReference, none]

theorem applyPodMetadata_labels (p : Pod) (m : Option PodMetadata) {value : String} (here : p.labels key = some value) :
    (applyPodMetadata p m).labels key = some value := by
  cases m with
  | none => exact here
  | some m => simp [applyPodMetadata, StringMap.complete, here]

def unloaded (sb : SwiftSandbox) (p : Pod) : Pod :=
  let claimed := applyPodMetadata
    { p with labels := (p.labels.set slotStateLabelKey slotStateClaimed).set sandboxLabelKey sb.name } sb.podMetadata
  { claimed with ownerReferences := upsertOwnerRef sb.ref (nonControllerRefs claimed.ownerReferences) }

theorem claim_eq (sb : SwiftSandbox) (p : Pod) (inject : Option ExecInject) :
    claim sb p inject = match inject with
      | none => .ok (unloaded sb p)
      | some w => (execActionAnnotations (unloaded sb p) sb.uid w).map (withAnnotations (unloaded sb p)) := by
  unfold claim
  simp only [setControllerReference_nonController]
  cases inject with
  | none => rfl
  | some w =>
    show (execActionAnnotations (unloaded sb p) sb.uid w >>= fun a => pure (withAnnotations (unloaded sb p) a)) =
      (execActionAnnotations (unloaded sb p) sb.uid w).map (withAnnotations (unloaded sb p))
    cases execActionAnnotations (unloaded sb p) sb.uid w <;> rfl

variable {sb : SwiftSandbox}

theorem unloaded_terms {p : Pod} (valid : ∀ m, sb.podMetadata = some m → m.Valid)
    (idle : p.terms.Idle) : (unloaded sb p).terms.slotState = some slotStateClaimed ∧
      (unloaded sb p).terms.sandbox = some sb.name ∧ (unloaded sb p).terms.controller = some sb.ref ∧
      (unloaded sb p).terms.action = none ∧ (unloaded sb p).terms.actionID = none ∧
      (unloaded sb p).terms.actionArgs = none := by
  have labels : (p.labels.set slotStateLabelKey slotStateClaimed).set sandboxLabelKey sb.name slotStateLabelKey =
      some slotStateClaimed := by
    rw [StringMap.set_of_ne _ _ (by decide), StringMap.set_self]
  have annotation : ∀ key, reservedDomain key = true → (unloaded sb p).annotations key = p.annotations key := by
    intro key reserved
    unfold unloaded applyPodMetadata
    cases known : sb.podMetadata with
    | none => rfl
    | some m => simp [StringMap.complete, (valid m known key reserved).2]
  refine ⟨?_, ?_, ?_, ?_, ?_, ?_⟩
  · exact applyPodMetadata_labels _ _ labels
  · exact applyPodMetadata_labels _ _
      (StringMap.set_self (p.labels.set slotStateLabelKey slotStateClaimed) sandboxLabelKey sb.name)
  · exact controller_upsertOwnerRef rfl nonControllerRefs_controller
  · exact ( annotation _ (by decide)).trans idle.action
  · exact ( annotation _ (by decide)).trans idle.actionID
  · exact ( annotation _ (by decide)).trans idle.actionArgs

theorem claim_spec {p claimed : Pod} {inject : Option ExecInject}
    (valid : ∀ m, sb.podMetadata = some m → m.Valid) (idle : p.terms.Idle) (done : claim sb p inject = .ok claimed) :
    claimed.terms.ClaimedBy sb.ref ∧ claimed.uid = p.uid ∧ claimed.resourceVersion = p.resourceVersion := by
  obtain ⟨state, sandbox, controller, action, actionID, actionArgs⟩ := unloaded_terms valid idle
  obtain ⟨uid, version⟩ : (unloaded sb p).uid = p.uid ∧ (unloaded sb p).resourceVersion = p.resourceVersion := by
    unfold unloaded
    cases sb.podMetadata <;> exact ⟨rfl, rfl⟩
  rw [claim_eq] at done
  cases inject with
  | none =>
    cases done
    exact ⟨⟨state, sandbox, controller, .inr ⟨action, actionID, actionArgs⟩⟩, uid, version⟩
  | some w =>
    simp only [execActionAnnotations] at done
    cases args : w.args (unloaded sb p) with
    | error e =>
      rw [args] at done
      cases done
    | ok text =>
      rw [args] at done
      cases done
      refine ⟨⟨state, sandbox, controller, .inl ⟨?_, ?_⟩⟩, uid, version⟩
      all_goals
        simp only [withAnnotations, Manifest.terms, List.foldl_cons, List.foldl_nil]
        rw [StringMap.set_of_ne _ _ (by decide)]
      · rw [StringMap.set_of_ne _ _ (by decide), StringMap.set_self]
      · rfl

variable {e : Entry} {uid : Nat}

theorem World.push_of_ne {u : Nat} (other : u ≠ uid) : (w.push uid e).versions u = w.versions u :=
  append_of_ne _ _ other

theorem World.mem_push {u : Nat} {a : Entry} :
    a ∈ (w.push uid e).versions u ↔ a ∈ w.versions u ∨ u = uid ∧ a = e := mem_append_iff

def Begins (e : Entry) : Prop := (∃ name, e.writer = .pool name) ∧ e.manifest.terms.Idle

inductive Follows (a b : Entry) : Prop
  | claims {ref : OwnerReference} (writer : b.writer = .sandbox ref) (idle : a.manifest.terms.Idle)
      (own : b.manifest.terms.ClaimedBy ref)
  | deletes {name : String} (writer : b.writer = .pool name) (idle : a.manifest.terms.Idle)
      (deleted : b.manifest.deletionTimestamp = true) (same : b.manifest.terms = a.manifest.terms)
  | reports (writer : b.writer = .cluster) (same : b.manifest.terms = a.manifest.terms)

abbrev Histories (w : World) : Prop := Chain (fun _ => Begins) (fun _ => Follows) w.versions

def Settled (t : Terms) : Prop := t.Idle ∨ ∃ ref, t.ClaimedBy ref

theorem Histories.settled (histories : Histories w) {v : Nat} (seen : (w.versions uid)[v]? = some e) :
    Settled e.manifest.terms := by
  refine histories.every (P := fun _ e => Settled e.manifest.terms) (fun _ _ begins => .inl begins.2) ?_ seen
  intro _ a b settled follows
  cases follows with
  | claims _ _ own => exact .inr ⟨_, own⟩
  | deletes _ _ _ same | reports _ same => exact same ▸ settled

theorem Settled.idle {m : Manifest} (settled : Settled m.terms) (warm : m.warm = true) : m.terms.Idle := by
  rcases settled with idle | ⟨ref, own⟩
  · exact idle
  · have state : m.labels slotStateLabelKey = some slotStateClaimed := own.state
    simp [Manifest.warm, StringMap.value, state, slotStateClaimed, slotStateWarm] at warm

def slotSpec : Spec Actor World Op where
  inv := Histories
  rely _ w w' := Extends w.versions w'.versions
  guar _ w w' := Extends w.versions w'.versions
  pre p w o := match o with
    | .update pod => ∀ old, (w.versions pod.uid)[pod.resourceVersion]? = some old → Follows old ⟨p, pod.toManifest⟩
    | .delete pod => ∀ old, (w.versions pod.uid)[pod.resourceVersion]? = some old →
        Follows old ⟨p, { pod.toManifest with deletionTimestamp := true }⟩
    | .create m => Begins ⟨p, m⟩
    | _ => True

def Op.Reads : Op → Prop
  | .external _ | .list _ | .get _ => True
  | _ => False

theorem World.perform_reads {c : Choice} {w' : World} {p : Actor} {o : Op} {a : o.Res} (reads : o.Reads)
    (done : w.perform c p o = .ok (w', a)) : w' = w := by
  cases o with
  | external call =>
    obtain ⟨b, -, same⟩ := ok_of_map done
    cases same
    rfl
  | list selector =>
    cases done
    rfl
  | get name =>
    simp only [perform] at done
    split at done <;> cases done
    rfl
  | update | delete | create => exact reads.elim

theorem World.perform_kept {c : Choice} {w' : World} {p : Actor} {o : Op} {a : o.Res} (histories : Histories w)
    (pre : slotSpec.pre p w o) (fresh : ∀ m, o = .create m → w.versions c.uid = [])
    (done : w.perform c p o = .ok (w', a)) : Histories w' ∧ Extends w.versions w'.versions := by
  cases o with
  | external | list | get =>
    cases perform_reads (by trivial) done
    exact ⟨histories, Extends.refl _⟩
  | update pod =>
    simp only [perform] at done
    split at done
    · cases done
    · split at done <;> cases done
      next current =>
        simp only [World.current, Bool.and_eq_true, decide_eq_true_eq] at current
        exact ⟨Chain.append histories current.2 pre, extends_append _ _ _⟩
  | delete pod =>
    simp only [perform] at done
    split at done
    · cases done
    · split at done <;> cases done
      next current =>
        simp only [World.current, Bool.and_eq_true, decide_eq_true_eq] at current
        have kept : Histories (w.push pod.uid ⟨p, { pod.toManifest with deletionTimestamp := true }⟩) :=
          Chain.append histories current.2 pre
        split
        all_goals exact ⟨kept, extends_append _ _ _⟩
  | create m =>
    simp only [perform] at done
    split at done <;> cases done
    exact ⟨Chain.create histories (fresh m rfl) pre, extends_append _ _ _⟩

/-! ## What a pass does -/

section Passes

variable {α : Type} {p : Actor} {w : World} {pod : Pod} {seen : Pod → Prop} {given : String → Prop} {o : Op}

def Read (w : World) (pod : Pod) : Prop :=
  ∃ e, (w.versions pod.uid)[pod.resourceVersion]? = some e ∧ e.manifest = pod.toManifest

theorem Read.later {w w' : World} (read : Read w pod) (later : Extends w.versions w'.versions) : Read w' pod := by
  obtain ⟨e, seen, same⟩ := read
  exact ⟨e, later.getElem? seen, same⟩

theorem World.read_spec {w : World} {at_ : Nat × Nat} (found : w.read at_ = some pod) : Read w pod := by
  obtain ⟨e, seen, rfl⟩ := Option.map_eq_some_iff.mp found
  exact ⟨e, seen, rfl⟩

theorem World.perform_told {c : Choice} {w' : World} {a : o.Res} (known : ∀ pod, Read w pod → seen pod)
    (suffixes : o = .external .newSlotSuffix → ∀ suffix, c.answer .newSlotSuffix = .ok suffix → given suffix)
    (done : w.perform c p o = .ok (w', a)) : Told given seen o (.ok a) := by
  cases o with
  | external call =>
    cases call with
    | newSlotSuffix =>
      rintro suffix ⟨⟩
      refine suffixes rfl _ ?_
      obtain ⟨b, answer, same⟩ := ok_of_map done
      cases same
      rw [answer]
    | _ => trivial
  | list selector =>
    cases done
    rintro pods ⟨⟩ pod member
    obtain ⟨served, selected⟩ := List.mem_filter.mp member
    obtain ⟨at_, -, found⟩ := List.mem_filterMap.mp served
    exact ⟨known pod (World.read_spec found), fun kv chosen => by simpa using List.all_eq_true.mp selected kv chosen⟩
  | get name =>
    rintro pod ⟨⟩
    simp only [perform] at done
    split at done <;> cases done
    next found =>
      obtain ⟨served, -⟩ := Option.filter_eq_some_iff.mp found
      obtain ⟨at_, -, found⟩ := Option.bind_eq_some_iff.mp served
      exact known _ (World.read_spec found)
  | update | delete | create => trivial

theorem told_error {e : Err} : Told given seen o (.error e) := by
  unfold Told
  split <;> first | trivial | exact fun _ => nofun

theorem Read.idle (read : Read w pod) (warm : pod.warm = true) (histories : Histories w) {old : Entry}
    (seen : (w.versions pod.uid)[pod.resourceVersion]? = some old) :
    old.manifest = pod.toManifest ∧ pod.terms.Idle := by
  obtain ⟨e, found, same⟩ := read
  rw [seen] at found
  cases found
  exact ⟨same, Settled.idle (same ▸ histories.settled seen) warm⟩

def SlotAsks (p : Actor) (seen : Pod → Prop) : Op → Prop
  | .create m => Begins ⟨p, m⟩
  | .update claimed => ∃ sb inject pod, p = .sandbox sb.ref ∧ (∀ m, sb.podMetadata = some m → m.Valid) ∧ seen pod ∧
      pod.warm = true ∧ claim sb pod inject = .ok claimed
  | .delete pod => (∃ name, p = .pool name) ∧ seen pod ∧ pod.warm = true
  | _ => True

theorem SlotAsks.pre (asks : SlotAsks p seen o) (known : ∀ pod, seen pod → Read w pod) (histories : Histories w) :
    slotSpec.pre p w o := by
  cases o with
  | external | list | get => trivial
  | create m => exact asks
  | delete pod =>
    obtain ⟨⟨name, rfl⟩, here, warm⟩ := asks
    intro old found
    obtain ⟨same, idle⟩ := (known pod here).idle warm histories found
    exact .deletes rfl (same ▸ idle) rfl (congrArg Manifest.terms same).symm
  | update claimed =>
    obtain ⟨sb, inject, pod, rfl, valid, here, warm, done⟩ := asks
    intro old found
    have idle : pod.terms.Idle := by
      obtain ⟨e, found, -⟩ := known pod here
      exact ((known pod here).idle warm histories found).2
    obtain ⟨own, uid, version⟩ := claim_spec valid idle done
    rw [uid, version] at found
    obtain ⟨same, -⟩ := (known pod here).idle warm histories found
    exact .claims rfl (same ▸ idle) own

theorem wp_slots {m : Act α}
    (asks : ∀ seen, m.Yields (SlotAsks p seen) (Told (fun _ => True) seen) fun _ => True) (histories : Histories w) :
    wp machine slotSpec p m (fun _ _ => True) w := by
  refine wp_learned (H := fun pod w => Read w pod) (K := fun _ => False) ?_ (fun seen _ => asks seen) histories
    nofun
  intro o w known histories held asks
  have pre : slotSpec.pre p w o := asks.pre held histories
  refine ⟨pre, ?_⟩
  rintro r w' ⟨c, -, action⟩
  have fresh : ∀ m, o = .create m → w.versions c.uid = [] := by
    intro m same
    subst same
    simp only [engine, World.exec] at action
    split at action
    · assumption
    · cases action
  have outcome : withFault w c.fault (w.perform c p o) = (w', r) := by
    cases o with
    | create m =>
      simp only [engine, World.exec, if_pos (fresh m rfl)] at action
      exact Option.some.inj action
    | external | list | get | update | delete => exact Option.some.inj action
  have kept : Histories w' ∧ Extends w.versions w'.versions := by
    rcases effect_of_cases (withFault_cases outcome) with rfl | ⟨a, done⟩
    · exact ⟨histories, Extends.refl _⟩
    · exact World.perform_kept histories pre fresh done
  refine ⟨kept.1, kept.2, fun w'' later _ => ⟨fun pod here => (held pod here).later (kept.2.trans later), fun seen all => ?_⟩⟩
  rcases withFault_cases outcome with ⟨a, rfl, done⟩ | ⟨e, rfl, -⟩
  · exact World.perform_told (fun pod read => all pod (read.later (kept.2.trans later))) (fun _ _ _ => trivial) done
  · exact told_error

theorem warmSlot_idle (hex : String → String) (pool : SwiftSandboxPool) (name egress : String) :
    (warmSlot hex pool name egress).terms.Idle := by
  have absent : ∀ key, key ≠ egressAllowedAnnotation → key ≠ slotProfileAnnotation → key ≠ slotReadinessAnnotation →
      (warmSlot hex pool name egress).annotations key = none := by
    intro key egressKey profileKey readinessKey
    show StringMap.set (StringMap.set (if _ then _ else _) _ _) _ _ key = none
    rw [StringMap.set_of_ne _ _ readinessKey, StringMap.set_of_ne _ _ profileKey]
    split
    · rw [StringMap.set_of_ne _ _ egressKey]
      rfl
    · rfl
  constructor
  · show (warmSlot hex pool name egress).labels slotStateLabelKey = some slotStateWarm
    simp only [warmSlot]
    rw [StringMap.set_of_ne _ _ (by decide), StringMap.set_self]
  · exact absent annSandboxExecAction (by decide) (by decide) (by decide)
  · exact absent annSandboxExecActionID (by decide) (by decide) (by decide)
  · exact absent annSandboxExecActionArgs (by decide) (by decide) (by decide)

theorem asks_pool {hex : String → String} {pool : SwiftSandboxPool} {name : String} (asks : PoolAsks hex pool given seen o) :
    SlotAsks (.pool name) seen o := by
  cases o with
  | external | list | get => trivial
  | create m =>
    obtain ⟨suffix, egress, -, rfl⟩ := asks
    exact ⟨⟨name, rfl⟩, warmSlot_idle hex pool _ egress⟩
  | delete pod => exact ⟨⟨name, rfl⟩, asks⟩
  | update => exact asks.elim

theorem yields_reconcile {hex : String → String} {name : String} :
    (reconcile hex name).Yields (SlotAsks (.pool name) seen) (Told (fun _ => True) seen) fun _ => True := by
  have tends : ∀ {β : Type} {m : Act β} {pool V}, Tends hex pool (fun _ => True) seen m V →
      m.Yields (SlotAsks (.pool name) seen) (Told (fun _ => True) seen) V :=
    fun tends => yields_weaken (fun _ => asks_pool) (fun _ _ told => told) tends
  refine yields_then (yields_attempt (yields_call trivial fun _ _ => trivial) fun _ => trivial) fun found => ?_
  split
  · trivial
  · trivial
  · refine yields_ite (fun _ => yields_ite (fun _ => ?_) fun _ => trivial) fun _ => tends tends_reconcilePool
    refine yields_then (tends tends_deleteWarmSlots) fun _ => ?_
    refine yields_then (tends tends_reconcileSlotGPUGC) fun held => ?_
    exact yields_ite (fun _ => trivial) fun _ => yields_call trivial fun _ _ => trivial

theorem asks_checkout {inject : Option ExecInject} (valid : ∀ m, sb.podMetadata = some m → m.Valid)
    (asks : CheckoutAsks sb inject seen o) : SlotAsks (.sandbox sb.ref) seen o := by
  cases o with
  | external | list | get => trivial
  | update claimed =>
    obtain ⟨pod, here, warm, done⟩ := asks
    exact ⟨sb, inject, pod, rfl, valid, here, warm, done⟩
  | delete | create => exact asks.elim

end Passes

theorem World.rewrite_kept {name : String} {f : Manifest → Manifest} (histories : Histories w)
    (same : ∀ m, (f m).terms = m.terms) :
    Histories (w.rewrite name f) ∧ Extends w.versions (w.rewrite name f).versions := by
  unfold World.rewrite
  split
  · exact ⟨histories, Extends.refl _⟩
  next uid _ =>
    split
    · exact ⟨histories, Extends.refl _⟩
    next e last =>
      have current : (w.versions uid).length = (w.versions uid).length - 1 + 1 := by
        have : w.versions uid ≠ [] := by
          intro empty
          simp [empty] at last
        have := List.length_pos_of_ne_nil this
        omega
      refine ⟨Chain.append histories current ?_, extends_append _ _ _⟩
      intro old seen
      rw [← List.getLast?_eq_getElem?, last] at seen
      cases seen
      exact .reports rfl (same _)

theorem annotate_terms {annotations : List (String × String)}
    (proper : annotations.all (fun kv => !execActionKeys.contains kv.1) = true) (m : Manifest) :
    Manifest.terms { m with annotations := annotations.foldl (fun m kv => m.set kv.1 kv.2) m.annotations } = m.terms := by
  have kept : ∀ key ∈ execActionKeys, ∀ start : StringMap,
      annotations.foldl (fun m kv => m.set kv.1 kv.2) start key = start key := by
    intro key reserved
    induction annotations with
    | nil => exact fun _ => rfl
    | cons kv rest ih =>
      intro start
      simp only [List.all_cons, Bool.and_eq_true] at proper
      have other : key ≠ kv.1 := by
        intro same
        simp [← same, reserved] at proper
      rw [List.foldl_cons, ih proper.2, StringMap.set_of_ne _ _ other]
  simp only [Manifest.terms, kept annSandboxExecAction (by decide), kept annSandboxExecActionID (by decide),
    kept annSandboxExecActionArgs (by decide)]
  rfl

theorem World.event_kept {event : Event} (proper : event.proper = true) (histories : Histories w) :
    Histories (w.event event) ∧ Extends w.versions (w.event event).versions := by
  cases event with
  | annotate name annotations => exact World.rewrite_kept histories fun m => annotate_terms proper m
  | report name phase containerStatuses nodeName => exact World.rewrite_kept histories fun _ => rfl
  | terminate name => exact World.rewrite_kept histories fun _ => rfl
  | remove name => exact ⟨histories, Extends.refl _⟩

theorem suits_slotSpec (hex : String → String) : Suits machine slotSpec (setting hex) where
  refl _ w := Extends.refl w.versions
  trans _ _ _ _ := Extends.trans
  guar _ _ _ _ _ _ _ kept := kept
  crash _ _ _ _ _ _ dies := dies.2 ▸ Extends.refl _
  env w w' histories moves := by
    obtain ⟨event, proper, rfl⟩ := moves
    obtain ⟨kept, extended⟩ := World.event_kept proper histories
    exact ⟨kept, fun _ => extended⟩
  starts p prog w offer histories := by
    refine wp_slots (fun seen => ?_) histories
    cases offer with
    | checkout sb profile inject valid =>
      refine yields_then ?_ fun _ => trivial
      exact yields_weaken (fun _ => asks_checkout valid) (fun _ _ told => told) checks_tryClaimWarmSlot
    | reconcile name => exact yields_reconcile

structure Exclusive (history : List Entry) : Prop where
  once : ∀ (i j : Nat) a b ref ref', history[i]? = some a → history[j]? = some b →
    a.writer = .sandbox ref → b.writer = .sandbox ref' → i = j
  kept : ∀ (i j : Nat) a b ref, i ≤ j → history[i]? = some a → history[j]? = some b →
    a.writer = .sandbox ref → a.manifest.terms.ClaimedBy ref ∧ b.manifest.terms = a.manifest.terms
  made : ∀ (j : Nat) b, history[j]? = some b → b.manifest.claimed = true →
    ∃ (i : Nat) (a : Entry) (ref : OwnerReference), i ≤ j ∧ history[i]? = some a ∧ a.writer = .sandbox ref
  spared : ∀ (i : Nat) a b name, history[i]? = some a → history[i + 1]? = some b → b.writer = .pool name →
    a.manifest.claimed = false

variable {ref : OwnerReference}

theorem Terms.ClaimedBy.not_idle {t : Terms} (own : t.ClaimedBy ref) : ¬ t.Idle := by
  intro idle
  have same := own.state.symm.trans idle.state
  simp [slotStateClaimed, slotStateWarm] at same

theorem Manifest.claimed_iff (m : Manifest) : m.claimed = true ↔ m.terms.slotState = some slotStateClaimed := by
  cases state : m.labels slotStateLabelKey <;>
    simp [Manifest.claimed, Manifest.terms, StringMap.value, state, slotStateClaimed]

section History

variable {w : World} {uid : Nat}

theorem Histories.claim (histories : Histories w) {i : Nat} {a : Entry}
    (seen : (w.versions uid)[i]? = some a) (writer : a.writer = .sandbox ref) :
    a.manifest.terms.ClaimedBy ref ∧
      ∃ (u : Nat) (old : Entry), i = u + 1 ∧ (w.versions uid)[u]? = some old ∧ old.manifest.terms.Idle := by
  cases i with
  | zero =>
    obtain ⟨⟨name, pool⟩, -⟩ := histories.first uid a seen
    cases writer.symm.trans pool
  | succ u =>
    have bound := (List.getElem?_eq_some_iff.mp seen).1
    have before : (w.versions uid)[u]? = some ((w.versions uid)[u]) := List.getElem?_eq_getElem (by omega)
    have follows := histories.step uid u _ a before seen
    cases follows with
    | claims writer' idle own =>
      cases writer.symm.trans writer'
      exact ⟨own, u, _, rfl, before, idle⟩
    | deletes writer' | reports writer' => cases writer.symm.trans writer'

theorem Histories.claimed_kept (histories : Histories w) {i j : Nat} {a b : Entry} (le : i ≤ j)
    (seen : (w.versions uid)[i]? = some a) (later : (w.versions uid)[j]? = some b)
    (own : a.manifest.terms.ClaimedBy ref) : b.manifest.terms = a.manifest.terms := by
  obtain ⟨n, rfl⟩ := Nat.exists_eq_add_of_le le
  have kept := histories.kept_or_broken (P := fun e => e.manifest.terms = a.manifest.terms) (R := fun _ _ => False)
    ?_ seen rfl later
  · rcases kept with same | ⟨_, _, _, _, _, _, _, broken⟩
    · exact same
    · exact broken.elim
  · intro _ c d _ same follows
    cases follows with
    | claims _ idle => exact ((same ▸ own).not_idle idle).elim
    | deletes _ _ _ same' | reports _ same' => exact .inl (same'.trans same)

theorem Histories.exclusive (histories : Histories w) : Exclusive (w.versions uid) := by
  have once : ∀ (i j : Nat) a b ref ref', i < j → (w.versions uid)[i]? = some a → (w.versions uid)[j]? = some b →
      a.writer = .sandbox ref → b.writer = .sandbox ref' → False := by
    intro i j a b ref ref' lt first second writer writer'
    obtain ⟨own, -⟩ := histories.claim first writer
    obtain ⟨-, u, old, rfl, before, idle⟩ := histories.claim second writer'
    have same := histories.claimed_kept (by omega) first before own
    exact (same ▸ own).not_idle idle
  constructor
  · intro i j a b ref ref' first second writer writer'
    rcases Nat.lt_trichotomy i j with lt | same | gt
    · exact (once i j a b ref ref' lt first second writer writer').elim
    · exact same
    · exact (once j i b a ref' ref gt second first writer' writer).elim
  · intro i j a b ref le first second writer
    obtain ⟨own, -⟩ := histories.claim first writer
    exact ⟨own, histories.claimed_kept le first second own⟩
  · intro j b seen claimed
    rw [Manifest.claimed_iff] at claimed
    induction j generalizing b with
    | zero =>
      obtain ⟨-, idle⟩ := histories.first uid b seen
      have same := claimed.symm.trans idle.state
      simp [slotStateClaimed, slotStateWarm] at same
    | succ v ih =>
      have bound := (List.getElem?_eq_some_iff.mp seen).1
      have before : (w.versions uid)[v]? = some ((w.versions uid)[v]) := List.getElem?_eq_getElem (by omega)
      cases histories.step uid v _ b before seen with
      | claims writer => exact ⟨v + 1, b, _, le_rfl, seen, writer⟩
      | deletes _ _ _ same | reports _ same =>
        obtain ⟨i, a, ref, le, found, writer⟩ := ih _ before (same ▸ claimed)
        exact ⟨i, a, ref, by omega, found, writer⟩
  · intro i a b name first second writer
    cases histories.step uid i a b first second with
    | claims writer' | reports writer' => cases writer.symm.trans writer'
    | deletes _ idle =>
      rw [← Bool.not_eq_true, Manifest.claimed_iff]
      intro claimed
      have same := claimed.symm.trans idle.state
      simp [slotStateClaimed, slotStateWarm] at same

end History

/-- However checkouts, launchers' writes and passes of the pools are interleaved, and however old the lists
they work from: every slot pod is claimed once at most, a claim stays as it was written, and no pool deletes a
slot that is claimed. -/
theorem slot_claims_exclusive {hex : String → String} {w : World} {s : Loops Actor World Op Op.Res Err}
    (none : ∀ uid, w.versions uid = []) (runs : Runs hex w s) (uid : Nat) : Exclusive (s.world.versions uid) := by
  have start : Histories w := ⟨fun uid a seen => by simp [none] at seen, fun uid v a b seen => by simp [none] at seen⟩
  exact Histories.exclusive (loopsSound_reach (suits_slotSpec hex) start runs).inv

def smallPool (minWarm : Nat) : SwiftSandboxPool :=
  ⟨"pool", "uid-pool", false, false, none, false, false, minWarm, 0, "shape", ""⟩

private def takes (name : String) : SwiftSandbox := ⟨name, "uid-" ++ name, "pool", none, [], [], [], []⟩

private def workload : ExecInject := ⟨fun _ => .ok "echo"⟩

def calmAnswers (minWarm : Nat) : (call : External) → Except Err call.Res
  | .getPool _ => .ok (smallPool minWarm)
  | .sandboxDecisions | .preparedNodes => .ok []
  | .resolveEgress => .ok ("", none)
  | .slotReadyTimeout | .now => .ok 0
  | .terminating | .reconcileSlotGPUGC => .ok false
  | .resolveImage | .resolveModel | .ensureLauncherPolicy _ => .ok true
  | .checkKernel => .ok ""
  | .newSlotSuffix => .ok "abcde"
  | .patchFinalizers _ _ | .ensureLauncherRBAC | .ensureLauncherIdentity _ | .narrowToScopedRBAC
  | .pullSecretAuth | .pullModelSecretAuth | .allocateSlotGPU _ | .ensureIntentConfigMap _
  | .updateStatus _ => .ok ()

private inductive Pass
  | checkout (name : String) | reconcile

private def slotScript : Script Actor Choice World Op Op.Res Err Pass Event where
  engine := engine
  calls
    | .checkout name => tryClaimWarmSlot id (takes name) "shape" (some workload) >>= fun _ => pure ()
    | .reconcile => reconcile id "pool"
  event := World.event
  check _ _ _ _ := true
  pids := []

private def pass (p : Actor) (call : Pass) (calls : List Choice) : List (LoopMove Actor Choice Pass Event) :=
  .start p call :: calls.map (.op p) ++ [.finish p]

private def sees (minWarm version : Nat) : Choice :=
  { answer := calmAnswers minWarm, listing := [(0, version)], version := some (0, version) }

private def slot : String := "pool-slot-abcde"

private def contended : List (LoopMove Actor Choice Pass Event) :=
  pass (.pool "pool") .reconcile (List.replicate 17 (sees 1 0)) ++
    [.env (.report slot .running [⟨launcherName, true, some 1⟩] "node"),
      .env (.annotate slot [( guestAgentReadyAnnotation, "true")])] ++
    pass (.sandbox (takes "a").ref) (.checkout "a") (List.replicate 3 (sees 1 2)) ++
    pass (.sandbox (takes "b").ref) (.checkout "b") (List.replicate 3 (sees 1 2) ++ [sees 1 3]) ++
    pass (.pool "pool") .reconcile (List.replicate 13 (sees 0 2))

private def noSlots : World := ⟨fun _ => [], fun _ => none⟩

private def Starts (p : Actor) : Pass → Prop
  | .reconcile => p = .pool "pool"
  | .checkout name => p = .sandbox (takes name).ref

private instance (p : Actor) (call : Pass) : Decidable (Starts p call) := by
  cases call <;> unfold Starts <;> infer_instance

private theorem slotScript_fits : slotScript.Fits (setting id) (K := Starts) (V := (·.proper = true)) where
  offers p call known := by
    cases call <;> cases known
    · exact .checkout (takes _) "shape" (some workload) nofun
    · exact .reconcile "pool"
  env event _ proper := ⟨event, proper, rfl⟩

theorem slot_claims_exclusive_contended :
    ∃ s, Runs id noSlots s ∧ (s.world.versions 0).map (fun e => e.writer) =
      [.pool "pool", .cluster, .cluster, .sandbox (takes "a").ref] ∧ Exclusive (s.world.versions 0) := by
  have reached : ∃ s, Runs id noSlots s ∧ (s.world.versions 0).map (fun e => e.writer) =
      [.pool "pool", .cluster, .cluster, .sandbox (takes "a").ref] :=
    exists_of_play slotScript_fits contended (by decide +kernel)
  obtain ⟨s, runs, seen⟩ := reached
  exact ⟨s, runs, seen, slot_claims_exclusive (fun _ => rfl) runs 0⟩

end KubeSwift.Sandbox
