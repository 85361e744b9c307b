import KubeSwift.Sandbox.Checkout

/-! # One sandbox, one slot -/

namespace KubeSwift.Sandbox.Checkout
open Program
open Workload (actionAttempt actionIDFor)

/-! ## Who owns a slot -/

def Owns (w : World) (ref : OwnerReference) (uid : Nat) : Prop :=
  ref.kind = "SwiftSandbox" ∧ ∃ e ∈ w.versions uid, e.manifest.controller = some ref

instance (w : World) (ref : OwnerReference) (uid : Nat) : Decidable (Owns w ref uid) :=
  inferInstanceAs (Decidable (_ ∧ ∃ e ∈ _, _))

def Named (w : World) (uid : Nat) (name : String) : Prop := ∃ e ∈ w.versions uid, e.manifest.name = name

structure Starts (e : Entry) : Prop where
  writer : ∀ ref, e.writer ≠ .sandbox ref
  controller : ∀ ref, e.manifest.controller = some ref → ref.kind ≠ "SwiftSandbox"

inductive Amends (a b : Entry) : Prop
  | claims {ref : OwnerReference} (writer : b.writer = .sandbox ref) (warm : a.manifest.warm = true)
      (own : b.manifest.controller = some ref) (taken : b.manifest.warm = false)
      (name : b.manifest.name = a.manifest.name)
  | keeps (writer : ∀ ref, b.writer = .sandbox ref → a.manifest.controller = some ref)
      (controller : b.manifest.controller = a.manifest.controller) (warm : b.manifest.warm = a.manifest.warm)
      (name : b.manifest.name = a.manifest.name)

structure Sole (w : World) : Prop where
  chain : Chain (fun _ => Starts) (fun _ => Amends) w.versions
  names : ∀ uid uid' name, Named w uid name → Named w uid' name → uid = uid'
  live : ∀ name uid, w.live name = some uid → Named w uid name
  one : ∀ ref uid uid', Owns w ref uid → Owns w ref uid' → uid = uid'

variable {w w' : World}

variable {ref : OwnerReference} {uid : Nat}

theorem Owns.later (owns : Owns w ref uid) (later : Extends w.versions w'.versions) :
    Owns w' ref uid := by
  obtain ⟨kind, e, member, own⟩ := owns
  exact ⟨kind, e, (later uid).subset member, own⟩

theorem Named.later {name : String} (named : Named w uid name) (later : Extends w.versions w'.versions) :
    Named w' uid name := by
  obtain ⟨e, member, same⟩ := named
  exact ⟨e, (later uid).subset member, same⟩

section Slots

variable {w : World} {uid : Nat}

variable {e : Entry}

variable {ref : OwnerReference}

theorem Sole.tame (sole : Sole w) {v : Nat} (seen : (w.versions uid)[v]? = some e) (warm : e.manifest.warm = true)
    (controller : e.manifest.controller = some ref) : ref.kind ≠ "SwiftSandbox" := by
  refine sole.chain.every (P := fun _ e => e.manifest.warm = true → ∀ ref, e.manifest.controller = some ref →
    ref.kind ≠ "SwiftSandbox") (fun _ _ starts _ => starts.controller) ?_ seen warm ref controller
  intro _ a b before amends warm' ref' controller'
  cases amends with
  | claims _ _ _ taken => simp [taken] at warm'
  | keeps _ same state => exact before (state ▸ warm') ref' (same ▸ controller')

theorem Sole.persists (sole : Sole w) (owns : Owns w ref uid) (last : (w.versions uid).getLast? = some e) :
    e.manifest.controller = some ref := by
  obtain ⟨kind, a, member, own⟩ := owns
  obtain ⟨v, seen⟩ := List.mem_iff_getElem?.mp member
  rw [List.getLast?_eq_getElem?] at last
  have bound := (List.getElem?_eq_some_iff.mp seen).1
  obtain ⟨n, far⟩ : ∃ n, (w.versions uid).length - 1 = v + n := ⟨(w.versions uid).length - 1 - v, by omega⟩
  rw [far] at last
  have kept := sole.chain.kept_or_broken (P := fun e => e.manifest.controller = some ref) (R := fun _ _ => False)
    ?_ seen own last
  · rcases kept with here | ⟨_, _, _, _, _, _, _, broken⟩
    · exact here
    · exact broken.elim
  · intro u c d at_ here amends
    cases amends with
    | claims _ warm => exact (sole.tame at_ warm here kind).elim
    | keeps _ same => exact .inl (same.trans here)

theorem Sole.name (sole : Sole w) {a b : Entry} (first : a ∈ w.versions uid) (second : b ∈ w.versions uid) :
    a.manifest.name = b.manifest.name := by
  have same : ∀ e ∈ w.versions uid, ∀ start, (w.versions uid)[0]? = some start →
      e.manifest.name = start.manifest.name := by
    intro e member start begins
    obtain ⟨v, seen⟩ := List.mem_iff_getElem?.mp member
    induction v generalizing e with
    | zero =>
      rw [begins] at seen
      cases seen
      rfl
    | succ v ih =>
      have bound := (List.getElem?_eq_some_iff.mp seen).1
      have before : (w.versions uid)[v]? = some ((w.versions uid)[v]) := List.getElem?_eq_getElem (by omega)
      have earlier := ih _ (List.mem_of_getElem? before) before
      cases sole.chain.step uid v _ e before seen with
      | claims _ _ _ _ name | keeps _ _ _ name => exact name.trans earlier
  cases begins : (w.versions uid)[0]? with
  | none =>
    rw [List.getElem?_eq_none_iff, Nat.le_zero, List.length_eq_zero_iff] at begins
    simp [begins] at first
  | some start => exact (same a first start begins).trans (same b second start begins).symm

theorem owns_push {u : Nat} (owns : Owns (w.push uid e) ref u) :
    Owns w ref u ∨ u = uid ∧ e.manifest.controller = some ref := by
  obtain ⟨kind, a, member, own⟩ := owns
  rcases World.mem_push.mp member with before | ⟨rfl, rfl⟩
  · exact .inl ⟨kind, a, before, own⟩
  · exact .inr ⟨rfl, own⟩

theorem Sole.push (sole : Sole w) {v : Nat} {old : Entry} (current : (w.versions uid).length = v + 1)
    (seen : (w.versions uid)[v]? = some old) (amends : Amends old e)
    (free : ∀ ref u, e.manifest.controller = some ref → Owns w ref u → u = uid) : Sole (w.push uid e) := by
  have name : e.manifest.name = old.manifest.name := by
    cases amends with
    | claims _ _ _ _ name | keeps _ _ _ name => exact name
  have named : ∀ u n, Named (w.push uid e) u n → Named w u n := by
    rintro u n ⟨a, member, rfl⟩
    rcases World.mem_push.mp member with before | ⟨rfl, rfl⟩
    · exact ⟨a, before, rfl⟩
    · exact ⟨old, List.mem_of_getElem? seen, name.symm⟩
  refine ⟨sole.chain.append current ?_, ?_, ?_, ?_⟩
  · intro old' seen'
    rw [seen] at seen'
    cases seen'
    exact amends
  · intro u u' n first second
    exact sole.names u u' n (named u n first) (named u' n second)
  · intro n u here
    exact (sole.live n u here).later (extends_append _ _ _)
  · intro ref u u' first second
    rcases owns_push first with one | ⟨rfl, one⟩
    · rcases owns_push second with other | ⟨rfl, other⟩
      · exact sole.one ref u u' one other
      · exact free ref u other one
    · rcases owns_push second with other | ⟨rfl, -⟩
      · exact (free ref u' one other).symm
      · rfl

theorem last_version (last : (w.versions uid).getLast? = some e) :
    (w.versions uid).length = (w.versions uid).length - 1 + 1 ∧
      (w.versions uid)[(w.versions uid).length - 1]? = some e := by
  have nonempty : w.versions uid ≠ [] := by
    intro empty
    simp [empty] at last
  have := List.length_pos_of_ne_nil nonempty
  rw [List.getLast?_eq_getElem?] at last
  exact ⟨by omega, last⟩

theorem Sole.rewrite (sole : Sole w) (e' : Entry) (last : (w.versions uid).getLast? = some e)
    (writer : ∀ ref, e'.writer = .sandbox ref → e.manifest.controller = some ref)
    (controller : e'.manifest.controller = e.manifest.controller) (warm : e'.manifest.warm = e.manifest.warm)
    (name : e'.manifest.name = e.manifest.name) :
    Sole (w.push uid e') ∧ ∀ ref u, Owns (w.push uid e') ref u → Owns w ref u := by
  obtain ⟨current, seen⟩ := last_version last
  have own : ∀ ref u, Owns (w.push uid e') ref u → Owns w ref u := by
    intro ref u owns
    rcases owns_push owns with before | ⟨rfl, here⟩
    · exact before
    · exact ⟨owns.1, e, List.mem_of_getElem? seen, controller ▸ here⟩
  refine ⟨sole.push current seen (.keeps writer controller warm name) ?_, own⟩
  intro ref u here owns
  exact sole.one ref u uid owns ⟨owns.1, e, List.mem_of_getElem? seen, controller ▸ here⟩

end Slots

/-! ## A claim -/

theorem claim_own {sb : SwiftSandbox} {pod claimed : Pod} {inject : Option ExecInject}
    (done : claim sb pod inject = .ok claimed) :
    claimed.controller = some sb.ref ∧ claimed.warm = false ∧ claimed.name = pod.name ∧ claimed.uid = pod.uid ∧
      claimed.resourceVersion = pod.resourceVersion := by
  have state : (unloaded sb pod).labels slotStateLabelKey = some slotStateClaimed := by
    refine applyPodMetadata_labels _ _ ?_
    show (pod.labels.set slotStateLabelKey slotStateClaimed).set sandboxLabelKey sb.name slotStateLabelKey = _
    rw [StringMap.set_of_ne _ _ (by decide), StringMap.set_self]
  have cold : (unloaded sb pod).warm = false := by
    simp [Manifest.warm, StringMap.value, state, slotStateClaimed, slotStateWarm]
  have owner : (unloaded sb pod).controller = some sb.ref :=
    controller_upsertOwnerRef rfl nonControllerRefs_controller
  have same : (unloaded sb pod).name = pod.name ∧ (unloaded sb pod).uid = pod.uid ∧
      (unloaded sb pod).resourceVersion = pod.resourceVersion := by
    unfold unloaded
    cases sb.podMetadata <;> exact ⟨rfl, rfl, rfl⟩
  rw [claim_eq] at done
  cases inject with
  | none =>
    cases done
    exact ⟨owner, cold, same⟩
  | some workload =>
    obtain ⟨changes, -, rfl⟩ := ok_of_map done
    exact ⟨owner, cold, same⟩

def served (w : World) (c : Choice) (selector : List (String × String)) : List Pod :=
  (c.listing.filterMap w.read).filter fun pod => selector.all fun kv => pod.labels kv.1 = some kv.2

def claimedFor (name : String) : List (String × String) :=
  [(sandboxLabelKey, name), (slotStateLabelKey, slotStateClaimed)]

def Shows (w : World) (ref : OwnerReference) (c : Choice) : Prop :=
  (∀ uid, Owns w ref uid → ∃ pod ∈ served w c (claimedFor ref.name), pod.deletionTimestamp = false) ∧
    ∀ pod ∈ served w c (claimedFor ref.name), pod.deletionTimestamp = false → pod.controller = some ref

def listed : Machine Actor World Op Op.Res Err :=
  engine.machine (fun p w o c => c.fault ≠ some (.conflict, true) ∧
    ∀ ref, p = .sandbox ref → o = .list (claimedFor ref.name) → Shows w ref c) (fun _ _ => True)

def taking : Spec Actor World Op where
  inv := Sole
  rely p w w' := Extends w.versions w'.versions ∧ ∀ ref uid, p = .sandbox ref → Owns w' ref uid → Owns w ref uid
  guar p w w' := Extends w.versions w'.versions ∧ ∀ ref uid, Owns w' ref uid → Owns w ref uid ∨ p = .sandbox ref
  pre _ _ o := match o with
    | .delete _ | .create _ => False
    | _ => True

def Free (ref : OwnerReference) (w : World) : Prop := ∀ uid, ¬ Owns w ref uid

def Holder (ref : OwnerReference) (w : World) (pod : Pod) : Prop := Owns w ref pod.uid ∧ Named w pod.uid pod.name

theorem Holder.later {pod : Pod} (holder : Holder ref w pod) (later : Extends w.versions w'.versions) :
    Holder ref w' pod :=
  ⟨holder.1.later later, holder.2.later later⟩

section Claim

variable {ref : OwnerReference} {w : World} {hex : String → String} {sb : SwiftSandbox} {profile : String} {need : Bool}
  {inject : Option ExecInject}

variable {w' : World} {pod : Pod} {p : Actor}

abbrev Takes (ref : OwnerReference) {α : Type} (P : World → Prop) (m : Act α) (V : α → World → Prop) : Prop :=
  Gives listed taking (.sandbox ref) P m V

instance stable_free : Stable taking (.sandbox ref) (Free ref) :=
  ⟨fun free later uid owns => free uid (later.2 ref uid rfl owns)⟩

instance stable_holder : Stable taking p fun w => Holder ref w pod := ⟨fun holder later => holder.later later.1⟩

instance stable_read : Stable taking p fun w => Read w pod := ⟨fun read later => read.later later.1⟩

theorem idle_taking (p : Actor) (w : World) : taking.guar p w w := ⟨Extends.refl _, fun _ _ owns => .inl owns⟩

variable {c : Choice}

theorem claims_slot (sole : Sole w) (free : Free sb.ref w) {claimed : Pod} (read : Read w pod) (warm : pod.warm = true)
    (made : claim sb pod inject = .ok claimed) (done : w.perform c (.sandbox sb.ref) (.update claimed) = .ok (w', ())) :
    Sole w' ∧ taking.guar (.sandbox sb.ref) w w' ∧ Holder sb.ref w' claimed := by
  obtain ⟨owner, cold, name, uid, version⟩ := claim_own made
  simp only [World.perform] at done
  split at done
  · cases done
  split at done
  · next current =>
    cases done
    simp only [World.current, Bool.and_eq_true, decide_eq_true_eq] at current
    obtain ⟨old, seen, same⟩ := read
    rw [← uid, ← version] at seen
    have mine : ∀ other u, claimed.controller = some other → Owns w other u → u = claimed.uid := by
      intro other u here owns
      rw [owner] at here
      cases here
      exact (free u owns).elim
    have amends : Amends old ⟨.sandbox sb.ref, claimed.toManifest⟩ :=
      .claims rfl (same ▸ warm) owner cold (name.trans (same ▸ rfl))
    have new : (⟨.sandbox sb.ref, claimed.toManifest⟩ : Entry) ∈
        (w.push claimed.uid ⟨.sandbox sb.ref, claimed.toManifest⟩).versions claimed.uid :=
      World.mem_push.mpr (.inr ⟨rfl, rfl⟩)
    refine ⟨sole.push current.2 seen amends mine, ⟨extends_append _ _ _, ?_⟩, ⟨rfl, _, new, owner⟩, _, new, rfl⟩
    intro other u owns
    rcases owns_push owns with before | ⟨rfl, here⟩
    · exact .inl before
    · rw [show (Entry.mk (.sandbox sb.ref) claimed.toManifest).manifest.controller = some sb.ref from owner] at here
      cases here
      exact .inr rfl
  · cases done

variable {P : World → Prop} [Stable taking p P]

theorem takes_tries {o : Op} {U : o.Res → World → Prop} [∀ a, Stable taking p (U a)] (reads : o.Reads)
    (answers : ∀ c w a, Sole w → P w → (∀ ref, p = .sandbox ref → o = .list (claimedFor ref.name) → Shows w ref c) →
      w.perform c p o = .ok (w, a) → U a w) :
    Gives listed taking p P (issue o).attempt fun r w => P w ∧ ∀ a, r = .ok a → U a w := by
  refine gives_tried ?_ ?_
  · intro _ _ _
    cases o with
    | external | list | get => exact trivial
    | update | delete | create => exact reads.elim
  · rintro w r w' sole here ⟨c, ⟨-, shows⟩, action⟩
    have outcome : withFault w c.fault (w.perform c p o) = (w', r) := by
      cases o with
      | external | list | get => exact Option.some.inj action
      | update | delete | create => exact reads.elim
    rcases withFault_cases outcome with ⟨a, rfl, done⟩ | ⟨e, rfl, rfl | ⟨a, done⟩⟩
    · cases World.perform_reads reads done
      refine ⟨sole, idle_taking p w, here, ?_⟩
      rintro _ ⟨⟩
      exact answers c w a sole here shows done
    · exact ⟨sole, idle_taking p w', here, nofun⟩
    · cases World.perform_reads reads done
      exact ⟨sole, idle_taking p w, here, nofun⟩

theorem takes_reads {o : Op} {U : o.Res → World → Prop} [∀ a, Stable taking p (U a)] (reads : o.Reads)
    (answers : ∀ c w a, Sole w → P w → (∀ ref, p = .sandbox ref → o = .list (claimedFor ref.name) → Shows w ref c) →
      w.perform c p o = .ok (w, a) → U a w) : Gives listed taking p P (issue o) fun a w => P w ∧ U a w :=
  gives_attempted (gives_post (fun _ _ here a same => ⟨here.1, here.2 a same⟩) (takes_tries reads answers))

theorem takes_ask {call : External} : Gives listed taking p P (ask call) fun _ => P :=
  gives_post (fun _ _ here => here.1) (takes_reads (U := fun _ _ => True) trivial fun _ _ _ _ _ _ _ => trivial)

def Attempted (ref : OwnerReference) : Option Pod → World → Prop
  | some pod, w => Holder ref w pod
  | none, w => Free ref w

instance stable_attempted {claimed : Option Pod} : Stable taking (.sandbox ref) (Attempted ref claimed) := by
  cases claimed with
  | none => exact stable_free
  | some pod => exact stable_holder

theorem takes_claimSlot (warm : pod.warm = true) : Takes sb.ref (fun w => Free sb.ref w ∧ Read w pod)
    (claimSlot sb pod inject).attempt fun r w =>
      (r = .error .conflict → Free sb.ref w) ∧ ∀ claimed, r = .ok claimed → Holder sb.ref w claimed := by
  rintro w sole ⟨free, read⟩
  rw [Ensures, wp_attempt]
  suffices holds : wp listed taking (.sandbox sb.ref) (claimSlot sb pod inject) (fun r w =>
      (r = .error .conflict → Free sb.ref w) ∧ ∀ claimed, r = .ok claimed → Holder sb.ref w claimed) w by
    refine wp_mono ?_ holds
    rintro r w' here _ ⟨⟩
    exact here
  unfold claimSlot
  cases made : claim sb pod inject with
  | error e => exact ⟨fun _ => free, by rintro _ ⟨⟩⟩
  | ok claimed =>
    refine ⟨trivial, ?_⟩
    rintro r w' ⟨c, ⟨honest, -⟩, action⟩
    have outcome : withFault w c.fault (w.perform c (.sandbox sb.ref) (.update claimed)) = (w', r) :=
      Option.some.inj action
    rcases withFault_cases outcome with ⟨a, rfl, done⟩ | ⟨e, rfl, rfl | ⟨a, done⟩⟩
    · obtain ⟨sole', guar, holder⟩ := claims_slot sole free read warm made done
      refine ⟨sole', guar, fun w'' later _ => ⟨by rintro ⟨⟩, ?_⟩⟩
      rintro _ ⟨⟩
      exact holder.later later.1
    · exact ⟨sole, idle_taking _ w', fun w'' later _ => ⟨fun _ => Stable.later free later, by rintro _ ⟨⟩⟩⟩
    · obtain ⟨sole', guar, -⟩ := claims_slot sole free read warm made done
      refine ⟨sole', guar, fun w'' later _ => ⟨?_, by rintro _ ⟨⟩⟩⟩
      -- it took effect, so what it reported is a fault and no conflict
      rintro ⟨⟩
      rw [done] at outcome
      cases fault : c.fault with
      | none =>
        rw [fault] at outcome
        cases outcome
      | some reported =>
        obtain ⟨e, effect⟩ := reported
        rw [fault] at outcome honest
        cases effect with
        | true =>
          cases outcome
          exact (honest rfl).elim
        | false =>
          cases outcome
          exact Stable.later free later

theorem takes_rereadSlot :
    Gives listed taking p P (rereadSlot pod) fun fresh w => P w ∧ ∀ pod', fresh = some pod' → Read w pod' := by
  refine gives_bind (takes_tries (o := .get pod.name) (U := fun fresh w => Read w fresh) trivial ?_) fun r => ?_
  · intro c w fresh _ _ _ done
    have told : Told (fun _ => True) (Read w) (.get pod.name) (.ok fresh) :=
      World.perform_told (fun _ => id) (fun _ _ _ => trivial) done
    exact told fresh rfl
  · split
    · exact gives_pure fun _ here => ⟨here.1, fun _ => nofun⟩
    · exact gives_fail
    · next fresh =>
      refine gives_pure fun w here => ⟨here.1, fun pod' same => ?_⟩
      split at same
      · cases same
      · cases same
        exact here.2 fresh rfl

theorem takes_claimLoop {attempts : Nat} : Takes sb.ref (fun w => Free sb.ref w ∧ Read w pod)
    (claimLoop hex sb profile need inject attempts pod) (Attempted sb.ref) := by
  induction attempts generalizing pod with
  | zero => exact gives_pure fun _ here => here.1
  | succ attempts ih =>
    unfold claimLoop
    split
    · next takes =>
      refine gives_bind (takes_claimSlot (eligible_warm takes)) fun r => ?_
      split
      · next pod' => exact gives_pure fun _ here => here.2 pod' rfl
      · refine gives_bind (gives_pre (fun _ here => here.1 rfl) takes_rereadSlot) fun fresh => ?_
        cases fresh with
        | none => exact gives_pure fun _ here => here.1
        | some pod' => exact gives_pre (fun _ here => ⟨here.1, here.2 pod' rfl⟩) ih
      · exact gives_fail
    · exact gives_pure fun _ here => here.1

theorem takes_claimFirst {pods : List Pod} : Takes sb.ref (fun w => Free sb.ref w ∧ ∀ pod ∈ pods, Read w pod)
    (claimFirst hex sb profile need inject pods) (Attempted sb.ref) := by
  induction pods with
  | nil => exact gives_pure fun _ here => here.1
  | cons pod rest ih =>
    refine gives_bind (gives_pre ?_ (gives_frame (I := fun w => ∀ pod ∈ rest, Read w pod) ?_ takes_claimLoop)) fun claimed => ?_
    · exact fun w here => ⟨⟨here.1, here.2 pod (by simp)⟩, fun other member => here.2 other (by simp [member])⟩
    · exact fun w w' w'' step later read other member => ((read other member).later step.1).later later.1
    · cases claimed with
      | some claimed => exact gives_pure fun _ here => here.1
      | none => exact gives_pre (fun _ here => here) ih

theorem served_read {selector : List (String × String)} (member : pod ∈ served w c selector) : Read w pod := by
  obtain ⟨at_, -, found⟩ := List.mem_filterMap.mp (List.mem_filter.mp member).1
  exact World.read_spec found

theorem takes_tryClaimWarmSlot :
    Takes sb.ref (Free sb.ref) (tryClaimWarmSlot hex sb profile inject) (Attempted sb.ref) := by
  have chosen : ∀ need, Takes sb.ref (Free sb.ref) (do
      let pods ← issue (.list [(poolLabelKey, sb.poolRef), (slotStateLabelKey, slotStateWarm)])
      let prepared ← ask .preparedNodes
      claimFirst hex sb profile need inject
        (if prepared.isEmpty then pods else inFront (fun p => prepared.contains p.nodeName) pods)) (Attempted sb.ref) := by
    intro need
    refine gives_bind (takes_reads (o := .list _) (U := fun pods w => ∀ pod, pod ∈ pods → Read w pod) trivial ?_)
      fun pods => gives_bind takes_ask fun prepared => gives_pre ?_ takes_claimFirst
    · intro c w pods _ _ _ done pod member
      cases done
      exact served_read member
    · rintro w ⟨free, read⟩
      refine ⟨free, fun pod member => read pod ?_⟩
      split at member
      · exact member
      · exact mem_inFront member
  unfold tryClaimWarmSlot
  split
  · exact chosen _
  · exact gives_bind takes_ask fun decisions => chosen _

theorem takes_findClaimedSlot : Takes sb.ref (fun _ => True) (findClaimedSlot sb) (Attempted sb.ref) := by
  refine gives_bind (takes_reads (o := .list (claimedFor sb.name)) (U := fun pods => Attempted sb.ref
    (pods.find? fun pod => !pod.deletionTimestamp)) trivial ?_) fun pods => gives_pure fun _ here => here.2
  intro c w pods _ _ shows done
  obtain ⟨own, others⟩ := shows sb.ref rfl rfl
  have same : pods = served w c (claimedFor sb.ref.name) := by
    cases done
    rfl
  rw [← same] at own others
  cases found : pods.find? (fun pod => !pod.deletionTimestamp) with
  | none =>
    intro uid owns
    obtain ⟨pod, member, undeleted⟩ := own uid owns
    simpa [undeleted] using List.find?_eq_none.mp found pod member
  | some pod =>
    have undeleted : pod.deletionTimestamp = false := by simpa using List.find?_some found
    have member := List.mem_of_find?_eq_some found
    obtain ⟨e, seen, same'⟩ := served_read (same ▸ member)
    have here := List.mem_of_getElem? seen
    exact ⟨⟨rfl, e, here, same' ▸ others pod member undeleted⟩, e, here, same' ▸ rfl⟩

end Claim

/-! ## A pass -/

def Fit (names : String → Bool) (ref : OwnerReference) (w : World) (podRef : String) : Prop :=
  podRef = "" ∨ (podRef = ref.name ∧ names podRef = false) ∨ ∃ uid, Owns w ref uid ∧ Named w uid podRef

variable {podRef : String}

theorem Fit.later {names : String → Bool} (fit : Fit names ref w podRef)
    (later : Extends w.versions w'.versions) : Fit names ref w' podRef := by
  rcases fit with empty | cold | ⟨uid, owns, named⟩
  · exact .inl empty
  · exact .inr (.inl cold)
  · exact .inr (.inr ⟨uid, owns.later later, named.later later⟩)

structure Upright (names : String → Bool) (st : State) : Prop where
  sole : Sole st.slots
  known : ∀ uid, st.slots.versions uid ≠ [] → uid ∈ st.created
  slotNames : ∀ uid name, Named st.slots uid name → names name = true
  podRefs : ∀ ref, ∀ podRef ∈ st.podRefs ref, Fit names ref st.slots podRef

def Shown (p : Actor) (st : State) (o : Call) (c : Pick) : Prop :=
  match p, o with
  | .sandbox ref, .slot (.list selector) => selector = claimedFor ref.name →
      (∀ uid ∈ st.created, Owns st.slots ref uid →
        ∃ pod ∈ served st.slots c.toChoice selector, pod.deletionTimestamp = false) ∧
      ∀ pod ∈ served st.slots c.toChoice selector, pod.deletionTimestamp = false → pod.controller = some ref
  | _, _ => True

instance (p : Actor) (st : State) (o : Call) (c : Pick) : Decidable (Shown p st o c) := by
  unfold Shown
  split <;> infer_instance

def Happening.Fresh (names : String → Bool) (st : State) : Happening → Prop
  | .slot _ => True
  | .create pool suffix _ _ => names (slotName pool suffix) = true ∧
      ∀ uid ∈ st.created, ∀ e ∈ st.slots.versions uid, e.manifest.name ≠ slotName pool suffix

instance (names : String → Bool) (st : State) (event : Happening) : Decidable (event.Fresh names st) := by
  cases event <;> unfold Happening.Fresh <;> infer_instance

inductive OffersApart (hex : String → String) (names : String → Bool) : Actor → Pass Unit → Prop
  | pass (x : Pooled) (apart : names x.sb.name = false) :
      OffersApart hex names (.sandbox x.sb.ref) (reconcilePooled hex x)

def apart (hex : String → String) (names : String → Bool) : Setting Actor State Call Call.Res Err where
  env st st' := ∃ event : Happening, event.proper = true ∧
    st' = if event.Fresh names st then st.happens hex event else st
  quiet _ _ := False
  offered := OffersApart hex names

def currentMachine : Machine Actor State Call Call.Res Err :=
  checkoutEngine.machine (fun p st o c => c.honest ∧ Shown p st o c) (fun _ _ => True)

def owning (names : String → Bool) : Spec Actor State Call where
  inv := Upright names
  rely p st st' := taking.rely p st.slots st'.slots
  guar p st st' := taking.guar p st.slots st'.slots
  pre _ _ _ := True

section Pass

variable {names : String → Bool} {st : State} {ref : OwnerReference} {hex : String → String} {sb : SwiftSandbox}

variable {w : World} {version : Nat}

theorem Upright.slots (upright : Upright names st) (sole : Sole w) (later : Extends st.slots.versions w.versions)
    (old : ∀ uid, w.versions uid ≠ [] → st.slots.versions uid ≠ []) : Upright names { st with slots := w } where
  sole := sole
  known uid some := upright.known uid (old uid some)
  slotNames uid name named := by
    obtain ⟨a, member, rfl⟩ := named
    obtain ⟨b, before⟩ := List.exists_mem_of_ne_nil _ (old uid (List.ne_nil_of_mem member))
    have same : b.manifest.name = a.manifest.name := sole.name ((later uid).subset before) member
    exact upright.slotNames uid _ ⟨b, before, same⟩
  podRefs ref podRef member := (upright.podRefs ref podRef member).later later

theorem push_old {e : Entry} (nonempty : w.versions uid ≠ []) (u : Nat)
    (some : (w.push uid e).versions u ≠ []) : w.versions u ≠ [] := by
  by_cases same : u = uid
  · exact same ▸ nonempty
  · rwa [World.push_of_ne same] at some

theorem perform_old {w' : World} {c : Choice} {p : Actor} {o : Op} {a : o.Res} (pre : taking.pre p w o)
    (done : w.perform c p o = .ok (w', a)) (uid : Nat) (some : w'.versions uid ≠ []) : w.versions uid ≠ [] := by
  cases o with
  | external | list | get => rwa [World.perform_reads (by trivial) done] at some
  | update pod =>
    simp only [World.perform] at done
    split at done
    · cases done
    split at done
    · next current =>
      cases done
      simp only [World.current, Bool.and_eq_true, decide_eq_true_eq] at current
      refine push_old ?_ uid some
      intro empty
      simp [empty] at current
    · cases done
  | delete | create => exact pre.elim

theorem embeds_slots : Embeds listed taking currentMachine (owning names) (.sandbox ref) Call.slot
    (fun _ answer => answer) State.slots where
  rely _ _ later := later
  inv _ upright := upright.sole
  pre _ _ _ _ := trivial
  step st o r st' upright action := by
    obtain ⟨c, ⟨honest, shown⟩, action⟩ := action
    obtain ⟨⟨w, answer⟩, inner, same⟩ := Option.map_eq_some_iff.mp action
    cases same
    refine ⟨answer, rfl, c.toChoice, ⟨honest, ?_⟩, inner⟩
    intro ref' mine list
    cases mine
    subst list
    obtain ⟨own, others⟩ := shown rfl
    refine ⟨?_, others⟩
    intro uid owns
    have nonempty : st.slots.versions uid ≠ [] := by
      obtain ⟨-, e, member, -⟩ := owns
      exact List.ne_nil_of_mem member
    exact own uid (upright.known uid nonempty) owns
  kept st o r st' upright pre action sole guar := by
    obtain ⟨c, -, action⟩ := action
    obtain ⟨⟨w, answer⟩, inner, same⟩ := Option.map_eq_some_iff.mp action
    cases same
    refine ⟨upright.slots sole guar.1 ?_, guar⟩
    intro uid some
    have outcome : withFault st.slots c.fault (st.slots.perform c.toChoice (.sandbox ref) o) = (w, answer) := by
      cases o with
      | external | list | get | update => exact Option.some.inj inner
      | delete | create => exact pre.elim
    rcases effect_of_cases (withFault_cases outcome) with same | ⟨a, done⟩
    · exact same ▸ some
    · exact perform_old pre done uid some

variable {α : Type} {slot : Pod}

abbrev Keeps (names : String → Bool) (ref : OwnerReference) {α : Type} (P : State → Prop) (m : Pass α)
    (V : α → State → Prop) : Prop :=
  Gives currentMachine (owning names) (.sandbox ref) P m V

theorem keeps_onSlots {act : Act α} {P : World → Prop} {V : α → World → Prop} (takes : Takes ref P act V) :
    Keeps names ref (fun st => P st.slots) (onSlots act) fun a st => V a st.slots := by
  intro st upright here
  refine wp_lift embeds_slots ?_ upright (takes st.slots upright.sole here)
  intro r st' _ holds a same
  refine holds a ?_
  cases r <;> cases same
  rfl

def Fits (names : String → Bool) (ref : OwnerReference) (w : World) : Own → Prop
  | .writeStatus ref' podRef _ => ref' = ref ∧ Fit names ref w podRef
  | .patch name _ | .delete name => ∃ uid, Owns w ref uid ∧ Named w uid name
  | _ => True

theorem amend_own {w' : World} {name : String} {f : Manifest → Manifest} (sole : Sole w)
    (owns : Owns w ref uid) (named : Named w uid name) (done : amend w (.sandbox ref) name f = .ok w')
    (controller : ∀ m, (f m).controller = m.controller) (warm : ∀ m, (f m).warm = m.warm)
    (same : ∀ m, (f m).name = m.name) :
    Sole w' ∧ taking.guar (.sandbox ref) w w' ∧ ∀ u, w'.versions u ≠ [] → w.versions u ≠ [] := by
  unfold amend at done
  split at done
  · cases done
  · next uid' here =>
    split at done <;> cases done
    next e last =>
      cases sole.names uid' uid name (sole.live name uid' here) named
      have mine := sole.persists owns last
      obtain ⟨sole', less⟩ := sole.rewrite ⟨.sandbox ref, f e.manifest⟩ last
        (fun _ writer => by cases writer; exact mine) (controller _) (warm _) (same _)
      refine ⟨sole', ⟨extends_append _ _ _, fun ref' u owns' => .inl (less ref' u owns')⟩, ?_⟩
      refine push_old ?_
      intro empty
      simp [empty] at last

theorem Sole.remove (sole : Sole w) (name : String) :
    Sole { w with live := Function.update w.live name none } where
  chain := sole.chain
  names := sole.names
  live n uid here := by
    by_cases same : n = name
    · subst same
      simp at here
    · have kept : Function.update w.live name none n = w.live n := Function.update_of_ne same _ _
      exact sole.live n uid (kept ▸ here)
  one := sole.one

theorem perform_own {c : Pick} {o : Own} {st' : State} {a : o.Res} (upright : Upright names st)
    (fits : Fits names ref st.slots o) (done : st.perform c (.sandbox ref) o = .ok (st', a)) :
    Upright names st' ∧ taking.guar (.sandbox ref) st.slots st'.slots := by
  have still : taking.guar (.sandbox ref) st.slots st.slots := ⟨Extends.refl _, fun _ _ owns => .inl owns⟩
  cases o with
  | readStatus ref' =>
    simp only [State.perform] at done
    split at done <;> cases done
    exact ⟨upright, still⟩
  | writeStatus ref' podRef version =>
    obtain ⟨rfl, fit⟩ := fits
    simp only [State.perform] at done
    split at done <;> cases done
    refine ⟨{ upright with podRefs := ?_ }, still⟩
    intro other written (member : written ∈ append st.podRefs ref' podRef other)
    rcases mem_append_iff.mp member with before | ⟨rfl, rfl⟩
    · exact upright.podRefs other written before
    · exact fit
  | patch name changes =>
    obtain ⟨uid, owns, named⟩ := fits
    obtain ⟨w, amended, same⟩ := ok_of_map done
    cases same
    obtain ⟨sole, guar, old⟩ := amend_own upright.sole owns named amended (fun _ => rfl) (fun _ => rfl) fun _ => rfl
    exact ⟨upright.slots sole guar.1 old, guar⟩
  | delete name =>
    obtain ⟨uid, owns, named⟩ := fits
    obtain ⟨w, amended, same⟩ := ok_of_map done
    cases same
    obtain ⟨sole, guar, old⟩ := amend_own upright.sole owns named amended (fun _ => rfl) (fun _ => rfl) fun _ => rfl
    split
    · exact ⟨upright.slots (sole.remove name) guar.1 old, guar⟩
    · exact ⟨upright.slots sole guar.1 old, guar⟩
  | query q =>
    obtain ⟨b, -, same⟩ := ok_of_map done
    cases same
    exact ⟨upright, still⟩

variable {P : State → Prop}

theorem keeps_own {o : Own} {I : World → Prop} (lasts : ∀ w w', Extends w.versions w'.versions → I w → I w')
    (fits : ∀ st, P st → Fits names ref st.slots o ∧ I st.slots) : Keeps names ref P (own o).attempt fun _ st => I st.slots := by
  have : Stable (owning names) (.sandbox ref) fun st => I st.slots := ⟨fun here later => lasts _ _ later.1 here⟩
  refine gives_tried (fun _ _ _ => trivial) ?_
  rintro st r st' upright here ⟨c, -, action⟩
  obtain ⟨fit, kept⟩ := fits st here
  rcases effect_of_cases (withFault_cases (Option.some.inj action)) with rfl | ⟨a, done⟩
  · exact ⟨upright, idle_taking _ _, kept⟩
  · obtain ⟨upright', guar⟩ := perform_own upright fit done
    exact ⟨upright', guar, lasts _ _ guar.1 kept⟩

theorem keeps_reads [Stable (owning names) (.sandbox ref) P] {o : Own} {U : o.Res → State → Prop}
    [∀ a, Stable (owning names) (.sandbox ref) (U a)]
    (answers : ∀ c st st' a, Upright names st → st.perform c (.sandbox ref) o = .ok (st', a) → st' = st ∧ U a st) :
    Keeps names ref P (own o) fun a st => P st ∧ U a st := by
  refine gives_performed (fun c st => st.perform c (.sandbox ref) o)
    (fun c st st' r ran => withFault_cases (Option.some.inj ran)) (fun st => idle_taking _ st.slots) (fun _ _ _ => trivial) ?_
  intro c st st' a upright here _ done
  obtain ⟨rfl, holds⟩ := answers c st st' a upright done
  exact ⟨upright, idle_taking _ _, here, holds⟩

theorem keeps_query [Stable (owning names) (.sandbox ref) P] {q : Query} : Keeps names ref P (query q) fun _ => P := by
  refine gives_post (fun _ _ here => here.1) (keeps_reads (U := fun _ _ => True) ?_)
  intro c st st' a _ done
  obtain ⟨b, -, same⟩ := ok_of_map done
  cases same
  exact ⟨rfl, trivial⟩

abbrev Mine (ref : OwnerReference) (name : String) (w : World) : Prop := ∃ uid, Owns w ref uid ∧ Named w uid name

theorem Mine.later {name : String} {w' : World} (later : Extends w.versions w'.versions) (mine : Mine ref name w) :
    Mine ref name w' := by
  obtain ⟨uid, owns, named⟩ := mine
  exact ⟨uid, owns.later later, named.later later⟩

instance stable_fit : Stable (owning names) (.sandbox ref) fun st => Fit names ref st.slots podRef :=
  ⟨fun fit later => fit.later later.1⟩

instance stable_mine {name : String} : Stable (owning names) (.sandbox ref) fun st => Mine ref name st.slots :=
  ⟨fun mine later => mine.later later.1⟩

instance stable_unowned : Stable (owning names) (.sandbox ref) fun st => Free ref st.slots :=
  ⟨fun free later => stable_free.later free later⟩

theorem keeps_writeStatus : Keeps names sb.ref (fun st => Fit names sb.ref st.slots podRef)
    (writeStatus sb podRef version) fun _ _ => True :=
  gives_attempted (gives_post (fun _ _ _ _ _ => trivial) (keeps_own (I := fun _ => True) (fun _ _ _ => id)
    fun _ fit => ⟨⟨rfl, fit⟩, trivial⟩))

theorem keeps_unset : Keeps names sb.ref P (writeStatus sb "" version) fun _ _ => True :=
  gives_pre (fun _ _ => .inl rfl) keeps_writeStatus

theorem keeps_coldFallback (apart : names sb.name = false) :
    Keeps names sb.ref P (coldFallback sb version) fun _ _ => True :=
  gives_pre (fun _ _ => .inr (.inl ⟨rfl, apart⟩)) (gives_bind keeps_query fun _ => keeps_writeStatus)

theorem keeps_none {m : Pass Unit} {V : Option α → State → Prop} (ends : Keeps names ref P m fun _ _ => True)
    (nothing : ∀ st, V none st) : Keeps names ref P (do m; return none) V :=
  gives_bind ends fun _ => gives_pure fun st _ => nothing st

def Took (ref : OwnerReference) : Option (SwiftSandbox × Pod) → State → Prop
  | some (sb', slot), st => sb'.ref = ref ∧ Mine ref slot.name st.slots
  | none, _ => True

theorem Holder.mine (holder : Holder ref w slot) : Mine ref slot.name w := ⟨slot.uid, holder⟩

variable {x : Pooled}

theorem keeps_claimWarmSlot {profile : String} {arts : Option (List String)} (apart : names sb.name = false) :
    Keeps names sb.ref (fun st => Free sb.ref st.slots) (claimWarmSlot hex x sb profile version arts) (Took sb.ref) := by
  refine gives_bind (keeps_onSlots takes_tryClaimWarmSlot) fun slot => ?_
  cases slot with
  | some slot => exact gives_pure fun _ holder => ⟨rfl, Holder.mine holder⟩
  | none =>
    dsimp only
    split
    · refine gives_bind (keeps_onSlots (P := Free (skipArtifacts sb).ref) takes_tryClaimWarmSlot) fun slot => ?_
      cases slot with
      | some slot => exact gives_pure fun _ holder => ⟨rfl, Holder.mine holder⟩
      | none =>
        refine keeps_none ?_ fun _ => trivial
        exact keeps_coldFallback apart
    · exact keeps_none (keeps_coldFallback apart) fun _ => trivial

theorem keeps_takeSlot {pool : Option PoolView} (apart : names sb.name = false) :
    Keeps names sb.ref (fun st => Free sb.ref st.slots) (takeSlot hex x sb pool version) (Took sb.ref) := by
  unfold takeSlot
  cases pool with
  | none => exact keeps_none (keeps_coldFallback apart) fun _ => trivial
  | some pool =>
    dsimp only
    split
    · exact keeps_none keeps_unset fun _ => trivial
    refine gives_bind keeps_query fun waits => ?_
    split
    · exact keeps_none keeps_unset fun _ => trivial
    split
    · exact keeps_none (keeps_coldFallback apart) fun _ => trivial
    unfold injectAndClaim
    split
    · exact keeps_claimWarmSlot apart
    refine gives_bind keeps_query fun arts => ?_
    cases arts with
    | none => exact keeps_none keeps_unset fun _ => trivial
    | some arts => exact keeps_claimWarmSlot apart

theorem keeps_recordSlot :
    Keeps names sb.ref (fun st => Mine sb.ref slot.name st.slots) (recordSlot sb slot version) fun _ _ => True :=
  gives_bind keeps_query fun _ => gives_pre (fun _ mine => .inr (.inr mine)) keeps_writeStatus

theorem keeps_patchExecAction {wanted : List (String × String)} :
    Keeps names sb.ref (fun st => Mine sb.ref slot.name st.slots) (patchExecAction slot wanted)
      fun _ st => Mine sb.ref slot.name st.slots := by
  refine gives_attempted (gives_post (fun _ _ mine _ _ => mine) (keeps_own (fun _ _ => Mine.later) ?_))
  exact fun _ mine => ⟨mine, mine⟩

theorem keeps_stampExecAction {actionID : String} {workload : ExecInject} :
    Keeps names sb.ref (fun st => Mine sb.ref slot.name st.slots) (stampExecAction slot actionID workload)
      fun _ st => Mine sb.ref slot.name st.slots :=
  gives_bind (U := fun _ st => Mine sb.ref slot.name st.slots) (gives_ofExcept fun _ mine _ _ => mine) fun _ =>
    keeps_patchExecAction

theorem keeps_delete {name : String} : Keeps names ref (fun st => Mine ref name st.slots) (own (.delete name)).attempt
    fun _ st => Mine ref name st.slots :=
  keeps_own (fun _ _ => Mine.later) fun _ mine => ⟨mine, mine⟩

theorem keeps_inject :
    Keeps names sb.ref (fun st => Mine sb.ref slot.name st.slots) (inject x sb slot version) fun _ _ => True := by
  unfold inject
  split
  · exact keeps_recordSlot
  refine gives_bind keeps_query fun _ => gives_bind keeps_query fun arts => ?_
  cases arts with
  | none => exact gives_bind keeps_delete fun _ => keeps_unset
  | some arts => exact gives_bind keeps_stampExecAction fun _ => keeps_recordSlot

theorem keeps_resolveArtifacts :
    Keeps names sb.ref P (resolveArtifacts sb version) fun r _ => ∀ sb', r = some sb' → sb'.ref = sb.ref := by
  unfold resolveArtifacts
  split
  · refine gives_pure ?_
    rintro _ _ _ ⟨⟩
    rfl
  refine gives_pre (fun _ _ => trivial) (gives_bind keeps_query fun resolved => ?_)
  cases resolved with
  | failed | waits => exact keeps_none keeps_unset fun _ => nofun
  | ready statuses =>
    refine gives_pure ?_
    rintro _ _ _ ⟨⟩
    rfl

theorem keeps_checkOut (apart : names x.sb.name = false) :
    Keeps names x.sb.ref (fun _ => True) (checkOut hex x version) fun _ _ => True := by
  refine gives_bind keeps_query fun pool => ?_
  split
  · exact keeps_coldFallback apart
  refine gives_bind keeps_resolveArtifacts fun found => ?_
  cases found with
  | none => exact gives_done
  | some sb =>
    intro st upright resolved
    have same : sb.ref = x.sb.ref := resolved sb rfl
    have own : names sb.name = false := by
      rw [show sb.name = x.sb.name from congrArg OwnerReference.name same]
      exact apart
    rw [← same]
    refine gives_bind (keeps_onSlots takes_findClaimedSlot) (fun slot => ?_) st upright trivial
    cases slot with
    | some slot => exact gives_pre (fun _ holder => Holder.mine holder) keeps_inject
    | none =>
      refine gives_bind (keeps_takeSlot own) fun took => ?_
      cases took with
      | none => exact gives_done
      | some taken =>
        rintro st' upright' ⟨same', mine⟩
        rw [← same'] at mine ⊢
        exact keeps_inject st' upright' mine

theorem keeps_reconcileClaimedSlot :
    Keeps names x.sb.ref (fun st => Mine x.sb.ref podRef st.slots) (reconcileClaimedSlot x podRef version)
      fun _ _ => True := by
  have writes : ∀ {name}, name = podRef → Keeps names x.sb.ref (fun st => Mine x.sb.ref name st.slots)
      (writeStatus x.sb podRef version) fun _ st => Mine x.sb.ref name st.slots := by
    rintro _ rfl
    refine gives_attempted (gives_post (fun _ _ mine _ _ => mine) (keeps_own (fun _ _ => Mine.later) ?_))
    exact fun _ mine => ⟨⟨rfl, .inr (.inr mine)⟩, mine⟩
  have ends : ∀ {name}, name = podRef → Keeps names x.sb.ref (fun st => Mine x.sb.ref name st.slots)
      (writeStatus x.sb podRef version) fun _ _ => True := fun same => gives_post (fun _ _ _ => trivial) (writes same)
  have : Stable taking (.sandbox x.sb.ref) fun w => Mine x.sb.ref podRef w := ⟨fun mine later => mine.later later.1⟩
  refine gives_bind (keeps_onSlots (takes_tries (o := .get podRef) (P := fun w => Mine x.sb.ref podRef w)
    (U := fun slot _ => slot.name = podRef) trivial ?_)) fun r => ?_
  · intro c w slot _ _ _ done
    simp only [World.perform] at done
    split at done <;> cases done
    next found => simpa using (Option.filter_eq_some_iff.mp found).2
  · split
    · exact gives_pre (fun _ here => here.1) (ends rfl)
    · exact gives_fail
    · next slot =>
      intro st upright here
      have name : slot.name = podRef := here.2 slot rfl
      have mine : Mine x.sb.ref slot.name st.slots := name ▸ here.1
      refine gives_bind (keeps_query (P := fun st => Mine x.sb.ref slot.name st.slots)) (fun outcome => ?_) st upright mine
      cases outcome with
      | keep => exact ends name
      | consume => exact gives_bind keeps_delete fun _ => ends name
      | again arts =>
        dsimp only
        split
        · exact ends name
        · refine gives_bind (U := fun _ st => Mine x.sb.ref slot.name st.slots) (gives_ofExcept fun _ mine _ _ => mine)
            fun _ => gives_bind (writes name) fun _ => ?_
          exact gives_post (fun _ _ _ => trivial) keeps_patchExecAction

theorem keeps_reconcilePooled (apart : names x.sb.name = false) :
    Keeps names x.sb.ref (fun _ => True) (reconcilePooled hex x) fun _ _ => True := by
  refine gives_bind (keeps_reads (o := .readStatus x.sb.ref) (P := fun _ => True)
    (U := fun read st => Fit names x.sb.ref st.slots read.1) ?_) fun (podRef, version) => ?_
  · intro c st st' a upright done
    simp only [State.perform] at done
    split at done <;> cases done
    next found =>
      refine ⟨rfl, ?_⟩
      rcases List.mem_cons.mp (List.mem_of_getElem? found) with empty | written
      · exact .inl empty
      · exact upright.podRefs _ _ written
  · refine gives_pre (fun _ here => here.2) ?_
    dsimp only
    split
    · next slot =>
      intro st upright fit
      rcases fit with empty | cold | mine
      · exact (slot.1 empty).elim
      · exact (slot.2 cold.1).elim
      · exact keeps_reconcileClaimedSlot st upright mine
    split
    · exact gives_bind keeps_query fun _ => keeps_writeStatus
    · exact gives_pre (fun _ _ => trivial) (keeps_checkOut apart)

end Pass

section Runs

variable {names : String → Bool} {hex : String → String} {st : State}

theorem Sole.written {w : World} {f : Manifest → Manifest} (sole : Sole w) (name : String)
    (controller : ∀ m, (f m).controller = m.controller) (warm : ∀ m, (f m).warm = m.warm)
    (same : ∀ m, (f m).name = m.name) :
    Sole (w.rewrite name f) ∧ Extends w.versions (w.rewrite name f).versions ∧
      (∀ ref uid, Owns (w.rewrite name f) ref uid → Owns w ref uid) ∧
      ∀ uid, (w.rewrite name f).versions uid ≠ [] → w.versions uid ≠ [] := by
  unfold World.rewrite
  split
  · exact ⟨sole, Extends.refl _, fun _ _ owns => owns, fun _ some => some⟩
  split
  · exact ⟨sole, Extends.refl _, fun _ _ owns => owns, fun _ some => some⟩
  next uid _ e last =>
    obtain ⟨sole', less⟩ := sole.rewrite ⟨.cluster, f e.manifest⟩ last nofun (controller _) (warm _) (same _)
    refine ⟨sole', extends_append _ _ _, less, push_old ?_⟩
    intro empty
    simp [empty] at last

theorem upright_event (upright : Upright names st) (event : Event) :
    Upright names { st with slots := st.slots.event event } ∧
      ∀ p, taking.rely p st.slots (st.slots.event event) := by
  have written : ∀ {name f}, (∀ m : Manifest, (f m).controller = m.controller) →
      (∀ m : Manifest, (f m).warm = m.warm) → (∀ m : Manifest, (f m).name = m.name) →
      Upright names { st with slots := st.slots.rewrite name f } ∧
        ∀ p, taking.rely p st.slots (st.slots.rewrite name f) := by
    intro name f controller warm same
    obtain ⟨sole, later, less, old⟩ := upright.sole.written name controller warm same
    exact ⟨upright.slots sole later old, fun _ => ⟨later, fun ref uid _ owns => less ref uid owns⟩⟩
  cases event with
  | annotate | report | terminate =>
    simp only [World.event]
    refine written ?_ ?_ ?_
    all_goals exact fun _ => rfl
  | remove name =>
    exact ⟨upright.slots (upright.sole.remove name) (Extends.refl _) fun _ some => some,
      fun _ => ⟨Extends.refl _, fun _ _ _ owns => owns⟩⟩

theorem upright_create {pool : SwiftSandboxPool} {suffix egress : String} (upright : Upright names st)
    (fresh : (Happening.create pool suffix egress uid).Fresh names st) :
    Upright names (st.happens hex (.create pool suffix egress uid)) ∧
      ∀ p, taking.rely p st.slots (st.happens hex (.create pool suffix egress uid)).slots := by
  obtain ⟨slotty, unused⟩ := fresh
  simp only [State.happens]
  split
  swap
  · exact ⟨upright, fun _ => ⟨Extends.refl _, fun _ _ _ owns => owns⟩⟩
  next free =>
    generalize made : (⟨.pool pool.name, warmSlot hex pool (slotName pool suffix) egress⟩ : Entry) = e
    have controller : e.manifest.controller = some pool.ref := by
      subst made
      rfl
    have name : e.manifest.name = slotName pool suffix := by
      subst made
      rfl
    have less : ∀ ref u, Owns (st.slots.push uid e) ref u → Owns st.slots ref u := by
      intro ref u owns
      rcases owns_push owns with before | ⟨-, here⟩
      · exact before
      · rw [controller] at here
        cases here
        have kind : ("SwiftSandboxPool" : String) = "SwiftSandbox" := owns.1
        exact absurd kind (by decide)
    have named : ∀ u n, Named (st.slots.push uid e) u n → Named st.slots u n ∨ u = uid ∧ n = slotName pool suffix := by
      rintro u n ⟨a, member, rfl⟩
      rcases World.mem_push.mp member with before | ⟨rfl, rfl⟩
      · exact .inl ⟨a, before, rfl⟩
      · exact .inr ⟨rfl, name⟩
    have unnamed : ∀ u, ¬ Named st.slots u (slotName pool suffix) := by
      rintro u ⟨a, member, same⟩
      exact unused u (upright.known u (List.ne_nil_of_mem member)) a member same
    have begins : Starts e := by
      refine ⟨?_, ?_⟩
      · subst made
        exact nofun
      · intro ref here
        rw [controller] at here
        cases here
        show ("SwiftSandboxPool" : String) ≠ "SwiftSandbox"
        decide
    have later : Extends st.slots.versions (st.slots.push uid e).versions := extends_append _ _ _
    refine ⟨⟨⟨upright.sole.chain.create free.2 begins, ?_, ?_, ?_⟩, ?_, ?_, ?_⟩, fun _ => ⟨later, fun ref u _ => less ref u⟩⟩
    · intro u u' n first second
      rcases named u n first with one | ⟨rfl, rfl⟩
      · rcases named u' n second with other | ⟨rfl, rfl⟩
        · exact upright.sole.names u u' n one other
        · exact (unnamed u one).elim
      · rcases named u' _ second with other | ⟨rfl, -⟩
        · exact (unnamed u' other).elim
        · rfl
    · intro n u (here : Function.update st.slots.live (slotName pool suffix) (some uid) n = some u)
      by_cases same : n = slotName pool suffix
      · subst same
        rw [Function.update_self] at here
        cases here
        exact ⟨e, World.mem_push.mpr (.inr ⟨rfl, rfl⟩), name⟩
      · rw [Function.update_of_ne same] at here
        exact (upright.sole.live n u here).later later
    · exact fun ref u u' first second => upright.sole.one ref u u' (less ref u first) (less ref u' second)
    · intro u some
      by_cases same : u = uid
      · simp [same]
      · exact List.mem_cons_of_mem _ (upright.known u (World.push_of_ne (w := st.slots) same ▸ some))
    · intro u n here
      rcases named u n here with before | ⟨-, rfl⟩
      · exact upright.slotNames u n before
      · exact slotty
    · exact fun ref podRef member => (upright.podRefs ref podRef member).later later

theorem suits_owning (hex : String → String) (names : String → Bool) :
    Suits currentMachine (owning names) (apart hex names) where
  refl _ _ := ⟨Extends.refl _, fun _ _ _ owns => owns⟩
  trans _ _ _ _ first second := ⟨first.1.trans second.1, fun ref uid mine owns =>
    first.2 ref uid mine (second.2 ref uid mine owns)⟩
  guar p q st st' other _ _ guar := by
    refine ⟨guar.1, ?_⟩
    intro ref uid mine owns
    rcases guar.2 ref uid owns with before | same
    · exact before
    · exact (other (mine.trans same.symm)).elim
  crash _ _ _ _ _ _ dies := dies.2 ▸ ⟨Extends.refl _, fun _ _ _ owns => owns⟩
  env st st' upright moves := by
    obtain ⟨event, -, rfl⟩ := moves
    split
    · next fresh =>
      cases event with
      | slot event => exact upright_event upright event
      | create pool suffix egress uid => exact upright_create upright fresh
    · exact ⟨upright, fun _ => ⟨Extends.refl _, fun _ _ _ owns => owns⟩⟩
  starts p prog st offer upright := by
    cases offer with
    | pass x apart => exact wp_of_ensures (keeps_reconcilePooled apart st upright trivial)

structure OwnSlots (st : State) : Prop where
  one : ∀ ref uid uid', Owns st.slots ref uid → Owns st.slots ref uid' → uid = uid'
  injected : ∀ ref uid, ∀ e ∈ st.slots.versions uid, e.writer = .sandbox ref → e.manifest.controller = some ref
  recorded : ∀ ref, ∀ podRef ∈ st.podRefs ref, podRef ≠ "" → ∀ uid e, (st.slots.versions uid).getLast? = some e →
    e.manifest.name = podRef → e.manifest.controller = some ref

theorem Sole.writes {w : World} (sole : Sole w) {ref : OwnerReference} {e : Entry}
    (member : e ∈ w.versions uid) (writer : e.writer = .sandbox ref) : e.manifest.controller = some ref := by
  obtain ⟨v, seen⟩ := List.mem_iff_getElem?.mp member
  cases v with
  | zero => exact ((sole.chain.first uid e seen).writer ref writer).elim
  | succ v =>
    have bound := (List.getElem?_eq_some_iff.mp seen).1
    have before : (w.versions uid)[v]? = some ((w.versions uid)[v]) := List.getElem?_eq_getElem (by omega)
    cases sole.chain.step uid v _ e before seen with
    | claims writer' _ own =>
      cases writer.symm.trans writer'
      exact own
    | keeps writes same => exact same.trans (writes ref writer)

theorem Upright.ownSlots (upright : Upright names st) : OwnSlots st where
  one := upright.sole.one
  injected _ _ _ member writer := upright.sole.writes member writer
  recorded ref podRef member nonempty uid e last name := by
    have here : Named st.slots uid podRef := ⟨e, List.mem_of_getLast? last, name⟩
    rcases upright.podRefs ref podRef member with empty | cold | ⟨uid', owns, named⟩
    · exact (nonempty empty).elim
    · have slotty := upright.slotNames uid podRef here
      simp [cold.2] at slotty
    · cases upright.sole.names uid' uid podRef named here
      exact upright.sole.persists owns last

/-- However passes of pooled sandboxes and what happens to slots are interleaved, whatever fails and whatever other
lists show: as long as each list of the slots claimed for a sandbox's name shows those the sandbox owns, undeleted, and
no undeleted one of another object, and names of slots are neither used again nor a sandbox's, every sandbox has one slot
at most, injects into no other, and records no other. -/
theorem one_sandbox_one_slot {s : Loops Actor State Call Call.Res Err}
    (runs : LoopsReach currentMachine (apart hex names) noSandboxes s) : OwnSlots s.world := by
  have start : Upright names noSandboxes := by
    refine ⟨⟨⟨fun _ _ => nofun, fun _ _ _ _ => nofun⟩, ?_, fun _ _ => nofun, ?_⟩, fun _ some => (some rfl).elim, ?_,
      fun _ _ => nofun⟩
    · rintro _ _ _ ⟨_, ⟨⟩, _⟩
    · rintro _ _ _ ⟨_, _, ⟨⟩, _⟩
    · rintro _ _ ⟨_, ⟨⟩, _⟩
  exact (loopsSound_reach (suits_owning hex names) start runs).inv.ownSlots

end Runs

private def pooled (uid : String) : Pooled :=
  ⟨⟨"a", uid, "pool", none, [], [], [], []⟩, ["run"], none, fun _ _ => .ok "echo"⟩

private def objectRef (uid : String) : OwnerReference := (pooled uid).sb.ref

private def calm : (call : External) → Except Err call.Res
  | .sandboxDecisions | .preparedNodes => .ok []
  | _ => .error .other

private def granted : (q : Query) → Except Err q.Res
  | .getPool => .ok (some ⟨"shape", []⟩)
  | .resolveArtifacts => .ok (.ready [])
  | .checkSecretEnv => .ok false
  | .warmArtifactArgs => .ok (some [])
  | .ensureLauncherIdentity _ | .adoptSlotObjects _ | .createLaunch | .followLaunch => .ok ()
  | .outcome _ => .ok .keep

private def serves (listing : List (Nat × Nat)) : Pick := { answer := calm, listing, replies := granted }

private def lost : Pick := { answer := calm, replies := granted, fault := some (.other, false) }

private def claimScript (event : Happening → State → State) (check : Actor → State → Call → Pick → Bool) :
    Script Actor Pick State Call Call.Res Err String Happening where
  engine := checkoutEngine
  calls uid := reconcilePooled id (pooled uid)
  event := event
  check := check
  pids := []

private def shapePool : SwiftSandboxPool :=
  ⟨"pool", "uid-pool", false, false, none, false, false, 1, 0, "shape", ""⟩

private def warmed (suffix : String) (uid : Nat) : List (LoopMove Actor Pick String Happening) :=
  [.env (.create shapePool suffix "" uid),
    .env (.slot (.report ("pool-slot-" ++ suffix) .running [⟨launcherName, true, some 1⟩] "node")),
    .env (.slot (.annotate ("pool-slot-" ++ suffix) [( guestAgentReadyAnnotation, "true")]))]

private def passOf (uid : String) (calls : List Pick) : List (LoopMove Actor Pick String Happening) :=
  .start (.sandbox (objectRef uid)) uid :: calls.map (.op (.sandbox (objectRef uid))) ++ [.finish (.sandbox (objectRef uid))]

private def claimAndLose : List Pick := List.replicate 9 (serves [(0, 2)]) ++ [lost]

private def claimTwice : List (LoopMove Actor Pick String Happening) :=
  warmed "aaaaa" 0 ++ warmed "bbbbb" 1 ++ passOf "1" claimAndLose ++ passOf "1" (List.replicate 10 (serves [(1, 2), (0, 2)]))

private def adoptNamesake : List (LoopMove Actor Pick String Happening) :=
  warmed "aaaaa" 0 ++ passOf "1" claimAndLose ++ passOf "2" (List.replicate 8 (serves [(0, 3)]))

private def anyEvent (event : Happening) (st : State) : State := st.happens id event

private def isHonest (_ : Actor) (_ : State) (_ : Call) (c : Pick) : Bool := decide c.honest

private theorem checkouts_fits : (claimScript anyEvent isHonest).Fits (checkouts id) (fun _ _ _ c => c.honest)
    (K := fun p uid => p = .sandbox (objectRef uid)) (V := (·.proper = true)) where
  passes _ _ _ _ checked := of_decide_eq_true checked
  offers p uid same := same ▸ .pass (pooled uid)
  env event _ proper := ⟨event, proper, rfl⟩

/-- A list that is behind makes one sandbox the owner of two slots. One that is up to date makes a sandbox inject
into, and record, the slot of another object that had its name. -/
theorem one_sandbox_one_slot_stale :
    (∃ s, CheckoutRuns id s ∧ Owns s.world.slots (objectRef "1") 0 ∧ Owns s.world.slots (objectRef "1") 1) ∧
    ∃ s, CheckoutRuns id s ∧ (∃ e ∈ s.world.slots.versions 0, e.writer = .sandbox (objectRef "2") ∧
        e.manifest.controller = some (objectRef "1")) ∧ s.world.podRefs (objectRef "2") = ["pool-slot-aaaaa"] := by
  constructor
  · exact exists_of_play checkouts_fits claimTwice (by decide +kernel)
  · exact exists_of_play checkouts_fits adoptNamesake (by decide +kernel)

private def others (name : String) : Bool := name ≠ "a"

private def freshEvent (event : Happening) (st : State) : State :=
  if event.Fresh others st then st.happens id event else st

private def isShown (p : Actor) (st : State) (o : Call) (c : Pick) : Bool := decide (c.honest ∧ Shown p st o c)

private def claimAndFind : List (LoopMove Actor Pick String Happening) :=
  warmed "aaaaa" 0 ++ warmed "bbbbb" 1 ++ passOf "1" claimAndLose ++ passOf "1" (List.replicate 5 (serves [(0, 3), (1, 2)]))

private theorem apart_fits : (claimScript freshEvent isShown).Fits (apart id others) (fun p st o c => c.honest ∧ Shown p st o c)
    (K := fun p uid => p = .sandbox (objectRef uid)) (V := (·.proper = true)) where
  passes _ _ _ _ checked := of_decide_eq_true checked
  offers p uid same := same ▸ .pass (pooled uid) (show others "a" = false by decide)
  env event _ proper := ⟨event, proper, rfl⟩

theorem one_sandbox_one_slot_found :
    ∃ s, LoopsReach currentMachine (apart id others) noSandboxes s ∧ Owns s.world.slots (objectRef "1") 0 ∧
      s.world.podRefs (objectRef "1") = ["pool-slot-aaaaa"] ∧ OwnSlots s.world := by
  have played : ∃ s, LoopsReach currentMachine (apart id others) noSandboxes s ∧ Owns s.world.slots (objectRef "1") 0 ∧
      s.world.podRefs (objectRef "1") = ["pool-slot-aaaaa"] :=
    exists_of_play apart_fits claimAndFind (by decide +kernel)
  obtain ⟨s, runs, owns, recorded⟩ := played
  exact ⟨s, runs, owns, recorded, one_sandbox_one_slot runs⟩

end KubeSwift.Sandbox.Checkout
