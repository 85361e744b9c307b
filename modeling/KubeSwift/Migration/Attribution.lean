import KubeSwift.Migration.Operations

/-! # Whose action a result is about

The migrations of one guest, each with its own control loop, over the same pods. Who gave an action is recorded beside
the pods. -/

namespace KubeSwift.Migration
open Program

def ActionID.owner : ActionID → Option String
  | .recv mig _ | .send mig _ | .cancel mig | .cancelSend mig => some mig
  | .absent | .other _ => none

structure Shared (ι : Type) where
  objects : ι → Option SwiftMigration
  created : ι → Bool
  cluster : World
  given : String → List (ActionID × ι)
  reporter : String → Option ι
  answerer : String → Option ι

section Model

variable {ι : Type} [DecidableEq ι]

def Shared.view (w : Shared ι) (p : ι) : World := { w.cluster with migration := w.objects p }

def Shared.given' (w : Shared ι) (p : ι) (pods : String → Option Pod) (name : String) : List (ActionID × ι) :=
  match w.cluster.pods name, pods name with
  | some old, some pod => if pod.actionID = old.actionID then w.given name else (pod.actionID, p) :: w.given name
  | _, _ => []

def Shared.answerer' (w : Shared ι) (p : ι) (pods : String → Option Pod) (name : String) : Option ι :=
  match w.cluster.pods name, pods name with
  | some old, some pod => if pod.cancelResultID = old.cancelResultID then w.answerer name else some p
  | _, _ => none

def Shared.putBack (w : Shared ι) (p : ι) (cluster : World) : Shared ι where
  objects := Function.update w.objects p cluster.migration
  created := w.created
  cluster := cluster
  given := w.given' p cluster.pods
  reporter := w.reporter
  answerer := w.answerer' p cluster.pods

def sharedEngine : Engine ι Choice (Shared ι) Op Op.Res Err where
  exec p c w o := (World.exec c (w.view p) o).map fun (cluster, r) => (w.putBack p cluster, r)
  crash _ w := w

def shared : Machine ι (Shared ι) Op Op.Res Err := sharedEngine.machine (fun _ _ _ _ => True) (fun _ _ => True)

def Shared.setPod (w : Shared ι) (name : String) (pod : Option Pod) (reporter answerer : Option ι) : Shared ι :=
  { w with
    cluster := w.cluster.setPod name pod
    reporter := Function.update w.reporter name reporter
    answerer := Function.update w.answerer name answerer }

inductive Event (nameOf : ι → String) (w : Shared ι) : Shared ι → Prop
  | create {p : ι} {mig : SwiftMigration} (fresh : w.created p = false) (name : mig.name = nameOf p) :
      Event nameOf w { w with
        objects := Function.update w.objects p (some mig), created := Function.update w.created p true }
  | edit {p : ι} {old mig : SwiftMigration} (was : w.objects p = some old) (name : mig.name = old.name) :
      Event nameOf w { w with objects := Function.update w.objects p (some mig) }
  | remove {p : ι} : Event nameOf w { w with objects := Function.update w.objects p none }
  | report {name : String} {pod : Pod} {status : Report} {id : ActionID} {detail : String} {q : ι}
      (there : w.cluster.pods name = some pod) (given : (id, q) ∈ w.given name) :
      Event nameOf w (w.setPod name (some { pod with status, statusID := id, statusDetail := detail }) (some q)
        (w.answerer name))
  | answer {name : String} {pod : Pod} {result : CancelResult} {id : ActionID} {detail : String} {q : ι}
      (there : w.cluster.pods name = some pod) (given : (id, q) ∈ w.given name) :
      Event nameOf w (w.setPod name (some { pod with
        cancelResult := result, cancelResultID := id, cancelResultDetail := detail }) (w.reporter name) (some q))
  -- a pod changes in what is not an annotation of a migration
  | change {name : String} {old pod : Pod} (was : w.cluster.pods name = some old)
      (action : pod.actionID = old.actionID) (status : pod.statusID = old.statusID)
      (result : pod.cancelResultID = old.cancelResultID) :
      Event nameOf w (w.setPod name (some pod) (w.reporter name) (w.answerer name))
  | start {name : String} {pod : Pod} (absent : w.cluster.pods name = none) (action : pod.actionID = .absent)
      (status : pod.statusID = .absent) (result : pod.cancelResultID = .absent) :
      Event nameOf w { w.setPod name (some pod) none none with given := Function.update w.given name [] }
  | lose {name : String} : Event nameOf w (w.setPod name none none none)
  | guest {guest : Option SwiftGuest} {profiles : String → Option GPU.SwiftGPUProfileSpec} {gpus : GPU.World} :
      Event nameOf w { w with cluster := { w.cluster with guest, profiles, gpus } }

def migrations (nameOf : ι → String) : Setting ι (Shared ι) Op Op.Res Err where
  env := Event nameOf
  quiet _ _ := False
  offered _ prog := ∃ mtls, prog = reconcile mtls

end Model

def Credited {ι : Type} (nameOf : ι → String) (id : ActionID) (author : Option ι) : Prop :=
  ∀ name, id.owner = some name → ∃ q, author = some q ∧ nameOf q = name

structure Accounted {ι : Type} (nameOf : ι → String) (w : Shared ι) : Prop where
  objects : ∀ p mig, w.objects p = some mig → mig.name = nameOf p
  given : ∀ name id q, (id, q) ∈ w.given name → Credited nameOf id (some q)
  reporter : ∀ name pod, w.cluster.pods name = some pod → Credited nameOf pod.statusID (w.reporter name)
  answerer : ∀ name pod, w.cluster.pods name = some pod → Credited nameOf pod.cancelResultID (w.answerer name)

structure SignedPatch (name : String) (base wanted : Pod) : Prop where
  action : wanted.actionID = base.actionID ∨ wanted.actionID.owner = none ∨ wanted.actionID.owner = some name
  answer : wanted.cancelResultID = base.cancelResultID ∨ wanted.cancelResultID.owner = some name

def Signed (name : String) : Op → Prop
  | .patchPod _ base wanted => SignedPatch name base wanted
  | .createPod _ pod => pod.actionID = .absent ∧ pod.statusID = .absent ∧ pod.cancelResultID = .absent
  | _ => True

def NamedAnswer (name : String) : (o : Op) → Except Err o.Res → Prop
  | .getMigration, .ok mig | .patchFinalizer _, .ok mig | .patchStatus _ _, .ok mig => mig.name = name
  | _, _ => True

theorem PodPatch.signed {mig : SwiftMigration} {base wanted : Pod} (patch : PodPatch mig base wanted) :
    SignedPatch mig.name base wanted := by
  constructor
  · rcases patch.action with ⟨-, same⟩ | ⟨-, id⟩ | ⟨-, id⟩ | ⟨-, id⟩
    · exact .inl same
    · exact .inr (.inl (by rw [id]; rfl))
    all_goals exact .inr (.inr (by rw [id]; rfl))
  · rcases patch.answer with same | id
    · exact .inl same
    · exact .inr (by rw [id]; rfl)

theorem handling_signed (mig : SwiftMigration) : Handling mig (Signed mig.name) where
  getGuest := trivial
  getProfile _ := trivial
  clock _ := trivial
  check _ := trivial
  ensure _ := trivial
  patchGuest _ _ := trivial
  patchPod _ _ _ patch := patch.signed
  gpu _ := trivial
  getPod _ := trivial
  deletePod _ _ := trivial
  receive _ _ := ⟨.inr (.inr rfl), .inl rfl⟩
  createPod _ _ _ _ := ⟨rfl, rfl, rfl⟩
  patchGuestStatus _ _ _ := trivial

theorem passing_signed (name : String) : Passing (fun mig => mig.name = name) (Signed name) (NamedAnswer name) where
  handling mig here := here ▸ handling_signed mig
  sends _ here _ _ _ := ⟨.inr (.inr (congrArg some here)), .inl rfl⟩
  getMigration := trivial
  writes o _ := by cases o <;> trivial
  read _ answer := answer
  flagged _ _ answer := answer
  written _ _ _ answer := answer

section Steps

variable {w w' : World} {c : Choice} {o : Op} {a : o.Res} {name : String}

theorem perform_name (named : ∀ mig, w.migration = some mig → mig.name = name) (done : w.perform c o = .ok (w', a)) :
    (∀ mig, w'.migration = some mig → mig.name = name) ∧ NamedAnswer name o (.ok a) := by
  refine ⟨fun mig here => ?_, ?_⟩
  · obtain ⟨old, was, rewritten⟩ := World.perform_old done here
    exact (congrArg SwiftMigration.name rewritten.same).trans (named old was)
  · cases o with
    | getMigration | patchFinalizer | patchStatus =>
      obtain ⟨mig, here, same⟩ := World.found_ok done
      obtain ⟨-, rfl⟩ := Prod.mk.inj same
      exact named mig here
    | _ => trivial

inductive PodMove (name : String) : Option Pod → Option Pod → Prop
  | gone {before : Option Pod} : PodMove name before none
  | fresh {pod : Pod} (action : pod.actionID = .absent) (status : pod.statusID = .absent)
      (result : pod.cancelResultID = .absent) : PodMove name none (some pod)
  | moved {old pod : Pod} (status : pod.statusID = old.statusID)
      (action : pod.actionID = old.actionID ∨ pod.actionID.owner = none ∨ pod.actionID.owner = some name)
      (result : pod.cancelResultID = old.cancelResultID ∨ pod.cancelResultID.owner = some name) :
      PodMove name (some old) (some pod)

theorem PodMove.same (name : String) (pod : Option Pod) : PodMove name pod pod := by
  cases pod with
  | none => exact .gone
  | some pod => exact .moved rfl (.inl rfl) (.inl rfl)

theorem perform_podMove (signed : Signed name o) (done : w.perform c o = .ok (w', a)) (pod : String) :
    PodMove name (w.pods pod) (w'.pods pod) := by
  have step := World.perform_pods done pod
  generalize w.pods pod = before at step ⊢
  generalize w'.pods pod = after at step ⊢
  cases step with
  | same => exact .same name before
  | @patch base wanted old op there =>
    subst op there
    refine .moved rfl ?_ ?_
    · simp only [Pod.merge, patched]
      split
      · exact .inl rfl
      · next changed => exact .inr (signed.action.resolve_left fun same => changed same.symm)
    · simp only [Pod.merge, patched]
      split
      · exact .inl rfl
      · next changed => exact .inr (signed.answer.resolve_left fun same => changed same.symm)
  | create op absent =>
    subst op absent
    exact .fresh signed.1 signed.2.1 signed.2.2
  | @delete force old op there =>
    subst there
    cases force with
    | true => exact .gone
    | false => exact .moved rfl (.inl rfl) (.inl rfl)

end Steps

section Accounted

variable {ι : Type} {nameOf : ι → String} {w : Shared ι}

theorem Credited.unowned (id : ActionID) (author : Option ι) (unowned : id.owner = none) : Credited nameOf id author := by
  intro name owned
  rw [unowned] at owned
  cases owned

variable {p : ι}

theorem Credited.own {id : ActionID} (owned : id.owner = none ∨ id.owner = some (nameOf p)) :
    Credited nameOf id (some p) := by
  intro name here
  rcases owned with unowned | owned
  · rw [unowned] at here
    cases here
  · rw [owned] at here
    cases here
    exact ⟨p, rfl, rfl⟩

variable [DecidableEq ι]

variable (accounted : Accounted nameOf w)
include accounted

theorem Accounted.putBack {cluster : World} (object : ∀ mig, cluster.migration = some mig → mig.name = nameOf p)
    (pods : ∀ name, PodMove (nameOf p) (w.cluster.pods name) (cluster.pods name)) :
    Accounted nameOf (w.putBack p cluster) where
  objects q mig here := by
    by_cases same : q = p
    · subst same
      simp only [Shared.putBack, Function.update_self] at here
      exact object mig here
    · simp only [Shared.putBack, Function.update_of_ne same] at here
      exact accounted.objects q mig here
  given name id q member := by
    have move := pods name
    simp only [Shared.putBack, Shared.given'] at member
    split at member
    · next old pod was there =>
      rw [was, there] at move
      cases move with
      | moved status action result =>
        split at member
        · exact accounted.given name id q member
        · next changed =>
          rcases List.mem_cons.mp member with same | earlier
          · cases same
            exact .own (action.resolve_left changed)
          · exact accounted.given name id q earlier
    · simp at member
  reporter name pod there := by
    have move := pods name
    have there : cluster.pods name = some pod := there
    rw [there] at move
    generalize was : w.cluster.pods name = before at move
    cases move with
    | fresh action status result => exact .unowned _ _ (by rw [status]; rfl)
    | @moved old _ status action result =>
      rw [status]
      exact accounted.reporter name old was
  answerer name pod there := by
    have move := pods name
    have there : cluster.pods name = some pod := there
    simp only [Shared.putBack, Shared.answerer']
    rw [there] at move ⊢
    generalize was : w.cluster.pods name = before at move
    cases move with
    | fresh action status result => exact .unowned _ _ (by rw [result]; rfl)
    | @moved old _ status action result =>
      dsimp only
      split
      · next same =>
        rw [same]
        exact accounted.answerer name old was
      · next changed => exact .own (.inr (result.resolve_left changed))

theorem accounted_step {w' : Shared ι} {o : Op} {r : Except Err o.Res}
    (signed : Signed (nameOf p) o) (action : shared.step p w o r w') :
    NamedAnswer (nameOf p) o r ∧ Accounted nameOf w' := by
  obtain ⟨c, -, action⟩ := action
  simp only [sharedEngine] at action
  obtain ⟨⟨cluster, answer⟩, done, same⟩ := Option.map_eq_some_iff.mp action
  cases same
  have named : ∀ mig, (w.view p).migration = some mig → mig.name = nameOf p := accounted.objects p
  have failed : ∀ e : Err, NamedAnswer (nameOf p) o (.error e) := by
    intro e
    cases o <;> trivial
  have performed : ∀ a, (w.view p).perform c o = .ok (cluster, a) →
      NamedAnswer (nameOf p) o (.ok a) ∧ Accounted nameOf (w.putBack p cluster) := by
    intro a does
    obtain ⟨object, answer⟩ := perform_name named does
    have moves := perform_podMove signed does
    exact ⟨answer, accounted.putBack object moves⟩
  rcases withFault_cases (Option.some.inj done) with ⟨a, rfl, does⟩ | ⟨e, rfl, rfl | ⟨a, does⟩⟩
  · exact performed a does
  · exact ⟨failed e, accounted.putBack named fun name => .same _ _⟩
  · exact ⟨failed e, (performed a does).2⟩

omit [DecidableEq ι] in
theorem Accounted.setPod {name : String} {pod : Option Pod} {reporter answerer : Option ι}
    (report : ∀ new, pod = some new → Credited nameOf new.statusID reporter)
    (answer : ∀ new, pod = some new → Credited nameOf new.cancelResultID answerer) :
    Accounted nameOf (w.setPod name pod reporter answerer) where
  objects := accounted.objects
  given := accounted.given
  reporter other new there := by
    simp only [Shared.setPod, World.setPod_pods] at there ⊢
    by_cases same : other = name
    · subst same
      rw [if_pos rfl] at there
      rw [Function.update_self]
      exact report new there
    · rw [if_neg same] at there
      rw [Function.update_of_ne same]
      exact accounted.reporter other new there
  answerer other new there := by
    simp only [Shared.setPod, World.setPod_pods] at there ⊢
    by_cases same : other = name
    · subst same
      rw [if_pos rfl] at there
      rw [Function.update_self]
      exact answer new there
    · rw [if_neg same] at there
      rw [Function.update_of_ne same]
      exact accounted.answerer other new there

theorem Accounted.setObject {object : Option SwiftMigration}
    (named : ∀ mig, object = some mig → mig.name = nameOf p) (created : ι → Bool) :
    Accounted nameOf { w with objects := Function.update w.objects p object, created } where
  objects q mig here := by
    by_cases same : q = p
    · subst same
      simp only [Function.update_self] at here
      exact named mig here
    · simp only [Function.update_of_ne same] at here
      exact accounted.objects q mig here
  given := accounted.given
  reporter := accounted.reporter
  answerer := accounted.answerer

theorem accounted_event {w' : Shared ι} (event : Event nameOf w w') : Accounted nameOf w' := by
  cases event with
  | create fresh name =>
    apply accounted.setObject
    intro mig same
    cases same
    exact name
  | @edit p old _ was name =>
    apply accounted.setObject
    intro mig same
    cases same
    exact name.trans (accounted.objects p old was)
  | remove =>
    apply accounted.setObject
    intro mig same
    cases same
  | @report name pod _ id _ q there given =>
    apply accounted.setPod
    · intro new same
      cases same
      exact accounted.given name id q given
    · intro new same
      cases same
      exact accounted.answerer name pod there
  | @answer name pod _ id _ q there given =>
    apply accounted.setPod
    · intro new same
      cases same
      exact accounted.reporter name pod there
    · intro new same
      cases same
      exact accounted.given name id q given
  | @change name old pod was action status result =>
    apply accounted.setPod
    · intro new same
      cases same
      rw [status]
      exact accounted.reporter name old was
    · intro new same
      cases same
      rw [result]
      exact accounted.answerer name old was
  | @start name pod absent action status result =>
    have set : Accounted nameOf (w.setPod name (some pod) none none) := by
      apply accounted.setPod
      · intro new same
        cases same
        exact .unowned _ _ (by rw [status]; rfl)
      · intro new same
        cases same
        exact .unowned _ _ (by rw [result]; rfl)
    refine { set with given := ?_ }
    intro other id q member
    by_cases same : other = name
    · subst same
      simp only [Function.update_self, List.not_mem_nil] at member
    · simp only [Function.update_of_ne same] at member
      exact accounted.given other id q member
  | lose =>
    apply accounted.setPod
    · intro new same
      cases same
    · intro new same
      cases same
  | guest => exact { accounted with }

end Accounted

section Runs

variable {ι : Type} [DecidableEq ι] {nameOf : ι → String}

def creditSpec (nameOf : ι → String) : Spec ι (Shared ι) Op where
  inv := Accounted nameOf
  rely _ _ _ := True
  guar _ _ _ := True
  pre _ _ _ := True

theorem suits_migrations : Suits shared (creditSpec nameOf) (migrations nameOf) where
  refl _ _ := trivial
  trans _ _ _ _ _ _ := trivial
  guar _ _ _ _ _ _ _ _ := trivial
  crash _ _ _ _ _ _ _ := trivial
  env _ _ inv event := ⟨accounted_event inv event, fun _ => trivial⟩
  starts p prog w offer inv := by
    obtain ⟨mtls, rfl⟩ := offer
    have passes := (passing_signed (nameOf p)).reconcile mtls
    refine wp_mono (fun _ _ _ => trivial) (wp_yields (P := Accounted nameOf) ?_ passes inv)
    intro o w signed accounted
    refine ⟨trivial, ?_⟩
    intro r w' action
    obtain ⟨answer, accounted'⟩ := accounted_step accounted signed action
    exact ⟨answer, accounted', trivial, fun _ _ inv' => inv'⟩

structure Untouched (w : Shared ι) : Prop where
  objects : ∀ p, w.objects p = none
  given : ∀ name, w.given name = []
  pods : ∀ name pod, w.cluster.pods name = some pod → pod.statusID = .absent ∧ pod.cancelResultID = .absent

omit [DecidableEq ι] in
theorem Untouched.accounted {w : Shared ι} (untouched : Untouched w) : Accounted nameOf w where
  objects p mig here := by
    rw [untouched.objects p] at here
    cases here
  given name id q member := by
    rw [untouched.given name] at member
    cases member
  reporter name pod there := .unowned _ _ (by rw [(untouched.pods name pod there).1]; rfl)
  answerer name pod there := .unowned _ _ (by rw [(untouched.pods name pod there).2]; rfl)

/-- Where no two migrations have one name, a report or an answer under an id of a migration (as any pass of
it computes its ids) is about an action that this migration gave. -/
theorem results_credited_to_author (distinct : Function.Injective nameOf) {w : Shared ι} (untouched : Untouched w)
    {s : Loops ι (Shared ι) Op Op.Res Err} (reach : LoopsReach shared (migrations nameOf) w s) {p : ι}
    {mig : SwiftMigration} (here : s.world.objects p = some mig) {name : String} {pod : Pod}
    (there : s.world.cluster.pods name = some pod) {version : SwiftMigration} (same : version.name = mig.name)
    {id : ActionID} (own : id ∈ [sendActionID version, recvActionID version, cancelID version, cancelSendID version]) :
    (pod.statusID = id → s.world.reporter name = some p) ∧
      (pod.cancelResultID = id → s.world.answerer name = some p) := by
  have accounted : Accounted nameOf s.world :=
    (loopsSound_reach suits_migrations untouched.accounted reach).inv
  have owned : id.owner = some (nameOf p) := by
    rw [← accounted.objects p mig here, ← same]
    simp only [List.mem_cons, List.not_mem_nil, or_false] at own
    rcases own with rfl | rfl | rfl | rfl <;> rfl
  have author : ∀ {author}, Credited nameOf id author → author = some p := by
    intro author credited
    obtain ⟨q, rfl, same⟩ := credited (nameOf p) owned
    rw [distinct same]
  constructor
  · rintro rfl
    exact author (accounted.reporter name pod there)
  · rintro rfl
    exact author (accounted.answerer name pod there)

end Runs

private inductive Happening
  | create (p : Bool) | delete (p : Bool) | ready (name : String)
  | report (name : String) (status : Report) (id : ActionID) (q : Bool)

private def uidOf (p : Bool) : String := if p then "bbbbbb" else "aaaaaa"

private def Happening.event (nameOf : Bool → String) : Happening → Shared Bool → Shared Bool
  | .create p, w =>
    if w.created p = false then
      { w with
        objects := Function.update w.objects p (some { (default : SwiftMigration) with
          name := nameOf p, uid := uidOf p, guestRef := "vm", target := "b", specMode := .live })
        created := Function.update w.created p true }
    else w
  | .delete p, w =>
    match w.objects p with
    | some mig => { w with objects := Function.update w.objects p (some { mig with deleting := true }) }
    | none => w
  | .ready name, w =>
    match w.cluster.pods name with
    | some pod => w.setPod name (some { pod with phase := .running, ready := true, podIP := "10.0.0.2" })
        (w.reporter name) (w.answerer name)
    | none => w
  | .report name status id q, w =>
    match w.cluster.pods name with
    | some pod =>
      if (id, q) ∈ w.given name then
        w.setPod name (some { pod with status, statusID := id, statusDetail := "" }) (some q) (w.answerer name)
      else w
    | none => w

private theorem Happening.is_event (nameOf : Bool → String) (happening : Happening) (w : Shared Bool) :
    Event nameOf w (happening.event nameOf w) := by
  have nothing : Event nameOf w w := .guest
  cases happening with
  | create p =>
    simp only [Happening.event]
    split
    · next fresh => exact .create fresh rfl
    · exact nothing
  | delete p =>
    simp only [Happening.event]
    split
    · next mig was => exact .edit was rfl
    · exact nothing
  | ready name =>
    simp only [Happening.event]
    split
    · next pod was => exact .change was rfl rfl rfl
    · exact nothing
  | report name status id q =>
    simp only [Happening.event]
    split
    · next pod was =>
      split
      · next given => exact .report was given
      · exact nothing
    · exact nothing

private def twoMigrations (nameOf : Bool → String) : Script Bool Choice (Shared Bool) Op Op.Res Err Bool Happening where
  engine := sharedEngine
  calls := reconcile
  event := Happening.event nameOf
  check _ _ _ _ := true
  pids := [false, true]

private def bareGuest : Shared Bool where
  objects _ := none
  created _ := false
  cluster := {
    migration := none
    guest := some { (default : SwiftGuest) with uid := "uid-vm", migrationEnabled := true }
    pods := Function.update (fun _ => none) "vm"
      (some { (default : Pod) with uid := "uid-src", controller := some ⟨"vm", "uid-vm"⟩ })
    profiles := fun _ => none
    gpus := ⟨fun _ => []⟩ }
  given _ := []
  reporter _ := none
  answerer _ := none

private def passOf (p : Bool) (ops : Nat) : List (LoopMove Bool Choice Bool Happening) :=
  .start p false :: List.replicate ops (.op p {}) ++ [.finish p]

private theorem bareGuest_untouched : Untouched bareGuest where
  objects _ := rfl
  given _ := rfl
  pods name pod there := by
    simp only [bareGuest, Function.update_apply] at there
    split at there <;> cases there
    exact ⟨rfl, rfl⟩

private theorem twoMigrations_fits (nameOf : Bool → String) : (twoMigrations nameOf).Fits (migrations nameOf) where
  offers _ mtls _ := ⟨mtls, rfl⟩
  env event w _ := event.is_event nameOf w

private def firstUse : List (LoopMove Bool Choice Bool Happening) :=
  [.env (.create false)] ++ passOf false 3 ++ passOf false 11 ++ passOf false 12 ++
    [.env (.ready "vm-mig-aaaaaa")] ++ passOf false 9 ++ passOf false 8 ++
    [.env (.report "vm-mig-aaaaaa" .receiveReady (.recv "m" 1) false)] ++ passOf false 7 ++
    [.env (.report "vm" .failed (.send "m" 1) false)]

private def secondUse : List (LoopMove Bool Choice Bool Happening) :=
  [.env (.delete false)] ++ passOf false 20 ++ [.env (.create true)] ++ passOf true 3 ++ passOf true 11 ++
    passOf true 12 ++ [.env (.ready "vm-mig-bbbbbb")] ++ passOf true 9 ++ passOf true 19

private def nameApart (p : Bool) : String := if p then "n" else "m"

theorem results_credited_to_first :
    ∃ s, LoopsReach shared (migrations nameApart) bareGuest s ∧ s.world.reporter "vm" = some false := by
  have distinct : Function.Injective nameApart := by
    intro p q same
    revert same
    cases p <;> cases q <;> decide
  have reached : ∃ s, LoopsReach shared (migrations nameApart) bareGuest s ∧ ∃ mig ∈ s.world.objects false,
      ∃ pod ∈ s.world.cluster.pods "vm", pod.statusID = sendActionID mig :=
    exists_of_play (twoMigrations_fits nameApart) firstUse (by decide)
  obtain ⟨s, reach, mig, here, pod, there, same⟩ := reached
  exact ⟨s, reach, (results_credited_to_author distinct bareGuest_untouched reach here there rfl
    List.mem_cons_self).1 same⟩

/-- The second migration of one name fails on what the source reported to the first. -/
theorem reused_name_fails_migration :
    ∃ s mig pod, Untouched bareGuest ∧ LoopsReach shared (migrations fun _ => "m") bareGuest s ∧
      s.world.objects true = some mig ∧ mig.status.phase = .failed ∧ s.world.cluster.pods "vm" = some pod ∧
      pod.statusID = sendActionID mig ∧ s.world.reporter "vm" = some false := by
  have reached : ∃ s, LoopsReach shared (migrations fun _ => "m") bareGuest s ∧ s.world.reporter "vm" = some false ∧
      ∃ mig ∈ s.world.objects true, ∃ pod ∈ s.world.cluster.pods "vm", mig.status.phase = .failed ∧
        pod.statusID = sendActionID mig :=
    exists_of_play (twoMigrations_fits fun _ => "m") (firstUse ++ secondUse) (by decide +kernel)
  obtain ⟨s, reach, reporter, mig, here, pod, there, phase, same⟩ := reached
  exact ⟨s, mig, pod, bareGuest_untouched, reach, here, phase, there, same, reporter⟩

end KubeSwift.Migration
