import KubeSwift.Program.Triples
import KubeSwift.ThinPool.History

/-! # A guest keeps its thin disk -/

namespace KubeSwift.ThinPool
open Program Prog

section Away

variable {g : Key} {o : Op}

theorem away_issue (away : ¬ o.touchesGuest g) : (issue o).Within fun o => ¬ o.touchesGuest g :=
  (within_call o).mpr away

theorem walk_away : Walk fun _ (m : Act _) => m.Within fun o => ¬ o.touchesGuest g where
  toClosed := closed_within
  plain o plain := away_issue <| by
    cases o with
    | registry r => cases r <;> first | exact id | cases plain
    | create | remove => cases plain
    | _ => exact id

theorem away_maps {name : DevName} (other : name ≠ .guest g) (maps : o.mapsAt name = true) :
    (issue o).Within fun o => ¬ o.touchesGuest g := by
  refine away_issue ?_
  cases o with
  | create | remove =>
    cases of_decide_eq_true maps
    exact other
  | info | ls | mknodes => exact id
  | _ => cases maps

theorem away_mapsBase {key : Key} (maps : o.mapsAt (baseDeviceName key) = true) :
    (issue o).Within fun o => ¬ o.touchesGuest g := by
  refine away_maps ?_ maps
  nofun

theorem away_evictBase (key : Key) : (evictBase key).Within fun o => ¬ o.touchesGuest g :=
  closed_evictBase walk_away.toClosed (away_issue id) (away_issue id)
    (closed_evictLocked walk_away.toClosed (away_issue id) (fun _ => away_mapsBase) (fun _ => away_issue id) (away_issue id))

theorem away_createBaseWithin (key : Key) (sectors attempts : Nat) :
    (createBaseWithin key (baseDeviceName key) sectors attempts).Within fun o => ¬ o.touchesGuest g := by
  induction attempts with
  | zero => trivial
  | succ attempts ih =>
    refine walk_away.bind (walk_away.ite trivial (away_issue id)) fun allocated => ?_
    refine walk_away.bind (walk_away.ite trivial ?_) fun _ => ?_
    · exact walk_away.bind (closed_unmapIfActive closed_within fun _ => away_mapsBase) fun _ =>
        closed_deleteThin closed_within (away_issue id)
    · refine walk_away.bind (walk_away.attempt (walk_away.bind (away_issue id) fun _ =>
        closed_activate closed_within fun _ => away_mapsBase)) fun made => ?_
      cases made with
      | ok _ => trivial
      | error e =>
        refine walk_away.ite (walk_away.bind (away_issue id) fun _ => ?_) trivial
        exact walk_away.bind (away_issue id) fun _ => ih

variable {other : Key} (ne : other ≠ g)
include ne

private theorem otherName : DevName.guest other ≠ .guest g := fun same => ne (DevName.guest.inj same)

theorem away_activate (base sectors : Nat) : (activate (.guest other) base sectors).Within fun o => ¬ o.touchesGuest g :=
  closed_activate closed_within fun _ => away_maps (otherName ne)

theorem away_createGuestWithin (baseID : Id) (sectors attempts : Nat) :
    (createGuestWithin baseID other (.guest other) sectors attempts).Within fun o => ¬ o.touchesGuest g := by
  induction attempts with
  | zero => trivial
  | succ attempts ih =>
    refine walk_away.bind (walk_away.ite trivial (away_issue ne)) fun allocated => walk_away.ite ?_ ?_
    · refine walk_away.bind (walk_away.attempt (walk_away.bind (away_issue id) fun _ => away_activate ne _ _)) fun made => ?_
      cases made with
      | ok _ => exact walk_away.bind (away_issue ne) fun _ => trivial
      | error e =>
        refine walk_away.bind (away_issue ne) fun _ => walk_away.ite ?_ trivial
        exact walk_away.bind (away_issue id) fun _ => ih
    · exact walk_away.bind (away_activate ne _ _) fun _ => trivial

theorem away_releaseGuest : (releaseGuest other (.guest other)).Within fun o => ¬ o.touchesGuest g := by
  refine walk_away.bind (walk_away.plain _ rfl) fun known => ?_
  refine walk_away.bind (closed_unmapIfActive closed_within fun _ => away_maps (otherName ne)) fun _ => ?_
  cases known with
  | none => trivial
  | some base =>
    refine walk_away.bind (walk_away.plain _ rfl) fun st => walk_away.ite trivial ?_
    exact walk_away.bind (closed_deleteThin closed_within (away_issue id)) fun _ => away_issue ne

end Away

def Call.guest : Call → Option Key
  | .ensureGuest _ guestKey _ | .release guestKey => some guestKey
  | .ensureBase _ _ _ | .evict _ => none

variable {g : Key} {w w' : World} {I : GuestView → Prop} {v : GuestView}

variable {c : Call}

theorem Call.within_away (away : c.guest ≠ some g) : c.prog.Within fun o => ¬ o.touchesGuest g := by
  cases c with
  | ensureBase key sizeBytes needBytes =>
    refine walk_away.bind ?_ fun _ => trivial
    refine walk_away.ensureBaseNeeding away_evictBase ?_ (away_createBaseWithin key) sizeBytes needBytes
    exact closed_removeDevice closed_within fun _ => away_mapsBase
  | evict key => exact walk_away.bind (away_evictBase key) fun _ => trivial
  | ensureGuest baseKey guestKey sizeBytes =>
    have ne : guestKey ≠ g := fun same => away (congrArg some same)
    refine walk_away.bind ?_ fun _ => trivial
    exact walk_away.ensureGuest (away_activate ne) (away_issue ne) (away_createGuestWithin ne) baseKey sizeBytes
  | release guestKey =>
    have ne : guestKey ≠ g := fun same => away (congrArg some same)
    exact walk_away.bind (away_releaseGuest ne) fun _ => trivial

variable {result : Option (Except Err (Option DevName))}

theorem Run.guestView_eq {p : Pid} {issued : List (World × Op)}
    (away : c.guest ≠ some g) (run : Run anyFault p c.prog w issued w' result) : w'.guestView g = w.guestView g := by
  refine run_frame (R := fun w w' => w'.guestView g = w.guestView g) (fun _ => rfl) ?_ ?_ ?_ run
    (Call.within_away away)
  · intro a b c first second
    exact second.trans first
  · rintro w o r w' apart ⟨c, -, action⟩
    rcases effect_of_cases (World.exec_cases action) with rfl | ⟨v, done⟩
    · rfl
    · exact World.perform_guest_frame apart done
  · rintro w w' ⟨-, rfl⟩
    rfl

def viewSpec (g : Key) (I : GuestView → Prop) : Spec Pid World Op where
  inv w := I (w.guestView g)
  rely _ w w' := w' = w
  guar _ _ _ := True
  pre _ _ _ := True

def Meets (g : Key) (I : GuestView → Prop) {α : Type} (v : GuestView) : Act α → (Except Err α → GuestView → Prop) → Prop :=
  Shows anyFault (viewSpec g I) 0 (fun v w => w.guestView g = v) v

section Meets

variable {g : Key} {I : GuestView → Prop} {v : GuestView}

theorem meets_issue {Q : Except Err o.Res → GuestView → Prop} (failed : ∀ e, Q (.error e) v)
    (done : ∀ (c : Choice) (w w' : World) (a : o.Res), I v → w.guestView g = v → w.perform 0 c o = .ok (w', a) →
      I (w'.guestView g) ∧ Q (.ok a) (w'.guestView g) ∧ ∀ e, Q (.error e) (w'.guestView g)) :
    Meets g I v (issue o) Q := by
  rintro w inv rfl
  refine ⟨trivial, ?_⟩
  rintro r w' ⟨c, -, action⟩
  rcases World.exec_cases action with ⟨a, rfl, took⟩ | ⟨e, rfl, rfl | ⟨a, took⟩⟩
  · obtain ⟨kept, post, -⟩ := done c w w' a inv rfl took
    exact ⟨kept, trivial, fun w'' same _ => ⟨_, rfl, same ▸ post⟩⟩
  · exact ⟨inv, trivial, fun w'' same _ => ⟨_, rfl, same ▸ failed e⟩⟩
  · obtain ⟨kept, -, post⟩ := done c w w' a inv rfl took
    exact ⟨kept, trivial, fun w'' same _ => ⟨_, rfl, same ▸ post e⟩⟩

theorem meets_away {Q : Except Err o.Res → GuestView → Prop} (away : ¬ o.touchesGuest g)
    (post : ∀ r, Q r v) : Meets g I v (issue o) Q := by
  refine meets_issue (fun e => post _) ?_
  intro c w w' a keeps seen took
  rw [World.perform_guest_frame away took, seen]
  exact ⟨keeps, post _, fun e => post _⟩

variable {Q : Except Err Bool → GuestView → Prop}

theorem meets_active (failed : ∀ e, Q (.error e) v)
    (found : v.mapped ≠ none → Q (.ok true) v) (missing : v.mapped = none → Q (.ok false) v) :
    Meets g I v (active (.guest g)) Q := by
  refine shows_seq (meets_issue failed ?_)
  rintro c w w' names keeps seen ⟨⟩
  have listed : DevName.guest g ∈ w.maps.keys ↔ v.mapped ≠ none := by rw [World.mem_keys_iff_mapped, seen]
  rw [seen]
  refine ⟨keeps, shows_pure ?_, failed⟩
  by_cases mapped : v.mapped = none
  · simpa [listed, mapped] using missing mapped
  · simpa [listed, mapped] using found mapped

theorem meets_guestID {Q : Except Err (Option Id) → GuestView → Prop} (failed : ∀ e, Q (.error e) v)
    (post : Q (.ok v.entry) v) : Meets g I v (registry (.guestID g)) Q := by
  refine meets_issue failed ?_
  intro c w w' a keeps seen took
  obtain ⟨rfl, rfl⟩ := World.perform_guestID took
  rw [seen]
  exact ⟨keeps, post, failed⟩

theorem meets_guestCreated (failed : ∀ e, Q (.error e) v)
    (marked : v.created → Q (.ok true) v) (unmarked : ¬ v.created → Q (.ok false) v) :
    Meets g I v (registry (.guestCreated g)) Q := by
  refine meets_issue failed ?_
  intro c w w' a keeps seen took
  obtain ⟨rfl, answer⟩ := World.perform_guestCreated took
  rw [seen] at answer ⊢
  refine ⟨keeps, ?_, failed⟩
  cases a with
  | true => exact marked (answer.mp rfl)
  | false => exact unmarked fun created => by simpa using answer.mpr created

variable {Q : Except Err Unit → GuestView → Prop}

theorem meets_activate {id : Id} {sectors : Nat}
    (failed : ∀ e, Q (.error e) v) (keepsMapped : v.mapped = none → I { v with mapped := some id })
    (mapped : v.mapped = none → ∀ r, Q r { v with mapped := some id }) :
    Meets g I v (activate (.guest g) id sectors) Q := by
  refine shows_seq (meets_away (fun h => h) ?_)
  intro r
  cases r with
  | error e => exact failed e
  | ok a =>
    refine shows_seq (meets_issue failed ?_)
    intro c w w' a _ seen took
    obtain ⟨free, after⟩ := World.perform_createGuest took
    rw [seen] at free after
    rw [after]
    refine ⟨keepsMapped free, ?_, fun e => mapped free _⟩
    exact meets_away (fun h => h) (mapped free)

end Meets

def GuestView.Recorded (v : GuestView) : Prop := ∀ i, v.mapped = some i → v.created → v.entry = some i

def GuestView.Kept (i : Id) (v : GuestView) : Prop :=
  v.entry = some i ∧ v.created ∧ (v.mapped = none ∨ v.mapped = some i)

def HandsOut (g : Key) : Except Err DevName → GuestView → Prop
  | .ok path, v => path = .guest g ∧ ∃ i, v.mapped = some i ∧ v.Kept i
  | .error _, _ => True

theorem meets_allocateGuest {Q : Except Err (Id × Bool) → GuestView → Prop} (unknown : v.entry = none)
    (keepsEntry : ∀ id, I { v with entry := some id }) (failed : ∀ e, Q (.error e) v)
    (failedAfter : ∀ e id, Q (.error e) { v with entry := some id })
    (fresh : ∀ id, Q (.ok (id, true)) { v with entry := some id }) : Meets g I v (allocateGuest g) Q := by
  unfold allocateGuest
  split
  · exact shows_fail (failed _)
  · refine meets_issue failed ?_
    rintro c w w' a _ rfl took
    rcases World.perform_allocateGuest took with ⟨-, known, -⟩ | ⟨rfl, -, rfl⟩
    · cases unknown.symm.trans known
    · have kept := keepsEntry w.registry.nextID
      have given := fresh w.registry.nextID
      simpa [World.guestView] using (⟨kept, given, fun e => failedAfter e w.registry.nextID⟩ : _ ∧ _ ∧ _)

theorem meets_forget (failed : ∀ e, Q (.error e) v)
    (keepsForgotten : I { v with entry := none, created := v.created ∧ v.entry = none })
    (post : ∀ r, Q r { v with entry := none, created := v.created ∧ v.entry = none }) :
    Meets g I v (registry (.forget g)) Q := by
  refine meets_issue failed ?_
  intro c w w' a _ seen took
  rw [World.perform_forget took, seen]
  exact ⟨keepsForgotten, post _, fun e => post _⟩

theorem meets_createGuestWithin (base : Id) (sectors attempts : Nat) (unknown : v.entry = none)
    (idle : v.mapped = none ∨ ¬ v.created) :
    Meets g GuestView.Recorded v (createGuestWithin base g (.guest g) sectors attempts) (HandsOut g) := by
  induction attempts generalizing v with
  | zero => exact shows_fail trivial
  | succ attempts ih =>
    have keepsEntry : ∀ id, GuestView.Recorded { v with entry := some id } :=
      fun id i mapped created => by simp_all
    refine shows_seq (meets_allocateGuest unknown keepsEntry (fun _ => trivial)
      (fun _ _ => trivial) fun id => ?_)
    have afterError : ∀ e v', v'.entry = some id → Meets g GuestView.Recorded v' (do
          registry (.forget g)
          if isFileExists e then do
            registry (.advance id)
            createGuestWithin base g (.guest g) sectors attempts
          else .fail e) (HandsOut g) := by
      intro e v' entry
      have forgotten : GuestView.Recorded { v' with entry := none, created := v'.created ∧ v'.entry = none } :=
        fun i mapped created => by simp_all
      refine shows_seq (meets_forget (fun _ => trivial) forgotten fun r => ?_)
      cases r with
      | error e => trivial
      | ok a =>
        refine shows_ite (fun _ => shows_seq (meets_away (fun h => h) fun r => ?_))
          fun _ => shows_fail trivial
        cases r with
        | error e => trivial
        | ok a => exact ih rfl (.inr (by simp [entry]))
    refine shows_attempt (shows_seq (meets_away (fun h => h) fun r => ?_)) fun _ _ post => post
    cases r with
    | error e => exact afterError e _ rfl
    | ok a =>
      have mappedRecorded : GuestView.Recorded { v with entry := some id, mapped := some id } :=
        fun i mapped _ => mapped
      refine meets_activate (fun e => afterError e _ rfl) (fun _ => mappedRecorded) fun _ r => ?_
      cases r with
      | error e => exact afterError e _ rfl
      | ok a =>
        refine shows_seq (meets_issue (fun _ => trivial) ?_)
        intro c w w' a _ seen took
        obtain ⟨-, after⟩ := World.perform_markGuestCreated took
        rw [after, seen]
        exact ⟨fun i mapped _ => mapped, shows_pure ⟨rfl, id, rfl, rfl, trivial, .inr rfl⟩, fun _ => trivial⟩

theorem meets_createGuest (baseKey : Key) (sectors : Nat) (unknown : v.entry = none)
    (idle : v.mapped = none ∨ ¬ v.created) :
    Meets g GuestView.Recorded v (createGuest baseKey g (.guest g) sectors) (HandsOut g) := by
  have locked : Meets g GuestView.Recorded v (createGuestLocked baseKey g (.guest g) sectors) (HandsOut g) := by
    refine shows_seq (meets_away (fun h => h) fun r => ?_)
    cases r with
    | error e => trivial
    | ok ready =>
      refine shows_ite (fun _ => shows_seq (meets_away (fun h => h) fun r => ?_))
        fun _ => shows_fail trivial
      cases r with
      | error e => trivial
      | ok known =>
        cases known with
        | none => exact shows_fail trivial
        | some base => exact meets_createGuestWithin base sectors maxIDRetries unknown idle
  refine shows_ite (fun _ => locked) fun _ => shows_seq (meets_away (fun h => h) fun r => ?_)
  cases r with
  | error e => trivial
  | ok a =>
    exact shows_deferred locked fun r v' after => meets_away (fun h => h) fun _ => after

theorem meets_ensureGuest (baseKey : Key) (sizeBytes : Nat) (recorded : v.Recorded)
    (start : v.mapped ≠ none → v.created) :
    Meets g GuestView.Recorded v (ensureGuest baseKey g (.guest g) sizeBytes) (HandsOut g) := by
  refine shows_seq (meets_active (fun _ => trivial) (fun mapped => ?_) fun unmapped => ?_)
  · obtain ⟨i, mapped'⟩ := Option.ne_none_iff_exists'.mp mapped
    have created := start mapped
    exact shows_pure ⟨rfl, i, mapped', recorded i mapped' created, created, .inr mapped'⟩
  · refine shows_seq (meets_guestID (fun _ => trivial) ?_)
    cases entry : v.entry with
    | none => exact meets_createGuest baseKey _ entry (.inl unmapped)
    | some id =>
      refine shows_seq (meets_guestCreated (fun _ => trivial) (fun created => ?_) fun _ => ?_)
      · refine shows_seq (meets_activate (fun _ => trivial) (fun _ i mapped _ => ?_) fun _ r => ?_)
        · rw [← mapped]
          exact entry
        · cases r with
          | error e => trivial
          | ok a => exact shows_pure ⟨rfl, id, rfl, entry, created, .inr rfl⟩
      · have forgotten : GuestView.Recorded { v with entry := none, created := v.created ∧ v.entry = none } :=
          fun i mapped created => by simp_all
        refine shows_seq (meets_forget (fun _ => trivial) forgotten fun r => ?_)
        cases r with
        | error e => trivial
        | ok a => exact meets_createGuest baseKey _ rfl (.inl unmapped)

theorem meets_ensureGuest_kept {i : Id} (baseKey : Key) (sizeBytes : Nat) (kept : v.Kept i) :
    Meets g (GuestView.Kept i) v (ensureGuest baseKey g (.guest g) sizeBytes)
      (fun r v' => ∀ path, r = .ok path → path = .guest g ∧ v'.mapped = some i) := by
  obtain ⟨entry, created, mapping⟩ := kept
  refine shows_seq (meets_active (fun _ _ => nofun) (fun mapped => ?_) fun unmapped => ?_)
  · refine shows_pure ?_
    rintro path ⟨⟩
    exact ⟨rfl, mapping.resolve_left mapped⟩
  · refine shows_seq (meets_guestID (fun _ _ => nofun) ?_)
    rw [entry]
    refine shows_seq (meets_guestCreated (fun _ _ => nofun) (fun _ => ?_)
      fun unmarked => absurd created unmarked)
    refine shows_seq (meets_activate (fun _ _ => nofun)
      (fun _ => ⟨entry, created, .inr rfl⟩) fun _ r => ?_)
    cases r with
    | error e => exact fun _ => nofun
    | ok a =>
      refine shows_pure ?_
      rintro path ⟨⟩
      exact ⟨rfl, rfl⟩

theorem meets_deleteThin {id : Id} {owner : Owner} (post : ∀ r, Q r v) : Meets g I v (deleteThin id owner) Q := by
  refine shows_attempt (meets_away (fun h => h) fun deleted => ?_) fun _ _ post => post
  unfold unlessGone
  split
  · exact shows_pure (post _)
  · exact shows_fail (post _)
  · exact shows_pure (post _)

theorem meets_releaseKnown (known : Option Id) (recorded : v.Recorded) :
    Meets g GuestView.Recorded v (releaseKnown g known) (fun _ _ => True) := by
  cases known with
  | none => exact shows_pure trivial
  | some id =>
    refine shows_seq (meets_away (fun h => h) fun r => ?_)
    cases r with
    | error e => trivial
    | ok st =>
      refine shows_ite (fun _ => shows_fail trivial) fun _ => shows_seq (meets_deleteThin fun r => ?_)
      cases r with
      | error e => trivial
      | ok a =>
        refine meets_forget (fun _ => trivial) ?_ fun _ => trivial
        rintro i mapped ⟨created, unknown⟩
        exact absurd (recorded i mapped created) (by simp [unknown])

theorem meets_releaseGuest (recorded : v.Recorded) :
    Meets g GuestView.Recorded v (releaseGuest g (.guest g)) (fun _ _ => True) := by
  refine shows_seq (meets_guestID (fun _ => trivial) ?_)
  refine shows_seq (shows_seq (meets_active (fun _ => trivial) (fun _ => ?_)
    fun _ => shows_pure (meets_releaseKnown _ recorded)))
  have unmapped : GuestView.Recorded { v with mapped := none } := fun i mapped => nomatch mapped
  refine shows_seq (meets_issue (fun _ => trivial) ?_)
  intro c w w' a _ seen took
  rw [World.perform_removeGuest took, seen]
  refine ⟨unmapped, meets_away (fun h => h) fun r => ?_, fun _ => trivial⟩
  cases r with
  | error e => trivial
  | ok a => exact meets_releaseKnown _ unmapped

def FindsCreated (g : Key) (w : World) (c : Call) : Prop :=
  (w.guestView g).mapped ≠ none →
    ∀ baseKey sizeBytes, c = .ensureGuest baseKey g sizeBytes → (w.guestView g).created

theorem run_of_meets {issued : List (World × Op)}
    {Q : Except Err (Option DevName) → GuestView → Prop} (run : Run anyFault 0 c.prog w issued w' result)
    (keeps : I (w.guestView g)) (meets : Meets g I (w.guestView g) c.prog Q) :
    I (w'.guestView g) ∧ ∀ r, result = some r → Q r (w'.guestView g) := by
  obtain ⟨-, done, cutOff⟩ := run_sound (S := viewSpec g I) (fun _ => rfl) run keeps (meets w keeps rfl)
  cases result with
  | none =>
    obtain ⟨last, inv, -, rfl⟩ := cutOff rfl
    exact ⟨inv, nofun⟩
  | some r =>
    obtain ⟨inv, _, rfl, post⟩ := done r rfl
    exact ⟨inv, by rintro r' ⟨⟩; exact post⟩

theorem meets_ensureGuest_call {baseKey : Key} {sizeBytes : Nat} {Q : Except Err DevName → GuestView → Prop}
    (meets : Meets g I v (ensureGuest baseKey g (.guest g) sizeBytes) Q) :
    Meets g I v (Call.ensureGuest baseKey g sizeBytes).prog
      (fun r v' => ∀ path, r = .ok (some path) → Q (.ok path) v') := by
  refine shows_seq (shows_mono ?_ meets)
  intro r v' post
  cases r with
  | error e => exact fun _ => nofun
  | ok path =>
    refine shows_pure ?_
    rintro path' ⟨⟩
    exact post

theorem recorded_step {e : Event} (step : EventStep anyFault (FindsCreated g) w e w')
    (recorded : (w.guestView g).Recorded) : (w'.guestView g).Recorded := by
  cases step with
  | reboot => exact fun i mapped => nomatch mapped
  | @call _ c issued result may run =>
    by_cases about : c.guest = some g
    · cases c with
      | ensureBase | evict => cases about
      | ensureGuest baseKey guestKey sizeBytes =>
        cases about
        exact (run_of_meets run recorded (meets_ensureGuest_call
          (meets_ensureGuest baseKey sizeBytes recorded fun mapped => may mapped _ _ rfl))).1
      | release guestKey =>
        cases about
        refine (run_of_meets (Q := fun _ _ => True) run recorded
          (shows_seq (shows_mono ?_ (meets_releaseGuest recorded)))).1
        intro r v' _
        cases r with
        | error e => trivial
        | ok a => exact shows_pure trivial
    · rw [Run.guestView_eq about run]
      exact recorded

theorem kept_step {e : Event} {i : Id} (step : EventStep anyFault (FindsCreated g) w e w')
    (kept : (w.guestView g).Kept i) (notReleased : ∀ issued result, e ≠ .call (.release g) issued result) :
    (w'.guestView g).Kept i := by
  cases step with
  | reboot => exact ⟨kept.1, kept.2.1, .inl rfl⟩
  | @call _ c issued result may run =>
    by_cases about : c.guest = some g
    · cases c with
      | ensureBase | evict => cases about
      | ensureGuest baseKey guestKey sizeBytes =>
        cases about
        exact (run_of_meets run kept (meets_ensureGuest_call
          (meets_ensureGuest_kept baseKey sizeBytes kept))).1
      | release guestKey =>
        cases about
        exact absurd rfl (notReleased issued result)
    · rw [Run.guestView_eq about run]
      exact kept

/-- From a boot on, in every history whose `EnsureGuest` calls for a guest never find it mapped and
not on record as created: once a call handed out a path mapped to `i`, every later call for the guest
that hands out a path hands out one mapped to `i`, until the guest is released. -/
theorem ensureGuest_keeps_disk {boot w₁ w₂ w₃ w₄ : World} {before between : List Event}
    {baseKey baseKey' g : Key} {sizeBytes sizeBytes' : Nat} {path path' : DevName} {i : Id}
    {issued issued' : List (World × Op)}
    (booted : boot.maps = ∅)
    (earlier : History anyFault (FindsCreated g) boot before w₁)
    (first : EventStep anyFault (FindsCreated g) w₁
      (.call (.ensureGuest baseKey g sizeBytes) issued (some (.ok (some path)))) w₂)
    (backed : w₂.maps.lookup path = some i)
    (later : History anyFault (FindsCreated g) w₂ between w₃)
    (notReleased : ∀ issued result, Event.call (.release g) issued result ∉ between)
    (again : EventStep anyFault (FindsCreated g) w₃
      (.call (.ensureGuest baseKey' g sizeBytes') issued' (some (.ok (some path')))) w₄) :
    w₄.maps.lookup path' = some i := by
  have initially : (boot.guestView g).Recorded := fun i mapped => by
    simp [World.guestView, booted] at mapped
  have recorded : (w₁.guestView g).Recorded :=
    History.invariant (I := fun w => (w.guestView g).Recorded) (P := fun _ => True)
      (fun _ _ _ _ recorded step => recorded_step step recorded) earlier (fun _ _ => trivial) initially
  have kept₂ : (w₂.guestView g).Kept i := by
    cases first with
    | call may run =>
      obtain ⟨rfl, j, mapped, kept⟩ := (run_of_meets run recorded (meets_ensureGuest_call
        (meets_ensureGuest baseKey sizeBytes recorded fun mapped => may mapped _ _ rfl))).2 _ rfl path rfl
      have same : j = i := Option.some.inj (mapped.symm.trans backed)
      exact same ▸ kept
  have kept₃ : (w₃.guestView g).Kept i :=
    History.invariant (I := fun w => (w.guestView g).Kept i)
      (P := fun e => ∀ issued result, e ≠ .call (.release g) issued result)
      (fun _ _ _ other kept step => kept_step step kept other) later
      (fun e member issued result same => notReleased issued result (same ▸ member)) kept₂
  cases again with
  | call may run =>
    obtain ⟨rfl, mapped⟩ := (run_of_meets run kept₃ (meets_ensureGuest_call
      (meets_ensureGuest_kept baseKey' sizeBytes' kept₃))).2 _ rfl path' rfl path' rfl
    exact mapped

private def built : World := (runCalmly 40 (.ensureBase "image" 1 1) emptyNode).1

private def started : World := (runCalmly 40 (.ensureGuest "image" "guest" 1) built).1

theorem ensureGuest_keeps_disk_over_reboot : started.maps.lookup (.guest "guest") = some 2 ∧
    (runCalmly 40 (.ensureGuest "image" "guest" 1) started.reboot).1.maps.lookup (.guest "guest") = some 2 := by
  have step := fun c w may => @eventStep_calm (FindsCreated "guest") (fun _ _ _ _ => True) (fun _ _ => trivial) 40 c w may _ rfl
  obtain ⟨_, base⟩ := step (.ensureBase "image" 1 1) emptyNode fun mapped => absurd rfl mapped
  obtain ⟨_, first⟩ := step (.ensureGuest "image" "guest" 1) built fun mapped => absurd rfl mapped
  obtain ⟨_, again⟩ := step (.ensureGuest "image" "guest" 1) started.reboot fun mapped => absurd rfl mapped
  have backed : started.maps.lookup (.guest "guest") = some 2 := by decide
  exact ⟨backed, ensureGuest_keeps_disk (by rfl) (.cons base (.nil _)) first backed
    (.cons (.reboot _) (.nil _)) (by simp) again⟩

-- cut after the snapshot is mapped and before it is recorded as created
private def cut : World := (runCalmly 10 (.ensureGuest "image" "guest" 1) built).1

private def handedOut : World := (runCalmly 40 (.ensureGuest "image" "guest" 1) cut).1

private def handedOutAgain : World := (runCalmly 40 (.ensureGuest "image" "guest" 1) handedOut.reboot).1

/-- With crashes only: a call cut off between the mapping and the created mark, a call that hands
the mapped disk 2 out, a reboot, and a call that hands out the fresh disk 3. -/
theorem ensureGuest_loses_disk : ∃ (boot w₁ w₂ w₃ w₄ : World) (before between : List Event)
    (issued issued' : List (World × Op)) (path path' : DevName) (i j : Id),
    boot.maps = ∅ ∧ History crashesOnly (fun _ _ => True) boot before w₁ ∧
    EventStep crashesOnly (fun _ _ => True) w₁
      (.call (.ensureGuest "image" "guest" 1) issued (some (.ok (some path)))) w₂ ∧
    w₂.maps.lookup path = some i ∧
    History crashesOnly (fun _ _ => True) w₂ between w₃ ∧
    (∀ issued result, Event.call (.release "guest") issued result ∉ between) ∧
    EventStep crashesOnly (fun _ _ => True) w₃
      (.call (.ensureGuest "image" "guest" 1) issued' (some (.ok (some path')))) w₄ ∧
    w₄.maps.lookup path' = some j ∧ i ≠ j := by
  have step := fun steps c w => @eventStep_calm (fun _ _ => True) (fun _ _ _ c => c.fault = none) (fun _ _ => rfl) steps c w
    trivial _ rfl
  obtain ⟨_, base⟩ := step 40 (.ensureBase "image" 1 1) emptyNode
  obtain ⟨_, cutOff⟩ := step 10 (.ensureGuest "image" "guest" 1) built
  obtain ⟨issued, first⟩ := step 40 (.ensureGuest "image" "guest" 1) cut
  obtain ⟨issued', again⟩ := step 40 (.ensureGuest "image" "guest" 1) handedOut.reboot
  exact ⟨emptyNode, cut, handedOut, handedOut.reboot, handedOutAgain, _, [.reboot], issued, issued',
    .guest "guest", .guest "guest", 2, 3, rfl, .cons base (.cons cutOff (.nil _)), first, by decide,
    .cons (.reboot _) (.nil _), by simp, again, by decide, by decide⟩

/-- Calls for bases and other guests leave a guest's record and mapping alone; a reboot, and nothing else, takes the
mapping, and the mapping only. -/
theorem others_leave_guest {w w' : World} {es : List Event} {g : Key}
    (history : History anyFault (fun _ _ => True) w es w')
    (others : ∀ e ∈ es, ∀ c issued result, e = .call c issued result → c.guest ≠ some g) :
    (.reboot ∉ es → w'.guestView g = w.guestView g) ∧
    (.reboot ∈ es → w'.guestView g = { w.guestView g with mapped := none }) := by
  induction history with
  | nil => simp
  | @cons w x _ _ _ step rest ih =>
    obtain ⟨same, unmapped⟩ := ih fun e member => others e (List.mem_cons_of_mem _ member)
    cases step with
    | call may run =>
      rw [Run.guestView_eq (others _ List.mem_cons_self _ _ _ rfl) run] at same unmapped
      simpa using ⟨same, unmapped⟩
    | reboot =>
      have cleared : w.reboot.guestView g = { w.guestView g with mapped := none } := rfl
      rw [cleared] at same unmapped
      exact ⟨by simp, fun _ => (Classical.em _).elim unmapped same⟩

theorem others_leave_guest_evicting :
    (runCalmly 20 (.evict "image") started).1.guestView "guest" = started.guestView "guest" := by
  obtain ⟨_, evict⟩ := @eventStep_calm (fun _ _ => True) (fun _ _ _ _ => True) (fun _ _ => trivial) 20 (.evict "image")
    started trivial _ rfl
  exact (others_leave_guest (.cons evict (.nil _)) (by simp [Call.guest])).1 (by simp)

end KubeSwift.ThinPool
