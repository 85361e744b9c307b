import KubeSwift.GuestPool.Controller
import KubeSwift.Program.Triples

/-! # Rolling updates of a guest pool

What one pass may take down: every delete is weighed against `replicas - maxUnavailable` and the count before it. -/

namespace KubeSwift.GuestPool
open Program

section Counting

variable {m m' : IndexMap} {idx : Nat}

theorem countP_le_add {α : Type} {p q r : α → Bool} (either : ∀ a, p a → q a ∨ r a) (l : List α) :
    l.countP p ≤ l.countP q + l.countP r := by
  induction l with
  | nil => simp
  | cons a rest ih =>
    have here : (if p a then 1 else 0) ≤ (if q a then 1 else 0) + (if r a then 1 else 0) := by
      by_cases counts : p a
      · rcases either a counts with first | second
        · simp [counts, first]
        · simp [counts, second]
      · simp [counts]
    simp only [List.countP_cons]
    omega

def serving (m : IndexMap) (idx : Nat) : Bool := m.any fun entry => entry.1 = idx && guestReady entry.2

theorem serving_iff : serving m idx = true ↔ ∃ g, (idx, g) ∈ m ∧ guestReady g = true := by
  simp only [serving, List.any_eq_true, Bool.and_eq_true, decide_eq_true_eq]
  constructor
  · rintro ⟨⟨_, g⟩, member, rfl, ready⟩
    exact ⟨g, member, ready⟩
  · rintro ⟨g, member, ready⟩
    exact ⟨(idx, g), member, rfl, ready⟩

theorem ready_le (taken : List Nat) (nodup : m.indices.Nodup)
    (kept : ∀ entry ∈ m, guestReady entry.2 → entry.1 ∉ taken → serving m' entry.1) :
    readyReplicas m ≤ readyReplicas m' + taken.length := by
  let stays : Nat × SwiftGuest → Bool := fun entry => guestReady entry.2 && decide (entry.1 ∉ taken)
  let goes : Nat × SwiftGuest → Bool := fun entry => decide (entry.1 ∈ taken)
  have split : readyReplicas m ≤ m.countP stays + m.countP goes := by
    refine countP_le_add ?_ m
    intro entry ready
    by_cases member : entry.1 ∈ taken <;> simp [stays, goes, ready, member]
  have first : m.countP stays ≤ readyReplicas m' := by
    unfold readyReplicas
    rw [List.countP_eq_length_filter, List.countP_eq_length_filter]
    have fewer : (m.filter stays |>.map (·.1)).Nodup := nodup.sublist (List.filter_sublist.map _)
    have inside : (m.filter stays |>.map (·.1)) ⊆ (m'.filter fun entry => guestReady entry.2).map (·.1) := by
      intro idx member
      obtain ⟨entry, here, rfl⟩ := List.mem_map.mp member
      obtain ⟨listed, holds⟩ := List.mem_filter.mp here
      have parts : guestReady entry.2 = true ∧ entry.1 ∉ taken := by simpa [stays] using holds
      obtain ⟨g, there, ready⟩ := serving_iff.mp (kept entry listed parts.1 parts.2)
      exact List.mem_map.mpr ⟨(entry.1, g), List.mem_filter.mpr ⟨there, ready⟩, rfl⟩
    simpa only [List.length_map] using (fewer.subperm inside).length_le
  have second : m.countP goes ≤ taken.length := by
    rw [List.countP_eq_length_filter, ← List.length_map (·.1)]
    have fewer : (m.filter goes |>.map (·.1)).Nodup := nodup.sublist (List.filter_sublist.map _)
    refine (fewer.subperm ?_).length_le
    intro idx member
    obtain ⟨entry, here, rfl⟩ := List.mem_map.mp member
    simpa [goes] using (List.mem_filter.mp here).2
  omega

theorem ready_mono (nodup : m.indices.Nodup) (kept : ∀ entry ∈ m, guestReady entry.2 → serving m' entry.1) :
    readyReplicas m ≤ readyReplicas m' :=
  ready_le [] nodup fun entry member ready _ => kept entry member ready

def Full (desired : Nat) (m : IndexMap) : Prop := ∀ idx < desired, serving m idx = true

theorem Full.le_ready {desired : Nat} (full : Full desired m) : desired ≤ readyReplicas m := by
  unfold readyReplicas
  rw [List.countP_eq_length_filter, ← List.length_map (·.1)]
  conv_lhs => rw [← List.length_range (n := desired)]
  refine (List.nodup_range.subperm ?_).length_le
  intro idx member
  obtain ⟨g, here, ready⟩ := serving_iff.mp (full idx (List.mem_range.mp member))
  exact List.mem_map.mpr ⟨(idx, g), List.mem_filter.mpr ⟨here, ready⟩, rfl⟩

theorem Full.without {desired : Nat} (full : Full desired m) (above : desired ≤ idx) : Full desired (m.without idx) := by
  intro i below
  obtain ⟨g, here, ready⟩ := serving_iff.mp (full i below)
  exact serving_iff.mpr ⟨g, mem_without.mpr ⟨here, by simp only; omega⟩, ready⟩

end Counting

structure Layout (pool : SwiftGuestPool) (w : World) : Prop where
  spec : ∃ template, w.pool = some { pool with template := template }
  nodup : w.guests.indices.Nodup
  bound : ∀ idx ∈ w.guests.indices, idx < pool.replicas + (rolloutParams pool).2.2

def Loses (taken : List Nat) (m m' : IndexMap) : Prop :=
  ∀ idx, serving m idx = true → idx ∉ taken → serving m' idx = true

theorem loses_of_mem {taken : List Nat} {m m' : IndexMap} (kept : ∀ entry ∈ m, entry.1 ∉ taken → entry ∈ m') :
    Loses taken m m' := by
  intro idx served free
  obtain ⟨g, member, ready⟩ := serving_iff.mp served
  exact serving_iff.mpr ⟨g, kept _ member free, ready⟩

def Op.takes : Op → List Nat
  | .delete idx => [idx]
  | _ => []

def Op.Fits (pool : SwiftGuestPool) : Op → Prop
  | .create idx _ _ => idx < pool.replicas + (rolloutParams pool).2.2
  | _ => True

section Steps

variable {pool : SwiftGuestPool} {w w' : World} {c : Choice} {o : Op}

theorem Layout.delete (layout : Layout pool w) (idx : Nat) (g : SwiftGuest) : Layout pool (w.deleteGuest idx g) := by
  refine ⟨layout.spec, ?_, ?_⟩
  · show (if g.finalizers then _ else _ : IndexMap).indices.Nodup
    split
    · rw [indices_alter]
      exact layout.nodup
    · exact nodup_without layout.nodup
  · intro i member
    have there : i ∈ w.guests.indices := by
      change i ∈ (if g.finalizers then _ else _ : IndexMap).indices at member
      split at member
      · rwa [indices_alter] at member
      · exact (List.filter_sublist.map _).subset member
    exact layout.bound i there

theorem loses_delete (idx : Nat) (g : SwiftGuest) : Loses [idx] w.guests (w.deleteGuest idx g).guests := by
  refine loses_of_mem fun entry member other => ?_
  have ne : entry.1 ≠ idx := by simpa using other
  show entry ∈ (if g.finalizers then _ else _ : IndexMap)
  split
  · exact List.mem_map.mpr ⟨entry, member, by simp [ne]⟩
  · exact mem_without.mpr ⟨member, ne⟩

theorem perform_layout (layout : Layout pool w) (fits : o.Fits pool) {a : o.Res}
    (result : w.perform c o = .ok (w', a)) : Layout pool w' ∧ Loses o.takes w.guests w'.guests := by
  cases o with
  | delete idx =>
    simp only [World.perform] at result
    split at result <;> cases result
    exact ⟨layout.delete idx _, loses_delete idx _⟩
  | create idx template attempt =>
    simp only [World.perform] at result
    split at result <;> cases result
    next free =>
      have new : idx ∉ w.guests.indices := get?_eq_none.mp free
      refine ⟨⟨layout.spec, List.nodup_cons.mpr ⟨new, layout.nodup⟩, ?_⟩,
        loses_of_mem fun entry member _ => List.mem_cons_of_mem _ member⟩
      intro i member
      rcases List.mem_cons.mp member with rfl | old
      · exact fits
      · exact layout.bound i old
  | getPool | listOwnedGuests | range _ | now | prepare _ | updateStatus =>
    cases result
    exact ⟨layout, fun _ served _ => served⟩

theorem exec_effect {r : Except Err o.Res} (result : w.exec c o = (w', r)) :
    w' = w ∨ ∃ a, w.perform c o = .ok (w', a) := by
  cases o with
  | range keys | now =>
    cases result
    exact .inl rfl
  | _ =>
    rcases effect_of_cases (withFault_cases result) with same | ⟨a, done⟩
    · exact .inl same
    · exact .inr ⟨a, done⟩

theorem exec_look {r : Except Err o.Res} {a : o.Res} (faulty : w.exec c o = withFault w c.fault (w.perform c o))
    (reads : w.perform c o = .ok (w, a)) (result : w.exec c o = (w', r)) : w' = w ∧ ∀ value, r = .ok value → value = a := by
  rw [faulty, reads] at result
  rcases withFault_cases result with ⟨value, rfl, done⟩ | ⟨e, rfl, same | ⟨value, done⟩⟩
  · obtain ⟨rfl, rfl⟩ := Prod.mk.inj (Except.ok.inj done)
    exact ⟨rfl, fun _ same => (Except.ok.inj same).symm⟩
  · exact ⟨same, nofun⟩
  · exact ⟨(Prod.mk.inj (Except.ok.inj done)).1.symm, nofun⟩

theorem exec_layout {r : Except Err o.Res} (layout : Layout pool w) (fits : o.Fits pool) (result : w.exec c o = (w', r)) :
    Layout pool w' ∧ Loses o.takes w.guests w'.guests := by
  rcases exec_effect result with rfl | ⟨a, done⟩
  · exact ⟨layout, fun _ served _ => served⟩
  · exact perform_layout layout fits done

theorem Layout.event (layout : Layout pool w) {e : Event} (keeps : ∀ pool', e ≠ .setPool pool') :
    Layout pool (e.apply w) := by
  obtain ⟨template, spec⟩ := layout.spec
  cases e with
  | tick seconds => exact { layout with }
  | setStatus idx phase guestRunning | setFinalizers idx held =>
    exact ⟨layout.spec, by simpa [Event.apply] using layout.nodup, by simpa [Event.apply] using layout.bound⟩
  | gone idx =>
    have fewer := (List.filter_sublist (l := w.guests) (p := fun entry => ¬ (entry.1 = idx ∧ entry.2.deletionTimestamp))).map (·.1)
    exact ⟨layout.spec, layout.nodup.sublist fewer, fun i member => layout.bound i (fewer.subset member)⟩
  | userDelete idx =>
    have fewer := (List.filter_sublist (l := w.guests.alter idx fun g => { g with deletionTimestamp := true })
      (p := fun entry => ¬ (entry.1 = idx ∧ ¬ entry.2.finalizers))).map (·.1)
    have same : (w.guests.alter idx fun g => { g with deletionTimestamp := true }).indices = w.guests.indices :=
      indices_alter _
    refine ⟨layout.spec, (same ▸ layout.nodup).sublist fewer, fun i member => layout.bound i ?_⟩
    exact same ▸ fewer.subset member
  | setTemplate template => exact ⟨⟨template, by simp [Event.apply, spec]⟩, layout.nodup, layout.bound⟩
  | setPool pool' => exact (keeps pool' rfl).elim

theorem Layout.length_le (layout : Layout pool w) : w.guests.length ≤ pool.replicas + (rolloutParams pool).2.2 := by
  rw [← List.length_map (·.1)]
  conv_rhs => rw [← List.length_range (n := pool.replicas + (rolloutParams pool).2.2)]
  refine (layout.nodup.subperm ?_).length_le
  intro idx member
  exact List.mem_range.mpr (layout.bound idx member)

end Steps

/-! ## What a pass began with -/

/-- What a pass owes: how many replicas served when it read the pool, and whether since then none stopped serving but
by its own deletes and, when it listed them, no serving one above the count was outdated. -/
structure Pass where
  ready : Nat
  pool : SwiftGuestPool
  listed : Bool
  kept : Bool

structure Rolling where
  world : World
  pass : Option Pass

def surgeCurrent (pool : SwiftGuestPool) (m : IndexMap) : Bool :=
  m.all fun entry => entry.1 < pool.replicas || !guestReady entry.2 ||
    entry.2.templateHash = computeTemplateHash pool.template

def Rolling.after (s : Rolling) : Op → Option Pass
  | .getPool => s.world.pool.map fun pool => ⟨readyReplicas s.world.guests, pool, false, true⟩
  | .listOwnedGuests => s.pass.map fun pass =>
    if pass.listed then pass else { pass with listed := true, kept := pass.kept && surgeCurrent pass.pool s.world.guests }
  | _ => s.pass

def rollingEngine : Engine Unit Choice Rolling Op Op.Res Err where
  exec p c s o := (engine.exec p c s.world o).map fun out => (⟨out.1, s.after o⟩, out.2)
  crash p s := { s with world := engine.crash p s.world }

def machine : Machine Unit Rolling Op Op.Res Err := rollingEngine.machine (fun _ _ _ _ => True) (fun _ _ => True)

def Rolling.event (e : Event) (s : Rolling) : Rolling where
  world := e.apply s.world
  pass := s.pass.map fun pass => { pass with
    kept := pass.kept && s.world.guests.all fun entry => !guestReady entry.2 || serving (e.apply s.world).guests entry.1 }

def rollouts : Setting Unit Rolling Op Op.Res Err where
  env s s' := ∃ e : Event, (∀ pool, e ≠ .setPool pool) ∧ s' = s.event e
  quiet _ _ := False
  offered _ prog := prog = reconcile

def Pass.least (pass : Pass) (pool : SwiftGuestPool) : Int :=
  min pass.ready (pool.replicas - (rolloutParams pool).2.1)

structure Promised (pool : SwiftGuestPool) (w : World) (pass : Pass) : Prop where
  spec : ∃ template, pass.pool = { pool with template := template }
  enough : pass.kept = true → pass.least pool ≤ readyReplicas w.guests

def sparing (pool : SwiftGuestPool) : Spec Unit Rolling Op where
  inv s := Layout pool s.world ∧ ∀ pass, s.pass = some pass → Promised pool s.world pass
  rely _ s s' := ∃ k : Bool, s'.pass = s.pass.map (fun pass => { pass with kept := pass.kept && k }) ∧
    (k = true → Loses [] s.world.guests s'.world.guests)
  guar _ _ _ := True
  pre _ _ _ := True

theorem sparing_refl (pool : SwiftGuestPool) (s : Rolling) : (sparing pool).rely () s s := by
  refine ⟨true, ?_, fun _ _ served _ => served⟩
  simp

structure Covers (pool : SwiftGuestPool) (least : Int) (surge : Prop) (m : IndexMap) (s : Rolling) : Prop where
  owes : ∀ pass, s.pass = some pass → pass.least pool = least ∧ pass.listed = true
  nodup : m.indices.Nodup
  kept : ∀ pass, s.pass = some pass → pass.kept = true →
    surge ∧ least ≤ readyReplicas m ∧ ∀ entry ∈ m, guestReady entry.2 → serving s.world.guests entry.1

section Pass

variable {pool : SwiftGuestPool} {least : Int} {surge : Prop} {s s' : Rolling} {w w' : World} {m : IndexMap} {α : Type}

variable {o : Op} {idx currentHash : Nat}

abbrev Spares (pool : SwiftGuestPool) (P : Rolling → Prop) (m : Act α) (V : α → Rolling → Prop) : Prop :=
  Gives machine (sparing pool) () P m V

theorem machine_cases {p : Unit} {r : Except Err o.Res} (step : machine.step p s o r s') :
    s'.pass = s.after o ∧ ∃ c, s.world.exec c o = (s'.world, r) := by
  obtain ⟨c, -, ran⟩ := step
  simp only [rollingEngine] at ran
  obtain ⟨⟨w, r'⟩, action, same⟩ := Option.map_eq_some_iff.mp ran
  obtain ⟨rfl, rfl⟩ := Prod.mk.inj same
  exact ⟨rfl, c, Option.some.inj action⟩

/-- One operation of a pass that is under way, and what the replicas do before the next one. -/
theorem spares_issue {P : Rolling → Prop} {V : o.Res → Rolling → Prop} (fits : o.Fits pool)
    (same : ∀ s, P s → s.after o = s.pass) (owes : ∀ s, P s → ∀ pass, s.pass = some pass → pass.least pool = least)
    (spares : ∀ s (w' : World), P s → Loses o.takes s.world.guests w'.guests → ∀ pass, s.pass = some pass → pass.kept = true →
      least ≤ readyReplicas w'.guests)
    (after : ∀ s a (w' : World) s', P s → Loses o.takes s.world.guests w'.guests → (sparing pool).rely () ⟨w', s.pass⟩ s' → V a s') :
    Spares pool P (issue o) V := by
  rintro s ⟨layout, owing⟩ here
  refine (wp_call o _ s).mpr ⟨trivial, ?_⟩
  intro r s' step
  obtain ⟨passed, c, ran⟩ := machine_cases step
  rw [same s here] at passed
  obtain ⟨kept, loses⟩ := exec_layout layout fits ran
  refine ⟨⟨kept, ?_⟩, trivial, ?_⟩
  · intro pass there
    rw [passed] at there
    refine ⟨(owing pass there).spec, fun calm => ?_⟩
    rw [owes s here pass there]
    exact spares s s'.world here loses pass there calm
  · rintro s'' between - a rfl
    exact after s a s'.world s'' here loses (by rw [← passed]; exact between)

theorem Covers.later {taken : List Nat} (covers : Covers pool least surge m s) (loses : Loses taken s.world.guests w'.guests)
    (idle : ∀ entry ∈ m, entry.1 ∈ taken → ¬ guestReady entry.2) (between : (sparing pool).rely () ⟨w', s.pass⟩ s') :
    Covers pool least surge m s' := by
  obtain ⟨k, passed, holds⟩ := between
  have before : ∀ pass', s'.pass = some pass' → ∃ pass, s.pass = some pass ∧ pass' = { pass with kept := pass.kept && k } := by
    intro pass' there
    rw [passed] at there
    obtain ⟨pass, was, rfl⟩ := Option.map_eq_some_iff.mp there
    exact ⟨pass, was, rfl⟩
  refine ⟨?_, covers.nodup, ?_⟩
  · intro pass' there
    obtain ⟨pass, was, rfl⟩ := before pass' there
    exact covers.owes pass was
  · intro pass' there calm
    obtain ⟨pass, was, rfl⟩ := before pass' there
    obtain ⟨calm, k⟩ := Bool.and_eq_true_iff.mp calm
    obtain ⟨surge, enough, serves⟩ := covers.kept pass was calm
    refine ⟨surge, enough, fun entry member ready => ?_⟩
    exact holds k _ (loses _ (serves entry member ready) fun gone => idle entry member gone ready) (by simp)

theorem Covers.le_ready (covers : Covers pool least surge m s) {pass : Pass} (there : s.pass = some pass)
    (calm : pass.kept = true) : least ≤ readyReplicas s.world.guests := by
  obtain ⟨-, enough, serves⟩ := covers.kept pass there calm
  have few := ready_mono covers.nodup serves
  omega

theorem Covers.without (covers : Covers pool least surge m s)
    (spared : surge → least ≤ readyReplicas m → least ≤ readyReplicas (m.without idx)) :
    Covers pool least surge (m.without idx) s := by
  refine ⟨covers.owes, nodup_without covers.nodup, ?_⟩
  intro pass there calm
  obtain ⟨surge, enough, serves⟩ := covers.kept pass there calm
  exact ⟨surge, spared surge enough, fun entry member => serves entry (mem_without.mp member).1⟩

theorem ready_without (nodup : m.indices.Nodup) (idle : ∀ g, (idx, g) ∈ m → ¬ guestReady g) :
    readyReplicas m ≤ readyReplicas (m.without idx) := by
  refine ready_mono nodup ?_
  intro entry member ready
  refine serving_iff.mpr ⟨entry.2, mem_without.mpr ⟨member, ?_⟩, ready⟩
  rintro rfl
  exact idle entry.2 member ready

theorem spares_covered (fits : o.Fits pool) (other : o ≠ .getPool)
    (idle : ∀ entry ∈ m, entry.1 ∈ o.takes → ¬ guestReady entry.2) :
    Spares pool (Covers pool least surge m) (issue o) fun _ => Covers pool least surge m := by
  refine spares_issue fits ?_ (fun _ covers pass there => (covers.owes pass there).1) ?_
    fun _ _ _ _ covers loses between => covers.later loses idle between
  · intro s covers
    cases o with
    | getPool => exact (other rfl).elim
    | listOwnedGuests =>
      show s.pass.map _ = s.pass
      cases there : s.pass with
      | none => rfl
      | some pass => simp [(covers.owes pass there).2]
    | _ => rfl
  · intro s w' covers loses pass there calm
    have later : Covers pool least surge m ⟨w', s.pass⟩ := covers.later loses idle (sparing_refl pool _)
    exact later.le_ready there calm

theorem spares_read (fits : o.Fits pool) (other : o ≠ .getPool) (nothing : o.takes = []) :
    Spares pool (Covers pool least surge m) (issue o) fun _ => Covers pool least surge m :=
  spares_covered fits other (by simp [nothing])

theorem spares_delete (idle : ∀ g, (idx, g) ∈ m → ¬ guestReady g) :
    Spares pool (Covers pool least surge m) (issue (.delete idx)) fun _ => Covers pool least surge m := by
  refine spares_covered trivial nofun fun entry member taken => ?_
  have at_ : entry.1 = idx := by simpa [Op.takes] using taken
  exact idle entry.2 (at_ ▸ member)

variable {desired : Nat}

theorem spares_replaceFailed (order : List Nat) (attempts : List (Nat × Nat)) (nodup : m.indices.Nodup) :
    Spares pool (Covers pool least surge m) (replaceFailed desired currentHash order m attempts)
      fun (m', _) s => m' ⊆ m ∧ Covers pool least surge m' s := by
  induction order generalizing m attempts with
  | nil => exact gives_pure fun _ covers => ⟨List.Subset.refl m, covers⟩
  | cons idx rest ih =>
    rw [replaceFailed]
    split
    · exact ih attempts nodup
    · next guest found =>
      split
      · exact ih attempts nodup
      · next below =>
        split
        · exact ih attempts nodup
        · refine gives_bind (spares_read trivial nofun rfl) fun now => ?_
          dsimp only
          split
          · exact ih attempts nodup
          · have idle : ∀ g, (idx, g) ∈ m → ¬ guestReady g := by
              intro g member
              have same := eq_of_mem nodup member (mem_of_get? found)
              have phase : guest.phase = .failed := by simpa using (not_or.mp below).2
              simp [guestReady, same ▸ phase]
            have fewer := ready_without nodup idle
            refine gives_bind (spares_delete idle) fun _ => ?_
            refine gives_pre (fun _ covers => covers.without fun _ _ => by omega)
              (gives_post ?_ (ih _ (nodup_without nodup)))
            rintro ⟨m', attempts'⟩ s' ⟨sub, covers⟩
            exact ⟨fun entry member => (mem_without.mp (sub member)).1, covers⟩

theorem spares_scaleDown {keepSurge : List Nat} (modest : least ≤ desired) (excess : List Nat)
    (above : ∀ idx ∈ excess, desired ≤ idx) (nodup : m.indices.Nodup)
    (covered : surge → ∀ idx ∈ excess, idx ∉ keepSurge → ∀ g, (idx, g) ∈ m → guestReady g → Full desired m) :
    Spares pool (Covers pool least surge m) (scaleDown keepSurge excess m) fun m' => Covers pool least surge m' := by
  induction excess generalizing m with
  | nil => exact gives_pure fun _ covers => covers
  | cons idx rest ih =>
    have aboveRest : ∀ i ∈ rest, desired ≤ i := fun i member => above i (List.mem_cons_of_mem _ member)
    rw [scaleDown]
    split
    · exact ih aboveRest nodup fun surge i member => covered surge i (List.mem_cons_of_mem _ member)
    · next notKept =>
      -- a serving one goes only where every index below is served
      have less : surge → least ≤ readyReplicas m → least ≤ readyReplicas (m.without idx) := by
        intro surge enough
        by_cases serves : ∃ g, (idx, g) ∈ m ∧ guestReady g
        · obtain ⟨g, member, ready⟩ := serves
          have full := covered surge idx (by simp) notKept g member ready
          have many := (full.without (above idx (by simp))).le_ready
          omega
        · have fewer := ready_without nodup fun g member ready => serves ⟨g, member, ready⟩
          omega
      refine gives_bind (gives_pre (fun _ covers => covers.without less) (spares_delete ?_)) fun _ =>
        ih aboveRest (nodup_without nodup) ?_
      · intro g member
        exact ((mem_without.mp member).2 rfl).elim
      · intro surge i member free g here ready
        have full := covered surge i (List.mem_cons_of_mem _ member) free g (mem_without.mp here).1 ready
        exact full.without (above idx (by simp))

theorem spares_createSwiftGuest {attempt : Nat} (fits : idx < pool.replicas + (rolloutParams pool).2.2)
    (current : SwiftGuestPool) : Spares pool (Covers pool least surge m) (createSwiftGuest current idx attempt)
      fun _ => Covers pool least surge m :=
  gives_bind (spares_read trivial nofun rfl) fun _ => spares_read fits nofun rfl

theorem spares_createMissing {attempts : List (Nat × Nat)} (missing : List Nat)
    (fits : ∀ idx ∈ missing, idx < pool.replicas + (rolloutParams pool).2.2) (current : SwiftGuestPool) :
    Spares pool (Covers pool least surge m) (createMissing current attempts missing)
      fun _ => Covers pool least surge m := by
  induction missing with
  | nil => exact gives_pure fun _ covers => covers
  | cons idx rest ih =>
    refine gives_bind (spares_createSwiftGuest (fits idx (by simp)) current) fun _ => ?_
    exact ih fun i member => fits i (List.mem_cons_of_mem _ member)

theorem spares_createSurge {known : IndexMap} (indices : List Nat)
    (fits : ∀ idx ∈ indices, idx < pool.replicas + (rolloutParams pool).2.2) (current : SwiftGuestPool) :
    Spares pool (Covers pool least surge m) (createSurge current known indices) fun _ => Covers pool least surge m := by
  induction indices with
  | nil => exact gives_pure fun _ covers => covers
  | cons idx rest ih =>
    have later := ih fun i member => fits i (List.mem_cons_of_mem _ member)
    rw [createSurge]
    split
    · exact later
    · exact gives_bind (spares_createSwiftGuest (fits idx (by simp)) current) fun _ => later

theorem spares_replaceIdle (outdated : List Nat) (nodup : m.indices.Nodup) :
    Spares pool (Covers pool least surge m) (replaceIdle m desired outdated) fun _ => Covers pool least surge m := by
  induction outdated with
  | nil => exact gives_pure fun _ covers => covers
  | cons idx rest ih =>
    rw [replaceIdle]
    split
    · exact ih
    · next guest found =>
      split
      · exact ih
      · split
        · exact gives_bind ih fun _ => gives_pure fun _ covers => covers
        · next idle =>
          refine gives_bind (spares_delete ?_) fun _ => ih
          intro g member
          rw [eq_of_mem nodup member (mem_of_get? found)]
          exact idle

theorem spares_replaceServing {least' : Int} (low : least ≤ least') (serving : List Nat) {budget : Int}
    (nodup : m.indices.Nodup) (pays : budget ≤ readyReplicas m - least') :
    Spares pool (Covers pool least surge m) (replaceServing budget serving) fun _ s => ∃ m, Covers pool least surge m s := by
  induction serving generalizing m budget with
  | nil => exact gives_pure fun _ covers => ⟨m, covers⟩
  | cons idx rest ih =>
    rw [replaceServing]
    split
    · exact gives_pure fun _ covers => ⟨m, covers⟩
    · next left =>
      have fewer : readyReplicas m ≤ readyReplicas (m.without idx) + 1 := by
        refine ready_le [idx] nodup fun entry member ready free => ?_
        exact serving_iff.mpr ⟨entry.2, mem_without.mpr ⟨member, by simpa using free⟩, ready⟩
      have spared : surge → least ≤ readyReplicas m → least ≤ readyReplicas (m.without idx) := by
        intro _ _
        omega
      refine gives_bind (gives_pre (fun _ covers => covers.without spared) (spares_delete ?_)) fun _ =>
        ih (nodup_without nodup) (by omega)
      intro g member
      exact ((mem_without.mp member).2 rfl).elim

theorem full_of_not_kept {g : SwiftGuest} (rolling : (rolloutParams pool).1 = .rollingUpdate)
    (nodup : m.indices.Nodup) (above : desired ≤ idx) (below : idx < desired + (rolloutParams pool).2.2)
    (member : (idx, g) ∈ m) (ready : guestReady g) (current : g.templateHash = currentHash)
    (notKept : idx ∉ surgeReplicasToKeep pool m currentHash desired) : Full desired m := by
  intro i lower
  by_contra missing
  refine notKept ?_
  have some_ : ¬ ((rolloutParams pool).1 ≠ .rollingUpdate ∨ (rolloutParams pool).2.2 = 0) := by
    rw [rolling]
    simp only [ne_eq, not_true_eq_false, false_or]
    omega
  have notReady : ((List.range desired).any fun idx => !(m.get? idx).any guestReady) = true := by
    refine List.any_eq_true.mpr ⟨i, List.mem_range.mpr lower, ?_⟩
    cases found : m.get? i with
    | none => rfl
    | some g' =>
      have idle : ¬ guestReady g' := fun ready => missing (serving_iff.mpr ⟨g', mem_of_get? found, ready⟩)
      simpa using idle
  unfold surgeReplicasToKeep
  simp only [if_neg some_]
  have small : idx - desired < (rolloutParams pool).2.2 := by omega
  refine List.mem_filter.mpr ⟨List.mem_map.mpr ⟨idx - desired, List.mem_range.mpr small, Nat.add_sub_of_le above⟩, ?_⟩
  have alive : g.deletionTimestamp = false := by
    have parts := ready
    simp only [guestReady, Bool.and_eq_true, Bool.not_eq_true'] at parts
    exact parts.1.1
  simp only [get?_of_mem nodup member, Option.any_some, alive, current, notReady, ready]
  simp

theorem spares_reconcileRollingUpdate {current : SwiftGuestPool} (bounds : rolloutParams current = rolloutParams pool)
    (rolling : (rolloutParams pool).1 = .rollingUpdate) (same : desired = pool.replicas)
    (low : least ≤ (desired : Int) - (rolloutParams pool).2.1) (nodup : m.indices.Nodup) :
    Spares pool (Covers pool least surge m) (reconcileRollingUpdate current m currentHash desired)
      fun _ s => ∃ m, Covers pool least surge m s := by
  unfold reconcileRollingUpdate
  simp only [bounds, rolling]
  split
  · next impossible => cases impossible
  · split
    · exact gives_pure fun _ covers => ⟨m, covers⟩
    · refine gives_bind (spares_replaceIdle _ nodup) fun serving => ?_
      have fits : ∀ idx ∈ (List.range (min (rolloutParams pool).2.2 serving.length)).map (desired + ·),
          idx < pool.replicas + (rolloutParams pool).2.2 := by
        intro idx member
        obtain ⟨i, small, rfl⟩ := List.mem_map.mp member
        have := List.mem_range.mp small
        omega
      refine gives_bind (spares_createSurge _ fits current) fun _ => ?_
      exact spares_replaceServing low serving nodup le_rfl

variable (rolling : (rolloutParams pool).1 = .rollingUpdate)
include rolling

theorem spares_owned {current : SwiftGuestPool} (spec : ∃ template, current = { pool with template := template })
    (low : least ≤ (pool.replicas : Int) - (rolloutParams pool).2.1) (owned : IndexMap)
    (bound : ∀ idx ∈ owned.indices, idx < pool.replicas + (rolloutParams pool).2.2) :
    Spares pool (Covers pool least (surgeCurrent current owned = true) owned) (do
      let desired := current.replicas
      let currentHash := computeTemplateHash current.template
      let order ← issue (.range owned.indices)
      let (m, attempts) ← replaceFailed desired currentHash order owned []
      let keepSurge := surgeReplicasToKeep current m currentHash desired
      let m ← scaleDown keepSurge (findExcessIndices m desired) m
      createMissing current attempts (findMissingIndices m desired)
      let _ ← if hasOutdatedGuests m currentHash then reconcileRollingUpdate current m currentHash desired else pure ()
      let _ ← issue .listOwnedGuests
      issue .updateStatus) fun _ _ => True := by
  obtain ⟨template, rfl⟩ := spec
  have modest : least ≤ (pool.replicas : Int) := by omega
  have ending : ∀ {surge : Prop}, Spares pool (fun s => ∃ m, Covers pool least surge m s)
      (issue .listOwnedGuests >>= fun _ => issue .updateStatus) fun _ _ => True := by
    rintro surge s inv ⟨m, covers⟩
    exact gives_bind (spares_read (o := .listOwnedGuests) trivial nofun rfl)
      (fun _ => gives_post (fun _ _ _ => trivial) (spares_read (o := .updateStatus) trivial nofun rfl)) s inv covers
  refine fun s inv covers => gives_bind (P := Covers pool least _ owned)
    (spares_read (o := .range owned.indices) trivial nofun rfl) (fun order => ?_) s inv covers
  refine gives_bind (spares_replaceFailed order [] covers.nodup) fun (m, attempts) => gives_known fun sub => ?_
  refine fun s' inv' covers' => gives_bind (P := Covers pool least _ m)
    (spares_scaleDown modest _ ?_ covers'.nodup ?_) (fun m' => ?_) s' inv' covers'
  · intro idx member
    have found := (List.mem_insertionSort _).mp member
    simpa using (List.mem_filter.mp found).2
  · intro surge idx member notKept g here ready
    have listed := sub here
    have found := (List.mem_insertionSort _).mp member
    have above : pool.replicas ≤ idx := by simpa using (List.mem_filter.mp found).2
    have below := bound idx (List.mem_map.mpr ⟨(idx, g), listed, rfl⟩)
    have fresh : g.templateHash = computeTemplateHash template := by
      have entry := List.all_eq_true.mp surge (idx, g) listed
      simpa [Nat.not_lt.mpr above, ready] using entry
    have rolling' : (rolloutParams { pool with template := template }).1 = .rollingUpdate := rolling
    exact full_of_not_kept rolling' covers'.nodup above below here ready fresh notKept
  refine gives_bind (spares_createMissing _ ?_ _) fun _ => ?_
  · intro idx member
    have small : idx < pool.replicas := List.mem_range.mp (List.mem_filter.mp member).1
    omega
  split
  · have bounds : rolloutParams { pool with template := template } = rolloutParams pool := rfl
    intro s'' inv'' covers''
    exact gives_bind (spares_reconcileRollingUpdate bounds rolling rfl low covers''.nodup) (fun _ => ending) s'' inv'' covers''
  · exact gives_pre (fun _ covers => ⟨_, covers⟩) ending

theorem spares_reconcileReplicas {current : SwiftGuestPool} {ready : Nat} :
    Spares pool (fun s => ∃ k, s.pass = some ⟨ready, current, false, k⟩) (reconcileReplicas current) fun _ _ => True := by
  rintro s ⟨layout, owing⟩ ⟨k, passes⟩
  have spec := (owing _ passes).spec
  refine gives_bind (P := fun s => ∃ k, s.pass = some ⟨ready, current, false, k⟩)
    (U := fun owned s => (∀ idx ∈ owned.indices, idx < pool.replicas + (rolloutParams pool).2.2) ∧
      Covers pool (Pass.least ⟨ready, current, true, true⟩ pool) (surgeCurrent current owned = true) owned s)
    ?_ (fun owned => gives_known fun bound => spares_owned rolling spec (min_le_right _ _) owned bound)
    s ⟨layout, owing⟩ ⟨k, passes⟩
  rintro s ⟨layout, owing⟩ ⟨k, passes⟩
  refine (wp_call _ _ s).mpr ⟨trivial, ?_⟩
  intro r s1 step
  obtain ⟨passed, c, ran⟩ := machine_cases step
  have passed : s1.pass = some ⟨ready, current, true, k && surgeCurrent current s.world.guests⟩ := by
    rw [passed, Rolling.after, passes]
    rfl
  obtain ⟨world, answer⟩ := exec_look rfl rfl ran
  refine ⟨⟨world ▸ layout, ?_⟩, trivial, ?_⟩
  · intro pass there
    cases passed.symm.trans there
    refine ⟨spec, fun calm => ?_⟩
    rw [world]
    exact (owing _ passes).enough (Bool.and_eq_true_iff.mp calm).1
  · rintro s2 ⟨k', passed', holds⟩ - owned same
    obtain rfl := answer owned same
    rw [passed] at passed'
    refine ⟨layout.bound, ?_, layout.nodup, ?_⟩
    · intro pass there
      cases passed'.symm.trans there
      exact ⟨rfl, rfl⟩
    · intro pass there calm
      cases passed'.symm.trans there
      simp only [Bool.and_eq_true] at calm
      refine ⟨calm.1.2, (owing _ passes).enough calm.1.1, fun entry member ready => ?_⟩
      exact holds calm.2 _ (world ▸ serving_iff.mpr ⟨entry.2, member, ready⟩) (by simp)

theorem spares_reconcile : Spares pool (fun _ => True) reconcile fun _ _ => True := by
  refine gives_bind (U := fun found s => ∀ current, found = some current → ∃ ready k,
    s.pass = some ⟨ready, current, false, k⟩) ?_ fun found => ?_
  · rintro s ⟨layout, owing⟩ -
    refine (wp_call _ _ s).mpr ⟨trivial, ?_⟩
    intro r s1 step
    obtain ⟨passed, c, ran⟩ := machine_cases step
    obtain ⟨world, answer⟩ := exec_look rfl rfl ran
    refine ⟨⟨world ▸ layout, ?_⟩, trivial, ?_⟩
    · intro pass there
      rw [passed, Rolling.after] at there
      obtain ⟨current, found, rfl⟩ := Option.map_eq_some_iff.mp there
      obtain ⟨template, spec⟩ := layout.spec
      refine ⟨⟨template, Option.some.inj (found.symm.trans spec)⟩, fun _ => ?_⟩
      rw [world]
      exact min_le_left _ _
    · rintro s2 ⟨k, passed', -⟩ - found same current there
      rw [passed, Rolling.after, ← answer found same, there] at passed'
      exact ⟨_, _, passed'⟩
  · cases found with
    | none => exact gives_done
    | some current =>
      dsimp only
      split
      · exact gives_done
      · rintro s inv there
        obtain ⟨ready, k, passes⟩ := there current rfl
        exact spares_reconcileReplicas rolling s inv ⟨k, passes⟩

end Pass

def emptyPool (pool : SwiftGuestPool) : Rolling := ⟨⟨0, some pool, [], []⟩, none⟩

def nonDeleting (m : IndexMap) : Nat := m.countP fun entry => !entry.2.deletionTimestamp

variable {pool : SwiftGuestPool}

theorem suits_rollouts (rolling : (rolloutParams pool).1 = .rollingUpdate) : Suits machine (sparing pool) rollouts where
  refl _ s := sparing_refl pool s
  trans _ a b c first second := by
    obtain ⟨k, passed, holds⟩ := first
    obtain ⟨k', passed', holds'⟩ := second
    refine ⟨k && k', ?_, fun both => ?_⟩
    · rw [passed', passed, Option.map_map]
      congr 1
      funext pass
      simp [Bool.and_assoc]
    · obtain ⟨one, other⟩ := Bool.and_eq_true_iff.mp both
      exact fun idx served free => holds' other idx (holds one idx served free) free
  env s s' inv moves := by
    obtain ⟨e, keeps, rfl⟩ := moves
    refine ⟨⟨inv.1.event keeps, ?_⟩, fun _ => ⟨_, rfl, fun calm idx served _ => ?_⟩⟩
    · intro pass there
      obtain ⟨before, was, rfl⟩ := Option.map_eq_some_iff.mp there
      have owing := inv.2 before was
      refine ⟨owing.spec, fun calm => (owing.enough (Bool.and_eq_true_iff.mp calm).1).trans ?_⟩
      have few : readyReplicas s.world.guests ≤ readyReplicas (e.apply s.world).guests := by
        refine ready_mono inv.1.nodup fun entry member ready => ?_
        have kept := List.all_eq_true.mp (Bool.and_eq_true_iff.mp calm).2 entry member
        simpa [ready] using kept
      exact_mod_cast few
    · obtain ⟨g, member, ready⟩ := serving_iff.mp served
      have kept := List.all_eq_true.mp calm (idx, g) member
      show serving (e.apply s.world).guests idx = true
      simpa [ready] using kept
  starts _ prog s offer inv := by
    cases offer
    exact wp_of_ensures (spares_reconcile rolling s inv trivial)

/-- A pass takes no serving replicas so that fewer serve than when it read the pool and fewer than
`replicas - maxUnavailable`, as long as no other replica stops serving meanwhile and, when it lists them, no serving
surge replica is outdated. -/
theorem rollout_keeps_serving (pool : SwiftGuestPool) (rolling : (rolloutParams pool).1 = .rollingUpdate)
    {s : Loops Unit Rolling Op Op.Res Err} (reach : LoopsReach machine rollouts (emptyPool pool) s) :
    (∀ pass, s.world.pass = some pass → pass.kept = true →
      ¬ (readyReplicas s.world.world.guests < pass.ready ∧
        (readyReplicas s.world.world.guests : Int) < pool.replicas - (rolloutParams pool).2.1)) ∧
    nonDeleting s.world.world.guests ≤ pool.replicas + (rolloutParams pool).2.2 := by
  have initial : (sparing pool).inv (emptyPool pool) := ⟨⟨⟨pool.template, rfl⟩, List.nodup_nil, nofun⟩, nofun⟩
  obtain ⟨layout, owing⟩ := (loopsSound_reach (suits_rollouts rolling) initial reach).inv
  refine ⟨fun pass there calm => ?_, List.countP_le_length.trans layout.length_le⟩
  have enough := (owing pass there).enough calm
  simp only [Pass.least] at enough
  omega

def Event.fixesPool : Event → Bool
  | .setPool _ => false
  | _ => true

private def rolloutScript : Script Unit Choice Rolling Op Op.Res Err Unit Event where
  engine := rollingEngine
  calls _ := reconcile
  event := Rolling.event
  check _ _ _ _ := true
  pids := [()]

private theorem rolloutScript_fits : rolloutScript.Fits rollouts (V := fun e => e.fixesPool = true) where
  offers _ _ _ := rfl
  env e _ fixes := by
    refine ⟨e, ?_, rfl⟩
    rintro pool rfl
    cases fixes

def surgingPool : SwiftGuestPool where
  replicas := 2
  updateStrategy := some ⟨some .rollingUpdate, some ⟨0, 1⟩⟩
  template := ⟨0, some .running⟩
  deletionTimestamp := false

private abbrev RolloutMoves := List (LoopMove Unit Choice Unit Event)

private def begins (ops : Nat) : RolloutMoves := .start () () :: List.replicate ops (.op () {})

private def whole (ops : Nat) : RolloutMoves := begins ops ++ [.finish ()]

private def serves (idx : Nat) : RolloutMoves := [.env (.setStatus idx .running (some true))]

private def surging : RolloutMoves :=
  whole 9 ++ serves 0 ++ serves 1 ++ [.env (.setTemplate ⟨1, some .running⟩)] ++ whole 7 ++ serves 2

theorem rollout_keeps_serving_surging :
    ∃ s pass, LoopsReach machine rollouts (emptyPool surgingPool) s ∧ s.world.pass = some pass ∧ pass.ready = 3 ∧
      readyReplicas s.world.world.guests = 2 ∧
      ¬ (readyReplicas s.world.world.guests < pass.ready ∧
        (readyReplicas s.world.world.guests : Int) < surgingPool.replicas - (rolloutParams surgingPool).2.1) := by
  have reached : ∃ s, LoopsReach machine rollouts (emptyPool surgingPool) s ∧ ∃ pass ∈ s.world.pass, pass.kept = true ∧
      pass.ready = 3 ∧ readyReplicas s.world.world.guests = 2 :=
    exists_of_play rolloutScript_fits (surging ++ begins 3 ++ [.env (.tick 5), .op () {}]) (by decide +kernel)
  obtain ⟨s, reach, pass, there, kept, before, now⟩ := reached
  exact ⟨s, pass, reach, there, before, now, (rollout_keeps_serving surgingPool rfl reach).1 pass there kept⟩

private def alone (s : Rolling) : Rolling := (drive rollingEngine () (List.replicate 20 {}) reconcile s).1

/-- One old replica is down for its replacement when the template changes again: the surge replica in its place is
outdated now. -/
theorem rollout_keeps_serving_unmet :
    ∃ pool s issued w' result, (rolloutParams pool).1 = .rollingUpdate ∧ LoopsReach machine rollouts (emptyPool pool) s ∧
      s.running () = none ∧ Run machine () reconcile s.world issued w' result ∧
      readyReplicas w'.world.guests < readyReplicas s.world.world.guests ∧
      (readyReplicas w'.world.guests : Int) < pool.replicas - (rolloutParams pool).2.1 := by
  have reached : ∃ s, LoopsReach machine rollouts (emptyPool surgingPool) s ∧ (s.running ()).isNone ∧
      readyReplicas (alone s.world).world.guests < readyReplicas s.world.world.guests ∧
      (readyReplicas (alone s.world).world.guests : Int) < surgingPool.replicas - (rolloutParams surgingPool).2.1 :=
    exists_of_play rolloutScript_fits (surging ++ whole 6 ++ whole 7 ++ [.env (.setTemplate ⟨2, some .running⟩)])
      (by decide +kernel)
  obtain ⟨s, reach, idle, fewer, low⟩ := reached
  obtain ⟨issued, run⟩ := run_drive rollingEngine (fun _ _ _ _ => True) (fun _ _ => True) (List.replicate 20 {})
    reconcile s.world (along_of_forall (fun _ _ _ _ => trivial) _ _) fun _ _ => trivial
  exact ⟨surgingPool, s, issued, _, _, rfl, reach, by simpa using idle, run, fewer, low⟩

end KubeSwift.GuestPool
