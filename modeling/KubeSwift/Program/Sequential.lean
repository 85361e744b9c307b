import KubeSwift.Program.Basic

/-! # One program at a time

A run issues the program's operations in order and ends with its result or where it was cut off. -/

namespace KubeSwift.Program

variable {Pid Choice World Op : Type} {Res : Op → Type} {ε α : Type}

/-- The operations issued, each with its world, the world left and the result; none when the program was cut off. -/
inductive Run (M : Machine Pid World Op Res ε) (p : Pid) :
    Prog Op Res ε α → World → List (World × Op) → World → Option (Except ε α) → Prop
  | ret (value : α) (w : World) : Run M p (.ret value) w [] w (some (.ok value))
  | fail (error : ε) (w : World) : Run M p (.fail error) w [] w (some (.error error))
  | cut {prog : Prog Op Res ε α} {w w' : World} (dies : M.crash p w w') : Run M p prog w [] w' none
  | step {o : Op} {next : Except ε (Res o) → Prog Op Res ε α} {r : Except ε (Res o)} {w w' w'' : World}
      {issued : List (World × Op)} {result : Option (Except ε α)} (action : M.step p w o r w')
      (rest : Run M p (next r) w' issued w'' result) :
      Run M p (.op o next) w ((w, o) :: issued) w'' result

variable {M : Machine Pid World Op Res ε} {S : Spec Pid World Op} {p : Pid}

variable {prog : Prog Op Res ε α} {w : World}

variable {issued : List (World × Op)} {w' : World} {result : Option (Except ε α)} {Q : Except ε α → World → Prop}

/-- The whole run keeps what `wp` promises: each operation under `pre`, the result under the postcondition, a cut under
the invariant. -/
theorem run_sound (still : ∀ w, S.rely p w w)
    (run : Run M p prog w issued w' result) (inv : S.inv w) (holds : wp M S p prog Q w) :
    (∀ entry ∈ issued, S.pre p entry.1 entry.2) ∧
    (∀ r, result = some r → S.inv w' ∧ Q r w') ∧
    (result = none → ∃ last, S.inv last ∧ M.crash p last w') := by
  induction run with
  | ret value w =>
    refine ⟨by simp, ?_, by simp⟩
    rintro r ⟨⟩
    exact ⟨inv, holds⟩
  | fail error w =>
    refine ⟨by simp, ?_, by simp⟩
    rintro r ⟨⟩
    exact ⟨inv, holds⟩
  | cut dies => exact ⟨by simp, by simp, fun _ => ⟨_, inv, dies⟩⟩
  | step action rest ih =>
    obtain ⟨issuedOk, after⟩ := holds
    obtain ⟨kept, -, go⟩ := after _ _ action
    obtain ⟨laterIssued, done, cutOff⟩ := ih kept (go _ (still _) kept)
    refine ⟨?_, done, cutOff⟩
    intro entry member
    rcases List.mem_cons.mp member with rfl | later
    · exact issuedOk
    · exact laterIssued entry later

def Spec.plain : Spec Pid World Op where
  inv _ := True
  rely _ w w' := w' = w
  guar _ _ _ := True
  pre _ _ _ := True

theorem wp_call_plain (o : Op) (Q : Except ε (Res o) → World → Prop) (w : World) :
    wp M .plain p (.call o) Q w ↔ ∀ r w', M.step p w o r w' → Q r w' := by
  simp [wp_call, Spec.plain]

theorem run_plain {r : Except ε α} (run : Run M p prog w issued w' (some r))
    (holds : wp M .plain p prog Q w) : Q r w' :=
  ((run_sound (fun _ => rfl) run trivial holds).2.1 r rfl).2

theorem run_total (answers : ∀ w o, ∃ r w', M.step p w o r w') (prog : Prog Op Res ε α) (w : World) :
    ∃ issued w' r, Run M p prog w issued w' (some r) := by
  induction prog generalizing w with
  | ret value => exact ⟨[], w, .ok value, .ret value w⟩
  | fail error => exact ⟨[], w, .error error, .fail error w⟩
  | op o next ih =>
    obtain ⟨r, w', action⟩ := answers w o
    obtain ⟨issued, w'', result, rest⟩ := ih r w'
    exact ⟨_, w'', result, .step action rest⟩

theorem run_frame {P : Op → Prop} {R : World → World → Prop} (refl : ∀ w, R w w)
    (trans : ∀ a b c, R a b → R b c → R a c) (step : ∀ w o r w', P o → M.step p w o r w' → R w w')
    (crash : ∀ w w', M.crash p w w' → R w w') (run : Run M p prog w issued w' result)
    (within : prog.Within P) : R w w' := by
  induction run with
  | ret value w => exact refl w
  | fail error w => exact refl w
  | cut dies => exact crash _ _ dies
  | step action rest ih => exact trans _ _ _ (step _ _ _ _ within.1 action) (ih (within.2 _ trivial))

theorem run_yields {A : Op → Prop} {R : ∀ o, Except ε (Res o) → Prop} {V : α → Prop}
    (yields : prog.Yields A R V) (answers : ∀ w o r w', M.step p w o r w' → R o r)
    (run : Run M p prog w issued w' result) : ∀ entry ∈ issued, A entry.2 := by
  induction run with
  | ret value w => exact nofun
  | fail error w => exact nofun
  | cut dies => exact nofun
  | step action rest ih => exact List.forall_mem_cons.mpr ⟨yields.1, ih (yields.2 _ (answers _ _ _ _ action))⟩

theorem run_bind {β : Type} {m : Prog Op Res ε α} {f : α → Prog Op Res ε β} {value : β}
    (run : Run M p (m >>= f) w issued w' (some (.ok value))) :
    ∃ first second mid a, issued = first ++ second ∧ Run M p m w first mid (some (.ok a)) ∧
      Run M p (f a) mid second w' (some (.ok value)) := by
  induction m generalizing w issued with
  | ret a => exact ⟨[], issued, w, a, rfl, .ret a w, run⟩
  | fail error => cases run
  | op o next ih =>
    cases run with
    | step action rest =>
      obtain ⟨first, second, mid, a, rfl, ran, last⟩ := ih _ rest
      exact ⟨_ :: first, second, mid, a, rfl, .step action ran, last⟩

/-- Run a program against a list of choices; it is cut off where the list ends or an operation has to wait. -/
def drive (D : Engine Pid Choice World Op Res ε) (p : Pid) :
    List Choice → Prog Op Res ε α → World → World × Option (Except ε α)
  | _, .ret value, w => (w, some (.ok value))
  | _, .fail error, w => (w, some (.error error))
  | [], .op _ _, w => (D.crash p w, none)
  | c :: choices, .op o next, w =>
    match D.exec p c w o with
    | some (w', r) => drive D p choices (next r) w'
    | none => (D.crash p w, none)

@[simp] theorem drive_fail (D : Engine Pid Choice World Op Res ε) (choices : List Choice) (error : ε) :
    drive D p choices (.fail error : Prog Op Res ε α) w = (w, some (.error error)) := by
  cases choices <;> rfl

variable {D : Engine Pid Choice World Op Res ε}

theorem drive_call {β : Type} {c : Choice} {o : Op} {value : Res o}
    (done : D.exec p c w o = some (w', .ok value)) (f : Res o → Prog Op Res ε β) (rest : List Choice) :
    drive D p (c :: rest) (Prog.call o >>= f) w = drive D p rest (f value) w' := by
  show drive D p (c :: rest) (.op o fun r => (Prog.ofExcept r).bind f) w = _
  rw [drive, done]
  rfl

def Along (D : Engine Pid Choice World Op Res ε) (allowed : Pid → World → Op → Choice → Prop) (p : Pid) :
    List Choice → Prog Op Res ε α → World → Prop
  | _, .ret _, _ => True
  | _, .fail _, _ => True
  | [], .op _ _, _ => True
  | c :: choices, .op o next, w => allowed p w o c ∧
      match D.exec p c w o with
      | some (w', r) => Along D allowed p choices (next r) w'
      | none => True

instance decidableAlong (D : Engine Pid Choice World Op Res ε) (allowed : Pid → World → Op → Choice → Prop)
    [∀ p w o c, Decidable (allowed p w o c)] (p : Pid) :
    (choices : List Choice) → (prog : Prog Op Res ε α) → (w : World) → Decidable (Along D allowed p choices prog w)
  | _, .ret _, _ => .isTrue (by unfold Along; trivial)
  | _, .fail _, _ => .isTrue (by unfold Along; trivial)
  | [], .op _ _, _ => .isTrue trivial
  | c :: choices, .op o next, w =>
    have : Decidable (match D.exec p c w o with
        | some (w', r) => Along D allowed p choices (next r) w'
        | none => True) :=
      match D.exec p c w o with
      | some (w', r) => decidableAlong D allowed p choices (next r) w'
      | none => .isTrue trivial
    inferInstanceAs (Decidable (_ ∧ _))

variable {allowed : Pid → World → Op → Choice → Prop} {choices : List Choice}

theorem along_of_forall (all : ∀ c ∈ choices, ∀ w o, allowed p w o c) (prog : Prog Op Res ε α) (w : World) :
    Along D allowed p choices prog w := by
  induction choices generalizing prog w with
  | nil => cases prog <;> trivial
  | cons c choices ih =>
    cases prog with
    | ret value => trivial
    | fail error => trivial
    | op o next =>
      refine ⟨all c (by simp) w o, ?_⟩
      cases D.exec p c w o with
      | none => trivial
      | some outcome => exact ih (fun c member => all c (by simp [member])) _ _

theorem Along.mono {allowed' : Pid → World → Op → Choice → Prop} (weaker : ∀ w o c, allowed p w o c → allowed' p w o c)
    (along : Along D allowed p choices prog w) : Along D allowed' p choices prog w := by
  induction choices generalizing prog w with
  | nil => cases prog <;> trivial
  | cons c choices ih =>
    cases prog with
    | ret value => trivial
    | fail error => trivial
    | op o next =>
      obtain ⟨here, rest⟩ := along
      refine ⟨weaker w o c here, ?_⟩
      cases action : D.exec p c w o with
      | none => trivial
      | some outcome =>
        rw [action] at rest
        exact ih rest

theorem run_drive (D : Engine Pid Choice World Op Res ε) (allowed : Pid → World → Op → Choice → Prop)
    (mayCrash : Pid → World → Prop) (choices : List Choice) (prog : Prog Op Res ε α) (w : World)
    (along : Along D allowed p choices prog w) (crashes : (drive D p choices prog w).2 = none → ∀ w, mayCrash p w) :
    ∃ issued, Run (D.machine allowed mayCrash) p prog w issued (drive D p choices prog w).1
      (drive D p choices prog w).2 := by
  induction choices generalizing prog w with
  | nil =>
    cases prog with
    | ret value => exact ⟨[], .ret value w⟩
    | fail error => exact ⟨[], .fail error w⟩
    | op o next => exact ⟨[], .cut ⟨crashes rfl w, rfl⟩⟩
  | cons c choices ih =>
    cases prog with
    | ret value => exact ⟨[], .ret value w⟩
    | fail error => exact ⟨[], .fail error w⟩
    | op o next =>
      obtain ⟨here, rest⟩ := along
      simp only [drive] at crashes ⊢
      cases action : D.exec p c w o with
      | none => exact ⟨[], .cut ⟨crashes (by simp [action]) w, rfl⟩⟩
      | some outcome =>
        simp only [action] at crashes rest ⊢
        obtain ⟨issued, rest⟩ := ih (next outcome.2) outcome.1 rest crashes
        exact ⟨_, .step ⟨c, here, action⟩ rest⟩

theorem run_ended {mayCrash : Pid → World → Prop} {r : Except ε α} (along : Along D allowed p choices prog w)
    (ended : (drive D p choices prog w).2 = some r) :
    ∃ issued, Run (D.machine allowed mayCrash) p prog w issued (drive D p choices prog w).1 (some r) := by
  rw [← ended]
  refine run_drive D allowed mayCrash choices prog w along fun cut => ?_
  rw [ended] at cut
  cases cut

theorem drive_ends (answers : prog.Within fun o => ∀ c w, (D.exec p c w o).isSome)
    (choices : Nat → Choice) : ∃ k r, (drive D p ((List.range k).map choices) prog w).2 = some r := by
  induction prog generalizing choices w with
  | ret value => exact ⟨0, _, rfl⟩
  | fail error => exact ⟨0, _, rfl⟩
  | op o next ih =>
    obtain ⟨⟨w', r⟩, ran⟩ := Option.isSome_iff_exists.mp (answers.1 (choices 0) w)
    obtain ⟨k, result, ended⟩ := ih r (answers.2 r trivial) (w := w') fun n => choices (n + 1)
    refine ⟨k + 1, result, ?_⟩
    rw [List.range_succ_eq_map, List.map_cons, List.map_map, drive, ran]
    exact ended

/-- An operation that ran, the world it found and what the environment chose; the newest comes first. -/
structure Entry (Choice World Op : Type) where
  world : World
  op : Op
  choice : Choice

def Engine.logged (D : Engine Pid Choice World Op Res ε) :
    Engine Pid Choice (World × List (Entry Choice World Op)) Op Res ε where
  exec p c s o := (D.exec p c s.1 o).map fun out => ((out.1, ⟨s.1, o, c⟩ :: s.2), out.2)
  crash p s := (D.crash p s.1, s.2)

theorem wp_logged {allowed : Pid → World × List (Entry Choice World Op) → Op → Choice → Prop}
    {mayCrash : Pid → World × List (Entry Choice World Op) → Prop} (o : Op)
    (Q : Except ε (Res o) → World × List (Entry Choice World Op) → Prop) (s : World × List (Entry Choice World Op)) :
    wp (D.logged.machine allowed mayCrash) .plain p (.call o) Q s ↔
      ∀ c w' r, allowed p s o c → D.exec p c s.1 o = some (w', r) → Q r (w', ⟨s.1, o, c⟩ :: s.2) := by
  rw [wp_call_plain]
  constructor
  · intro holds c w' r may ran
    exact holds r _ ⟨c, may, by simp only [Engine.logged, ran, Option.map_some]⟩
  · rintro holds r s' ⟨c, may, ran⟩
    obtain ⟨⟨w', r'⟩, action, same⟩ := Option.map_eq_some_iff.mp ran
    cases same
    exact holds c w' _ may action

end KubeSwift.Program
