import Mathlib

/-! # Programs over fallible operations

A program is the tree of the operations it may issue, by the answers to the earlier ones. A machine says which answers
and next worlds an operation can have. -/

namespace KubeSwift.Program

inductive Prog (Op : Type) (Res : Op → Type) (ε α : Type) : Type
  | ret (value : α)
  | fail (error : ε)
  | op (o : Op) (next : Except ε (Res o) → Prog Op Res ε α)

namespace Prog

variable {Op : Type} {Res : Op → Type} {ε α β : Type}

def bind : Prog Op Res ε α → (α → Prog Op Res ε β) → Prog Op Res ε β
  | .ret value, f => f value
  | .fail error, _ => .fail error
  | .op o next, f => .op o fun r => (next r).bind f

instance : Monad (Prog Op Res ε) where
  pure := .ret
  bind := bind

instance : LawfulMonad (Prog Op Res ε) := by
  refine LawfulMonad.mk' _ ?_ ?_ ?_
  · intro α m
    induction m with
    | ret value => rfl
    | fail error => rfl
    | op o next ih =>
      exact congrArg _ (funext ih)
  · exact fun _ _ => rfl
  · intro α β γ m f g
    induction m with
    | ret value => rfl
    | fail error => rfl
    | op o next ih =>
      exact congrArg _ (funext ih)

def ofExcept : Except ε α → Prog Op Res ε α
  | .ok value => .ret value
  | .error error => .fail error

def call (o : Op) : Prog Op Res ε (Res o) :=
  .op o ofExcept

def attempt : Prog Op Res ε α → Prog Op Res ε (Except ε α)
  | .ret value => .ret (.ok value)
  | .fail error => .ret (.error error)
  | .op o next => .op o fun r => (next r).attempt

/-- `body` followed by a deferred call whose own error is dropped. -/
def deferred (body : Prog Op Res ε α) (last : Prog Op Res ε Unit) : Prog Op Res ε α := do
  let result ← body.attempt
  let _ ← last.attempt
  ofExcept result

/-- A program over the operations of a component, run by one that has them among its own. An answer may be a failure. -/
def lift {Op' : Type} {Res' : Op' → Type} {ε' : Type} (embed : Op → Op')
    (answer : ∀ o, Res' (embed o) → Except ε (Res o)) (failed : ε → ε') :
    Prog Op Res ε α → Prog Op' Res' ε' α
  | .ret value => .ret value
  | .fail error => .fail (failed error)
  | .op o next => .op (embed o) fun
      | .ok a => (next (answer o a)).lift embed answer failed
      | .error e => .fail e

section Lift

variable {Op' : Type} {Res' : Op' → Type} {ε' : Type} {embed : Op → Op'}
  {answer : ∀ o, Res' (embed o) → Except ε (Res o)} {failed : ε → ε'}

theorem lift_bind (m : Prog Op Res ε α) (f : α → Prog Op Res ε β) :
    (m >>= f).lift embed answer failed =
      m.lift embed answer failed >>= fun a => (f a).lift embed answer failed := by
  induction m with
  | ret value =>
    rfl
  | fail error =>
    rfl
  | op o next ih =>
    show (Prog.op o fun r => next r >>= f).lift embed answer failed = _
    rw [lift, lift]
    congr 1
    funext r
    cases r with
    | ok a => exact ih _
    | error e => rfl

@[simp] theorem lift_ofExcept (result : Except ε α) :
    (ofExcept result : Prog Op Res ε α).lift embed answer failed =
      (ofExcept (result.mapError failed) : Prog Op' Res' ε' α) := by
  cases result <;> simp [ofExcept, lift, Except.mapError]

theorem lift_call (o : Op) : (call o : Prog Op Res ε (Res o)).lift embed answer failed =
    (call (embed o) >>= fun a => ofExcept ((answer o a).mapError failed) : Prog Op' Res' ε' (Res o)) := by
  rw [call, lift]
  congr 1
  funext r
  cases r with
  | ok a => exact lift_ofExcept _
  | error e => rfl

theorem lift_attempt_call (o : Op) : (call o : Prog Op Res ε (Res o)).attempt.lift embed answer failed =
    (call (embed o) >>= fun a => pure (answer o a) : Prog Op' Res' ε' (Except ε (Res o))) := by
  rw [call, attempt, lift]
  congr 1
  funext r
  cases r with
  | ok a =>
    show (ofExcept (answer o a)).attempt.lift embed answer failed = Prog.ret (answer o a)
    cases answer o a <;> simp [ofExcept, attempt, lift]
  | error e => rfl

end Lift

/-- Every operation the program can issue satisfies `A` and every value it returns `V`, if the answers satisfy `R`. -/
def Yields (A : Op → Prop) (R : ∀ o, Except ε (Res o) → Prop) (V : α → Prop) : Prog Op Res ε α → Prop
  | .ret value => V value
  | .fail _ => True
  | .op o next => A o ∧ ∀ r, R o r → (next r).Yields A R V

variable {f : α → Prog Op Res ε β}

section Yields

variable {A : Op → Prop} {R : ∀ o, Except ε (Res o) → Prop}

@[simp] theorem yields_pure (value : α) (V : α → Prop) :
    (pure value : Prog Op Res ε α).Yields A R V ↔ V value := Iff.rfl

theorem yields_call {o : Op} {V : Res o → Prop} (issued : A o) (answers : ∀ value, R o (.ok value) → V value) :
    (call o : Prog Op Res ε (Res o)).Yields A R V := by
  refine ⟨issued, ?_⟩
  intro r answer
  cases r with
  | ok value => exact answers value answer
  | error error => trivial

theorem yields_bind (m : Prog Op Res ε α) (f : α → Prog Op Res ε β) (V : β → Prop) :
    (m >>= f).Yields A R V ↔ m.Yields A R (fun value => (f value).Yields A R V) := by
  induction m with
  | ret value => rfl
  | fail error => rfl
  | op o next ih =>
    show (A o ∧ ∀ r, R o r → (next r >>= f).Yields A R V) ↔ _
    simp only [ih]
    rfl

variable {m : Prog Op Res ε α}

variable {V : α → Prop}

theorem yields_mono {V' : α → Prop} (weaker : ∀ value, V value → V' value) (yields : m.Yields A R V) :
    m.Yields A R V' := by
  induction m with
  | ret value => exact weaker _ yields
  | fail error => trivial
  | op o next ih => exact ⟨yields.1, fun r answer => ih r (yields.2 r answer)⟩

theorem yields_weaken {A' : Op → Prop} {R' : ∀ o, Except ε (Res o) → Prop} (ops : ∀ o, A o → A' o)
    (answers : ∀ o r, R' o r → R o r) (yields : m.Yields A R V) : m.Yields A' R' V := by
  induction m with
  | ret value => exact yields
  | fail error => trivial
  | op o next ih => exact ⟨ops o yields.1, fun r answer => ih r (yields.2 r (answers o r answer))⟩

theorem yields_seq {U : α → Prop} {V : β → Prop} (first : m.Yields A R U)
    (rest : ∀ value, U value → (f value).Yields A R V) : (m >>= f).Yields A R V :=
  (yields_bind m f V).mpr (yields_mono rest first)

theorem yields_then {V : β → Prop} (first : m.Yields A R (fun _ => True))
    (rest : ∀ value, (f value).Yields A R V) : (m >>= f).Yields A R V :=
  yields_seq first fun value _ => rest value

theorem yields_attempt {V : Except ε α → Prop} (yields : m.Yields A R (fun value => V (.ok value)))
    (errors : ∀ error, V (.error error)) : m.attempt.Yields A R V := by
  induction m with
  | ret value => exact yields
  | fail error => exact errors error
  | op o next ih => exact ⟨yields.1, fun r answer => ih r (yields.2 r answer)⟩

variable {n : Prog Op Res ε α} {c : Prop}

theorem yields_ite [Decidable c] (whenTrue : c → m.Yields A R V)
    (whenFalse : ¬ c → n.Yields A R V) : (if c then m else n).Yields A R V := by
  split
  · exact whenTrue ‹_›
  · exact whenFalse ‹_›

theorem yields_unless [Decidable c] (early : m.Yields A R V)
    (rest : ¬ c → n.Yields A R V) : (if c then m else n).Yields A R V :=
  yields_ite (fun _ => early) rest

theorem yields_next {o : Op} {f : Res o → Prog Op Res ε β} {V : β → Prop} (issued : A o)
    (rest : ∀ value, (f value).Yields A R V) : (call o >>= f : Prog Op Res ε β).Yields A R V :=
  yields_then (yields_call issued fun _ _ => trivial) rest

theorem yields_lift {Op' : Type} {Res' : Op' → Type} {ε' : Type} {A' : Op' → Prop} {R' : ∀ o, Except ε' (Res' o) → Prop}
    {embed : Op → Op'} {answer : ∀ o, Res' (embed o) → Except ε (Res o)} {failed : ε → ε'} (m : Prog Op Res ε α)
    (all : ∀ o, A' (embed o)) : (m.lift embed answer failed).Yields A' R' (fun _ => True) := by
  induction m with
  | ret value => trivial
  | fail error => trivial
  | op o next ih =>
    rw [lift, Yields]
    refine ⟨all o, ?_⟩
    intro r _
    cases r with
    | ok a => exact ih _
    | error e => trivial

end Yields

def Within (P : Op → Prop) (m : Prog Op Res ε α) : Prop := m.Yields P (fun _ _ => True) (fun _ => True)

section Within

variable {P : Op → Prop}

@[simp] theorem within_pure (value : α) : (pure value : Prog Op Res ε α).Within P := trivial

@[simp] theorem within_fail (error : ε) : (Prog.fail error : Prog Op Res ε α).Within P := trivial

@[simp] theorem within_call (o : Op) : (call o : Prog Op Res ε (Res o)).Within P ↔ P o :=
  ⟨fun within => within.1, fun issued => yields_call issued fun _ _ => trivial⟩

variable {m : Prog Op Res ε α}

theorem within_bind (first : m.Within P) (rest : ∀ value, (f value).Within P) :
    (m >>= f).Within P :=
  yields_then first rest

theorem within_attempt (all : m.Within P) : m.attempt.Within P :=
  yields_attempt all fun _ => trivial

theorem within_ite [Decidable c] (whenTrue : m.Within P) (whenFalse : n.Within P) :
    (if c then m else n).Within P :=
  yields_ite (fun _ => whenTrue) (fun _ => whenFalse)

end Within

/-- A property that programs inherit from their parts. -/
structure Closed (T : (α : Type) → Prog Op Res ε α → Prop) : Prop where
  pure : ∀ {α} (value : α), T α (Pure.pure value)
  fail : ∀ {α} (error : ε), T α (.fail error)
  bind : ∀ {α β} {m : Prog Op Res ε α} {f : α → Prog Op Res ε β}, T α m → (∀ value, T β (f value)) → T β (m >>= f)
  attempt : ∀ {α} {m : Prog Op Res ε α}, T α m → T _ m.attempt

section Closed

variable {T : (α : Type) → Prog Op Res ε α → Prop} {m : Prog Op Res ε α}

theorem Closed.ofExcept (closed : Closed T) (result : Except ε α) : T α (Prog.ofExcept result) := by
  cases result with
  | ok value => exact closed.pure value
  | error error => exact closed.fail error

theorem Closed.deferred (closed : Closed T) {last : Prog Op Res ε Unit} (first : T α m) (final : T Unit last) :
    T α (m.deferred last) :=
  closed.bind (closed.attempt first) fun result => closed.bind (closed.attempt final) fun _ => closed.ofExcept result

theorem Closed.ite (_ : Closed T) [Decidable c] (whenTrue : T α m) (whenFalse : T α n) :
    T α (if c then m else n) := by
  split <;> assumption

theorem closed_within {P : Op → Prop} : Closed fun _ (m : Prog Op Res ε _) => m.Within P :=
  ⟨within_pure, within_fail, within_bind, within_attempt⟩

end Closed

end Prog

/-- The answers and next worlds an operation issued by `p` can have, and what is left when `p` dies. -/
structure Machine (Pid World Op : Type) (Res : Op → Type) (ε : Type) where
  step : Pid → World → (o : Op) → Except ε (Res o) → World → Prop
  crash : Pid → World → World → Prop

/-- A machine given by a function of the environment's choice: `none` while the operation has to wait. -/
structure Engine (Pid Choice World Op : Type) (Res : Op → Type) (ε : Type) where
  exec : Pid → Choice → World → (o : Op) → Option (World × Except ε (Res o))
  crash : Pid → World → World

def Engine.machine {Pid Choice World Op : Type} {Res : Op → Type} {ε : Type}
    (D : Engine Pid Choice World Op Res ε) (allowed : Pid → World → Op → Choice → Prop)
    (mayCrash : Pid → World → Prop) : Machine Pid World Op Res ε where
  step p w o r w' := ∃ c, allowed p w o c ∧ D.exec p c w o = some (w', r)
  crash p w w' := mayCrash p w ∧ w' = D.crash p w

/-- An operation that the environment may make fail: the error, and whether it took effect all the same. -/
def withFault {World ε α : Type} (w : World) (fault : Option (ε × Bool)) (outcome : Except ε (World × α)) :
    World × Except ε α :=
  match fault, outcome with
  | none, .ok (w', a) => (w', .ok a)
  | none, .error e => (w, .error e)
  | some (e, true), .ok (w', _) => (w', .error e)
  | some (e, _), _ => (w, .error e)

theorem ok_of_map {ε α β : Type} {f : α → β} {r : Except ε α} {b : β} (done : r.map f = .ok b) :
    ∃ a, r = .ok a ∧ f a = b := by
  cases r with
  | error e => cases done
  | ok a => exact ⟨a, rfl, Except.ok.inj done⟩

section Fault

variable {World ε α : Type} {w w' : World} {fault : Option (ε × Bool)} {outcome : Except ε (World × α)}
  {r : Except ε α}

theorem withFault_none (result : withFault w none outcome = (w', r)) :
    (∃ a, r = .ok a ∧ outcome = .ok (w', a)) ∨ (∃ e, r = .error e ∧ w' = w ∧ outcome = .error e) := by
  cases outcome with
  | ok done =>
    cases result
    exact .inl ⟨_, rfl, rfl⟩
  | error e =>
    cases result
    exact .inr ⟨e, rfl, rfl, rfl⟩

theorem withFault_some {e : ε} {took : Bool} (result : withFault w (some (e, took)) outcome = (w', r)) :
    r = .error e ∧ (w' = w ∨ (took = true ∧ ∃ a, outcome = .ok (w', a))) := by
  cases took <;> cases outcome <;> cases result
  case true.ok.refl => exact ⟨rfl, .inr ⟨rfl, _, rfl⟩⟩
  all_goals exact ⟨rfl, .inl rfl⟩

theorem withFault_cases (result : withFault w fault outcome = (w', r)) :
    (∃ a, r = .ok a ∧ outcome = .ok (w', a)) ∨
    (∃ e, r = .error e ∧ (w' = w ∨ ∃ a, outcome = .ok (w', a))) := by
  cases fault with
  | none =>
    rcases withFault_none result with done | ⟨e, failed, same, -⟩
    · exact .inl done
    · exact .inr ⟨e, failed, .inl same⟩
  | some reported =>
    obtain ⟨failed, effect⟩ := withFault_some result
    exact .inr ⟨reported.1, failed, effect.imp_right And.right⟩

theorem effect_of_cases (cases_ : (∃ a, r = .ok a ∧ outcome = .ok (w', a)) ∨
    (∃ e, r = .error e ∧ (w' = w ∨ ∃ a, outcome = .ok (w', a)))) : w' = w ∨ ∃ a, outcome = .ok (w', a) := by
  rcases cases_ with ⟨a, -, done⟩ | ⟨e, -, effect⟩
  · exact .inr ⟨a, done⟩
  · exact effect

end Fault

/-- What is kept at every operation boundary (`inv`), what the others may do in between (`rely`), what one operation
does to them (`guar`), and what holds when it is issued (`pre`). -/
structure Spec (Pid World Op : Type) where
  inv : World → Prop
  rely : Pid → World → World → Prop
  guar : Pid → World → World → Prop
  pre : Pid → World → Op → Prop

variable {Pid World Op : Type} {Res : Op → Type} {ε α β : Type}
variable (M : Machine Pid World Op Res ε) (S : Spec Pid World Op) (p : Pid)

/-- Run from `w`, every operation is issued under `pre`, keeps `inv` and `guar`, and the result satisfies `Q`, whatever
the others do. -/
def wp : Prog Op Res ε α → (Except ε α → World → Prop) → World → Prop
  | .ret value, Q, w => Q (.ok value) w
  | .fail error, Q, w => Q (.error error) w
  | .op o next, Q, w => S.pre p w o ∧ ∀ r w', M.step p w o r w' →
      S.inv w' ∧ S.guar p w w' ∧ ∀ w'', S.rely p w' w'' → S.inv w'' → wp (next r) Q w''

def onOk (f : α → World → Prop) (Q : Except ε β → World → Prop) : Except ε α → World → Prop
  | .ok value, w => f value w
  | .error error, w => Q (.error error) w

variable {M S p}

@[simp] theorem onOk_ok (f : α → World → Prop) (Q : Except ε β → World → Prop) (value : α) :
    onOk f Q (.ok value) = f value := rfl

@[simp] theorem wp_pure (value : α) (Q : Except ε α → World → Prop) :
    wp M S p (pure value) Q = Q (.ok value) := rfl

@[simp] theorem wp_ofExcept (result : Except ε α) (Q : Except ε α → World → Prop) :
    wp M S p (.ofExcept result) Q = Q result := by
  cases result <;> rfl

theorem wp_bind (m : Prog Op Res ε α) (f : α → Prog Op Res ε β) (Q : Except ε β → World → Prop) :
    wp M S p (m >>= f) Q = wp M S p m (onOk (fun value => wp M S p (f value) Q) Q) := by
  induction m with
  | ret value => rfl
  | fail error => rfl
  | op o next ih =>
    funext w
    change (_ ∧ ∀ r w', _ → _ ∧ _ ∧ ∀ w'', _ → _ → wp M S p (next r >>= f) Q w'') = _
    simp only [ih]
    rfl

theorem wp_attempt (m : Prog Op Res ε α) (Q : Except ε (Except ε α) → World → Prop) :
    wp M S p m.attempt Q = wp M S p m (fun r => Q (.ok r)) := by
  induction m with
  | ret value => rfl
  | fail error => rfl
  | op o next ih =>
    funext w
    simp only [Prog.attempt, wp, ih]

theorem wp_call (o : Op) (Q : Except ε (Res o) → World → Prop) (w : World) :
    wp M S p (.call o) Q w ↔ S.pre p w o ∧ ∀ r w', M.step p w o r w' →
      S.inv w' ∧ S.guar p w w' ∧ ∀ w'', S.rely p w' w'' → S.inv w'' → Q r w'' := by
  simp only [Prog.call, wp, wp_ofExcept]

theorem wp_deferred (body : Prog Op Res ε α) (last : Prog Op Res ε Unit) (Q : Except ε α → World → Prop) :
    wp M S p (body.deferred last) Q = wp M S p body (fun r => wp M S p last (fun _ => Q r)) := by
  simp only [Prog.deferred, wp_bind, wp_attempt, onOk_ok, wp_ofExcept]

variable {Q : Except ε α → World → Prop} {m : Prog Op Res ε α} {w : World} {Q' : Except ε α → World → Prop}

theorem wp_mono (weaker : ∀ r w, Q r w → Q' r w) (holds : wp M S p m Q w) :
    wp M S p m Q' w := by
  induction m generalizing w with
  | ret value => exact weaker _ _ holds
  | fail error => exact weaker _ _ holds
  | op o next ih =>
    refine ⟨holds.1, fun r w' action => ?_⟩
    obtain ⟨kept, step, rest⟩ := holds.2 r w' action
    exact ⟨kept, step, fun w'' between inv => ih r (rest w'' between inv)⟩

theorem wp_then {Q' : Except ε β → World → Prop} (first : wp M S p m Q w)
    (error : ∀ e w', Q (.error e) w' → Q' (.error e) w') (ok : ∀ a w', Q (.ok a) w' → wp M S p (f a) Q' w') :
    wp M S p (m >>= f) Q' w := by
  rw [wp_bind]
  refine wp_mono ?_ first
  intro r w' holds
  cases r with
  | error e => exact error e w' holds
  | ok a => exact ok a w' holds

/-- The frame rule: what neither the operations nor the others change still holds at the end. -/
theorem wp_along {I : World → Prop} (along : ∀ w w' w'', S.guar p w w' → S.rely p w' w'' → S.inv w'' → I w → I w'') (here : I w)
    (holds : wp M S p m Q w) : wp M S p m (fun r w => I w ∧ Q r w) w := by
  induction m generalizing w with
  | ret value => exact ⟨here, holds⟩
  | fail error => exact ⟨here, holds⟩
  | op o next ih =>
    refine ⟨holds.1, fun r w' action => ?_⟩
    obtain ⟨kept, step, rest⟩ := holds.2 r w' action
    exact ⟨kept, step, fun w'' between inv => ih r (along w w' w'' step between inv here) (rest w'' between inv)⟩

theorem wp_inv (inv : S.inv w) (holds : wp M S p m Q w) : wp M S p m (fun r w => S.inv w ∧ Q r w) w :=
  wp_along (fun _ _ _ _ _ kept _ => kept) inv holds

theorem wp_yields {A : Op → Prop} {R : ∀ o, Except ε (Res o) → Prop} {V : α → Prop} {P : World → Prop}
    (ops : ∀ o w, A o → P w → S.pre p w o ∧ ∀ r w', M.step p w o r w' →
      R o r ∧ S.inv w' ∧ S.guar p w w' ∧ ∀ w'', S.rely p w' w'' → S.inv w'' → P w'') (yields : m.Yields A R V)
    (here : P w) : wp M S p m (fun r w => P w ∧ ∀ value, r = .ok value → V value) w := by
  induction m generalizing w with
  | ret value =>
    refine ⟨here, ?_⟩
    intro v same
    cases same
    exact yields
  | fail error => exact ⟨here, nofun⟩
  | op o next ih =>
    obtain ⟨pre, steps⟩ := ops o w yields.1 here
    refine ⟨pre, ?_⟩
    intro r w' action
    obtain ⟨answer, inv, guar, rest⟩ := steps r w' action
    exact ⟨inv, guar, fun w'' later inv'' => ih r (yields.2 r answer) (rest w'' later inv'')⟩

def Ensures (M : Machine Pid World Op Res ε) (S : Spec Pid World Op) (p : Pid) (m : Prog Op Res ε α)
    (V : α → World → Prop) (w : World) : Prop :=
  wp M S p m (fun r w' => ∀ a, r = .ok a → V a w') w

section Ensures

variable {U V : α → World → Prop}

theorem ensures_pure {value : α} (holds : V value w) : Ensures M S p (pure value) V w := by
  intro a same
  cases same
  exact holds

theorem ensures_fail {error : ε} : Ensures M S p (.fail error) V w := nofun

theorem ensures_mono (weaker : ∀ a w', U a w' → V a w') (ensures : Ensures M S p m U w) : Ensures M S p m V w :=
  wp_mono (fun _ w' holds a same => weaker a w' (holds a same)) ensures

theorem wp_of_ensures (ensures : Ensures M S p m V w) : wp M S p m (fun _ _ => True) w :=
  wp_mono (fun _ _ _ => trivial) ensures

end Ensures

section Component

variable {World' Op' : Type} {Res' : Op' → Type} {ε' : Type} {M' : Machine Pid World' Op' Res' ε'}
  {S' : Spec Pid World' Op'} {embed : Op → Op'} {answer : ∀ o, Res' (embed o) → Except ε (Res o)} {failed : ε → ε'}

/-- A larger machine whose embedded operations are those of a component, seen through `view`. -/
structure Embeds (M : Machine Pid World Op Res ε) (S : Spec Pid World Op) (M' : Machine Pid World' Op' Res' ε')
    (S' : Spec Pid World' Op') (p : Pid) (embed : Op → Op') (answer : ∀ o, Res' (embed o) → Except ε (Res o))
    (view : World' → World) : Prop where
  rely : ∀ w w', S'.rely p w w' → S.rely p (view w) (view w')
  inv : ∀ w, S'.inv w → S.inv (view w)
  pre : ∀ w o, S'.inv w → S.pre p (view w) o → S'.pre p w (embed o)
  step : ∀ w o r w', S'.inv w → M'.step p w (embed o) r w' →
    ∃ a, r = .ok a ∧ M.step p (view w) o (answer o a) (view w')
  kept : ∀ w o r w', S'.inv w → S.pre p (view w) o → M'.step p w (embed o) r w' → S.inv (view w') →
    S.guar p (view w) (view w') → S'.inv w' ∧ S'.guar p w w'

theorem wp_lift {view : World' → World} (embeds : Embeds M S M' S' p embed answer view) {m : Prog Op Res ε α}
    {Q : Except ε α → World → Prop} {Q' : Except ε' α → World' → Prop}
    (weaker : ∀ r w, S'.inv w → Q r (view w) → Q' (r.mapError failed) w) {w : World'} (here : S'.inv w)
    (holds : wp M S p m Q (view w)) : wp M' S' p (m.lift embed answer failed) Q' w := by
  induction m generalizing w with
  | ret value =>
    exact weaker _ _ here holds
  | fail error =>
    exact weaker _ _ here holds
  | op o next ih =>
    rw [Prog.lift]
    refine ⟨embeds.pre w o here holds.1, ?_⟩
    intro r w' action
    obtain ⟨a, rfl, inner⟩ := embeds.step w o r w' here action
    obtain ⟨inv, guar, rest⟩ := holds.2 _ _ inner
    obtain ⟨inv', guar'⟩ := embeds.kept w o _ w' here holds.1 action inv guar
    exact ⟨inv', guar', fun w'' later kept => ih _ kept (rest _ (embeds.rely _ _ later) (embeds.inv _ kept))⟩

end Component

end KubeSwift.Program
