import KubeSwift.Program.Basic

/-! # Triples

What a program leaves behind wherever it starts with the invariant and a precondition. -/

namespace KubeSwift.Program

variable {Pid World Op : Type} {Res : Op → Type} {ε α β : Type} {f : α → Prog Op Res ε β}

/-- From every world with the invariant and `P`, the program keeps to the specification, and a value it returns
satisfies `V`. -/
def Gives (M : Machine Pid World Op Res ε) (S : Spec Pid World Op) (p : Pid) (P : World → Prop) (m : Prog Op Res ε α)
    (V : α → World → Prop) : Prop :=
  ∀ w, S.inv w → P w → Ensures M S p m V w

section Gives

variable {M : Machine Pid World Op Res ε} {S : Spec Pid World Op} {p : Pid} {P Q : World → Prop}
  {m : Prog Op Res ε α} {U V : α → World → Prop}

theorem gives_pure {value : α} (holds : ∀ w, P w → V value w) : Gives M S p P (pure value) V :=
  fun w _ here => ensures_pure (holds w here)

theorem gives_done {value : α} : Gives M S p P (pure value) fun _ _ => True := gives_pure fun _ _ => trivial

theorem gives_fail {error : ε} : Gives M S p P (.fail error) V := fun _ _ _ => ensures_fail

theorem gives_ofExcept {result : Except ε α} (holds : ∀ w, P w → ∀ a, result = .ok a → V a w) :
    Gives M S p P (.ofExcept result) V := by
  intro w _ here
  rw [Ensures, wp_ofExcept]
  exact holds w here

theorem gives_pre (stronger : ∀ w, P w → Q w) (gives : Gives M S p Q m V) : Gives M S p P m V :=
  fun w inv here => gives w inv (stronger w here)

theorem gives_post (weaker : ∀ a w, U a w → V a w) (gives : Gives M S p P m U) : Gives M S p P m V :=
  fun w inv here => ensures_mono weaker (gives w inv here)

theorem gives_known {c : Prop} (gives : c → Gives M S p P m V) : Gives M S p (fun w => c ∧ P w) m V :=
  fun w inv here => gives here.1 w inv here.2

theorem gives_bind {V : β → World → Prop} (first : Gives M S p P m U)
    (rest : ∀ a, Gives M S p (U a) (f a) V) : Gives M S p P (m >>= f) V := by
  intro w inv here
  refine wp_then (wp_inv inv (first w inv here)) (fun _ _ _ => nofun) fun a w' ⟨inv', holds⟩ => ?_
  exact rest a w' inv' (holds a rfl)

theorem gives_attempted (tried : Gives M S p P m.attempt fun r w => ∀ a, r = .ok a → V a w) : Gives M S p P m V := by
  intro w inv here
  have holds := tried w inv here
  rw [Ensures, wp_attempt] at holds
  exact wp_mono (fun r _ all a same => all r rfl a same) holds

theorem gives_attempt (gives : Gives M S p P m V) : Gives M S p P m.attempt fun r w => ∀ a, r = .ok a → V a w := by
  intro w inv here
  rw [Ensures, wp_attempt]
  refine wp_mono ?_ (gives w inv here)
  rintro r w' holds _ ⟨⟩
  exact holds

theorem gives_frame {I : World → Prop} (along : ∀ w w' w'', S.guar p w w' → S.rely p w' w'' → I w → I w'')
    (gives : Gives M S p P m V) : Gives M S p (fun w => P w ∧ I w) m fun a w => V a w ∧ I w := by
  intro w inv here
  have framed := wp_along (I := I) (fun w w' w'' step between _ => along w w' w'' step between) here.2 (gives w inv here.1)
  exact wp_mono (fun _ _ both a same => ⟨both.2 a same, both.1⟩) framed

end Gives

def Leaves (M : Machine Pid World Op Res ε) (S : Spec Pid World Op) (p : Pid) (P : World → Prop) (m : Prog Op Res ε α)
    (Q : Except ε α → World → Prop) : Prop :=
  ∀ w, S.inv w → P w → wp M S p m Q w

def Shows {X : Type} (M : Machine Pid World Op Res ε) (S : Spec Pid World Op) (p : Pid) (H : X → World → Prop) (x : X)
    (m : Prog Op Res ε α) (Q : Except ε α → X → Prop) : Prop :=
  Leaves M S p (H x) m fun r w => ∃ x', H x' w ∧ Q r x'

section Leaves

variable {M : Machine Pid World Op Res ε} {S : Spec Pid World Op} {p : Pid} {P P' : World → Prop} {m : Prog Op Res ε α}
  {Q R : Except ε α → World → Prop}

theorem leaves_pure {value : α} (holds : ∀ w, P w → Q (.ok value) w) : Leaves M S p P (pure value) Q :=
  fun w _ here => holds w here

theorem leaves_fail {error : ε} (holds : ∀ w, P w → Q (.error error) w) : Leaves M S p P (.fail error) Q :=
  fun w _ here => holds w here

theorem leaves_conseq (holds : Leaves M S p P' m R) (before : ∀ w, S.inv w → P w → P' w)
    (after : ∀ r w, R r w → Q r w) : Leaves M S p P m Q :=
  fun w inv here => wp_mono after (holds w inv (before w inv here))

theorem leaves_pre (stronger : ∀ w, P w → P' w) (holds : Leaves M S p P' m Q) : Leaves M S p P m Q :=
  fun w inv here => holds w inv (stronger w here)

theorem leaves_inv (holds : Leaves M S p (fun w => S.inv w ∧ P w) m Q) : Leaves M S p P m Q :=
  fun w inv here => holds w inv ⟨inv, here⟩

theorem leaves_known {c : Prop} (holds : c → Leaves M S p P m Q) : Leaves M S p (fun w => c ∧ P w) m Q :=
  fun w inv here => holds here.1 w inv here.2

theorem leaves_deferred {last : Prog Op Res ε Unit} (first : Leaves M S p P m R)
    (final : ∀ r, Leaves M S p (R r) last fun _ => Q r) : Leaves M S p P (m.deferred last) Q := by
  intro w inv here
  rw [wp_deferred]
  exact wp_mono (fun r w' ⟨inv', result⟩ => final r w' inv' result) (wp_inv inv (first w inv here))

variable {Q : Except ε β → World → Prop}

theorem leaves_attempt {f : Except ε α → Prog Op Res ε β} (first : Leaves M S p P m R)
    (next : ∀ r, Leaves M S p (R r) (f r) Q) : Leaves M S p P (m.attempt >>= f) Q := by
  intro w inv here
  rw [wp_bind, wp_attempt]
  exact wp_mono (fun r w' ⟨inv', result⟩ => next r w' inv' result) (wp_inv inv (first w inv here))

theorem leaves_bind (first : Leaves M S p P m R)
    (error : ∀ e w, R (.error e) w → Q (.error e) w) (ok : ∀ a, Leaves M S p (R (.ok a)) (f a) Q) :
    Leaves M S p P (m >>= f) Q := by
  intro w inv here
  refine wp_then (wp_inv inv (first w inv here)) (fun e w' ⟨_, result⟩ => error e w' result) ?_
  exact fun a w' ⟨inv', result⟩ => ok a w' inv' result

def Results (V : α → World → Prop) (E : World → Prop) : Except ε α → World → Prop
  | .ok value, w => V value w
  | .error _, w => E w

theorem results_pure {V : α → World → Prop} {E : World → Prop} {value : α} (holds : ∀ w, P w → V value w) :
    Leaves M S p P (pure value) (Results V E) :=
  leaves_pure holds

theorem results_mono {U V : α → World → Prop} {E E' : World → Prop} (holds : Leaves M S p P m (Results U E))
    (ok : ∀ a w, U a w → V a w) (error : ∀ w, E w → E' w) : Leaves M S p P m (Results V E') := by
  refine leaves_conseq holds (fun _ _ here => here) ?_
  rintro (e | a) w result
  · exact error w result
  · exact ok a w result

theorem results_bind {U : α → World → Prop} {V : β → World → Prop} {E : World → Prop}
    (first : Leaves M S p P m (Results U E)) (rest : ∀ a, Leaves M S p (U a) (f a) (Results V E)) :
    Leaves M S p P (m >>= f) (Results V E) :=
  leaves_bind first (fun _ _ failed => failed) rest

theorem closed_leaves : Prog.Closed fun _ m => Leaves M S p P m fun _ => P where
  pure _ := leaves_pure fun _ here => here
  fail _ := leaves_fail fun _ here => here
  bind first rest := leaves_bind first (fun _ _ here => here) rest
  attempt body w inv here := by
    rw [wp_attempt]
    exact body w inv here

end Leaves

section Shows

variable {M : Machine Pid World Op Res ε} {S : Spec Pid World Op} {p : Pid} {X : Type} {H : X → World → Prop} {x : X}
  {m : Prog Op Res ε α} {Q R : Except ε α → X → Prop}

theorem shows_pure {value : α} (holds : Q (.ok value) x) : Shows M S p H x (pure value) Q :=
  leaves_pure fun _ here => ⟨x, here, holds⟩

theorem shows_fail {error : ε} (holds : Q (.error error) x) : Shows M S p H x (.fail error) Q :=
  leaves_fail fun _ here => ⟨x, here, holds⟩

theorem shows_ite {c : Prop} [Decidable c] {n : Prog Op Res ε α} (whenTrue : c → Shows M S p H x m Q)
    (whenFalse : ¬ c → Shows M S p H x n Q) : Shows M S p H x (if c then m else n) Q := by
  split
  · next holds => exact whenTrue holds
  · next fails => exact whenFalse fails

theorem shows_mono (weaker : ∀ r x', R r x' → Q r x') (holds : Shows M S p H x m R) : Shows M S p H x m Q :=
  leaves_conseq holds (fun _ _ here => here) fun r _ ⟨x', here, result⟩ => ⟨x', here, weaker r x' result⟩

theorem shows_deferred {last : Prog Op Res ε Unit} (first : Shows M S p H x m R)
    (final : ∀ r x', R r x' → Shows M S p H x' last fun _ => Q r) : Shows M S p H x (m.deferred last) Q :=
  leaves_deferred first fun r w inv ⟨x', here, result⟩ => final r x' result w inv here

variable {Q : Except ε β → X → Prop}

theorem shows_attempt {f : Except ε α → Prog Op Res ε β} (first : Shows M S p H x m R)
    (next : ∀ r x', R r x' → Shows M S p H x' (f r) Q) : Shows M S p H x (m.attempt >>= f) Q :=
  leaves_attempt first fun r w inv ⟨x', here, result⟩ => next r x' result w inv here

theorem shows_bind (first : Shows M S p H x m R)
    (error : ∀ e x', R (.error e) x' → Q (.error e) x') (ok : ∀ a x', R (.ok a) x' → Shows M S p H x' (f a) Q) :
    Shows M S p H x (m >>= f) Q :=
  leaves_bind first (fun e _ ⟨x', here, result⟩ => ⟨x', here, error e x' result⟩)
    fun a w inv ⟨x', here, result⟩ => ok a x' result w inv here

theorem shows_then (first : Shows M S p H x m R)
    (ok : ∀ a x', R (.ok a) x' → Shows M S p H x' (f a) fun _ _ => True) : Shows M S p H x (m >>= f) fun _ _ => True :=
  shows_bind first (fun _ _ _ => trivial) ok

theorem shows_seq (first : Shows M S p H x m fun r x' => match r with
      | .ok a => Shows M S p H x' (f a) Q
      | .error e => Q (.error e) x') : Shows M S p H x (m >>= f) Q :=
  shows_bind first (fun _ _ post => post) fun _ _ post => post

theorem closed_shows {same : X → X → Prop} (refl : ∀ x, same x x) (trans : ∀ {x y z}, same x y → same y z → same x z) :
    Prog.Closed fun _ (m : Prog Op Res ε _) => ∀ x, Shows M S p H x m fun _ => same x where
  pure _ x := shows_pure (refl x)
  fail _ x := shows_fail (refl x)
  bind first rest x := shows_bind (first x) (fun _ _ here => here) fun a y here =>
    shows_mono (fun _ _ later => trans here later) (rest a y)
  attempt body x w inv here := by
    rw [wp_attempt]
    exact body x w inv here

end Shows

class Stable (S : Spec Pid World Op) (p : Pid) (P : World → Prop) : Prop where
  later : ∀ {w w'}, P w → S.rely p w w' → P w'

section Calls

variable {M : Machine Pid World Op Res ε} {S : Spec Pid World Op} {p : Pid} {P P' : World → Prop}

instance stable_and [Stable S p P] [Stable S p P'] : Stable S p fun w => P w ∧ P' w :=
  ⟨fun here between => ⟨Stable.later here.1 between, Stable.later here.2 between⟩⟩

instance stable_const {c : Prop} : Stable S p fun _ => c := ⟨fun here _ => here⟩

instance stable_forall {ι : Sort _} {P : ι → World → Prop} [∀ i, Stable S p (P i)] : Stable S p fun w => ∀ i, P i w :=
  ⟨fun here between i => Stable.later (here i) between⟩

variable {o : Op}

theorem gives_tried {V : Except ε (Res o) → World → Prop} [∀ r, Stable S p (V r)]
    (pre : ∀ w, S.inv w → P w → S.pre p w o) (effect : ∀ w r w', S.inv w → P w → M.step p w o r w' →
      S.inv w' ∧ S.guar p w w' ∧ V r w') : Gives M S p P (Prog.call o).attempt V := by
  intro w inv here
  rw [Ensures, wp_attempt]
  refine (wp_call o _ w).mpr ⟨pre w inv here, ?_⟩
  intro r w' ran
  obtain ⟨inv', guar, holds⟩ := effect w r w' inv here ran
  refine ⟨inv', guar, ?_⟩
  rintro w'' between - _ ⟨⟩
  exact Stable.later holds between

variable {Choice : Type} {D : Engine Pid Choice World Op Res ε} {allowed : Pid → World → Op → Choice → Prop}
  {mayCrash : Pid → World → Prop}

theorem gives_performed {U : Res o → World → Prop} [∀ a, Stable S p (U a)]
    (perform : Choice → World → Except ε (World × Res o))
    (performs : ∀ c w w' r, D.exec p c w o = some (w', r) → (∃ a, r = .ok a ∧ perform c w = .ok (w', a)) ∨
      ∃ e, r = .error e ∧ (w' = w ∨ ∃ a, perform c w = .ok (w', a)))
    (idle : ∀ w, S.guar p w w) (pre : ∀ w, S.inv w → P w → S.pre p w o)
    (effect : ∀ c w w' a, S.inv w → P w → allowed p w o c → perform c w = .ok (w', a) →
      S.inv w' ∧ S.guar p w w' ∧ U a w') : Gives (D.machine allowed mayCrash) S p P (Prog.call o) U := by
  refine gives_attempted (gives_tried (V := fun r w => ∀ a, r = .ok a → U a w) pre ?_)
  rintro w r w' inv here ⟨c, may, ran⟩
  rcases performs c w w' r ran with ⟨a, rfl, done⟩ | ⟨e, rfl, rfl | ⟨a, done⟩⟩
  · obtain ⟨inv', guar, holds⟩ := effect c w w' a inv here may done
    refine ⟨inv', guar, ?_⟩
    rintro _ ⟨⟩
    exact holds
  · exact ⟨inv, idle w', nofun⟩
  · obtain ⟨inv', guar, -⟩ := effect c w w' a inv here may done
    exact ⟨inv', guar, nofun⟩

end Calls

section Learned

variable {M : Machine Pid World Op Res ε} {S : Spec Pid World Op} {p : Pid} {m : Prog Op Res ε α} {X : Type}
  {A : (X → Prop) → Op → Prop} {R : (X → Prop) → ∀ o, Except ε (Res o) → Prop} {H : X → World → Prop}

/-- A program whose operations are in order for whatever takes in the answers so far. -/
theorem wp_learned {w : World} {K : X → Prop}
    (ops : ∀ o w known, S.inv w → (∀ x, known x → H x w) → A known o → S.pre p w o ∧ ∀ r w', M.step p w o r w' →
      S.inv w' ∧ S.guar p w w' ∧ ∀ w'', S.rely p w' w'' → S.inv w'' → (∀ x, known x → H x w'') ∧
        ∀ seen : X → Prop, (∀ x, H x w'' → seen x) → R seen o r)
    (yields : ∀ seen : X → Prop, (∀ x, K x → seen x) → m.Yields (A seen) (R seen) fun _ => True) (inv : S.inv w)
    (here : ∀ x, K x → H x w) : wp M S p m (fun _ _ => True) w := by
  induction m generalizing w K with
  | ret value => trivial
  | fail error => trivial
  | op o next ih =>
    obtain ⟨pre, steps⟩ := ops o w K inv here (yields K fun _ => id).1
    refine ⟨pre, ?_⟩
    intro r w' ran
    obtain ⟨inv', guar, later⟩ := steps r w' ran
    refine ⟨inv', guar, ?_⟩
    intro w'' between inv''
    obtain ⟨old, answer⟩ := later w'' between inv''
    refine ih r (K := fun x => H x w'') ?_ inv'' fun _ => id
    intro seen all
    exact (yields seen fun x before => all x (old x before)).2 r (answer seen all)

end Learned

end KubeSwift.Program
