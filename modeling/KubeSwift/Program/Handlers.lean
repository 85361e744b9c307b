import KubeSwift.Program.Basic

/-! # Programs whose operations are programs -/

namespace KubeSwift.Program

namespace Prog

variable {Op : Type} {Res : Op → Type} {ε α β : Type}

def handle {Op' : Type} {Res' : Op' → Type} {ε' : Type} (body : ∀ o, Prog Op' Res' ε' (Except ε (Res o)))
    (failed : ε → ε') : Prog Op Res ε α → Prog Op' Res' ε' α
  | .ret value => .ret value
  | .fail error => .fail (failed error)
  | .op o next => body o >>= fun r => (next r).handle body failed

section Handle

variable {Op' : Type} {Res' : Op' → Type} {ε' : Type} {body : ∀ o, Prog Op' Res' ε' (Except ε (Res o))}
  {failed : ε → ε'}

theorem handle_bind (m : Prog Op Res ε α) (f : α → Prog Op Res ε β) :
    (m >>= f).handle body failed = m.handle body failed >>= fun a => (f a).handle body failed := by
  induction m with
  | ret value =>
    rfl
  | fail error =>
    rfl
  | op o next ih =>
    show (Prog.op o fun r => next r >>= f).handle body failed = _
    rw [handle, handle, bind_assoc]
    exact congrArg _ (funext ih)

theorem handle_call (o : Op) : (call o : Prog Op Res ε (Res o)).handle body failed =
    body o >>= fun r => ofExcept (r.mapError failed) := by
  refine congrArg _ (funext fun r => ?_)
  cases r <;> simp [ofExcept, handle, Except.mapError]

theorem handle_attempt_call (o : Op) : (call o : Prog Op Res ε (Res o)).attempt.handle body failed = body o := by
  rw [call, attempt, handle]
  have hands : ∀ r : Except ε (Res o), (ofExcept r : Prog Op Res ε (Res o)).attempt.handle body failed = pure r := by
    intro r
    cases r <;> simp [ofExcept, attempt, handle] <;> rfl
  simp only [hands, bind_pure]

end Handle

end Prog

variable {Pid World Op Op' : Type} {Res : Op → Type} {Res' : Op' → Type} {ε ε' α : Type}
  {M : Machine Pid World Op' Res' ε'} {S : Spec Pid World Op'} {p : Pid}
  {body : ∀ o, Prog Op' Res' ε' (Except ε (Res o))} {failed : ε → ε'}

theorem wp_handle {A : Op → Prop} {R : ∀ o, Except ε (Res o) → Prop} {V : α → Prop} {P : World → Prop}
    (ops : ∀ o w, A o → P w → wp M S p (body o) (fun r w' => P w' ∧ ∀ a, r = .ok a → R o a) w)
    {m : Prog Op Res ε α} (yields : m.Yields A R V) {w : World} (here : P w) :
    wp M S p (m.handle body failed) (fun r w => P w ∧ ∀ value, r = .ok value → V value) w := by
  induction m generalizing w with
  | ret value =>
    refine ⟨here, ?_⟩
    intro v same
    cases same
    exact yields
  | fail error =>
    exact ⟨here, nofun⟩
  | op o next ih =>
    refine wp_then (ops o w yields.1 here) (fun _ _ ⟨here', answers⟩ => ⟨here', nofun⟩) fun a w' ⟨here', answers⟩ => ?_
    exact ih a (yields.2 a (answers a rfl)) here'

end KubeSwift.Program
