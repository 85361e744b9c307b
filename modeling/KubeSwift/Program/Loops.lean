import KubeSwift.Program.Concurrent

/-! # Control loops

Each loop runs one program at a time, again and again. The world changes by itself at any moment (`env`), or while no
loop is inside a program (`quiet`). -/

namespace KubeSwift.Program

variable {Pid Choice World Op : Type} {Res : Op → Type} {ε : Type}

structure Loops (Pid World Op : Type) (Res : Op → Type) (ε : Type) where
  world : World
  running : Pid → Option (Prog Op Res ε Unit)

def Loops.pending (s : Loops Pid World Op Res ε) (p : Pid) : Option Op :=
  match s.running p with
  | some (.op o _) => some o
  | _ => none

variable [DecidableEq Pid]

def Loops.set (s : Loops Pid World Op Res ε) (p : Pid) (prog : Option (Prog Op Res ε Unit)) (w : World) :
    Loops Pid World Op Res ε where
  world := w
  running := Function.update s.running p prog

structure Setting (Pid World Op : Type) (Res : Op → Type) (ε : Type) where
  env : World → World → Prop
  quiet : World → World → Prop
  offered : Pid → Prog Op Res ε Unit → Prop

inductive LoopStep (M : Machine Pid World Op Res ε) (E : Setting Pid World Op Res ε) :
    Loops Pid World Op Res ε → Loops Pid World Op Res ε → Prop
  | env {s : Loops Pid World Op Res ε} {w : World} (moves : E.env s.world w) : LoopStep M E s { s with world := w }
  | quiet {s : Loops Pid World Op Res ε} {w : World} (idle : ∀ p, s.running p = none)
      (moves : E.quiet s.world w) : LoopStep M E s { s with world := w }
  | start {s : Loops Pid World Op Res ε} {p : Pid} {prog : Prog Op Res ε Unit} (idle : s.running p = none)
      (offer : E.offered p prog) : LoopStep M E s (s.set p (some prog) s.world)
  | op {s : Loops Pid World Op Res ε} {p : Pid} {o : Op} {next : Except ε (Res o) → Prog Op Res ε Unit}
      {r : Except ε (Res o)} {w : World} (at_ : s.running p = some (.op o next))
      (action : M.step p s.world o r w) : LoopStep M E s (s.set p (some (next r)) w)
  | ret {s : Loops Pid World Op Res ε} {p : Pid} (at_ : s.running p = some (.ret ())) :
      LoopStep M E s (s.set p none s.world)
  | fail {s : Loops Pid World Op Res ε} {p : Pid} {e : ε} (at_ : s.running p = some (.fail e)) :
      LoopStep M E s (s.set p none s.world)
  | crash {s : Loops Pid World Op Res ε} {p : Pid} {prog : Prog Op Res ε Unit} {w : World}
      (at_ : s.running p = some prog) (dies : M.crash p s.world w) : LoopStep M E s (s.set p none w)

def LoopsReach (M : Machine Pid World Op Res ε) (E : Setting Pid World Op Res ε) (w : World)
    (s : Loops Pid World Op Res ε) : Prop :=
  Relation.ReflTransGen (LoopStep M E) ⟨w, fun _ => none⟩ s

structure Resting (M : Machine Pid World Op Res ε) (S : Spec Pid World Op) (E : Setting Pid World Op Res ε)
    (I : Pid → World → Prop) : Prop extends Compatible M S where
  env : ∀ w w', S.inv w → E.env w w' → S.inv w' ∧ ∀ p, S.rely p w w'
  quiet : ∀ w w', S.inv w → (∀ p, I p w) → E.quiet w w' → S.inv w' ∧ ∀ p, I p w'
  stable : ∀ p w w', I p w → S.rely p w w' → S.inv w' → I p w'
  died : ∀ p w w', S.inv w → M.crash p w w' → I p w'
  starts : ∀ p prog w, E.offered p prog → S.inv w → I p w → wp M S p prog (fun _ => I p) w

section Soundness

variable {M : Machine Pid World Op Res ε} {S : Spec Pid World Op} {E : Setting Pid World Op Res ε}
  {I : Pid → World → Prop}

structure RestSound (M : Machine Pid World Op Res ε) (S : Spec Pid World Op) (I : Pid → World → Prop)
    (s : Loops Pid World Op Res ε) : Prop where
  inv : S.inv s.world
  idle : ∀ p, s.running p = none → I p s.world
  going : ∀ p prog, s.running p = some prog → ∀ w, S.rely p s.world w → S.inv w → wp M S p prog (fun _ => I p) w

variable {s : Loops Pid World Op Res ε} {w : World}

theorem RestSound.set (rests : Resting M S E I) (sound : RestSound M S I s) {p : Pid}
    {prog : Option (Prog Op Res ε Unit)} (inv : S.inv w) (between : ∀ q, q ≠ p → S.rely q s.world w)
    (stops : prog = none → I p w)
    (goes : ∀ next, prog = some next → ∀ w', S.rely p w w' → S.inv w' → wp M S p next (fun _ => I p) w') :
    RestSound M S I (s.set p prog w) := by
  have here : (s.set p prog w).running p = prog := Function.update_self _ _ _
  have there : ∀ q, q ≠ p → (s.set p prog w).running q = s.running q := fun q other => Function.update_of_ne other _ _
  refine ⟨inv, ?_, ?_⟩
  · intro q idle
    by_cases same : q = p
    · subst same
      exact stops (here.symm.trans idle)
    · rw [there q same] at idle
      exact rests.stable q _ _ (sound.idle q idle) (between q same) inv
  · intro q next running w' later inv'
    by_cases same : q = p
    · subst same
      exact goes next (here.symm.trans running) w' later inv'
    · rw [there q same] at running
      exact sound.going q next running w' (rests.trans q _ _ _ (between q same) later) inv'

variable {s' : Loops Pid World Op Res ε}

theorem restSound_step (rests : Resting M S E I) (sound : RestSound M S I s)
    (step : LoopStep M E s s') : RestSound M S I s' := by
  cases step with
  | @env w moves =>
    obtain ⟨inv, relied⟩ := rests.env _ _ sound.inv moves
    refine ⟨inv, ?_, ?_⟩
    · intro p idle
      exact rests.stable p _ _ (sound.idle p idle) (relied p) inv
    · intro p prog running w' later inv'
      exact sound.going p prog running w' (rests.trans p _ _ _ (relied p) later) inv'
  | @quiet w idle moves =>
    obtain ⟨inv, rest⟩ := rests.quiet _ _ sound.inv (fun p => sound.idle p (idle p)) moves
    refine ⟨inv, fun p _ => rest p, ?_⟩
    intro p prog running
    cases (idle p).symm.trans running
  | @start p prog idle offer =>
    refine sound.set rests sound.inv (fun q _ => rests.refl q _) nofun ?_
    intro next same w' later inv'
    cases same
    exact rests.starts p prog w' offer inv' (rests.stable p _ _ (sound.idle p idle) later inv')
  | @op p o next r w at_ action =>
    have here := sound.going p _ at_ s.world (rests.refl p _) sound.inv
    obtain ⟨kept, step, go⟩ := here.2 r w action
    refine sound.set rests kept (fun q other => rests.guar p q _ _ other sound.inv kept step) nofun ?_
    intro prog same
    cases same
    exact go
  | @ret p at_ =>
    have here := sound.going p _ at_ s.world (rests.refl p _) sound.inv
    exact sound.set rests sound.inv (fun q _ => rests.refl q _) (fun _ => here) nofun
  | @fail p e at_ =>
    have here := sound.going p _ at_ s.world (rests.refl p _) sound.inv
    exact sound.set rests sound.inv (fun q _ => rests.refl q _) (fun _ => here) nofun
  | @crash p prog w at_ dies =>
    exact sound.set rests (rests.crashInv p _ _ sound.inv dies)
      (fun q other => rests.crash p q _ _ other sound.inv dies) (fun _ => rests.died p _ _ sound.inv dies) nofun

theorem restSound_reach (rests : Resting M S E I) (initial : S.inv w) (idle : ∀ p, I p w) (reach : LoopsReach M E w s) :
    RestSound M S I s := by
  induction reach with
  | refl => exact ⟨initial, fun p _ => idle p, nofun⟩
  | tail _ step ih => exact restSound_step rests ih step

omit [DecidableEq Pid] in
theorem RestSound.pre (compatible : Compatible M S) (sound : RestSound M S I s) {p : Pid} {o : Op}
    (pending : s.pending p = some o) : S.pre p s.world o := by
  unfold Loops.pending at pending
  split at pending <;> cases pending
  next next at_ => exact (sound.going p _ at_ _ (compatible.refl p _) sound.inv).1

theorem restSound_invariant (rests : Resting M S E I) {J : World → Prop}
    (op : ∀ p w o r w', S.inv w → S.inv w' → S.pre p w o → M.step p w o r w' → J w → J w')
    (crash : ∀ p w w', S.inv w → M.crash p w w' → J w → J w') (env : ∀ w w', S.inv w → E.env w w' → J w → J w')
    (quiet : ∀ w w', S.inv w → E.quiet w w' → J w → J w') (initial : S.inv w) (idle : ∀ p, I p w) (first : J w)
    (reach : LoopsReach M E w s) : J s.world := by
  induction reach with
  | refl => exact first
  | @tail s s' before step ih =>
    have sound := restSound_reach rests initial idle before
    have next := restSound_step rests sound step
    cases step with
    | env moves => exact env _ _ sound.inv moves ih
    | quiet _ moves => exact quiet _ _ sound.inv moves ih
    | start | ret | fail => exact ih
    | @op p o next r w at_ action =>
      have here := sound.going p _ at_ s.world (rests.refl p _) sound.inv
      exact op p _ o r _ sound.inv next.inv here.1 action ih
    | crash _ dies => exact crash _ _ _ sound.inv dies ih

structure Suits (M : Machine Pid World Op Res ε) (S : Spec Pid World Op) (E : Setting Pid World Op Res ε) : Prop
    extends Compatible M S where
  env : ∀ w w', S.inv w → E.env w w' → S.inv w' ∧ ∀ p, S.rely p w w'
  quiet : ∀ w w', S.inv w → E.quiet w w' → S.inv w' := by exact fun _ _ _ => False.elim
  starts : ∀ p prog w, E.offered p prog → S.inv w → wp M S p prog (fun _ _ => True) w

omit [DecidableEq Pid] in
theorem Suits.resting (suits : Suits M S E) : Resting M S E (fun _ _ => True) where
  toCompatible := suits.toCompatible
  env := suits.env
  quiet w w' inv _ moves := ⟨suits.quiet w w' inv moves, fun _ => trivial⟩
  stable _ _ _ _ _ _ := trivial
  died _ _ _ _ _ := trivial
  starts p prog w offer inv _ := suits.starts p prog w offer inv

abbrev LoopsSound (M : Machine Pid World Op Res ε) (S : Spec Pid World Op) (s : Loops Pid World Op Res ε) : Prop :=
  RestSound M S (fun _ _ => True) s

theorem loopsSound_reach (suits : Suits M S E) (initial : S.inv w) (reach : LoopsReach M E w s) : LoopsSound M S s :=
  restSound_reach suits.resting initial (fun _ => trivial) reach

end Soundness

section Fewer

structure Machine.Sub (M' M : Machine Pid World Op Res ε) : Prop where
  step : ∀ p w o r w', M'.step p w o r w' → M.step p w o r w'
  crash : ∀ p w w', M'.crash p w w' → M.crash p w w'

structure Setting.Sub (E' E : Setting Pid World Op Res ε) : Prop where
  env : ∀ w w', E'.env w w' → E.env w w'
  quiet : ∀ w w', E'.quiet w w' → E.quiet w w'
  offered : ∀ p prog, E'.offered p prog → E.offered p prog

variable {M M' : Machine Pid World Op Res ε} {S : Spec Pid World Op} {E E' : Setting Pid World Op Res ε}

omit [DecidableEq Pid] in
theorem wp_sub (sub : M'.Sub M) {p : Pid} {α : Type} {m : Prog Op Res ε α} {Q : Except ε α → World → Prop}
    {w : World} (holds : wp M S p m Q w) : wp M' S p m Q w := by
  induction m generalizing w with
  | ret value => exact holds
  | fail error => exact holds
  | op o next ih =>
    refine ⟨holds.1, ?_⟩
    intro r w' action
    obtain ⟨kept, step, rest⟩ := holds.2 r w' (sub.step _ _ _ _ _ action)
    exact ⟨kept, step, fun w'' later inv => ih r (rest w'' later inv)⟩

omit [DecidableEq Pid] in
theorem Suits.sub (suits : Suits M S E) (fewer : M'.Sub M) (less : E'.Sub E) : Suits M' S E' where
  refl := suits.refl
  trans := suits.trans
  guar := suits.guar
  crash p q w w' other inv dies := suits.crash p q w w' other inv (fewer.crash p w w' dies)
  crashInv p w w' inv dies := suits.crashInv p w w' inv (fewer.crash p w w' dies)
  env w w' inv moves := suits.env w w' inv (less.env w w' moves)
  quiet w w' inv moves := suits.quiet w w' inv (less.quiet w w' moves)
  starts p prog w offer inv := wp_sub fewer (suits.starts p prog w (less.offered p prog offer) inv)

end Fewer

section Schedule

variable {κ τ : Type}

inductive LoopMove (Pid Choice κ τ : Type)
  | env (event : τ)
  | quiet (event : τ)
  | start (p : Pid) (call : κ)
  | op (p : Pid) (c : Choice)
  | finish (p : Pid)
  | crash (p : Pid)

/-- Loops that can be played: the programs, what the world does at an event, and which choices pass. -/
structure Script (Pid Choice World Op : Type) (Res : Op → Type) (ε κ τ : Type) where
  engine : Engine Pid Choice World Op Res ε
  calls : κ → Prog Op Res ε Unit
  event : τ → World → World
  check : Pid → World → Op → Choice → Bool
  pids : List Pid

def Script.move (C : Script Pid Choice World Op Res ε κ τ) (s : Loops Pid World Op Res ε) :
    LoopMove Pid Choice κ τ → Option (Loops Pid World Op Res ε)
  | .env event => some { s with world := C.event event s.world }
  | .quiet event =>
    if C.pids.all fun p => (s.running p).isNone then some { s with world := C.event event s.world } else none
  | .start p call =>
    match s.running p with
    | none => some (s.set p (some (C.calls call)) s.world)
    | some _ => none
  | .op p c =>
    match s.running p with
    | some (.op o next) =>
      if C.check p s.world o c then
        (C.engine.exec p c s.world o).map fun (w, r) => s.set p (some (next r)) w
      else none
    | _ => none
  | .finish p =>
    match s.running p with
    | some (.ret _) | some (.fail _) => some (s.set p none s.world)
    | _ => none
  | .crash p =>
    match s.running p with
    | some _ => some (s.set p none (C.engine.crash p s.world))
    | none => none

def Script.play (C : Script Pid Choice World Op Res ε κ τ) (moves : List (LoopMove Pid Choice κ τ))
    (s : Loops Pid World Op Res ε) : Option (Loops Pid World Op Res ε) :=
  moves.foldlM C.move s

/-- A move that may stand in a schedule: `K` are the starts, `V` and `Q` the events, and a process of `X` may die. -/
def LoopMove.Legal (K : Pid → κ → Prop) (V Q : τ → Prop) (X : Pid → Prop) : LoopMove Pid Choice κ τ → Prop
  | .start p call => K p call
  | .env event => V event
  | .quiet event => Q event
  | .crash p => X p
  | .op _ _ | .finish _ => True

instance {K : Pid → κ → Prop} {V Q : τ → Prop} {X : Pid → Prop} [∀ p call, Decidable (K p call)] [DecidablePred V]
    [DecidablePred Q] [DecidablePred X] (move : LoopMove Pid Choice κ τ) : Decidable (move.Legal K V Q X) := by
  cases move <;> unfold LoopMove.Legal <;> infer_instance

/-- The legal moves of a script are steps. -/
structure Script.Fits (C : Script Pid Choice World Op Res ε κ τ) (E : Setting Pid World Op Res ε)
    (A : Pid → World → Op → Choice → Prop := fun _ _ _ _ => True) (D : Pid → World → Prop := fun _ _ => True)
    (K : Pid → κ → Prop := fun _ _ => True) (V : τ → Prop := fun _ => True) (Q : τ → Prop := fun _ => False)
    (X : Pid → Prop := fun _ => True) : Prop where
  passes : ∀ p w o c, C.check p w o c = true → A p w o c := by exact fun _ _ _ _ _ => trivial
  offers : ∀ p call, K p call → E.offered p (C.calls call)
  env : ∀ event w, V event → E.env w (C.event event w) := by exact fun _ _ => False.elim
  quiet : ∀ event w, Q event → E.quiet w (C.event event w) := by exact fun _ _ => False.elim
  crashes : ∀ p w, X p → D p w := by exact fun _ _ _ => trivial
  all : ∀ event, Q event → ∀ p, p ∈ C.pids := by
    first
    | exact fun _ => False.elim
    | exact fun _ _ _ => List.mem_singleton_self _

variable {C : Script Pid Choice World Op Res ε κ τ} {E : Setting Pid World Op Res ε}
  {A : Pid → World → Op → Choice → Prop} {D : Pid → World → Prop} {K : Pid → κ → Prop} {V Q : τ → Prop} {X : Pid → Prop}
  {s : Loops Pid World Op Res ε}

variable (fits : C.Fits E A D K V Q X)
include fits

theorem loopStep_of_move {move : LoopMove Pid Choice κ τ} (legal : move.Legal K V Q X)
    (moved : C.move s move = some s') : LoopStep (C.engine.machine A D) E s s' := by
  cases move with
  | env event =>
    cases moved
    exact .env (fits.env event _ legal)
  | quiet event =>
    simp only [Script.move] at moved
    split at moved <;> cases moved
    next idle =>
      refine .quiet ?_ (fits.quiet event _ legal)
      intro p
      exact Option.isNone_iff_eq_none.mp (List.all_eq_true.mp idle p (fits.all event legal p))
  | start p call =>
    simp only [Script.move] at moved
    split at moved <;> cases moved
    next idle => exact .start idle (fits.offers p call legal)
  | op p c =>
    simp only [Script.move] at moved
    split at moved
    · next o next at_ =>
      split at moved
      · next checked =>
        rw [Option.map_eq_some_iff] at moved
        obtain ⟨⟨w, r⟩, action, rfl⟩ := moved
        exact .op at_ ⟨c, fits.passes p s.world o c checked, action⟩
      · cases moved
    · cases moved
  | finish p =>
    simp only [Script.move] at moved
    split at moved <;> cases moved
    · next at_ => exact .ret at_
    · next at_ => exact .fail at_
  | crash p =>
    simp only [Script.move] at moved
    split at moved <;> cases moved
    next prog at_ => exact .crash at_ ⟨fits.crashes p _ legal, rfl⟩

theorem loopsReach_play {moves : List (LoopMove Pid Choice κ τ)}
    (legal : ∀ move ∈ moves, move.Legal K V Q X) (played : C.play moves s = some s') :
    Relation.ReflTransGen (LoopStep (C.engine.machine A D) E) s s' := by
  induction moves generalizing s with
  | nil =>
    cases played
    exact .refl
  | cons move moves ih =>
    obtain ⟨between, moved, rest⟩ := Option.bind_eq_some_iff.mp played
    obtain ⟨first, others⟩ := List.forall_mem_cons.mp legal
    exact .head (loopStep_of_move fits first moved) (ih others rest)

theorem exists_of_play (moves : List (LoopMove Pid Choice κ τ)) {P : Loops Pid World Op Res ε → Prop} [DecidablePred P]
    (view : (∀ move ∈ moves, move.Legal K V Q X) ∧ (C.play moves s).map (fun s' => decide (P s')) = some true) :
    ∃ s', Relation.ReflTransGen (LoopStep (C.engine.machine A D) E) s s' ∧ P s' := by
  obtain ⟨s', played, seen⟩ := Option.map_eq_some_iff.mp view.2
  exact ⟨s', loopsReach_play fits view.1 played, of_decide_eq_true seen⟩

end Schedule

end KubeSwift.Program
