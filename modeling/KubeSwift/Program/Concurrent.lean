import KubeSwift.Program.Basic

/-! # Programs running concurrently

Any number of processes, interleaved at single operations; a process that died stays dead. -/

namespace KubeSwift.Program

variable {Pid Choice World Op : Type} {Res : Op → Type} {ε α : Type}

inductive Proc (Op : Type) (Res : Op → Type) (ε α : Type)
  | idle
  | running (prog : Prog Op Res ε α)
  | dead

def Proc.pending : Proc Op Res ε α → Option Op
  | .running (.op o _) => some o
  | _ => none

def Proc.result : Proc Op Res ε α → Option (Except ε α)
  | .running (.ret value) => some (.ok value)
  | .running (.fail error) => some (.error error)
  | _ => none

structure System (Pid World Op : Type) (Res : Op → Type) (ε α : Type) where
  world : World
  procs : Pid → Proc Op Res ε α

variable [DecidableEq Pid]

def System.set (s : System Pid World Op Res ε α) (p : Pid) (proc : Proc Op Res ε α) (w : World) :
    System Pid World Op Res ε α where
  world := w
  procs := Function.update s.procs p proc

inductive SysStep (M : Machine Pid World Op Res ε) (offered : Prog Op Res ε α → Prop) :
    System Pid World Op Res ε α → System Pid World Op Res ε α → Prop
  | start {s : System Pid World Op Res ε α} {p : Pid} {prog : Prog Op Res ε α} (idle : s.procs p = .idle)
      (offer : offered prog) : SysStep M offered s (s.set p (.running prog) s.world)
  | op {s : System Pid World Op Res ε α} {p : Pid} {o : Op} {next : Except ε (Res o) → Prog Op Res ε α}
      {r : Except ε (Res o)} {w : World} (at_ : s.procs p = .running (.op o next))
      (action : M.step p s.world o r w) : SysStep M offered s (s.set p (.running (next r)) w)
  | crash {s : System Pid World Op Res ε α} {p : Pid} {prog : Prog Op Res ε α} {w : World}
      (at_ : s.procs p = .running prog) (dies : M.crash p s.world w) : SysStep M offered s (s.set p .dead w)

def Reachable (M : Machine Pid World Op Res ε) (offered : Prog Op Res ε α → Prop) (w : World)
    (s : System Pid World Op Res ε α) : Prop :=
  Relation.ReflTransGen (SysStep M offered) ⟨w, fun _ => .idle⟩ s

structure Compatible (M : Machine Pid World Op Res ε) (S : Spec Pid World Op) : Prop where
  refl : ∀ p w, S.rely p w w
  trans : ∀ p a b c, S.rely p a b → S.rely p b c → S.rely p a c
  guar : ∀ p q w w', q ≠ p → S.inv w → S.inv w' → S.guar p w w' → S.rely q w w' := by
    exact fun _ _ _ _ other => absurd (Subsingleton.elim _ _) other
  crash : ∀ p q w w', q ≠ p → S.inv w → M.crash p w w' → S.rely q w w' := by
    exact fun _ _ _ _ other => absurd (Subsingleton.elim _ _) other
  crashInv : ∀ p w w', S.inv w → M.crash p w w' → S.inv w' := by exact fun _ _ _ inv dies => dies.2 ▸ inv

section Soundness

variable {M : Machine Pid World Op Res ε} {S : Spec Pid World Op} {offered : Prog Op Res ε α → Prop}
  {P : Pid → World → Prop} {Q : Pid → Except ε α → World → Prop}

structure Sound (M : Machine Pid World Op Res ε) (S : Spec Pid World Op) (P : Pid → World → Prop)
    (Q : Pid → Except ε α → World → Prop) (s : System Pid World Op Res ε α) : Prop where
  inv : S.inv s.world
  idle : ∀ p, s.procs p = .idle → ∀ w, S.rely p s.world w → S.inv w → P p w
  going : ∀ p prog, s.procs p = .running prog → ∀ w, S.rely p s.world w → S.inv w → wp M S p prog (Q p) w

variable {p : Pid} {s : System Pid World Op Res ε α}

variable {w : World}

variable (compatible : Compatible M S)
include compatible

theorem Sound.others (sound : Sound M S P Q s) {proc : Proc Op Res ε α}
    (between : ∀ q, q ≠ p → S.rely q s.world w) {q : Pid} (other : q ≠ p) :
    ((s.set p proc w).procs q = .idle → ∀ w', S.rely q w w' → S.inv w' → P q w') ∧
    ∀ prog, (s.set p proc w).procs q = .running prog → ∀ w', S.rely q w w' → S.inv w' → wp M S q prog (Q q) w' := by
  have same : (s.set p proc w).procs q = s.procs q := Function.update_of_ne other _ _
  rw [same]
  constructor
  · intro idle w' later inv
    exact sound.idle q idle w' (compatible.trans q _ _ _ (between q other) later) inv
  · intro prog running w' later inv
    exact sound.going q prog running w' (compatible.trans q _ _ _ (between q other) later) inv

theorem Sound.set (sound : Sound M S P Q s) {proc : Proc Op Res ε α} (inv : S.inv w)
    (between : ∀ q, q ≠ p → S.rely q s.world w) (started : proc ≠ .idle)
    (goes : ∀ prog, proc = .running prog → ∀ w', S.rely p w w' → S.inv w' → wp M S p prog (Q p) w') :
    Sound M S P Q (s.set p proc w) := by
  have here : (s.set p proc w).procs p = proc := Function.update_self _ _ _
  refine ⟨inv, fun q idle w' later inv' => ?_, fun q prog running w' later inv' => ?_⟩
  · by_cases same : q = p
    · subst same
      exact (started (here.symm.trans idle)).elim
    · exact (sound.others compatible between same).1 idle w' later inv'
  · by_cases same : q = p
    · subst same
      exact goes prog (here.symm.trans running) w' later inv'
    · exact (sound.others compatible between same).2 prog running w' later inv'

variable {s' : System Pid World Op Res ε α}

variable (starts : ∀ p prog w, offered prog → S.inv w → P p w → wp M S p prog (Q p) w)
include starts

theorem sound_step (sound : Sound M S P Q s) (step : SysStep M offered s s') : Sound M S P Q s' := by
  cases step with
  | @start p prog idle offer =>
    refine sound.set compatible sound.inv (fun q _ => compatible.refl q _) nofun ?_
    rintro _ ⟨⟩ w between inv
    exact starts p prog w offer inv (sound.idle p idle w between inv)
  | @op p o next r w at_ action =>
    have here := sound.going p _ at_ s.world (compatible.refl p _) sound.inv
    obtain ⟨kept, step, go⟩ := here.2 r w action
    refine sound.set compatible kept (fun q other => compatible.guar p q _ _ other sound.inv kept step) nofun ?_
    rintro _ ⟨⟩
    exact go
  | @crash p prog w at_ dies =>
    exact sound.set compatible (compatible.crashInv p _ _ sound.inv dies)
      (fun q other => compatible.crash p q _ _ other sound.inv dies) nofun nofun

theorem sound_reachable (initial : S.inv w)
    (waiting : ∀ p w', S.rely p w w' → S.inv w' → P p w') (reachable : Reachable M offered w s) : Sound M S P Q s := by
  induction reachable with
  | refl => exact ⟨initial, fun p _ => waiting p, nofun⟩
  | tail _ step ih => exact sound_step compatible starts ih step

omit starts

theorem Sound.moves (sound : Sound M S P Q s) (step : SysStep M offered s s') :
    s'.world = s.world ∨ ∃ p, S.guar p s.world s'.world ∨ M.crash p s.world s'.world := by
  cases step with
  | start => exact .inl rfl
  | @op p o next r w at_ action =>
    have here := sound.going p _ at_ s.world (compatible.refl p _) sound.inv
    exact .inr ⟨p, .inl (here.2 r w action).2.1⟩
  | @crash p prog w at_ dies => exact .inr ⟨p, .inr dies⟩

omit [DecidableEq Pid] in
theorem Sound.pre (sound : Sound M S P Q s) {o : Op} (pending : (s.procs p).pending = some o) : S.pre p s.world o := by
  unfold Proc.pending at pending
  split at pending <;> cases pending
  next next at_ => exact (sound.going p _ at_ _ (compatible.refl p _) sound.inv).1

omit [DecidableEq Pid] in
theorem Sound.returned (sound : Sound M S P Q s) {r : Except ε α}
    (finished : (s.procs p).result = some r) : Q p r s.world := by
  unfold Proc.result at finished
  split at finished <;> cases finished
  all_goals next at_ => exact sound.going p _ at_ _ (compatible.refl p _) sound.inv

end Soundness

section Recorded

abbrev Answer (Op : Type) (Res : Op → Type) (ε : Type) := (o : Op) × Except ε (Res o)

/-- Every process keeps the answers it got, newest first. -/
def Engine.recorded (D : Engine Pid Choice World Op Res ε) :
    Engine Pid Choice (World × (Pid → List (Answer Op Res ε))) Op Res ε where
  exec p c s o := (D.exec p c s.1 o).map fun out => ((out.1, Function.update s.2 p (⟨o, out.2⟩ :: s.2 p)), out.2)
  crash p s := (D.crash p s.1, s.2)

theorem recorded_of_reachable {D : Engine Pid Choice World Op Res ε} {allowed : Pid → World → Op → Choice → Prop}
    {mayCrash : Pid → World → Prop} {offered : Prog Op Res ε α → Prop} {w : World} {s : System Pid World Op Res ε α}
    (reach : Reachable (D.machine allowed mayCrash) offered w s) : ∃ answers,
      Reachable (D.recorded.machine (fun p s => allowed p s.1) fun p s => mayCrash p s.1) offered (w, fun _ => [])
        ⟨(s.world, answers), s.procs⟩ := by
  induction reach with
  | refl => exact ⟨_, .refl⟩
  | tail _ step ih =>
    obtain ⟨answers, before⟩ := ih
    cases step with
    | start idle offer => exact ⟨answers, before.tail (.start idle offer)⟩
    | @op p o next r w' at_ action =>
      obtain ⟨c, may, ran⟩ := action
      refine ⟨Function.update answers p (⟨o, r⟩ :: answers p), before.tail (.op at_ ⟨c, may, ?_⟩)⟩
      simp only [Engine.recorded, ran, Option.map_some]
      rfl
    | crash at_ dies => exact ⟨answers, before.tail (.crash at_ ⟨dies.1, by rw [dies.2]; rfl⟩)⟩

end Recorded

section Schedule

variable {κ : Type}

inductive Move (Pid Choice κ : Type)
  | start (p : Pid) (call : κ)
  | op (p : Pid) (c : Choice)
  | crash (p : Pid)

def Engine.move (D : Engine Pid Choice World Op Res ε) (calls : κ → Prog Op Res ε α)
    (check : Pid → World → Op → Choice → Bool) (s : System Pid World Op Res ε α) :
    Move Pid Choice κ → Option (System Pid World Op Res ε α)
  | .start p call =>
    match s.procs p with
    | .idle => some (s.set p (.running (calls call)) s.world)
    | _ => none
  | .op p c =>
    match s.procs p with
    | .running (.op o next) =>
      if check p s.world o c then
        (D.exec p c s.world o).map fun (w, r) => s.set p (.running (next r)) w
      else none
    | _ => none
  | .crash p =>
    match s.procs p with
    | .running _ => some (s.set p .dead (D.crash p s.world))
    | _ => none

def Engine.play (D : Engine Pid Choice World Op Res ε) (calls : κ → Prog Op Res ε α)
    (check : Pid → World → Op → Choice → Bool) (moves : List (Move Pid Choice κ))
    (s : System Pid World Op Res ε α) : Option (System Pid World Op Res ε α) :=
  moves.foldlM (D.move calls check) s

variable {D : Engine Pid Choice World Op Res ε} {calls : κ → Prog Op Res ε α}
  {check : Pid → World → Op → Choice → Bool} {allowed : Pid → World → Op → Choice → Prop}
  {mayCrash : Pid → World → Prop}

variable {s s' : System Pid World Op Res ε α}

theorem step_of_move (passes : ∀ p w o c, check p w o c = true → allowed p w o c) {move : Move Pid Choice κ}
    (crashes : ∀ p, move = .crash p → mayCrash p s.world) (moved : D.move calls check s move = some s') :
    SysStep (D.machine allowed mayCrash) (fun prog => ∃ call, prog = calls call) s s' := by
  cases move with
  | start p call =>
    simp only [Engine.move] at moved
    split at moved <;> cases moved
    next idle => exact .start idle ⟨call, rfl⟩
  | op p c =>
    simp only [Engine.move] at moved
    split at moved
    · next o next at_ =>
      split at moved
      · next checked =>
        rw [Option.map_eq_some_iff] at moved
        obtain ⟨⟨w, r⟩, action, rfl⟩ := moved
        exact .op at_ ⟨c, passes p s.world o c checked, action⟩
      · cases moved
    · cases moved
  | crash p =>
    simp only [Engine.move] at moved
    split at moved <;> cases moved
    next prog at_ => exact .crash at_ ⟨crashes p rfl, rfl⟩

variable {moves : List (Move Pid Choice κ)}

theorem reachable_play (passes : ∀ p w o c, check p w o c = true → allowed p w o c)
    (crashes : ∀ p, .crash p ∈ moves → ∀ w, mayCrash p w) (played : D.play calls check moves s = some s') :
    Relation.ReflTransGen (SysStep (D.machine allowed mayCrash) fun prog => ∃ call, prog = calls call) s s' := by
  induction moves generalizing s with
  | nil =>
    cases played
    exact .refl
  | cons move moves ih =>
    obtain ⟨between, moved, rest⟩ := Option.bind_eq_some_iff.mp played
    refine .head (step_of_move passes ?_ moved) (ih (fun p member => crashes p (by simp [member])) rest)
    exact fun p same => crashes p (by simp [same]) s.world

theorem exists_of_moves (check : Pid → World → Op → Choice → Bool) (moves : List (Move Pid Choice κ))
    (passes : ∀ p w o c, check p w o c = true → allowed p w o c) (crashes : ∀ p, .crash p ∈ moves → ∀ w, mayCrash p w)
    {P : System Pid World Op Res ε α → Prop} [DecidablePred P]
    (view : (D.play calls check moves s).map (fun s' => decide (P s')) = some true) :
    ∃ s', Relation.ReflTransGen (SysStep (D.machine allowed mayCrash) fun prog => ∃ call, prog = calls call) s s' ∧ P s' := by
  obtain ⟨s', played, seen⟩ := Option.map_eq_some_iff.mp view
  exact ⟨s', reachable_play passes crashes played, of_decide_eq_true seen⟩

def Move.pid : Move Pid Choice κ → Pid
  | .start p _ | .op p _ | .crash p => p

theorem move_procs {move : Move Pid Choice κ} {q : Pid} (other : q ≠ move.pid)
    (moved : D.move calls check s move = some s') : s'.procs q = s.procs q := by
  cases move with
  | start p call | crash p =>
    simp only [Engine.move] at moved
    split at moved <;> cases moved
    exact Function.update_of_ne other _ _
  | op p c =>
    simp only [Engine.move] at moved
    split at moved
    · split at moved
      · rw [Option.map_eq_some_iff] at moved
        obtain ⟨⟨w, r⟩, -, rfl⟩ := moved
        exact Function.update_of_ne other _ _
      · cases moved
    · cases moved

theorem play_procs {q : Pid} (away : ∀ move ∈ moves, move.pid ≠ q)
    (played : D.play calls check moves s = some s') : s'.procs q = s.procs q := by
  induction moves generalizing s with
  | nil =>
    cases played
    rfl
  | cons move moves ih =>
    obtain ⟨between, moved, rest⟩ := Option.bind_eq_some_iff.mp played
    rw [ih (fun move member => away move (by simp [member])) rest]
    exact move_procs (away move (by simp)).symm moved

end Schedule

end KubeSwift.Program
