import Mathlib

/-! # Objects that keep their versions

Each key has the list of the values it had, oldest first. Writers only append. -/

namespace KubeSwift.Program

variable {κ α : Type}

def Extends (f g : κ → List α) : Prop := ∀ k, f k <+: g k

theorem Extends.refl (f : κ → List α) : Extends f f := fun k => List.prefix_refl (f k)

theorem Extends.trans {f g h : κ → List α} (first : Extends f g) (second : Extends g h) : Extends f h :=
  fun k => (first k).trans (second k)

theorem Extends.getElem? {f g : κ → List α} (extends_ : Extends f g) {k : κ} {v : Nat} {a : α}
    (seen : (f k)[v]? = some a) : (g k)[v]? = some a := by
  obtain ⟨rest, same⟩ := extends_ k
  obtain ⟨bound, -⟩ := List.getElem?_eq_some_iff.mp seen
  rw [← same, List.getElem?_append_left bound, seen]

variable [DecidableEq κ]

def append (f : κ → List α) (k : κ) (a : α) : κ → List α := Function.update f k (f k ++ [a])

theorem append_self (f : κ → List α) (k : κ) (a : α) : append f k a k = f k ++ [a] :=
  Function.update_self k _ f

theorem append_of_ne (f : κ → List α) {k k' : κ} (a : α) (other : k' ≠ k) : append f k a k' = f k' :=
  Function.update_of_ne other _ f

theorem mem_append_iff {f : κ → List α} {k k' : κ} {a b : α} : b ∈ append f k a k' ↔ b ∈ f k' ∨ k' = k ∧ b = a := by
  by_cases same : k' = k
  · subst same
    simp [append_self]
  · simp [append_of_ne f a same, same]

theorem extends_append (f : κ → List α) (k : κ) (a : α) : Extends f (append f k a) := by
  intro k'
  by_cases same : k' = k
  · rw [same, append_self]
    exact List.prefix_append _ _
  · rw [append_of_ne f a same]

structure Chain (first : κ → α → Prop) (step : κ → α → α → Prop) (f : κ → List α) : Prop where
  first : ∀ k a, (f k)[0]? = some a → first k a
  step : ∀ k v a b, (f k)[v]? = some a → (f k)[v + 1]? = some b → step k a b

namespace Chain

variable {first : κ → α → Prop} {step : κ → α → α → Prop} {f : κ → List α}

variable {a : α} {k : κ} {v : Nat}

variable (chain : Chain first step f)
include chain

theorem write (firsts : ∀ b, (f k ++ [a])[0]? = some b → first k b)
    (steps : ∀ (u : Nat) b c, (f k ++ [a])[u]? = some b → (f k ++ [a])[u + 1]? = some c → step k b c) :
    Chain first step (Program.append f k a) := by
  refine ⟨fun k' => ?_, fun k' => ?_⟩
  all_goals by_cases same : k' = k
  · rwa [same, append_self]
  · rw [append_of_ne f a same]
    exact chain.first k'
  · rwa [same, append_self]
  · rw [append_of_ne f a same]
    exact chain.step k'

theorem append (current : (f k).length = v + 1)
    (next : ∀ old, (f k)[v]? = some old → step k old a) : Chain first step (Program.append f k a) := by
  refine chain.write ?_ ?_
  · intro b found
    rw [List.getElem?_append_left (by omega)] at found
    exact chain.first k b found
  · intro u b c found later
    have bound := (List.getElem?_eq_some_iff.mp later).1
    simp only [List.length_append, List.length_singleton] at bound
    rw [List.getElem?_append_left (by omega)] at found
    by_cases last : u = v
    · subst last
      rw [← current, List.getElem?_concat_length] at later
      cases later
      exact next b found
    · rw [List.getElem?_append_left (by omega)] at later
      exact chain.step k u b c found later

theorem create (absent : f k = []) (begins : first k a) : Chain first step (Program.append f k a) := by
  refine chain.write ?_ ?_
  all_goals rw [absent]
  · rintro b ⟨⟩
    exact begins
  · exact fun u b c _ => nofun

omit [DecidableEq κ] in
theorem every {P : κ → α → Prop} (base : ∀ k a, first k a → P k a)
    (kept : ∀ k a b, P k a → step k a b → P k b) (seen : (f k)[v]? = some a) : P k a := by
  induction v generalizing a with
  | zero => exact base k a (chain.first k a seen)
  | succ v ih =>
    have bound := (List.getElem?_eq_some_iff.mp seen).1
    have before : (f k)[v]? = some ((f k)[v]) := List.getElem?_eq_getElem (by omega)
    exact kept k _ a (ih before) (chain.step k v _ a before seen)

omit [DecidableEq κ] in
theorem kept_or_broken {P : α → Prop} {R : α → α → Prop}
    (kept : ∀ (v : Nat) a b, (f k)[v]? = some a → P a → step k a b → P b ∨ R a b) {n : Nat} {b : α}
    (seen : (f k)[v]? = some a) (holds : P a) (later : (f k)[v + n]? = some b) :
    P b ∨ ∃ u c d, v ≤ u ∧ u < v + n ∧ (f k)[u]? = some c ∧ (f k)[u + 1]? = some d ∧ R c d := by
  induction n generalizing b with
  | zero =>
    rw [Nat.add_zero, seen] at later
    cases later
    exact .inl holds
  | succ n ih =>
    have bound := (List.getElem?_eq_some_iff.mp later).1
    have before : (f k)[v + n]? = some ((f k)[v + n]) := List.getElem?_eq_getElem (by omega)
    rcases ih before with here | ⟨u, c, d, after, below, rest⟩
    · rcases kept (v + n) _ b before here (chain.step k _ _ b before later) with here | broken
      · exact .inl here
      · exact .inr ⟨v + n, _, b, by omega, by omega, before, later, broken⟩
    · exact .inr ⟨u, c, d, after, by omega, rest⟩

end Chain

end KubeSwift.Program
