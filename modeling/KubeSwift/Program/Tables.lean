import Mathlib

/-! # Tables of owners

A row names a key and its owner. A table is rewritten row by row. -/

namespace KubeSwift.Program

variable {κ ω : Type}

def Coherent (t : List (κ × ω)) : Prop := ∀ k a b, (k, a) ∈ t → (k, b) ∈ t → a = b

def rewrite (φ : κ → ω → ω) (t : List (κ × ω)) : List (κ × ω) := t.map fun row => (row.1, φ row.1 row.2)

variable {k : κ} {t : List (κ × ω)} {a : ω}

theorem mem_rewrite {φ : κ → ω → ω} {b : ω} : (k, b) ∈ rewrite φ t ↔ ∃ a, (k, a) ∈ t ∧ φ k a = b := by
  unfold rewrite
  rw [List.mem_map]
  constructor
  · intro found
    obtain ⟨row, member, same⟩ := found
    cases same
    exact ⟨row.2, member, rfl⟩
  · intro found
    obtain ⟨a, member, same⟩ := found
    exact ⟨(k, a), member, by rw [same]⟩

theorem Coherent.rewrite (coherent : Coherent t) (φ : κ → ω → ω) : Coherent (Program.rewrite φ t) := by
  intro k b b' first second
  obtain ⟨a, member, rfl⟩ := mem_rewrite.mp first
  obtain ⟨a', member', rfl⟩ := mem_rewrite.mp second
  rw [coherent k a a' member member']

theorem coherent_const (all : ∀ row ∈ t, row.2 = a) : Coherent t :=
  fun k b c first second => (all (k, b) first).trans (all (k, c) second).symm

variable [DecidableEq κ]

def lookup (t : List (κ × ω)) (k : κ) : Option ω := (t.reverse.find? fun row => row.1 = k).map fun row => row.2

theorem lookup_mem (found : lookup t k = some a) : (k, a) ∈ t := by
  obtain ⟨row, here, rfl⟩ := Option.map_eq_some_iff.mp found
  have at_ : row.1 = k := by simpa using List.find?_some here
  have member := List.mem_reverse.mp (List.mem_of_find?_eq_some here)
  exact at_ ▸ member

theorem Coherent.lookup (coherent : Coherent t) (member : (k, a) ∈ t) : Program.lookup t k = some a := by
  cases found : Program.lookup t k with
  | some b => rw [coherent k b a (lookup_mem found) member]
  | none =>
    unfold Program.lookup at found
    rw [Option.map_eq_none_iff, List.find?_eq_none] at found
    have absent := found (k, a) (List.mem_reverse.mpr member)
    simp at absent

end KubeSwift.Program
