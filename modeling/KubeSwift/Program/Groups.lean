import Mathlib

/-! # Lists put together from their groups

The groups of a list by a key, and two walks through them: one after another, and in rounds that take one element of
each. -/

namespace KubeSwift.Program

section Keys

variable {α κ : Type} [DecidableEq κ]

def group (key : α → κ) (l : List α) (k : κ) : List α := l.filter fun a => key a = k

theorem flatMap_group_perm {key : α → κ} {keys : List κ} (nodup : keys.Nodup) {l : List α}
    (covered : ∀ a ∈ l, key a ∈ keys) : (keys.flatMap (group key l)).Perm l := by
  induction keys generalizing l with
  | nil => rw [List.eq_nil_iff_forall_not_mem.mpr fun a member => List.not_mem_nil (covered a member), List.flatMap_nil]
  | cons k keys ih =>
    obtain ⟨new, nodup⟩ := List.nodup_cons.mp nodup
    let others := l.filter fun a => !decide (key a = k)
    have rest : (keys.flatMap (group key others)).Perm others := by
      refine ih nodup fun a member => ?_
      obtain ⟨listed, other⟩ := List.mem_filter.mp member
      exact (List.mem_cons.mp (covered a listed)).resolve_left (by simpa using other)
    have same : keys.flatMap (group key l) = keys.flatMap (group key others) := by
      refine List.flatMap_congr fun k' member => ?_
      rw [group, group, List.filter_filter]
      refine List.filter_congr fun a _ => ?_
      have apart : k' ≠ k := fun same => new (same ▸ member)
      grind
    rw [List.flatMap_cons, same]
    exact (rest.append_left _).trans (List.filter_append_perm _ _)

end Keys

section Walks

variable {α : Type} {gs : List (List α)} {used : List α}

/-- The first `t` elements of every group, taken one from each group at a time. -/
def rounds (gs : List (List α)) (t : Nat) : List α := (List.range t).flatMap fun i => gs.flatMap fun g => g[i]?.toList

theorem mem_rounds {t : Nat} {a : α} : a ∈ rounds gs t ↔ ∃ g ∈ gs, a ∈ g.take t := by
  have taken (g : List α) : a ∈ g.take t ↔ ∃ i < t, g[i]? = some a := by
    simp [List.mem_iff_getElem?, List.getElem?_take]
  simp only [rounds, List.mem_flatMap, List.mem_range, Option.mem_toList, taken]
  grind

theorem rounds_group {g : List α} {t : Nat} (short : g.length ≤ t) :
    ((List.range t).flatMap fun i => g[i]?.toList) = g := by
  induction g generalizing t with
  | nil => simp
  | cons a g ih =>
    cases t with
    | zero => cases short
    | succ t => simpa [List.range_succ_eq_map, List.flatMap_map] using ih (Nat.le_of_succ_le_succ short)

theorem rounds_perm {t : Nat} (short : ∀ g ∈ gs, g.length ≤ t) : (rounds gs t).Perm gs.flatten := by
  induction gs with
  | nil => simp [rounds]
  | cons g gs ih =>
    simp only [rounds, List.flatMap_cons, List.flatten_cons]
    refine (List.flatMap_append_perm _ _ _).symm.trans ?_
    rw [rounds_group (short g List.mem_cons_self)]
    exact (ih fun g member => short g (List.mem_cons_of_mem _ member)).append_left _

-- the walk has stopped inside some round
theorem exists_round {t : Nat} (walked : used <+: rounds gs t) : ∃ i, rounds gs i <+: used ∧ used <+: rounds gs (i + 1) := by
  induction t with
  | zero =>
    cases List.prefix_nil.mp walked
    exact ⟨0, List.prefix_rfl, List.nil_prefix⟩
  | succ t ih =>
    have grows : rounds gs t <+: rounds gs (t + 1) := .flatMap (List.range_succ ▸ List.prefix_append ..) _
    obtain before | after := List.prefix_or_prefix_of_prefix walked grows
    · exact ih before
    · exact ⟨t, after, walked⟩

-- some element of the group is used and some is not
def Partly (used g : List α) : Prop := (∃ a ∈ g, a ∈ used) ∧ ¬ g ⊆ used

theorem Partly.of_perm {g h : List α} (partly : Partly used g) (perm : h.Perm g) : Partly used h := by
  obtain ⟨⟨a, member, hit⟩, missed⟩ := partly
  exact ⟨⟨a, perm.mem_iff.mpr member, hit⟩, fun all => missed (List.Subset.trans perm.symm.subset all)⟩

variable [DecidableEq α] (nodup : gs.flatten.Nodup)
include nodup

theorem group_unique {g h : List α} (first : g ∈ gs) (second : h ∈ gs) {a : α} (left : a ∈ g) (right : a ∈ h) : g = h := by
  have : Std.Symm (@List.Disjoint α) := ⟨fun _ _ => List.disjoint_symm⟩
  by_contra apart
  exact (List.nodup_flatten.mp nodup).2.forall first second apart left right

theorem rounds_balanced {t : Nat} (short : ∀ g ∈ gs, g.length ≤ t) (walked : used <+: rounds gs t) {g h : List α}
    (first : g ∈ gs) (second : h ∈ gs) :
    (used.filter (· ∈ g)).length ≤ (used.filter (· ∈ h)).length + 1 ∨ h ⊆ used := by
  obtain ⟨i, done, going⟩ := exists_round walked
  have taken : h.take i ⊆ used := fun a member => done.subset (mem_rounds.mpr ⟨h, second, member⟩)
  by_cases full : h.length ≤ i
  · exact .inr (List.take_of_length_le full ▸ taken)
  have distinct : used.Nodup := walked.sublist.nodup ((rounds_perm short).nodup_iff.mpr nodup)
  have few : (used.filter (· ∈ g)).length ≤ i + 1 := by
    refine (List.Nodup.subperm (distinct.filter _) fun a member => ?_).length_le.trans (List.length_take_le (i + 1) g)
    obtain ⟨member, here⟩ := List.mem_filter.mp member
    obtain ⟨g', listed, member⟩ := mem_rounds.mp (going.subset member)
    exact group_unique nodup listed first (List.mem_of_mem_take member) (of_decide_eq_true here) ▸ member
  have many : i ≤ (used.filter (· ∈ h)).length := by
    have whole : h.Nodup := (List.nodup_flatten.mp nodup).1 h second
    have within := List.Nodup.subperm ((List.take_sublist i h).nodup whole) fun a member =>
      List.mem_filter.mpr ⟨taken member, decide_eq_true (List.mem_of_mem_take member)⟩
    simpa [Nat.le_of_not_ge full] using within.length_le
  exact .inl (by omega)

theorem flatten_partly (walked : used <+: gs.flatten) {g h : List α} (first : g ∈ gs) (second : h ∈ gs)
    (left : Partly used g) (right : Partly used h) : g = h := by
  induction gs generalizing used with
  | nil => cases first
  | cons k gs ih =>
    have distinct := List.nodup_append.mp nodup
    obtain inside | past := List.prefix_or_prefix_of_prefix walked (List.prefix_append k gs.flatten)
    · have here {c : List α} (partly : Partly used c) (listed : c ∈ k :: gs) : c = k := by
        obtain ⟨a, member, planned⟩ := partly.1
        exact group_unique nodup listed List.mem_cons_self member (inside.subset planned)
      exact (here left first).trans (here right second).symm
    · obtain ⟨more, rfl⟩ := past
      have later {c : List α} (partly : Partly (k ++ more) c) (listed : c ∈ k :: gs) : c ∈ gs ∧ Partly more c := by
        obtain rfl | listed := List.mem_cons.mp listed
        · exact (partly.2 (List.subset_append_left ..)).elim
        obtain ⟨⟨a, member, planned⟩, rest⟩ := partly
        refine ⟨listed, ⟨a, member, (List.mem_append.mp planned).resolve_left fun old => ?_⟩,
          fun all => rest fun a member => List.mem_append_right _ (all member)⟩
        exact distinct.2.2 a old a (List.mem_flatten.mpr ⟨c, listed, member⟩) rfl
      obtain ⟨first, left⟩ := later left first
      obtain ⟨second, right⟩ := later right second
      exact ih distinct.2.1 ((List.prefix_append_right_inj k).mp walked) first second left right

end Walks

end KubeSwift.Program
