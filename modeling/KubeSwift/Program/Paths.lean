import Mathlib

/-! # Slash-separated paths

Go's `path` package, on byte strings. -/

namespace KubeSwift.Paths

abbrev Text := List UInt8

/-- The bytes of an ASCII literal. -/
def text (s : String) : Text := s.toList.map fun c => c.toNat.toUInt8

def slash : UInt8 := 47

def dot : Text := [46]

def dotdot : Text := [46, 46]

def parts (p : Text) : List Text := p.splitOn slash

def rooted (p : Text) : Bool := p.head? = some slash

def resolve (root : Bool) (kept : List Text) (part : Text) : List Text :=
  if part = [] ∨ part = dot then kept
  else if part = dotdot then
    match kept.getLast? with
    | some last => if last = dotdot then kept ++ [part] else kept.dropLast
    | none => if root then kept else kept ++ [part]
  else kept ++ [part]

def kept (p : Text) : List Text := (parts p).foldl (resolve (rooted p)) []

def render (root : Bool) (kept : List Text) : Text :=
  if kept = [] then if root then [slash] else dot
  else (if root then [slash] else []) ++ [slash].intercalate kept

def clean (p : Text) : Text := render (rooted p) (kept p)

def join (elems : List Text) : Text :=
  match elems.dropWhile List.isEmpty with
  | [] => []
  | rest => clean ([slash].intercalate rest)

/-- Without the last element, which may be empty. -/
def dir (p : Text) : Text := clean (p.reverse.dropWhile (· ≠ slash)).reverse

structure Plain (part : Text) : Prop where
  nonempty : part ≠ []
  notDot : part ≠ dot
  notDotdot : part ≠ dotdot

instance : DecidablePred Plain := fun part =>
  decidable_of_iff (part ≠ [] ∧ part ≠ dot ∧ part ≠ dotdot) ⟨fun ⟨a, b, c⟩ => ⟨a, b, c⟩, fun ⟨a, b, c⟩ => ⟨a, b, c⟩⟩

def Listed (p : Text) : Prop := ∀ part ∈ parts p, Plain part

instance : DecidablePred Listed := fun p => inferInstanceAs (Decidable (∀ part ∈ parts p, Plain part))

variable {root : Bool} {p q part : Text}

theorem slash_notMem_part (found : part ∈ parts p) : slash ∉ part := by
  induction p generalizing part with
  | nil => simp_all [parts]
  | cons c p ih =>
    simp only [parts, List.splitOn_cons_eq_if_modifyHead] at found
    split at found
    · rcases List.mem_cons.mp found with rfl | found
      · exact List.not_mem_nil
      · exact ih found
    · next other =>
      obtain ⟨first, rest, split⟩ := List.exists_cons_of_ne_nil (List.splitOn_ne_nil slash p)
      rw [split, List.modifyHead_cons] at found
      rcases List.mem_cons.mp found with rfl | found
      · have := ih (by simp [parts, split] : first ∈ parts p)
        grind
      · exact ih (by simp [parts, split, found])

theorem parts_append (p q : Text) : parts (p ++ slash :: q) = parts p ++ parts q :=
  List.splitOn_append_cons_self ..

theorem parts_name (unbroken : slash ∉ p) : parts p = [p] := List.splitOn_eq_singleton unbroken

theorem Listed.append (first : Listed p) (second : Listed q) : Listed (p ++ slash :: q) := by
  intro part found
  rw [parts_append] at found
  exact (List.mem_append.mp found).elim (first part) (second part)

theorem Listed.name (plain : Plain p) (unbroken : slash ∉ p) : Listed p := by
  simpa [Listed, parts_name unbroken] using plain

theorem Listed.suffix (listed : Listed p) (unbroken : slash ∉ q) (long : 2 < q.length) : Listed (p ++ q) := by
  have longer (last : Text) (inner : slash ∉ last) : Listed (last ++ q) := by
    refine .name ⟨?_, ?_, ?_⟩ (by simp [inner, unbroken])
    all_goals
      intro same
      have := congrArg List.length same
      simp only [List.length_append, dot, dotdot, List.length_cons, List.length_nil] at this
      omega
  by_cases deep : slash ∈ p.reverse
  · obtain ⟨last, front, shape, inner⟩ := List.eq_append_cons_of_mem deep
    rw [List.reverse_eq_iff, List.reverse_append, List.reverse_cons, List.append_assoc, List.singleton_append] at shape
    rw [shape] at listed ⊢
    rw [List.append_assoc, List.cons_append]
    refine .append (fun part found => listed part ?_) (longer _ (by simpa using inner))
    rw [parts_append]
    exact List.mem_append_left _ found
  · exact longer p (by simpa using deep)

theorem intercalate_append {a b : List Text} (first : a ≠ []) (second : b ≠ []) :
    [slash].intercalate (a ++ b) = [slash].intercalate a ++ slash :: [slash].intercalate b := by
  induction a with
  | nil => contradiction
  | cons x a ih =>
    cases a with
    | nil => rw [List.singleton_append, List.intercalate_cons_of_ne_nil second]; simp
    | cons y a =>
      have rest := ih (by simp)
      simp_all [List.intercalate_cons_cons]

theorem resolve_plain (plain : Plain part) (kept : List Text) : resolve root kept part = kept ++ [part] := by
  rw [resolve, if_neg (not_or.mpr ⟨plain.nonempty, plain.notDot⟩), if_neg plain.notDotdot]

theorem foldl_resolve_plain {ps : List Text} (plain : ∀ part ∈ ps, Plain part) (kept : List Text) :
    ps.foldl (resolve root) kept = kept ++ ps := by
  induction ps generalizing kept with
  | nil => simp
  | cons part ps ih =>
    rw [List.foldl_cons, resolve_plain (plain part (by simp)), ih fun x found => plain x (by simp [found])]
    simp

structure Normal (root : Bool) (kept : List Text) : Prop where
  again : ∀ pre, pre <+: kept → pre.foldl (resolve root) [] = pre
  whole : ∀ part ∈ kept, part ≠ [] ∧ slash ∉ part

theorem Normal.resolve {kept : List Text} (normal : Normal root kept) (unbroken : slash ∉ part) :
    Normal root (resolve root kept part) := by
  have grown (nonempty : part ≠ []) (grows : Paths.resolve root kept part = kept ++ [part]) :
      Normal root (kept ++ [part]) := by
    refine ⟨fun pre found => ?_, ?_⟩
    · rcases List.prefix_concat_iff.mp found with rfl | found
      · rw [List.foldl_concat, normal.again kept List.prefix_rfl, grows]
      · exact normal.again pre found
    · rintro x found
      rcases List.mem_append.mp found with found | found
      · exact normal.whole x found
      · rw [List.mem_singleton.mp found]
        exact ⟨nonempty, unbroken⟩
  have shrunk : Normal root kept.dropLast :=
    ⟨fun pre found => normal.again pre (found.trans (List.dropLast_prefix kept)),
      fun part found => normal.whole part (List.dropLast_subset kept found)⟩
  unfold Paths.resolve at *
  grind

theorem kept_normal (p : Text) : Normal (rooted p) (kept p) := by
  have step (ps : List Text) (unbroken : ∀ part ∈ ps, slash ∉ part) (before : List Text)
      (normal : Normal (rooted p) before) : Normal (rooted p) (ps.foldl (resolve (rooted p)) before) := by
    induction ps generalizing before with
    | nil => exact normal
    | cons part ps ih =>
      exact ih (fun x found => unbroken x (by simp [found])) _ (normal.resolve (unbroken part (by simp)))
  refine step _ (fun part => slash_notMem_part) _ ⟨fun pre found => ?_, by simp⟩
  rw [List.prefix_nil.mp found]
  rfl

theorem rooted_append (nonempty : p ≠ []) (q : Text) : rooted (p ++ q) = rooted p := by
  simp [rooted, List.head?_append_of_ne_nil _ nonempty]

theorem kept_append (nonempty : p ≠ []) (listed : Listed q) : kept (p ++ slash :: q) = kept p ++ parts q := by
  rw [kept, parts_append, List.foldl_append, rooted_append nonempty, foldl_resolve_plain listed]
  rfl

theorem Listed.ne_nil (listed : Listed q) : q ≠ [] :=
  fun none => (listed [] (by simp [none, parts])).nonempty rfl

theorem Listed.kept (listed : Listed q) : kept q = parts q := by
  rw [Paths.kept, foldl_resolve_plain listed, List.nil_append]

theorem Listed.rooted (listed : Listed q) : rooted q = false := by
  cases q with
  | nil => rfl
  | cons c q =>
    have (same : c = slash) : [] ∈ parts (c :: q) := by simp [parts, same, List.splitOn_cons_eq_if_modifyHead]
    have := fun same => (listed _ (this same)).nonempty rfl
    simpa [Paths.rooted] using this

theorem rooted_kept_render {kept : List Text} (normal : Normal root kept) :
    rooted (render root kept) = root ∧ Paths.kept (render root kept) = kept := by
  by_cases some_ : kept = []
  · subst some_
    cases root <;> decide
  have split := List.splitOn_intercalate slash (fun part found => (normal.whole part found).2) some_
  have again := normal.again _ List.prefix_rfl
  have root_ : rooted (render root kept) = root := by
    obtain ⟨first, rest, shape⟩ := List.exists_cons_of_ne_nil some_
    obtain ⟨c, letters, name⟩ := List.exists_cons_of_ne_nil (normal.whole first (by simp [shape])).1
    have other : c ≠ slash := fun same => (normal.whole first (by simp [shape])).2 (by simp [name, same])
    cases root <;> cases rest <;> simp_all [rooted, render, List.intercalate_cons_cons]
  refine ⟨root_, ?_⟩
  rw [Paths.kept, root_]
  cases root with
  | false => simpa [render, some_, parts, split] using again
  | true => simpa [render, some_, parts, split, List.splitOn_cons_eq_if_modifyHead, resolve] using again

theorem rooted_clean (p : Text) : rooted (clean p) = rooted p := (rooted_kept_render (kept_normal p)).1

theorem kept_clean (p : Text) : kept (clean p) = kept p := (rooted_kept_render (kept_normal p)).2

theorem clean_clean (p : Text) : clean (clean p) = clean p := by rw [clean, rooted_clean, kept_clean, ← clean]

theorem dir_eq {parent name : Text} (relative : rooted p = false) (cleaned : clean p = p)
    (shape : p = parent ++ slash :: name) (unbroken : slash ∉ name) : dir p = parent ∧ parent ≠ dot := by
  have below : kept p ≠ [] := by
    intro none
    have only : p = dot := by rw [← cleaned, clean, none, relative]; rfl
    have : slash ∈ dot := by simp [← only, shape]
    exact absurd this (by decide)
  have pieces : parts p = kept p := by
    have split := List.splitOn_intercalate slash (fun part found => ((kept_normal p).whole part found).2) below
    rw [← split, parts]
    nth_rewrite 1 [← cleaned]
    simp [clean, render, below, relative]
  have again := (kept_normal p).again (parts parent) (by rw [← pieces, shape, parts_append]; exact List.prefix_append ..)
  have nonempty : parent ≠ [] := by
    rintro rfl
    simp [shape, rooted] at relative
  have root : rooted parent = rooted p := by rw [shape, rooted_append nonempty]
  refine ⟨?_, ?_⟩
  · have upTo : (p.reverse.dropWhile (· ≠ slash)).reverse = parent ++ [slash] := by
      rw [shape, List.reverse_append, List.reverse_cons, List.append_assoc, List.singleton_append,
        List.dropWhile_append_of_pos (by simpa using fun c found => ne_of_mem_of_not_mem found unbroken)]
      simp
    have here : kept (parent ++ [slash]) = parts parent := by
      rw [kept, parts_append, rooted_append nonempty, root, List.foldl_append, again]
      simp [parts, resolve]
    have pieces : parts parent ≠ [] := List.splitOn_ne_nil slash parent
    rw [dir, upTo, clean, rooted_append nonempty, here, root, relative, render, if_neg pieces]
    exact List.intercalate_splitOn slash
  · rintro rfl
    exact absurd again (by cases rooted p <;> decide)

def lead (d : Text) : Text :=
  if d = [] then [] else if kept d = [] then if rooted d then [slash] else [] else clean d ++ [slash]

theorem join_listed (d : Text) (listed : Listed q) : join [d, q] = lead d ++ q := by
  have some_ := listed.ne_nil
  have pieces : parts q ≠ [] := List.splitOn_ne_nil slash q
  have whole : [slash].intercalate (parts q) = q := List.intercalate_splitOn slash
  by_cases empty : d = []
  · simp [join, lead, empty, some_, clean, render, listed.kept, listed.rooted, pieces, whole]
  have shape : join [d, q] = render (rooted d) (kept d ++ parts q) := by
    rw [← kept_append empty listed, ← rooted_append empty (slash :: q)]
    simp [join, empty, clean, List.intercalate_cons_cons]
  by_cases above : kept d = []
  · cases h : rooted d <;> simp [shape, lead, empty, above, h, render, pieces, whole]
  · simp [shape, lead, empty, above, clean, render, pieces, whole, intercalate_append above pieces]

theorem lead_clean {y : Text} (below : kept y ≠ []) : lead (clean y) = clean y ++ [slash] := by
  have some_ : clean y ≠ [] := fun none => below (by rw [← kept_clean, none]; rfl)
  rw [lead, if_neg some_, kept_clean, if_neg below, clean_clean]

theorem lead_join (d : Text) (listed : Listed q) : lead (join [d, q]) = join [d, q] ++ [slash] := by
  have some_ := listed.ne_nil
  have pieces : parts q ≠ [] := List.splitOn_ne_nil slash q
  by_cases empty : d = []
  · have shape : join [d, q] = clean q := by simp [join, empty, some_]
    rw [shape, lead_clean (by rwa [listed.kept])]
  · have shape : join [d, q] = clean (d ++ slash :: q) := by simp [join, empty, List.intercalate_cons_cons]
    rw [shape, lead_clean (by simp [kept_append empty listed, pieces])]

end KubeSwift.Paths
