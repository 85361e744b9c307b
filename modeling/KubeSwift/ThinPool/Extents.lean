import KubeSwift.ThinPool.History

/-! # The pool space an image is thought to need (`PoolBytesForFile`)

The blocks a file's extents touch are counted, up to its length. The copy writes the blocks that are not all zero. -/

namespace KubeSwift.ThinPool
open Program Prog

inductive Errno
  | enxio | other
  deriving DecidableEq

section Count

variable (seekData seekHole : Nat → Except Errno Nat) (sizeBytes : Nat)

def countExtents : Nat → Nat → Nat → Int → Option Nat
  | 0, _, _, _ => none
  | fuel + 1, off, blocks, lastCounted =>
    match seekData off with
    | .error .enxio => some (min (blocks * chunk) sizeBytes)
    | .error .other => some sizeBytes
    | .ok data =>
      match seekHole data with
      | .error _ => some sizeBytes
      | .ok hole =>
        let last : Int := (hole - 1) / chunk
        let first : Int := if (data / chunk : Nat) ≤ lastCounted then lastCounted + 1 else (data / chunk : Nat)
        if first ≤ last then countExtents fuel hole (blocks + (last - first + 1).toNat) last
        else countExtents fuel hole blocks lastCounted

def poolBytesForFile (fuel : Nat) : Option Nat := countExtents seekData seekHole sizeBytes fuel 0 0 (-1)

end Count

variable {bytes : List UInt8} {extents : List (Nat × Nat)} {seekData seekHole : Nat → Except Errno Nat}

def IsData (extents : List (Nat × Nat)) (i : Nat) : Prop := ∃ e ∈ extents, e.1 ≤ i ∧ i < e.2

/-- `SEEK_DATA` and `SEEK_HOLE` of a file with these extents; either may fail. -/
structure Seeks (bytes : List UInt8) (extents : List (Nat × Nat)) (seekData seekHole : Nat → Except Errno Nat) : Prop where
  covering : ∀ i b, bytes[i]? = some b → b ≠ 0 → IsData extents i
  data : ∀ off d, seekData off = .ok d → off ≤ d ∧ IsData extents d ∧ ∀ i, IsData extents i → off ≤ i → d ≤ i
  ends : ∀ off, seekData off = .error .enxio → ∀ i, IsData extents i → i < off
  hole : ∀ pos h, IsData extents pos → seekHole pos = .ok h → pos < h ∧ h ≤ bytes.length

def Op.blocks : Op → List Nat
  | .writeAt _ off data => (List.range data.length).map fun i => (off + i) / chunk
  | _ => []

def blocksWritten (issued : List (World × Op)) : Finset Nat := (issued.flatMap fun entry => entry.2.blocks).toFinset

theorem chunk_pos : 0 < chunk := by decide

structure Counted (extents : List (Nat × Nat)) (counted : Finset Nat) (off blocks : Nat) (lastCounted : Int) : Prop where
  enough : counted.card ≤ blocks
  covers : ∀ i, IsData extents i → i < off → i / chunk ∈ counted
  last : lastCounted = ((off : Int) - 1) / chunk
  held : 0 < off → (off - 1) / chunk ∈ counted

theorem last_eq {off : Nat} (positive : 0 < off) : ((off : Int) - 1) / chunk = ((off - 1) / chunk : Nat) := by
  rw [Int.natCast_ediv, Int.natCast_sub positive, Int.natCast_one]

variable {counted : Finset Nat} {off blocks d hole first : Nat} {lastCounted : Int}

/-- The next extent: its blocks up to `lastCounted` are counted already. -/
theorem Counted.next (c : Counted extents counted off blocks lastCounted) (from_off : off ≤ d)
    (between : ∀ i, IsData extents i → off ≤ i → d ≤ i) (onward : d < hole) (more : Finset Nat) {blocks' : Nat}
    (size : (counted ∪ more).card ≤ blocks')
    (fresh : ∀ b : Nat, lastCounted < b → d / chunk ≤ b → b ≤ (hole - 1) / chunk → b ∈ more) :
    Counted extents (counted ∪ more) hole blocks' (((hole - 1) / chunk : Nat) : Int) := by
  have taken : ∀ i, d ≤ i → i < hole → i / chunk ∈ counted ∪ more := by
    intro i after before
    rw [Finset.mem_union]
    by_cases new : lastCounted < (i / chunk : Nat)
    · exact .inr (fresh _ new (Nat.div_le_div_right after) (Nat.div_le_div_right (by omega)))
    · left
      rw [c.last] at new
      have positive : 0 < off := by
        by_contra zero
        have none_yet : off = 0 := by omega
        rw [none_yet] at new
        have minus : (((0 : Nat) : Int) - 1) / chunk = -1 := by decide
        exact new (Int.lt_of_lt_of_le (by decide) (Int.natCast_nonneg _))
      rw [last_eq positive, Int.ofNat_lt, Nat.not_lt] at new
      have same : i / chunk = (off - 1) / chunk := new.antisymm (Nat.div_le_div_right (by omega))
      exact same ▸ c.held positive
  refine ⟨size, fun i data before => ?_, (last_eq (by omega)).symm, fun _ => taken _ (by omega) (by omega)⟩
  rcases Nat.lt_or_ge i off with early | late
  · exact Finset.mem_union_left _ (c.covers i data early)
  · exact taken i (between i data late) before

def Bounds (bytes : List UInt8) (extents : List (Nat × Nat)) (need : Nat) : Prop :=
  need = bytes.length ∨ need ≤ bytes.length ∧
    ∃ counted : Finset Nat, (∀ i, IsData extents i → i / chunk ∈ counted) ∧ counted.card * chunk ≤ need

theorem countExtents_bounds (seeks : Seeks bytes extents seekData seekHole) {fuel : Nat}
    (c : Counted extents counted off blocks lastCounted) (inside : off ≤ bytes.length) (enough : bytes.length - off < fuel) :
    ∃ need, countExtents seekData seekHole bytes.length fuel off blocks lastCounted = some need ∧
      Bounds bytes extents need := by
  induction fuel generalizing counted off blocks lastCounted with
  | zero => exact absurd enough (Nat.not_lt_zero _)
  | succ fuel ih =>
    have unknown : Bounds bytes extents bytes.length := .inl rfl
    unfold countExtents
    cases found : seekData off with
    | error e =>
      cases e with
      | other => exact ⟨_, rfl, unknown⟩
      | enxio =>
        refine ⟨_, rfl, ?_⟩
        rcases Nat.le_total (blocks * chunk) bytes.length with small | large
        · rw [Nat.min_eq_left small]
          exact .inr ⟨small, counted, fun i data => c.covers i data (seeks.ends off found i data),
            Nat.mul_le_mul_right _ c.enough⟩
        · rw [Nat.min_eq_right large]
          exact unknown
    | ok d =>
      obtain ⟨from_off, data, between⟩ := seeks.data off d found
      dsimp only
      cases ended : seekHole d with
      | error e => exact ⟨_, rfl, unknown⟩
      | ok hole =>
        obtain ⟨onward, within⟩ := seeks.hole d hole data ended
        have low : d / chunk ≤ (hole - 1) / chunk := Nat.div_le_div_right (by omega)
        have behind : lastCounted ≤ ((hole - 1) / chunk : Nat) := by
          rw [c.last, ← last_eq (by omega : 0 < hole)]
          exact Int.ediv_le_ediv (by decide) (by omega)
        dsimp only
        rw [last_eq (by omega : 0 < hole)]
        generalize eq : (if ((d / chunk : Nat) : Int) ≤ lastCounted then lastCounted + 1 else (d / chunk : Nat)) = first
        split
        · next some_new =>
          refine ih (c.next from_off between onward (Finset.Icc first.toNat ((hole - 1) / chunk)) ?_ ?_)
            within (by omega)
          · refine (Finset.card_union_le _ _).trans ?_
            have := c.enough
            rw [Nat.card_Icc]
            omega
          · intro b new after before
            rw [Finset.mem_Icc]
            split at eq <;> omega
        · next none_new =>
          have same_last : lastCounted = ((hole - 1) / chunk : Nat) := by
            split at eq <;> omega
          have nothing : Counted extents (counted ∪ ∅) hole blocks ((hole - 1) / chunk : Nat) := by
            refine c.next from_off between onward ∅ ?_ fun b new after before => by omega
            rw [Finset.union_empty]
            exact c.enough
          rw [Finset.union_empty, ← same_last] at nothing
          exact ih nothing within (by omega)

def HasData (bytes : List UInt8) (block : Nat) : Prop := ∃ i b, bytes[i]? = some b ∧ b ≠ 0 ∧ i / chunk = block

/-- The operations of the copy: whole blocks of the source that are not all zero, at their own offsets and below the limit. -/
def Sparse (bytes : List UInt8) (fd : Id) (limit : Nat) : Op → Prop
  | .readFull => True
  | .writeAt id off data => id = fd ∧ chunk ∣ off ∧ data = (bytes.drop off).take chunk ∧ ¬ data.all (· == 0) ∧
      off + data.length ≤ limit
  | _ => False

theorem writes_sparse (fd : Id) (limit fuel : Nat) (aligned : chunk ∣ off) :
    (copySkippingZeros fd limit fuel (bytes.drop off) off).Within (Sparse bytes fd limit) := by
  induction fuel generalizing off with
  | zero => trivial
  | succ fuel ih =>
    refine within_bind (within_call _ |>.mpr trivial) fun _ => yields_ite (fun _ => trivial) fun below => ?_
    refine within_bind ?_ fun _ => ?_
    · refine yields_ite (fun _ => trivial) fun some_set => within_call _ |>.mpr ⟨rfl, aligned, rfl, some_set, ?_⟩
      by_contra beyond
      refine below ⟨fun empty => some_set ?_, Nat.not_le.mp beyond⟩
      rw [empty]
      rfl
    · refine yields_ite (fun _ => trivial) fun full => ?_
      have whole : ((bytes.drop off).take chunk).length = chunk := by
        rw [List.length_take] at full ⊢
        omega
      rw [whole, List.drop_drop]
      exact ih (Nat.dvd_add aligned (Nat.dvd_refl _))

theorem Sparse.data {fd limit : Nat} {o : Op} (sparse : Sparse bytes fd limit o) : ∀ block ∈ o.blocks, HasData bytes block := by
  intro block listed
  cases o with
  | writeAt id off data =>
    obtain ⟨-, ⟨k, rfl⟩, rfl, some_set, -⟩ := sparse
    obtain ⟨j, short, rfl⟩ := List.mem_map.mp listed
    rw [List.mem_range, List.length_take] at short
    simp only [List.all_eq_true, not_forall] at some_set
    obtain ⟨b, member, set⟩ := some_set
    obtain ⟨i, at_i⟩ := List.mem_iff_getElem?.mp member
    have near : i < chunk := by
      have := (List.getElem?_eq_some_iff.mp at_i).1
      rw [List.length_take] at this
      omega
    rw [List.getElem?_take_of_lt near, List.getElem?_drop] at at_i
    refine ⟨chunk * k + i, b, at_i, by simpa using set, ?_⟩
    rw [Nat.mul_add_div chunk_pos, Nat.mul_add_div chunk_pos, Nat.div_eq_of_lt near, Nat.div_eq_of_lt (by omega)]
  | _ => cases listed

theorem blocksWritten_append (first second : List (World × Op)) :
    blocksWritten (first ++ second) = blocksWritten first ∪ blocksWritten second := by
  simp [blocksWritten]

/-- A copy that succeeds has written every block with data. -/
theorem copied_blocks {M : Machine Pid World Op Op.Res Err} {p : Pid} {fd limit fuel n : Nat} {rest : List UInt8}
    {w w' : World} {issued : List (World × Op)} (enough : rest.length < fuel)
    (run : Run M p (copySkippingZeros fd limit fuel rest off) w issued w' (some (.ok n))) {i : Nat} {b : UInt8}
    (at_i : rest[i]? = some b) (set : b ≠ 0) : (off + i) / chunk ∈ blocksWritten issued := by
  induction fuel generalizing rest off w issued i with
  | zero => exact absurd enough (Nat.not_lt_zero _)
  | succ fuel ih =>
    have inside := (List.getElem?_eq_some_iff.mp at_i).1
    obtain ⟨read, more, mid, -, rfl, -, run⟩ := run_bind run
    dsimp only at run
    split at run
    · cases run
    obtain ⟨wrote, others, after, _, rfl, write, run⟩ := run_bind run
    simp only [blocksWritten_append, Finset.mem_union]
    rcases Nat.lt_or_ge i chunk with near | far
    · have here : (rest.take chunk)[i]? = some b := (List.getElem?_take_of_lt near).trans at_i
      have some_set : ¬ (rest.take chunk).all (· == 0) := fun zero => by
        simpa [set] using List.all_eq_true.mp zero b (List.mem_of_getElem? here)
      rw [writeUnlessZero, if_neg some_set] at write
      cases write with
      | step _ ended =>
        refine .inr (.inl (List.mem_toFinset.mpr (List.mem_flatMap.mpr ⟨_, List.mem_cons_self, List.mem_map.mpr ⟨i, ?_, rfl⟩⟩)))
        exact List.mem_range.mpr (List.getElem?_eq_some_iff.mp here).1
    · have whole : (rest.take chunk).length = chunk := by
        rw [List.length_take]
        omega
      rw [if_neg (by omega), whole] at run
      have next := ih (by rw [List.length_drop]; have := chunk_pos; omega) run (i := i - chunk)
        (by rw [List.getElem?_drop, Nat.add_sub_cancel' far]; exact at_i)
      rw [Nat.add_assoc, Nat.add_sub_cancel' far] at next
      exact .inr (.inr next)

/-- The length is a whole number of pool blocks, or one of the blocks holds zeros only. -/
def Fits (bytes : List UInt8) : Prop := chunk ∣ bytes.length ∨ ∃ i < bytes.length, ¬ HasData bytes (i / chunk)

theorem Fits.covers (fits : Fits bytes) {blocks : Finset Nat} (data : ∀ block ∈ blocks, HasData bytes block) :
    chunk * blocks.card ≤ bytes.length := by
  have within : ∀ block ∈ blocks, chunk * block < bytes.length := by
    intro block member
    obtain ⟨i, b, at_i, -, rfl⟩ := data block member
    exact (Nat.mul_div_le i chunk).trans_lt (List.getElem?_eq_some_iff.mp at_i).1
  rcases fits with ⟨k, whole⟩ | ⟨i, inside, zero⟩
  · have few : blocks ⊆ Finset.range k := fun block member =>
      Finset.mem_range.mpr (Nat.lt_of_mul_lt_mul_left (whole ▸ within block member))
    rw [whole]
    exact Nat.mul_le_mul_left _ ((Finset.card_le_card few).trans_eq (Finset.card_range k))
  · have few : blocks ⊆ (Finset.range ((bytes.length - 1) / chunk + 1)).erase (i / chunk) := by
      intro block member
      rw [Finset.mem_erase, Finset.mem_range, Nat.lt_succ_iff, Nat.le_div_iff_mul_le chunk_pos, Nat.mul_comm]
      exact ⟨fun same => zero (same ▸ data block member), Nat.le_sub_one_of_lt (within block member)⟩
    have last : i / chunk ∈ Finset.range ((bytes.length - 1) / chunk + 1) :=
      Finset.mem_range.mpr (Nat.lt_succ_of_le (Nat.div_le_div_right (by omega)))
    have count := Finset.card_le_card few
    rw [Finset.card_erase_of_mem last, Finset.card_range, Nat.add_sub_cancel] at count
    exact (Nat.mul_le_mul_left _ count).trans ((Nat.mul_div_le _ _).trans (Nat.sub_le _ _))

theorem fits_of_covered {blocks : Finset Nat} (all : ∀ block, HasData bytes block → block ∈ blocks)
    (enough : chunk * blocks.card ≤ bytes.length) : Fits bytes := by
  by_contra unfit
  simp only [Fits, not_or, not_exists, not_and, not_not] at unfit
  obtain ⟨part, full⟩ := unfit
  have beyond : chunk * (bytes.length / chunk) < bytes.length :=
    (Nat.mul_div_le _ _).lt_of_ne fun whole => part ⟨_, whole.symm⟩
  have every : Finset.range (bytes.length / chunk + 1) ⊆ blocks := by
    intro block member
    have low : chunk * block ≤ chunk * (bytes.length / chunk) :=
      Nat.mul_le_mul_left _ (Nat.lt_succ_iff.mp (Finset.mem_range.mp member))
    have data := full (chunk * block) (low.trans_lt beyond)
    rw [Nat.mul_div_cancel_left _ chunk_pos] at data
    exact all block data
  have count := Finset.card_le_card every
  rw [Finset.card_range] at count
  have := Nat.lt_mul_div_succ bytes.length chunk_pos
  have := Nat.mul_le_mul_left chunk count
  omega

theorem Bounds.covers {need : Nat} (bounds : Bounds bytes extents need) (seeks : Seeks bytes extents seekData seekHole)
    (fits : Fits bytes) {blocks : Finset Nat} (data : ∀ block ∈ blocks, HasData bytes block) :
    chunk * blocks.card ≤ need := by
  rcases bounds with rfl | ⟨-, counted, covers, enough⟩
  · exact fits.covers data
  · have within : blocks ⊆ counted := by
      intro block member
      obtain ⟨i, b, at_i, set, rfl⟩ := data block member
      exact covers i (seeks.covering i b at_i set)
    rw [Nat.mul_comm]
    exact (Nat.mul_le_mul_right _ (Finset.card_le_card within)).trans enough

/-- The bound holds of every copy of a file that fits, however it goes, and of no other file's copy that succeeds. -/
theorem pool_bytes_suffice (seeks : Seeks bytes extents seekData seekHole) :
    ∃ need, poolBytesForFile seekData seekHole bytes.length (bytes.length + 1) = some need ∧
      ∀ (M : Machine Pid World Op Op.Res Err) (p : Pid) (fd : Id) (limit fuel : Nat) (w w' : World)
        (issued : List (World × Op)) (result : Option (Except Err Nat)), bytes.length < fuel →
        Run M p (copySkippingZeros fd limit fuel bytes 0) w issued w' result →
          (Fits bytes → chunk * (blocksWritten issued).card ≤ need) ∧
          ∀ n, result = some (.ok n) → chunk * (blocksWritten issued).card ≤ need → Fits bytes := by
  have start : Counted extents ∅ 0 0 (-1) :=
    ⟨le_rfl, fun _ _ before => absurd before (Nat.not_lt_zero _), by decide, fun before => absurd before (Nat.not_lt_zero _)⟩
  obtain ⟨need, counted, bounds⟩ := countExtents_bounds seeks start (Nat.zero_le _) (Nat.lt_succ_of_le (Nat.sub_le _ _))
  refine ⟨need, counted, fun M p fd limit fuel w w' issued result enough run => ⟨fun fits => ?_, ?_⟩⟩
  · refine bounds.covers seeks fits fun block member => ?_
    obtain ⟨entry, listed, here⟩ := List.mem_flatMap.mp (List.mem_toFinset.mp member)
    exact (run_yields (writes_sparse fd limit fuel (Nat.dvd_zero _)) (fun _ _ _ _ _ => trivial) run entry listed).data block here
  · rintro n rfl covered
    have low : need ≤ bytes.length := bounds.elim Eq.le And.left
    refine fits_of_covered (fun block ⟨i, b, at_i, set, here⟩ => here ▸ ?_) (covered.trans low)
    simpa using copied_blocks enough run at_i set

private def denseData (length off : Nat) : Except Errno Nat := if off < length then .ok off else .error .enxio

private def denseHole (length : Nat) (_ : Nat) : Except Errno Nat := .ok length

private theorem dense_seeks (bytes : List UInt8) :
    Seeks bytes [(0, bytes.length)] (denseData bytes.length) (denseHole bytes.length) := by
  have isData : ∀ i, IsData [(0, bytes.length)] i ↔ i < bytes.length := by simp [IsData]
  refine ⟨fun i b at_i _ => ?_, fun off d found => ?_, fun off ended i data => ?_, fun pos h data found => ?_⟩
  · exact (isData i).mpr (List.getElem?_eq_some_iff.mp at_i).1
  · unfold denseData at found
    split at found <;> cases found
    exact ⟨le_rfl, (isData _).mpr ‹_›, fun _ _ => id⟩
  · unfold denseData at ended
    split at ended
    · cases ended
    · exact Nat.lt_of_lt_of_le ((isData i).mp data) (Nat.not_lt.mp ‹_›)
  · cases found
    exact ⟨(isData pos).mp data, le_rfl⟩

private def oneBase : World := emptyNode.setPool 7 (some ⟨.base "image", fun _ => 0, []⟩)

/-- A file of one byte is thought to need one byte, and takes a block. -/
theorem pool_bytes_below_block : Seeks [1] [(0, 1)] (denseData 1) (denseHole 1) ∧
    poolBytesForFile (denseData 1) (denseHole 1) 1 2 = some 1 ∧
      ∃ issued w', Run anyFault 0 (copySkippingZeros 7 1 2 [1] 0) oneBase issued w' (some (.ok 1)) ∧
        1 < chunk * (blocksWritten issued).card :=
  ⟨dense_seeks [1], by decide, [(oneBase, .readFull), (oneBase, .writeAt 7 0 [1])], _,
    .step ⟨calm, trivial, rfl⟩ (.step ⟨calm, trivial, rfl⟩ (.ret 1 _)), by decide⟩

/-- A byte in the first of two blocks, the second of which is cut short. -/
theorem pool_bytes_suffice_sparse :
    let bytes := (1 : UInt8) :: List.replicate chunk 0
    ∃ need, poolBytesForFile (denseData bytes.length) (denseHole bytes.length) bytes.length (bytes.length + 1) = some need ∧
      ∀ issued w' n, Run anyFault 0 (copySkippingZeros 7 (chunk + 1) (chunk + 2) bytes 0) oneBase issued w' (some (.ok n)) →
        chunk * (blocksWritten issued).card ≤ need := by
  intro bytes
  have length : bytes.length = chunk + 1 := by rw [List.length_cons, List.length_replicate]
  obtain ⟨need, counted, bound⟩ := pool_bytes_suffice (dense_seeks bytes)
  refine ⟨need, counted, fun issued w' n run => (bound _ _ _ _ _ _ _ _ _ (by omega) run).1 (.inr ⟨chunk, by omega, ?_⟩)⟩
  rintro ⟨i, b, at_i, set, here⟩
  have late : chunk ≤ i := by
    by_contra early
    rw [Nat.div_self chunk_pos, Nat.div_eq_of_lt (Nat.not_le.mp early)] at here
    cases here
  obtain ⟨j, rfl⟩ := Nat.exists_eq_succ_of_ne_zero (Nat.pos_iff_ne_zero.mp (chunk_pos.trans_le late))
  rw [List.getElem?_cons_succ] at at_i
  exact set (List.eq_of_mem_replicate (List.mem_of_getElem? at_i))

end KubeSwift.ThinPool
