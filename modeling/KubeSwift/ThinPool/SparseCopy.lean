import KubeSwift.ThinPool.Extents
import KubeSwift.ThinPool.Readiness

/-! # The sparse copy is exact

`copySkippingZeros` over a reader that hands its bytes out in pieces of any size. -/

namespace KubeSwift.ThinPool
open Program Prog

/-- `io.ReadFull`: read on until the buffer is full or the reader ends. -/
def readFull : Nat → List (List UInt8) → List UInt8 × List (List UInt8)
  | _, [] => ([], [])
  | want, piece :: reads =>
    if want ≤ piece.length then (piece.take want, piece.drop want :: reads)
    else (piece ++ (readFull (want - piece.length) reads).1, (readFull (want - piece.length) reads).2)

/-- `copySkippingZeros` with the reads of its source written out. -/
def copyReads (fd : Id) (limit : Nat) : Nat → List (List UInt8) → Nat → Act Nat
  | 0, _, off => pure off
  | fuel + 1, reads, off => do
    issue .readFull
    let (buf, rest) := readFull chunk reads
    if buf ≠ [] ∧ limit < off + buf.length then .fail (.imageTooLong limit)
    else do
      writeUnlessZero fd off buf
      if buf.length < chunk then pure (off + buf.length)
      else copyReads fd limit fuel rest (off + buf.length)

theorem readFull_eq (want : Nat) (reads : List (List UInt8)) :
    (readFull want reads).1 = reads.flatten.take want ∧ (readFull want reads).2.flatten = reads.flatten.drop want := by
  fun_induction readFull want reads with
  | case1 => simp
  | case2 want piece reads inside => simp [List.take_append_of_le_length inside, List.drop_append_of_le_length inside]
  | case3 want piece reads outside ih =>
    have short : piece.length ≤ want := by omega
    simp [List.take_append, List.drop_append, List.take_of_length_le short, List.drop_eq_nil_of_le short, ih]

/-- However the source is split into reads, the copy is that of its bytes. -/
theorem copyReads_eq (fd : Id) (limit fuel : Nat) (reads : List (List UInt8)) (off : Nat) :
    copyReads fd limit fuel reads off = copySkippingZeros fd limit fuel reads.flatten off := by
  induction fuel generalizing reads off with
  | zero => rfl
  | succ fuel ih =>
    obtain ⟨buf, rest⟩ := readFull_eq chunk reads
    simp only [copyReads, copySkippingZeros, ih, buf, rest]

/-- Reads and writes may fail with these errors. -/
def failing (faults : Err → Prop) : Machine Pid World Op Op.Res Err :=
  engine.machine (fun _ _ _ c => ∀ fault, c.fault = some fault → faults fault.1) (fun _ _ => True)

section Copy

variable {faults : Err → Prop} {p : Pid} {w w' : World} {fd : Id} {d : Device} {limit : Nat}

theorem failing_step {o : Op} {a : World × o.Res} {r : Except Err o.Res} (performs : ∀ c, w.perform p c o = .ok a)
    (step : (failing faults).step p w o r w') : (r = .ok a.2 ∧ w' = a.1) ∨ ∃ e, r = .error e ∧ faults e := by
  obtain ⟨c, allowed, ran⟩ := step
  simp only [engine, World.exec, performs c] at ran
  split at ran
  · cases ran
  have ran := Option.some.inj ran
  cases chosen : (if World.cannotFail o then none else c.fault) with
  | none =>
    rw [chosen] at ran
    cases ran
    exact .inl ⟨rfl, rfl⟩
  | some fault =>
    rw [chosen] at ran
    refine .inr ⟨fault.1, (withFault_some ran).1, ?_⟩
    split at chosen
    · cases chosen
    · exact allowed _ chosen

theorem wp_writeUnlessZero (off : Nat) (buf : List UInt8) (present : w.pool fd = some d) :
    wp (failing faults) .plain p (writeUnlessZero fd off buf) (fun r w' => match r with
      | .ok _ => w'.pool fd = some (d.extend (if buf.all (· == 0) then [] else [.write p off buf]))
      | .error e => faults e) w := by
  unfold writeUnlessZero
  split
  · exact present.trans (by simp [Device.extend])
  · rw [issue, wp_call_plain]
    intro r w' step
    have performs : ∀ c, w.perform p c (.writeAt fd off buf) =
        .ok (w.setPool fd (some (d.record (.write p off buf))), ()) := fun c => by simp only [World.perform, present]
    rcases failing_step performs step with ⟨rfl, rfl⟩ | ⟨e, rfl, fault⟩
    · exact Function.update_self ..
    · exact fault

theorem wp_copySkippingZeros {fuel off : Nat} {rest : List UInt8} (present : w.pool fd = some d) (below : off ≤ limit)
    (enough : rest.length < fuel) :
    wp (failing faults) .plain p (copySkippingZeros fd limit fuel rest off) (fun r w' => match r with
      | .ok n => n = off + rest.length ∧ n ≤ limit ∧ w'.pool fd = some (d.extend (writeLog p fuel rest off))
      | .error e => (e = .imageTooLong limit ∧ limit < off + rest.length) ∨ faults e) w := by
  induction fuel generalizing rest off d w with
  | zero => omega
  | succ fuel ih =>
    rw [copySkippingZeros, wp_bind, issue, wp_call_plain]
    intro r w' step
    rcases failing_step (a := (w, ())) (fun _ => rfl) step with ⟨rfl, rfl⟩ | ⟨e, rfl, fault⟩
    swap
    · exact .inr fault
    rw [onOk_ok]
    dsimp only
    have lengths : (rest.take chunk).length + (rest.drop chunk).length = rest.length := by
      rw [← List.length_append, List.take_append_drop]
    split
    · next beyond => exact .inl ⟨rfl, by omega⟩
    next inside =>
    refine wp_then (wp_writeUnlessZero off (rest.take chunk) present) (fun e _ fault => .inr fault) fun _ w' wrote => ?_
    have fits : off + (rest.take chunk).length ≤ limit := by
      by_contra beyond
      refine inside ⟨fun empty => beyond ?_, by omega⟩
      rwa [empty]
    split
    · next short =>
      have all : rest.take chunk = rest := List.take_of_length_le (by simp at short; omega)
      refine ⟨by rw [all], fits, ?_⟩
      rw [writeLog, if_pos short]
      exact wrote
    · next full =>
      refine wp_mono (fun r w'' holds => ?_) (ih wrote fits (by have := chunk_pos; omega))
      cases r with
      | error e => exact holds.imp_left (And.imp_right fun beyond => by omega)
      | ok n =>
        obtain ⟨count, low, wrote⟩ := holds
        refine ⟨by omega, low, ?_⟩
        rw [wrote, writeLog, if_neg full]
        simp [Device.extend]

/-- A copy into a blank device ends. It writes only blocks of the source that are not all zero, below the limit; it
fails for its length exactly when the source is longer than the limit, unless a read or a write fails; and when it
succeeds the device holds the source, then zeros. -/
theorem sparse_copy_exact {reads : List (List UInt8)} (present : w.pool fd = some d) (blank : d.content = fun _ => 0) :
    let prog := copyReads fd limit (reads.flatten.length + 1) reads 0
    (∃ issued w' result, Run (failing faults) p prog w issued w' (some result)) ∧
      ∀ issued w' result, Run (failing faults) p prog w issued w' (some result) →
        (∀ entry ∈ issued, Sparse reads.flatten fd limit entry.2) ∧
        (∀ n, result = .ok n → n = reads.flatten.length ∧
          ∃ d', w'.pool fd = some d' ∧ d'.content = fun i => reads.flatten.getD i 0) ∧
        (∀ e, result = .error e → e = .imageTooLong limit ∨ faults e) ∧
        ((∀ e, result = .error e → ¬ faults e) → (result = .error (.imageTooLong limit) ↔ limit < reads.flatten.length)) := by
  intro prog
  have sparse : prog.Within (Sparse reads.flatten fd limit) := by
    have all := @writes_sparse reads.flatten 0 fd limit (reads.flatten.length + 1) (Nat.dvd_zero _)
    rwa [List.drop_zero, ← copyReads_eq] at all
  refine ⟨?_, fun issued w' result run => ?_⟩
  · have answers : prog.Within fun o => ∀ c w, (engine.exec p c w o).isSome :=
      yields_weaken (fun o here c w => by cases o <;> first | rfl | cases here) (fun _ _ answer => answer) sparse
    obtain ⟨k, result, ended⟩ := drive_ends answers (w := w) fun _ => calm
    have along : Along engine (fun _ _ _ c => ∀ fault, c.fault = some fault → faults fault.1) p
        ((List.range k).map fun _ => calm) prog w :=
      along_of_forall (by simp [calm]) prog w
    obtain ⟨issued, run⟩ := run_ended along ended
    exact ⟨issued, _, result, run⟩
  · refine ⟨run_yields sparse (fun _ _ _ _ _ => trivial) run, ?_⟩
    rw [show prog = _ from copyReads_eq ..] at run
    have holds := run_plain run (wp_copySkippingZeros present (Nat.zero_le _) (Nat.lt_succ_self _))
    rw [Nat.zero_add] at holds
    cases result with
    | error e =>
      refine ⟨nofun, ?_, fun fine => ?_⟩
      · rintro _ ⟨⟩
        exact holds.imp_left And.left
      · obtain ⟨rfl, beyond⟩ := holds.resolve_right (fine e rfl)
        exact iff_of_true rfl beyond
    | ok n =>
      obtain ⟨rfl, low, wrote⟩ := holds
      refine ⟨?_, nofun, fun _ => iff_of_false nofun (Nat.not_lt.mpr low)⟩
      rintro _ ⟨⟩
      refine ⟨rfl, _, wrote, ?_⟩
      rw [Device.content, Device.extend, List.foldl_append]
      show List.foldl DeviceEvent.apply d.content _ = _
      rw [blank, writeLog_blank]

end Copy

/-- A block of zeros and a byte: copied whole, and refused where the limit is the block. -/
theorem sparse_copy_exact_zero_block :
    let copy := fun limit => copyReads 7 limit (chunk + 1 + 1) [List.replicate chunk 0, [1]] 0
    let base := emptyNode.setPool 7 (some ⟨.base "image", fun _ => 0, []⟩)
    (∃ issued w', Run (failing fun _ => False) 0 (copy (chunk + 1)) base issued w' (some (.ok (chunk + 1)))) ∧
      ∃ issued w', Run (failing fun _ => False) 0 (copy chunk) base issued w' (some (.error (.imageTooLong chunk))) := by
  intro copy base
  have length : [List.replicate chunk (0 : UInt8), [1]].flatten.length = chunk + 1 := by
    rw [List.flatten_cons, List.length_append, List.length_replicate]
    rfl
  have exact_ := fun limit => @sparse_copy_exact (fun _ => False) 0 base 7 _ limit [List.replicate chunk 0, [1]] rfl rfl
  rw [length] at exact_
  constructor
  · obtain ⟨⟨issued, w', result, run⟩, ends⟩ := exact_ (chunk + 1)
    obtain ⟨-, whole, fails, long⟩ := ends issued w' result run
    cases result with
    | ok n =>
      rw [(whole n rfl).1] at run
      exact ⟨issued, w', run⟩
    | error e =>
      have beyond := (long fun _ _ => id).mp ((fails e rfl).elim (congrArg _) False.elim)
      exact absurd beyond (Nat.lt_irrefl _)
  · obtain ⟨⟨issued, w', result, run⟩, ends⟩ := exact_ chunk
    obtain ⟨-, -, -, long⟩ := ends issued w' result run
    rw [(long fun _ _ => id).mpr (Nat.lt_succ_self _)] at run
    exact ⟨issued, w', run⟩

end KubeSwift.ThinPool
