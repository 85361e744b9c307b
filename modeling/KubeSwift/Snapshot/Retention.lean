import KubeSwift.Program.Sequential
import KubeSwift.Snapshot.Schedule

/-! # What retention keeps

`sort.Slice` is not stable: snapshots of one time may come in any order. -/

namespace KubeSwift.Snapshot
open Program Prog

inductive SwiftRestorePhase
  | unset | pending | downloading | restoring | resuming | ready | failed
  deriving DecidableEq

def restorePhaseTerminal (p : SwiftRestorePhase) : Bool := p = .ready || p = .failed

structure References where
  /-- Of each guest, the snapshot it is a clone of. -/
  guests : List (Option Nat)
  restores : List (Nat × SwiftRestorePhase)

def referenceBlocker (refs : References) (unix : Nat) : Bool :=
  refs.guests.contains (some unix) ||
    refs.restores.any fun restore => restore.1 = unix && !restorePhaseTerminal restore.2

def honest (refs : References) : Op → Choice → Prop
  | .referenceBlocker unix, c => c.blocked = referenceBlocker refs unix
  | _, _ => True

def referring (refs : References) : Machine Unit World Op Op.Res Err :=
  engine.machine (fun _ _ o c => honest refs o c) (fun _ _ => True)

def faultless (refs : References) : Machine Unit World Op Op.Res Err :=
  engine.machine (fun _ _ o c => honest refs o c ∧ c.fault = none) (fun _ _ => False)

def live (c : SwiftSnapshot) : Bool := c.phase = .ready && !c.deleting

structure NewestFirst (children order : List SwiftSnapshot) : Prop where
  perm : order.Perm (children.filter live)
  sorted : order.Pairwise fun a b => snapTime b ≤ snapTime a

variable {refs : References} {sched : SwiftSnapshotSchedule} {children order rest : List SwiftSnapshot} {keep : Nat}
  {w w' : World}

theorem pruneKeepN_sorted (budget : sched.keepLast = some keep) :
    ∃ order, NewestFirst children order ∧ pruneKeepN sched children = prune (order.drop keep) := by
  refine ⟨(children.filter live).mergeSort fun a b => snapTime b ≤ snapTime a, ⟨List.mergeSort_perm _ _, ?_⟩, ?_⟩
  · refine (List.pairwise_mergeSort ?_ ?_ _).imp of_decide_eq_true
    · simp only [decide_eq_true_eq]
      exact fun _ _ _ first second => second.trans first
    · simpa using fun a b => Nat.le_total (snapTime b) (snapTime a)
  · simp only [pruneKeepN, budget]
    split
    · next few => rw [List.drop_eq_nil_of_le (by rwa [List.length_mergeSort]), prune]
    · rfl

def Spares (refs : References) (older : List SwiftSnapshot) : Op → Prop
  | .delete unix => referenceBlocker refs unix = false ∧ ∃ snap ∈ older, snap.unix = unix
  | _ => True

def Answers (refs : References) : ∀ o : Op, Except Err o.Res → Prop
  | .referenceBlocker unix, .ok blocked => blocked = referenceBlocker refs unix
  | _, _ => True

theorem yields_prune (refs : References) {older : List SwiftSnapshot} (all : rest ⊆ older) :
    (prune rest).Yields (Spares refs older) (Answers refs) (fun _ => True) := by
  induction rest with
  | nil => trivial
  | cons old rest ih =>
    obtain ⟨first, others⟩ := List.cons_subset.mp all
    refine yields_seq (yields_call trivial fun _ => id) fun blocked answer => ?_
    split
    · exact ih others
    · next free =>
      have named : Spares refs older (.delete old.unix) := ⟨by simpa [show blocked = _ from answer] using free, old, first, rfl⟩
      refine yields_then (yields_then (yields_attempt ?_ fun _ => trivial) fun r => ?_) fun _ => ih others
      · exact yields_call named fun _ _ => trivial
      · cases r with
        | ok => trivial
        | error e => exact yields_ite (fun _ => trivial) fun _ => trivial

theorem referring_answers {o : Op} {r : Except Err o.Res} (action : (referring refs).step () w o r w') :
    Answers refs o r := by
  obtain ⟨c, honest, ran⟩ := action
  cases o with
  | referenceBlocker unix =>
    rcases withFault_cases (Option.some.inj ran) with ⟨a, rfl, done⟩ | ⟨e, rfl, -⟩
    · cases done
      exact honest
    · trivial
  | _ => cases r <;> trivial

def outdated (refs : References) (older : List SwiftSnapshot) (unix : Nat) : Bool :=
  unix ∈ older.map (·.unix) && !referenceBlocker refs unix

def World.pruned (w : World) (gone : Nat → Bool) : World :=
  { w with snaps := w.snaps.map fun snap => if gone snap.unix then { snap with deleting := true } else snap }

theorem faultless_step {o : Op} {r : Except Err o.Res} (action : (faultless refs).step () w o r w') :
    ∃ c, honest refs o c ∧ withFault w none (w.perform c o) = (w', r) := by
  obtain ⟨c, ⟨honest, calm⟩, ran⟩ := action
  refine ⟨c, honest, ?_⟩
  cases o <;> simpa [engine, World.exec, World.perform, withFault, calm] using ran

theorem World.pruned_congr {gone gone' : Nat → Bool} (same : ∀ snap ∈ w.snaps, gone snap.unix = gone' snap.unix) :
    w.pruned gone = w.pruned gone' := by
  unfold World.pruned
  rw [List.map_congr_left fun snap member => by rw [same snap member]]

theorem World.pruned_delete (unix : Nat) (gone : Nat → Bool) :
    (w.mapSnapshot unix fun snap => { snap with deleting := true }).pruned gone =
      w.pruned fun name => name = unix || gone name := by
  simp only [World.pruned, World.mapSnapshot, List.map_map, World.mk.injEq, true_and, and_true]
  refine List.map_congr_left fun snap _ => ?_
  by_cases same : snap.unix = unix <;> simp [same]

theorem wp_prune_faultless : wp (faultless refs) .plain () (prune rest)
    (fun r w' => r = .ok () ∧ w' = w.pruned (outdated refs rest)) w := by
  induction rest generalizing w with
  | nil => exact ⟨rfl, by simp [World.pruned, outdated]⟩
  | cons old rest ih =>
    have goes : ∀ w1 : World, w1.pruned (outdated refs rest) = w.pruned (outdated refs (old :: rest)) →
        wp (faultless refs) .plain () (prune rest)
          (fun r w' => r = .ok () ∧ w' = w.pruned (outdated refs (old :: rest))) w1 :=
      fun w1 same => wp_mono (fun _ _ after => ⟨after.1, after.2.trans same⟩) ih
    simp only [prune, issue, wp_bind, wp_call_plain]
    intro r w1 asked
    obtain ⟨c, answer, ran⟩ := faultless_step asked
    cases ran
    rw [onOk_ok, show c.blocked = _ from answer]
    split
    · next blocked =>
      refine goes w (World.pruned_congr fun snap _ => ?_)
      by_cases same : snap.unix = old.unix <;> simp [outdated, same, blocked]
    · next free =>
      unfold tolerate
      simp only [wp_bind, wp_attempt, wp_call_plain]
      intro r w1 deleted
      obtain ⟨c, -, ran⟩ := faultless_step deleted
      simp only [World.perform] at ran
      split at ran <;> cases ran
      · refine goes _ ?_
        rw [World.pruned_delete]
        refine World.pruned_congr fun snap _ => ?_
        by_cases same : snap.unix = old.unix <;> simp [outdated, same, free]
      · next absent =>
        refine goes w (World.pruned_congr fun snap member => ?_)
        have other : snap.unix ≠ old.unix := fun same => absent (by simpa [World.exists] using ⟨snap, member, same⟩)
        simp [outdated, other]

variable (sorted : NewestFirst children order)
include sorted

variable {snap : SwiftSnapshot}

theorem NewestFirst.mem : snap ∈ order ↔ snap ∈ children ∧ live snap = true :=
  sorted.perm.mem_iff.trans List.mem_filter

theorem NewestFirst.older {kept : SwiftSnapshot}
    (old : snap ∈ order.drop keep) (new : kept ∈ order.take keep) : snapTime snap ≤ snapTime kept := by
  have pairs := sorted.sorted
  rw [← List.take_append_drop keep order] at pairs
  exact (List.pairwise_append.mp pairs).2.2 kept new snap old

theorem NewestFirst.disjoint {kept : SwiftSnapshot}
    (distinct : (children.map (·.unix)).Nodup) (old : snap ∈ order.drop keep) (new : kept ∈ order.take keep) :
    kept.unix ≠ snap.unix := by
  have names : (order.map (·.unix)).Nodup := by
    rw [(sorted.perm.map _).nodup_iff]
    exact distinct.sublist (List.filter_sublist.map _)
  rw [← List.take_append_drop keep order, List.map_append] at names
  exact (List.nodup_append.mp names).2.2 _ (List.mem_map_of_mem new) _ (List.mem_map_of_mem old)

theorem NewestFirst.beyond (member : snap ∈ children)
    (alive : live snap = true) (other : snap ∉ order.take keep) : snap ∈ order.drop keep := by
  have there := sorted.mem.mpr ⟨member, alive⟩
  rw [← List.take_append_drop keep order, List.mem_append] at there
  exact there.resolve_left other

omit sorted

theorem World.pruned_live (gone : Nat → Bool) :
    (w.pruned gone).snaps.filter live = (w.snaps.filter live).filter fun snap => !gone snap.unix := by
  unfold World.pruned
  induction w.snaps with
  | nil => rfl
  | cons snap rest ih =>
    have off : live { snap with deleting := true } = false := by simp [live]
    cases alive : live snap <;> cases taken : gone snap.unix <;> simp_all

theorem NewestFirst.left (sorted : NewestFirst w.snaps order) (distinct : (w.snaps.map (·.unix)).Nodup) :
    (w.pruned (outdated refs (order.drop keep))).snaps.filter live =
      (w.snaps.filter live).filter fun snap => snap ∈ order.take keep || referenceBlocker refs snap.unix := by
  rw [World.pruned_live]
  refine List.filter_congr fun snap member => ?_
  obtain ⟨there, alive⟩ := List.mem_filter.mp member
  have beyond : snap.unix ∈ (order.drop keep).map (·.unix) ↔ snap ∉ order.take keep := by
    refine ⟨fun gone new => ?_, fun other => List.mem_map_of_mem (sorted.beyond there alive other)⟩
    obtain ⟨old, there, same⟩ := List.mem_map.mp gone
    exact sorted.disjoint distinct there new same.symm
  simp only [outdated, beyond, decide_not, Bool.not_and, Bool.not_not]

/-- A pass of the retention, with its snapshots in any order that is newest first: whatever fails, it deletes only
unreferenced ones of those beyond the newest `keep`; if nothing fails, the newest and the referenced are left. -/
theorem retention_keeps_newest (budget : sched.keepLast = some keep) (distinct : (children.map (·.unix)).Nodup) :
    (∃ order, NewestFirst children order ∧ pruneKeepN sched children = prune (order.drop keep)) ∧
    ∀ order, NewestFirst children order →
      ((order.take keep).length = min keep (children.filter live).length ∧ ∀ snap ∈ children, live snap = true →
        snap ∉ order.take keep → ∀ kept ∈ order.take keep, snapTime snap ≤ snapTime kept) ∧
      (∀ w issued w' result, Run (referring refs) () (prune (order.drop keep)) w issued w' result →
        ∀ st unix, (st, .delete unix) ∈ issued → referenceBlocker refs unix = false ∧
          ∃ snap ∈ children, snap.unix = unix ∧ live snap = true ∧ (order.take keep).length = keep ∧
            ∀ kept ∈ order.take keep, kept ∈ children ∧ live kept = true ∧ snapTime snap ≤ snapTime kept ∧
              ∀ st, (st, .delete kept.unix) ∉ issued) ∧
      ∀ w, w.snaps = children →
        (∃ issued w' result, Run (faultless refs) () (prune (order.drop keep)) w issued w' (some result)) ∧
        ∀ issued w' result, Run (faultless refs) () (prune (order.drop keep)) w issued w' (some result) →
          result = .ok () ∧ w'.snaps.filter live = (children.filter live).filter fun snap =>
            snap ∈ order.take keep || referenceBlocker refs snap.unix := by
  refine ⟨pruneKeepN_sorted budget, fun order sorted => ⟨⟨?_, ?_⟩, ?_, ?_⟩⟩
  · rw [List.length_take, sorted.perm.length_eq]
  · exact fun snap member alive other kept new => sorted.older (sorted.beyond member alive other) new
  · intro w issued w' result run st unix deleted
    have spares := run_yields (yields_prune refs fun _ => id) (fun _ _ _ _ => referring_answers) run
    obtain ⟨free, snap, old, rfl⟩ := spares _ deleted
    obtain ⟨member, alive⟩ := sorted.mem.mp (List.mem_of_mem_drop old)
    refine ⟨free, snap, member, rfl, alive, ?_, fun kept new => ?_⟩
    · have beyond := List.length_pos_of_mem old
      rw [List.length_drop] at beyond
      rw [List.length_take]
      omega
    · obtain ⟨there, alive'⟩ := sorted.mem.mp (List.mem_of_mem_take new)
      refine ⟨there, alive', sorted.older old new, fun st gone => ?_⟩
      obtain ⟨-, other, old', same⟩ := spares _ gone
      exact sorted.disjoint distinct old' new same.symm
  · rintro w rfl
    refine ⟨run_total (fun w o => ?_) _ _, fun issued w' result run => ?_⟩
    · let c : Choice := { blocked := match o with | .referenceBlocker unix => referenceBlocker refs unix | _ => false }
      exact ⟨_, _, c, ⟨by cases o <;> trivial, rfl⟩, rfl⟩
    · obtain ⟨rfl, rfl⟩ := run_plain run wp_prune_faultless
      exact ⟨rfl, sorted.left distinct⟩

private def aged (unix capturedAt : Nat) : SwiftSnapshot := ⟨unix, unix, .ready, some capturedAt, none, false⟩

private def keepOne : SwiftSnapshotSchedule :=
  ⟨"hourly", "@hourly", false, .allow, none, some 1, 0, 1, 1, ⟨none, none, [], none⟩⟩

/-- Of two snapshots of one time either may be the one that is kept; the oldest stays while a guest is its clone. -/
theorem retention_keeps_newest_of_two :
    ∃ w w' issued result, w.snaps = [aged 1 10, aged 2 20, aged 3 20] ∧ Run (faultless ⟨[some 1], []⟩) ()
      (prune [aged 2 20, aged 1 10]) w issued w' (some result) ∧ w'.snaps.filter live = [aged 1 10, aged 3 20] := by
  have kept := (@retention_keeps_newest ⟨[some 1], []⟩ keepOne [aged 1 10, aged 2 20, aged 3 20] 1 rfl (by decide)).2
    [aged 3 20, aged 2 20, aged 1 10] ⟨by decide, by decide⟩
  obtain ⟨⟨issued, w', result, run⟩, left⟩ := kept.2.2 ⟨keepOne, _, 0, []⟩ rfl
  exact ⟨_, w', issued, result, rfl, run, (left issued w' result run).2⟩

end KubeSwift.Snapshot
