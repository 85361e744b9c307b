import KubeSwift.Snapshot.Cron

/-! # The window of `mostRecentDue` in machine durations

The length is a `time.Duration`, 64 bits wide, doubled without a check. Once it has wrapped, a window may begin after
now, where nothing is due, or reach back by some other length; the least duration reaches back over any span. -/

namespace KubeSwift.Snapshot

def duration (x : Int) : Int := x.bmod (2 ^ 64)

section Search

variable (next : Nat → Option Nat) (earliest now : Nat)

def windowStart64 : Nat → Int → Option Nat
  | 0, _ => none
  | fuel + 1, d =>
    let s := (now : Int) + duration (-d)
    if s ≤ earliest then some earliest
    else if (dueAfter next now s.toNat).isSome then some s.toNat
    else windowStart64 fuel (duration (2 * d))

def walk : Nat → Nat → Option Nat → Option (Option Nat)
  | 0, _, _ => none
  | fuel + 1, t, due =>
    match dueAfter next now t with
    | some t' => walk fuel t' (some t')
    | none => some due

/-- `mostRecentDue` with both loops cut off after `fuel` rounds; `some none` is the answer that nothing is due. -/
def mostRecentDue64 (fuel : Nat) : Option (Option Nat) :=
  if earliest < now then
    (windowStart64 next earliest now fuel minute).bind fun start => walk next now fuel start none
  else some none

def NextIn (ticks : Set Nat) : Prop :=
  ∀ s t, next s = some t ↔ IsLeast {u | u ∈ ticks ∧ s < u} t

structure LastDue (ticks : Set Nat) (earliest now : Nat) (due : Option Nat) : Prop where
  greatest : ∀ t, due = some t ↔ IsGreatest {u | u ∈ ticks ∧ earliest < u ∧ u ≤ now} t
  none_iff : due = none ↔ ¬ ∃ u ∈ ticks, earliest < u ∧ u ≤ now

def Starts (start : Nat) : Prop :=
  start = earliest ∨ earliest < start ∧ (dueAfter next now start).isSome

variable {next earliest now} {ticks : Set Nat} {t fuel : Nat}

theorem LastDue.of_empty (empty : ¬ ∃ u ∈ ticks, earliest < u ∧ u ≤ now) : LastDue ticks earliest now none where
  greatest := fun t => ⟨nofun, fun ⟨⟨tick, within⟩, _⟩ => absurd ⟨t, tick, within⟩ empty⟩
  none_iff := ⟨fun _ => empty, fun _ => rfl⟩

theorem NextIn.dueAfter_none (exact : NextIn next ticks) (nothing : dueAfter next now t = none) {u : Nat}
    (tick : u ∈ ticks) (later : t < u) : now < u := by
  by_contra past
  classical
  have least := Nat.find_spec (p := fun u => u ∈ ticks ∧ t < u) ⟨u, tick, later⟩
  have bound : ∀ v ∈ ticks, t < v → Nat.find (p := fun u => u ∈ ticks ∧ t < u) ⟨u, tick, later⟩ ≤ v :=
    fun v here after => Nat.find_min' _ ⟨here, after⟩
  have found := (exact t _).mpr ⟨least, fun v here => bound v here.1 here.2⟩
  have due := dueAfter_eq_some.mpr ⟨found, (bound u tick later).trans (Nat.not_lt.mp past)⟩
  rw [nothing] at due
  cases due

theorem NextIn.dueAfter_some (exact : NextIn next ticks) {t' : Nat} (found : dueAfter next now t = some t') :
    IsLeast {u | u ∈ ticks ∧ t < u} t' ∧ t' ≤ now := by
  obtain ⟨least, past⟩ := dueAfter_eq_some.mp found
  exact ⟨(exact t t').mp least, past⟩

theorem NextIn.walk_ends (exact : NextIn next ticks) (due : Option Nat) (enough : now - t < fuel) :
    (dueAfter next now t = none ∧ walk next now fuel t due = some due) ∨
      ∃ g, walk next now fuel t due = some (some g) ∧ IsGreatest {u | u ∈ ticks ∧ t < u ∧ u ≤ now} g := by
  induction fuel generalizing t due with
  | zero => exact absurd enough (Nat.not_lt_zero _)
  | succ fuel ih =>
    cases found : dueAfter next now t with
    | none => exact .inl ⟨rfl, by simp only [walk, found]⟩
    | some t' =>
      right
      obtain ⟨⟨⟨tick, later⟩, least⟩, past⟩ := exact.dueAfter_some found
      simp only [walk, found]
      rcases ih (some t') (show now - t' < fuel by omega) with ⟨nothing, ends⟩ | ⟨g, ends, ⟨here, after, early⟩, last⟩
      · refine ⟨t', ends, ⟨tick, later, past⟩, fun u ⟨other, _, early⟩ => ?_⟩
        by_contra beyond
        exact absurd early (Nat.not_le.mpr (exact.dueAfter_none nothing other (Nat.not_le.mp beyond)))
      · refine ⟨g, ends, ⟨here, later.trans after, early⟩, fun u ⟨other, above, within⟩ => ?_⟩
        rcases Nat.lt_or_eq_of_le (least ⟨other, above⟩) with beyond | rfl
        · exact last ⟨other, beyond, within⟩
        · exact after.le

theorem duration_double (k : Nat) : duration (2 * duration (minute * 2 ^ k)) = duration (minute * 2 ^ (k + 1)) := by
  have same : (2 : Int) * (minute * 2 ^ k) = minute * 2 ^ (k + 1) := by
    rw [Int.pow_succ, Int.mul_left_comm, Int.mul_comm 2]
  rw [duration, duration, Int.mul_bmod_bmod, same, duration]

/-- The 52nd doubling is the least duration, so at most 53 windows are tried. -/
theorem windowStart64_ends (span : now - earliest < 2 ^ 63) {k : Nat} (few : k ≤ 52) (enough : 52 < fuel + k) :
    ∃ start, windowStart64 next earliest now fuel (duration (minute * 2 ^ k)) = some start ∧
      Starts next earliest now start := by
  induction fuel generalizing k with
  | zero => omega
  | succ fuel ih =>
    simp only [windowStart64]
    split
    · exact ⟨earliest, rfl, .inl rfl⟩
    · next inside =>
      split
      · next due => exact ⟨_, rfl, .inr ⟨by omega, due⟩⟩
      · have before : k ≠ 52 := by
          rintro rfl
          have whole : duration (-duration (minute * 2 ^ 52)) = -2 ^ 63 := by decide
          omega
        rw [duration_double]
        exact ih (by omega) (by omega)

theorem NextIn.walk_lastDue (exact : NextIn next ticks) {start : Nat} (starts : Starts next earliest now start)
    (enough : now < fuel) : ∃ due, walk next now fuel start none = some due ∧ LastDue ticks earliest now due := by
  rcases exact.walk_ends none (show now - start < fuel by omega) with ⟨nothing, ends⟩ | ⟨g, ends, greatest⟩
  · have here : start = earliest := by
      rcases starts with here | ⟨_, due⟩
      · exact here
      · rw [nothing] at due
        cases due
    subst here
    exact ⟨none, ends, .of_empty fun ⟨u, tick, after, past⟩ =>
      absurd past (Nat.not_le.mpr (exact.dueAfter_none nothing tick after))⟩
  · have early : earliest ≤ start := by
      rcases starts with rfl | ⟨after, _⟩
      · exact Nat.le_refl _
      · exact after.le
    have all : IsGreatest {u | u ∈ ticks ∧ earliest < u ∧ u ≤ now} g := by
      obtain ⟨⟨tick, after, past⟩, last⟩ := greatest
      refine ⟨⟨tick, by omega, past⟩, fun u ⟨other, _, within⟩ => ?_⟩
      rcases Nat.lt_or_ge start u with beyond | behind
      · exact last ⟨other, beyond, within⟩
      · exact behind.trans after.le
    refine ⟨some g, ends, fun t => ⟨?_, fun other => congrArg some (all.unique other)⟩, ⟨nofun, fun empty => ?_⟩⟩
    · rintro ⟨⟩
      exact all
    · exact absurd ⟨g, all.1.1, all.1.2⟩ empty

theorem mostRecentDue64_lastDue (exact : NextIn next ticks) (span : now - earliest < 2 ^ 63)
    (enough : now + 53 ≤ fuel) : ∃ due, mostRecentDue64 next earliest now fuel = some due ∧ LastDue ticks earliest now due := by
  unfold mostRecentDue64
  by_cases started : earliest < now
  · have first : duration (minute * 2 ^ 0) = minute := by decide
    obtain ⟨start, found, starts⟩ : ∃ start, windowStart64 next earliest now fuel minute = some start ∧
        Starts next earliest now start := by
      rw [← first]
      exact windowStart64_ends span (Nat.zero_le 52) (by omega)
    rw [if_pos started, found]
    exact exact.walk_lastDue starts (by omega)
  · rw [if_neg started]
    exact ⟨none, rfl, .of_empty fun ⟨u, _, after, past⟩ => by omega⟩

/-- `mostRecentDue` returns, and what it returns is the last due tick. -/
theorem mostRecentDue_finds_last_tick (exact : NextIn next ticks) (span : now - earliest < 2 ^ 63) :
    ∃ enough, ∀ fuel ≥ enough, ∃ due, mostRecentDue64 next earliest now fuel = some due ∧ LastDue ticks earliest now due :=
  ⟨now + 53, fun _ enough => mostRecentDue64_lastDue exact span enough⟩

private def once (s : Nat) : Option Nat := if s < 5 then some 5 else none

private theorem once_exact : NextIn once {5} := by
  intro s t
  simp only [IsLeast, lowerBounds, once]
  grind

/-- The span is the longest duration: the length of the window wraps before the one tick, at 5, is found. -/
theorem mostRecentDue_finds_last_tick_longest : ∃ enough, ∀ fuel ≥ enough,
    mostRecentDue64 once 0 (2 ^ 63 - 1) fuel = some (some 5) := by
  obtain ⟨enough, finds⟩ := @mostRecentDue_finds_last_tick once 0 (2 ^ 63 - 1) _ once_exact (by decide)
  refine ⟨enough, fun fuel more => ?_⟩
  obtain ⟨due, found, last⟩ := finds fuel more
  rw [found, (last.greatest 5).mpr ⟨⟨rfl, by decide⟩, fun _ here => here.1.le⟩]

theorem latest_of_walk {due r : Option Nat} (ends : walk next now fuel t due = some r) :
    latest next now fuel t due = r := by
  induction fuel generalizing t due with
  | zero => cases ends
  | succ fuel ih =>
    cases found : dueAfter next now t with
    | none =>
      simp only [walk, found, Option.some.injEq] at ends
      simpa only [latest, found] using ends
    | some t' =>
      simp only [walk, found] at ends
      simpa only [latest, found] using ih ends

theorem windowStart_starts {d : Nat} : Starts next earliest now (windowStart next earliest now fuel d) := by
  induction fuel generalizing d with
  | zero => exact .inl rfl
  | succ fuel ih =>
    simp only [windowStart]
    split
    · exact .inl rfl
    · next inside =>
      split
      · next due => exact .inr ⟨Nat.not_le.mp inside, due⟩
      · exact ih

/-- The wrapped lengths change nothing: the search in unbounded durations has the same answer. -/
theorem mostRecentDue64_eq (exact : NextIn next ticks) (span : now - earliest < 2 ^ 63) :
    ∃ enough, ∀ fuel ≥ enough, mostRecentDue64 next earliest now fuel = some (mostRecentDue next earliest now) := by
  refine ⟨now + 53, fun fuel enough => ?_⟩
  obtain ⟨due, ends, last⟩ := mostRecentDue64_lastDue exact span enough
  rw [ends, mostRecentDue]
  split
  · have starts : Starts next earliest now (windowStart next earliest now (now + 1) minute) := windowStart_starts
    obtain ⟨due', walked, last'⟩ := exact.walk_lastDue starts (Nat.lt_succ_self now)
    rw [latest_of_walk walked]
    exact congrArg some (Option.ext fun t => (last.greatest t).trans (last'.greatest t).symm)
  · next early =>
    rw [last.none_iff.mpr fun ⟨u, _, after, past⟩ => by omega]

theorem mostRecentDue64_eq_once : ∃ enough, ∀ fuel ≥ enough,
    mostRecentDue64 once 0 (2 ^ 63 - 1) fuel = some (mostRecentDue once 0 (2 ^ 63 - 1)) :=
  mostRecentDue64_eq once_exact (by decide)

end Search

end KubeSwift.Snapshot
