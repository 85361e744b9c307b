import Mathlib

/-! # The tick a snapshot schedule is due for (`mostRecentDue`)

Times are nanoseconds. The latest tick is looked for in windows back from now, each twice as long as the last. -/

namespace KubeSwift.Snapshot

def second : Nat := 10 ^ 9

def minute : Nat := 60 * second

/-- A cron expression: when it fires, and the search for the next time, which gives up after five years. That loses
nothing: a date recurs within a year, and 29 February within eight. -/
structure Calendar where
  ticks : Nat → Prop
  next : Nat → Option Nat
  whole : ∀ t, ticks t → t % second = 0
  sound : ∀ s t, next s = some t → ticks t ∧ s < t ∧ ∀ u, ticks u → s < u → t ≤ u
  found : ∀ s c, ticks c → s < c → (∀ u, ticks u → c < u → c - s ≤ u - c + minute) → ∃ t, next s = some t

/-- What `cronspec.Parse` accepts: a cron expression, or an interval (`@every`) of whole seconds. -/
inductive Cron
  | spec (calendar : Calendar)
  | every (seconds : Nat) (positive : 0 < seconds)

def Cron.next : Cron → Nat → Option Nat
  | .spec calendar, s => calendar.next s
  | .every seconds _, s => some (s - s % second + seconds * second)

section Search

variable (next : Nat → Option Nat) (earliest now : Nat)

def dueAfter (s : Nat) : Option Nat := (next s).filter (· ≤ now)

def windowStart : Nat → Nat → Nat
  | 0, _ => earliest
  | fuel + 1, d =>
    if now - d ≤ earliest then earliest
    else if (dueAfter next now (now - d)).isSome then now - d
    else windowStart fuel (2 * d)

def latest : Nat → Nat → Option Nat → Option Nat
  | 0, _, due => due
  | fuel + 1, t, due =>
    match dueAfter next now t with
    | some t' => latest fuel t' (some t')
    | none => due

/-- The latest scheduled time in `(earliest, now]`. Every round moves on, so `now + 1` bounds both loops. -/
def mostRecentDue : Option Nat :=
  if earliest < now then
    latest next now (now + 1) (windowStart next earliest now (now + 1) minute) none
  else none

variable {next earliest now}

variable {t fuel : Nat} {s : Nat}

theorem dueAfter_eq_some : dueAfter next now s = some t ↔ next s = some t ∧ t ≤ now := by
  simp [dueAfter, Option.filter_eq_some_iff]

theorem latest_step {P : Nat → Prop} (step : ∀ t t', P t → dueAfter next now t = some t' → P t') {u : Nat}
    {due : Option Nat} (start : P t) (first : ∀ v ∈ due, ∃ t, P t ∧ dueAfter next now t = some v)
    (ends : latest next now fuel t due = some u) : ∃ t, P t ∧ dueAfter next now t = some u := by
  induction fuel generalizing t due with
  | zero => exact first u ends
  | succ fuel ih =>
    simp only [latest] at ends
    cases found : dueAfter next now t with
    | none =>
      rw [found] at ends
      exact first u ends
    | some t' =>
      rw [found] at ends
      refine ih (step t t' start found) (fun v here => ?_) ends
      exact ⟨t, start, Option.mem_some.mp here ▸ found⟩

theorem latest_reaches {P : Nat → Prop} {c : Nat}
    (step : ∀ t, P t → t < c → ∃ t', dueAfter next now t = some t' ∧ t < t' ∧ t' ≤ c ∧ P t')
    (stop : dueAfter next now c = none) {due : Option Nat} (start : P t) (here : t < c ∨ t = c ∧ due = some c)
    (enough : c - t < fuel) : latest next now fuel t due = some c := by
  induction fuel generalizing t due with
  | zero => exact absurd enough (Nat.not_lt_zero _)
  | succ fuel ih =>
    rcases here with before | ⟨rfl, done⟩
    · obtain ⟨t', found, onward, within, good⟩ := step t start before
      simp only [latest, found]
      refine ih good ?_ (by omega)
      rcases Nat.lt_or_eq_of_le within with still | there
      · exact .inl still
      · exact .inr ⟨there, by rw [there]⟩
    · simp only [latest, stop, done]

theorem earliest_le_windowStart {d : Nat} : earliest ≤ windowStart next earliest now fuel d := by
  induction fuel generalizing d with
  | zero => exact Nat.le_refl _
  | succ fuel ih =>
    simp only [windowStart]
    split
    · exact Nat.le_refl _
    · next inside =>
      split
      · exact (Nat.not_le.mp inside).le
      · exact ih

end Search

variable {t : Nat}

theorem Cron.next_later (cron : Cron) (found : cron.next s = some t) : s < t := by
  cases cron with
  | spec calendar => exact (calendar.sound s t found).2.1
  | every seconds positive =>
    cases found
    have low : s % second < second := Nat.mod_lt _ (by decide)
    have long : second ≤ seconds * second := Nat.le_mul_of_pos_left _ positive
    omega

theorem Cron.next_whole (cron : Cron) (found : cron.next s = some t) : t % second = 0 := by
  cases cron with
  | spec calendar => exact calendar.whole t (calendar.sound s t found).1
  | every seconds positive =>
    cases found
    rw [Nat.add_mul_mod_self_right]
    exact Nat.sub_mod_eq_zero_of_mod_eq (Nat.mod_mod _ _).symm

theorem mostRecentDue_some (cron : Cron) {earliest now : Nat} (due : mostRecentDue cron.next earliest now = some t) :
    earliest < t ∧ t ≤ now ∧ t % second = 0 := by
  unfold mostRecentDue at due
  split at due
  · have onward : ∀ s u, earliest ≤ s → dueAfter cron.next now s = some u → earliest ≤ u := by
      intro s u later found
      exact later.trans (cron.next_later (dueAfter_eq_some.mp found).1).le
    obtain ⟨s, later, found⟩ := latest_step onward earliest_le_windowStart (by simp) due
    obtain ⟨next, past⟩ := dueAfter_eq_some.mp found
    exact ⟨Nat.lt_of_le_of_lt later (cron.next_later next), past, cron.next_whole next⟩
  · cases due

section Calendar

variable {calendar : Calendar} {earliest now c : Nat}

structure Calendar.Last (calendar : Calendar) (now c : Nat) : Prop where
  tick : calendar.ticks c
  past : c ≤ now
  last : ∀ u, calendar.ticks u → c < u → now < u

theorem Calendar.exists_last {t : Nat} (tick : calendar.ticks t) (past : t ≤ now) :
    ∃ c, calendar.Last now c ∧ t ≤ c := by
  classical
  refine ⟨Nat.findGreatest calendar.ticks now, ⟨Nat.findGreatest_spec past tick, Nat.findGreatest_le now, ?_⟩,
    Nat.le_findGreatest past tick⟩
  intro u ticks after
  by_contra early
  exact Nat.findGreatest_is_greatest after (Nat.not_lt.mp early) ticks

variable (last : calendar.Last now c)
include last

theorem Calendar.Last.dueAfter (before : s < c) (close : c - s ≤ now - c + minute) :
    ∃ t, dueAfter calendar.next now s = some t ∧ s < t ∧ t ≤ c := by
  have reach : ∀ u, calendar.ticks u → c < u → c - s ≤ u - c + minute := by
    intro u ticks after
    have := last.last u ticks after
    omega
  obtain ⟨t, found⟩ := calendar.found s c last.tick before reach
  obtain ⟨-, later, least⟩ := calendar.sound s t found
  have within : t ≤ c := least c last.tick before
  exact ⟨t, dueAfter_eq_some.mpr ⟨found, within.trans last.past⟩, later, within⟩

theorem Calendar.Last.dueAfter_none (after : c ≤ s) :
    Snapshot.dueAfter calendar.next now s = none := by
  cases found : Snapshot.dueAfter calendar.next now s with
  | none => rfl
  | some t =>
    obtain ⟨next, past⟩ := dueAfter_eq_some.mp found
    obtain ⟨tick, later, -⟩ := calendar.sound s t next
    have := last.last t tick (by omega)
    omega

theorem Calendar.Last.windowStart (after : earliest < c) {fuel d : Nat}
    (positive : 0 < d) (short : d ≤ minute ∨ d ≤ 2 * (now - c)) (enough : now - d < fuel) :
    windowStart calendar.next earliest now fuel d < c ∧
      c - windowStart calendar.next earliest now fuel d ≤ now - c + minute := by
  have past := last.past
  induction fuel generalizing d with
  | zero => exact absurd enough (Nat.not_lt_zero _)
  | succ fuel ih =>
    simp only [Snapshot.windowStart]
    split
    · next reached => exact ⟨after, by omega⟩
    · next inside =>
      by_cases wide : now - d < c
      · obtain ⟨t, found, -, -⟩ := last.dueAfter wide (by omega)
        rw [if_pos (by simp [found])]
        exact ⟨wide, by omega⟩
      · rw [if_neg (by simp [last.dueAfter_none (Nat.not_lt.mp wide)])]
        exact ih (by omega) (.inr (by omega)) (by omega)

theorem Calendar.Last.mostRecentDue (after : earliest < c) :
    mostRecentDue calendar.next earliest now = some c := by
  have started : earliest < now := Nat.lt_of_lt_of_le after last.past
  obtain ⟨before, close⟩ := last.windowStart after (by decide) (.inl le_rfl) (Nat.lt_succ_of_le (Nat.sub_le now minute))
  unfold Snapshot.mostRecentDue
  rw [if_pos started]
  have past := last.past
  refine latest_reaches (P := fun t => c - t ≤ now - c + minute) ?_ (last.dueAfter_none le_rfl) close (.inl before) (by omega)
  intro t near early
  obtain ⟨t', found, later, within⟩ := last.dueAfter early near
  exact ⟨t', found, later, within, by omega⟩

omit last

theorem Calendar.mostRecentDue_ticks {t : Nat} (due : mostRecentDue calendar.next earliest now = some t) :
    calendar.ticks t := by
  unfold mostRecentDue at due
  split at due
  · obtain ⟨s, -, found⟩ := latest_step (P := fun _ => True) (fun _ _ _ _ => trivial) trivial (by simp) due
    exact (calendar.sound s t (dueAfter_eq_some.mp found).1).1
  · cases due

theorem Calendar.mostRecentDue_mono {now' t : Nat} (le : now ≤ now')
    (due : mostRecentDue calendar.next earliest now = some t) :
    ∃ t', mostRecentDue calendar.next earliest now' = some t' ∧ t ≤ t' := by
  obtain ⟨after, past, -⟩ := mostRecentDue_some (.spec calendar) due
  obtain ⟨c, last, later⟩ := calendar.exists_last (calendar.mostRecentDue_ticks due) (past.trans le)
  exact ⟨c, last.mostRecentDue (Nat.lt_of_lt_of_le after later), later⟩

end Calendar

theorem second_pos : 0 < second := by decide

theorem minute_pos : 0 < minute := by decide

theorem floor_mono {a b : Nat} (le : a ≤ b) : a - a % second ≤ b - b % second := by
  rw [← Nat.div_mul_self_eq_mod_sub_self, ← Nat.div_mul_self_eq_mod_sub_self]
  exact Nat.mul_le_mul_right _ (Nat.div_le_div_right le)

section Interval

variable {seconds : Nat} {positive : 0 < seconds} {earliest now : Nat}

def lastStep (seconds start now : Nat) : Nat :=
  start - start % second + (now - (start - start % second)) / (seconds * second) * (seconds * second)

theorem every_latest (positive : 0 < seconds) {start : Nat} (past : start ≤ now) :
    latest (Cron.every seconds positive).next now (now + 1) start none =
      if start - start % second + seconds * second ≤ now then some (lastStep seconds start now) else none := by
  have low : start % second < second := Nat.mod_lt _ second_pos
  have long : second ≤ seconds * second := Nat.le_mul_of_pos_left _ positive
  have whole : lastStep seconds start now % second = 0 := by
    rw [lastStep, ← Nat.mul_assoc, Nat.add_mul_mod_self_right]
    exact Nat.sub_mod_eq_zero_of_mod_eq (Nat.mod_mod _ _).symm
  have parts := Nat.div_add_mod' (now - (start - start % second)) (seconds * second)
  have rest := Nat.mod_lt (now - (start - start % second)) (second_pos.trans_le long)
  split
  · next reached =>
    have onward : seconds * second ≤ (now - (start - start % second)) / (seconds * second) * (seconds * second) :=
      Nat.le_mul_of_pos_left _ (Nat.div_pos (by omega) (second_pos.trans_le long))
    have within : start < lastStep seconds start now ∧ lastStep seconds start now ≤ now ∧
        now < lastStep seconds start now + seconds * second := by
      rw [lastStep]
      omega
    refine latest_reaches (P := fun t => ∃ j, lastStep seconds start now = t - t % second + j * (seconds * second)) ?_ ?_
      ⟨_, rfl⟩ (.inl within.1) (by omega)
    · rintro t ⟨j, ahead⟩ early
      have next : (Cron.every seconds positive).next t = some (t - t % second + seconds * second) := rfl
      have small : t % second < second := Nat.mod_lt _ second_pos
      cases j with
      | zero => omega
      | succ i =>
        rw [Nat.succ_mul] at ahead
        refine ⟨_, dueAfter_eq_some.mpr ⟨next, by omega⟩, by omega, by omega, i, ?_⟩
        rw [(Cron.every seconds positive).next_whole next]
        omega
    · simp only [dueAfter, Cron.next, whole, Nat.sub_zero, Option.filter_some]
      rw [if_neg (by simpa using within.2.2)]
  · next short =>
    have nothing : dueAfter (Cron.every seconds positive).next now start = none := by
      simp only [dueAfter, Cron.next, Option.filter_some]
      rw [if_neg (by simpa using short)]
    rw [latest, nothing]

variable {doublings t : Nat}

theorem every_windowStart {wide fuel d : Nat} (reaches : d * 2 ^ doublings = wide)
    (shorter : ∀ i < doublings, d * 2 ^ i < seconds * second) (enough_wide : seconds * second ≤ wide)
    (whole : d % second = 0) (positive_d : 0 < d) (enough : now - d < fuel) :
    windowStart (Cron.every seconds positive).next earliest now fuel d =
      max earliest (now - wide) := by
  induction doublings generalizing d fuel with
  | zero =>
    obtain ⟨fuel, rfl⟩ := Nat.exists_eq_succ_of_ne_zero (by omega : fuel ≠ 0)
    simp only [windowStart]
    split
    · omega
    · have fires : (dueAfter (Cron.every seconds positive).next now (now - d)).isSome := by
        rw [Option.isSome_iff_exists]
        exact ⟨_, dueAfter_eq_some.mpr ⟨rfl, by omega⟩⟩
      rw [if_pos fires]
      omega
  | succ doublings ih =>
    obtain ⟨fuel, rfl⟩ := Nat.exists_eq_succ_of_ne_zero (by omega : fuel ≠ 0)
    have short : d < seconds * second := by simpa using shorter 0 (Nat.succ_pos _)
    have longer : d ≤ wide := reaches ▸ Nat.le_mul_of_pos_right _ (Nat.pow_pos (by decide))
    simp only [windowStart]
    split
    · omega
    · next inside =>
      have nothing : dueAfter (Cron.every seconds positive).next now (now - d) = none := by
        simp only [dueAfter, Cron.next, Option.filter_some]
        rw [if_neg]
        simp only [decide_eq_true_eq, Nat.not_le]
        have low : (now - d) % second < second := Nat.mod_lt _ second_pos
        have gap : d + second ≤ seconds * second := by
          obtain ⟨a, rfl⟩ := Nat.dvd_of_mod_eq_zero whole
          rw [Nat.mul_comm second a] at short ⊢
          rw [← Nat.succ_mul]
          exact Nat.mul_le_mul_right _ (Nat.lt_of_mul_lt_mul_right short)
        omega
      rw [nothing, if_neg (by simp)]
      have doubled : ∀ i, 2 * d * 2 ^ i = d * 2 ^ (i + 1) := fun i => by
        rw [Nat.pow_succ, Nat.mul_comm 2 d, Nat.mul_assoc, Nat.mul_comm 2]
      have still : 2 * d % second = 0 :=
        Nat.mod_eq_zero_of_dvd (Dvd.dvd.mul_left (Nat.dvd_of_mod_eq_zero whole) 2)
      refine ih (doubled doublings ▸ reaches) (fun i small => ?_) still (by omega) (by omega)
      exact doubled i ▸ shorter (i + 1) (Nat.succ_lt_succ small)

theorem every_width (seconds : Nat) : ∃ doublings, seconds * second ≤ minute * 2 ^ doublings ∧
    ∀ i < doublings, minute * 2 ^ i < seconds * second := by
  have some : ∃ k, seconds * second ≤ minute * 2 ^ k := by
    refine ⟨seconds, ?_⟩
    rw [Nat.mul_comm minute]
    exact Nat.mul_le_mul Nat.lt_two_pow_self.le (by decide)
  exact ⟨Nat.find some, Nat.find_spec some, fun i small => Nat.not_le.mp (Nat.find_min some small)⟩

theorem every_mostRecentDue (wide : seconds * second ≤ minute * 2 ^ doublings)
    (shorter : ∀ i < doublings, minute * 2 ^ i < seconds * second) {start : Nat}
    (starts : start = max earliest (now - minute * 2 ^ doublings)) (whole : earliest % second = 0) :
    mostRecentDue (Cron.every seconds positive).next earliest now = some t ↔
      start - start % second + seconds * second ≤ now ∧ t = lastStep seconds start now := by
  have length : 0 < seconds * second := Nat.mul_pos positive second_pos
  unfold mostRecentDue
  split
  · rw [every_windowStart rfl shorter wide (Nat.mul_mod_left _ _) minute_pos (Nat.lt_succ_of_le (Nat.sub_le now minute)),
      ← starts, every_latest positive (by omega)]
    simp [eq_comm]
  · have here : start = earliest := by omega
    rw [here, whole]
    simp only [reduceCtorEq, false_iff]
    omega

theorem every_mostRecentDue_mono {now' : Nat} (whole : earliest % second = 0) (le : now ≤ now')
    (due : mostRecentDue (Cron.every seconds positive).next earliest now = some t) :
    ∃ t', mostRecentDue (Cron.every seconds positive).next earliest now' = some t' ∧ t ≤ t' := by
  obtain ⟨doublings, wide, shorter⟩ := every_width seconds
  have even : minute * 2 ^ doublings % second = 0 := by
    rw [minute, Nat.mul_right_comm, Nat.mul_mod_left]
  obtain ⟨start, starts⟩ : ∃ start, start = max earliest (now - minute * 2 ^ doublings) := ⟨_, rfl⟩
  obtain ⟨start', starts'⟩ : ∃ start, start = max earliest (now' - minute * 2 ^ doublings) := ⟨_, rfl⟩
  obtain ⟨reached, rfl⟩ := (every_mostRecentDue wide shorter starts whole).mp due
  have low : start % second < second := Nat.mod_lt _ second_pos
  have bases := floor_mono (show start ≤ start' by omega)
  have near : start' = earliest → start = earliest := by omega
  refine ⟨_, (every_mostRecentDue wide shorter starts' whole).mpr ⟨?_, rfl⟩, Nat.add_le_add bases (Nat.mul_le_mul_right _ ?_)⟩
  · by_cases here : start' = earliest
    · rw [here, ← near here]
      omega
    · omega
  · by_cases here : start' = earliest
    · rw [here, near here]
      exact Nat.div_le_div_right (Nat.sub_le_sub_right le _)
    -- the later window has its full width, which is whole seconds as the interval is
    · obtain ⟨a, same⟩ := Nat.dvd_of_mod_eq_zero even
      calc (now - (start - start % second)) / (seconds * second)
        _ ≤ (second * a + start % second) / (seconds * second) := Nat.div_le_div_right (by omega)
        _ = second * a / (seconds * second) := by
          rw [Nat.mul_comm seconds, ← Nat.div_div_eq_div_mul, ← Nat.div_div_eq_div_mul, Nat.mul_add_div second_pos,
            Nat.div_eq_of_lt low, Nat.mul_div_right _ second_pos, Nat.add_zero]
        _ ≤ (now' - (start' - start' % second)) / (seconds * second) := Nat.div_le_div_right (by omega)

end Interval

theorem mostRecentDue_mono {cron : Cron} {earliest now now' : Nat} (whole : earliest % second = 0) (le : now ≤ now')
    (due : mostRecentDue cron.next earliest now = some t) :
    ∃ t', mostRecentDue cron.next earliest now' = some t' ∧ t ≤ t' := by
  cases cron with
  | spec calendar => exact Calendar.mostRecentDue_mono le due
  | every seconds positive => exact every_mostRecentDue_mono whole le due

end KubeSwift.Snapshot
