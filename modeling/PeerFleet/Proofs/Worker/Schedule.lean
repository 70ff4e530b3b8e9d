import Mathlib.Order.Bounds.Defs
import Mathlib.Tactic.SplitIfs
import PeerFleet.Proofs.Time.Instant
import PeerFleet.Schedule

/-! # Daily runs

A daily schedule runs at the first instant after a given one that shows its time of day, so that
no day is skipped and none is served twice. The runs follow one another at intervals of 24 hours
up to the last instant.
-/

namespace PeerFleet

namespace Instant

/-- The clock shows an hour and a minute, and nothing beyond them. -/
def Shows (t : Instant) (hour minute : UInt32) : Prop :=
  t.secondOfDay / 3600 = hour.toNat ∧ t.secondOfDay % 3600 / 60 = minute.toNat ∧
    t.secondOfDay % 60 = 0 ∧ t.nanos = 0

theorem shift?_difference {a b : Instant} (ha : ¬ a.isLeap) (hb : ¬ b.isLeap)
    (hab : 0 ≤ b.difference a) : a.shift? (b.difference a) = some b := by
  have hna : a.nanos < 1000000000 := Nat.lt_of_not_le ha
  have hnb : b.nanos < 1000000000 := Nat.lt_of_not_le hb
  have hdiff : b.difference a =
      (b.seconds - a.seconds) * 1000000000 + ((b.nanos : ℤ) - a.nanos) := by
    simp [difference, ha, hb]
  rw [hdiff] at hab ⊢
  simp only [shift?, ha, if_false, Int.tdiv_eq_ediv_of_nonneg hab,
    Int.tmod_eq_emod_of_nonneg hab, settle?]
  refine Eq.trans ?_ b.ofParts?_self
  split_ifs
  · omega
  · congr 1 <;> omega
  · congr 1 <;> omega

end Instant

namespace Schedule

/-- A time of day in seconds from midnight. -/
def clockSecond (hour minute : UInt32) : ℤ :=
  hour.toNat * 3600 + minute.toNat * 60

def runSecond (hour minute : UInt32) (now : Instant) : ℤ :=
  now.day * 86400 + clockSecond hour minute +
    if now.secondOfDay < clockSecond hour minute then 0 else 86400

section daily

variable {hour minute : UInt32} {now t u : Instant}

theorem clockSecond_lt (hh : hour ≤ 23) (hm : minute ≤ 59) :
    0 ≤ clockSecond hour minute ∧ clockSecond hour minute < 86400 := by
  have hh : hour.toNat ≤ 23 := UInt32.le_iff_toNat_le.mp hh
  have hm : minute.toNat ≤ 59 := UInt32.le_iff_toNat_le.mp hm
  unfold clockSecond
  omega

theorem shows_iff (hh : hour ≤ 23) (hm : minute ≤ 59) :
    t.Shows hour minute ↔ t.secondOfDay = clockSecond hour minute ∧ t.nanos = 0 := by
  have hh : hour.toNat ≤ 23 := UInt32.le_iff_toNat_le.mp hh
  have hm : minute.toNat ≤ 59 := UInt32.le_iff_toNat_le.mp hm
  unfold Instant.Shows clockSecond
  omega

/-- The run is later, by a day at most, and at its time of day. -/
theorem runSecond_spec (hh : hour ≤ 23) (hm : minute ≤ 59) (now : Instant) :
    now.seconds < runSecond hour minute now ∧
    runSecond hour minute now ≤ now.seconds + 86400 ∧
    runSecond hour minute now % 86400 = clockSecond hour minute := by
  have hclock := clockSecond_lt hh hm
  unfold runSecond Instant.day Instant.secondOfDay
  split_ifs <;> omega

theorem runSecond_le {k : ℤ} (hh : hour ≤ 23) (hm : minute ≤ 59) (hk : now.seconds < k)
    (hclock : k % 86400 = clockSecond hour minute) : runSecond hour minute now ≤ k := by
  have hspec := runSecond_spec hh hm now
  omega

theorem onDayOf?_eq (hh : hour ≤ 23) (hm : minute ≤ 59) (now : Instant) :
    ∃ t, onDayOf? now hour minute = some t ∧
      t.seconds = now.day * 86400 + clockSecond hour minute ∧ t.nanos = 0 := by
  have hclock := clockSecond_lt hh hm
  have hl := now.lower
  have hu := now.upper
  have hrange : -8334601228800 ≤ now.day * 86400 + clockSecond hour minute ∧
      now.day * 86400 + clockSecond hour minute ≤ 8210266876799 := by
    unfold Instant.day
    omega
  obtain ⟨t, ht⟩ := Instant.ofParts?_of_le (Nat.zero_lt_succ _) hrange.1 hrange.2
  obtain ⟨hseconds, hnanos⟩ := Instant.of_ofParts?_eq_some ht
  refine ⟨t, ?_, hseconds, hnanos⟩
  rw [onDayOf?, if_pos ⟨hh, hm⟩, ← ht, clockSecond, ← Int.add_assoc]

theorem nextRunAfter_daily (hh : hour ≤ 23) (hm : minute ≤ 59) (now : Instant) :
    (daily hour minute).nextRunAfter now = Instant.ofParts? (runSecond hour minute now) 0 := by
  obtain ⟨t, ht, hseconds, hnanos⟩ := onDayOf?_eq hh hm now
  have hlt : now < t ↔ now.secondOfDay < clockSecond hour minute := by
    have hn := now.nanos_lt
    rw [Instant.lt_iff, Instant.place, Instant.place, hseconds, hnanos]
    unfold Instant.day Instant.secondOfDay
    omega
  have hleap : ¬ t.isLeap := by
    rw [Instant.isLeap, hnanos]
    decide
  simp only [nextRunAfter, ht, hlt]
  split_ifs with h
  · rw [← t.ofParts?_self, hseconds, hnanos, runSecond, if_pos h, Int.add_zero]
  · rw [Instant.shiftDays?_eq, Instant.shift?_seconds (.inr hleap), hseconds, hnanos, runSecond,
      if_neg h]
    rfl

theorem nextRunAfter_eq_some_iff (hh : hour ≤ 23) (hm : minute ≤ 59) :
    (daily hour minute).nextRunAfter now = some t ↔
      t.seconds = runSecond hour minute now ∧ t.nanos = 0 := by
  rw [nextRunAfter_daily hh hm]
  constructor
  · exact Instant.of_ofParts?_eq_some
  · rintro ⟨hseconds, hnanos⟩
    rw [← hseconds, ← hnanos, t.ofParts?_self]

theorem nextRunAfter_isLeast (hh : hour ≤ 23) (hm : minute ≤ 59)
    (h : (daily hour minute).nextRunAfter now = some t) :
    IsLeast {u | now < u ∧ u.Shows hour minute} t := by
  obtain ⟨hseconds, hnanos⟩ := (nextRunAfter_eq_some_iff hh hm).mp h
  obtain ⟨hlt, -, hclock⟩ := runSecond_spec hh hm now
  constructor
  · refine ⟨?_, (shows_iff hh hm).mpr ⟨?_, hnanos⟩⟩
    · rw [Instant.lt_iff, Instant.place, Instant.place, hseconds, hnanos]
      have hn := now.nanos_lt
      omega
    · rw [Instant.secondOfDay, hseconds, hclock]
  · rintro u ⟨hu, hshows⟩
    obtain ⟨huclock, hunanos⟩ := (shows_iff hh hm).mp hshows
    rw [Instant.lt_iff, Instant.place, Instant.place, hunanos] at hu
    have hle : runSecond hour minute now ≤ u.seconds :=
      runSecond_le hh hm (by omega) huclock
    rw [Instant.le_iff, Instant.place, Instant.place, hseconds, hnanos, hunanos]
    omega

/-- There is a run up to 24 hours later, if there is an instant 24 hours later. -/
theorem exists_nextRunAfter (hh : hour ≤ 23) (hm : minute ≤ 59) (hleap : ¬ now.isLeap)
    (hday : now.shiftDays? 1 = some u) :
    ∃ t, (daily hour minute).nextRunAfter now = some t ∧ t ≤ u := by
  obtain ⟨hlt, hle, -⟩ := runSecond_spec hh hm now
  rw [Instant.shiftDays?_eq] at hday
  obtain ⟨hus, hun⟩ := Instant.of_shift?_seconds_eq_some hday (.inr hleap)
  have hl := now.lower
  have hu := u.upper
  obtain ⟨t, ht⟩ : ∃ t, Instant.ofParts? (runSecond hour minute now) 0 = some t :=
    Instant.ofParts?_of_le (Nat.zero_lt_succ _) (by omega) (by omega)
  refine ⟨t, (nextRunAfter_daily hh hm now).trans ht, ?_⟩
  obtain ⟨hseconds, hnanos⟩ := Instant.of_ofParts?_eq_some ht
  rw [Instant.le_iff, Instant.place, Instant.place, hseconds, hnanos, hus, hun]
  omega

theorem nextRunAfter_mono (hh : hour ≤ 23) (hm : minute ≤ 59) {now' t' : Instant}
    (hle : now ≤ now') (h : (daily hour minute).nextRunAfter now = some t)
    (h' : (daily hour minute).nextRunAfter now' = some t') : t ≤ t' := by
  have hleast := nextRunAfter_isLeast hh hm h
  obtain ⟨hlt, hshows⟩ := (nextRunAfter_isLeast hh hm h').1
  refine hleast.2 ⟨?_, hshows⟩
  rw [Instant.le_iff] at hle
  rw [Instant.lt_iff] at hlt ⊢
  omega

theorem nextRunAfter_of_shows (hh : hour ≤ 23) (hm : minute ≤ 59) (h : t.Shows hour minute) :
    (daily hour minute).nextRunAfter t = t.shiftDays? 1 := by
  obtain ⟨hclock, hnanos⟩ := (shows_iff hh hm).mp h
  have hleap : ¬ t.isLeap := by
    rw [Instant.isLeap, hnanos]
    decide
  have hrun : runSecond hour minute t = t.seconds + 1 * 86400 := by
    rw [runSecond, if_neg (by omega), ← hclock, Instant.day, Instant.secondOfDay]
    omega
  rw [nextRunAfter_daily hh hm, Instant.shiftDays?_eq, Instant.shift?_seconds (.inr hleap), hrun,
    hnanos]

theorem nextDelay_daily (hh : hour ≤ 23) (hm : minute ≤ 59) (hleap : ¬ now.isLeap)
    (h : (daily hour minute).nextRunAfter now = some t) :
    ∃ d, (daily hour minute).nextDelay now = some d ∧ (d.nanos : ℤ) = t.difference now ∧
      now.shift? d.nanos = some t ∧ 0 < d.nanos ∧ (d.nanos : ℤ) ≤ Instant.nanosPerDay := by
  obtain ⟨hseconds, hnanos⟩ := (nextRunAfter_eq_some_iff hh hm).mp h
  obtain ⟨hlt, hle, -⟩ := runSecond_spec hh hm now
  have hn : now.nanos < 1000000000 := Nat.lt_of_not_le hleap
  have hleap' : ¬ t.isLeap := by
    rw [Instant.isLeap, hnanos]
    decide
  have hdiff : t.difference now =
      (t.seconds - now.seconds) * 1000000000 + ((t.nanos : ℤ) - now.nanos) := by
    simp [Instant.difference, hleap, hleap']
  have hpos : 0 < t.difference now ∧ t.difference now ≤ Instant.nanosPerDay := by
    rw [hdiff, Instant.nanosPerDay]
    omega
  have hnonneg : 0 ≤ t.difference now := Int.le_of_lt hpos.1
  have hcast : ((t.elapsed now).nanos : ℤ) = t.difference now := Int.toNat_of_nonneg hnonneg
  refine ⟨t.elapsed now, ?_, hcast, ?_, by omega, by omega⟩
  · rw [nextDelay, h]
    rfl
  · rw [hcast]
    exact Instant.shift?_difference hleap hleap' hnonneg

/-- From an instant that has another one 24 hours later, a daily schedule next runs at the first
later instant that shows its time of day. It waits exactly until then, 24 hours at most, and the
run after that comes 24 hours later if there is such an instant. From a later instant it does not
run earlier. -/
theorem nextRunAfter_daily_least (hh : hour ≤ 23) (hm : minute ≤ 59) (hleap : ¬ now.isLeap)
    (hday : now.shiftDays? 1 = some u) :
    ∃ t, (daily hour minute).nextRunAfter now = some t ∧
      IsLeast {u | now < u ∧ u.Shows hour minute} t ∧ t ≤ u ∧
      (∃ d, (daily hour minute).nextDelay now = some d ∧ (d.nanos : ℤ) = t.difference now ∧
        now.shift? d.nanos = some t ∧ 0 < d.nanos ∧ (d.nanos : ℤ) ≤ Instant.nanosPerDay) ∧
      (∀ now' t', now ≤ now' → (daily hour minute).nextRunAfter now' = some t' → t ≤ t') ∧
      (daily hour minute).nextRunAfter t = t.shiftDays? 1 := by
  obtain ⟨t, ht, hle⟩ := exists_nextRunAfter hh hm hleap hday
  have hleast := nextRunAfter_isLeast hh hm ht
  refine ⟨t, ht, hleast, hle, nextDelay_daily hh hm hleap ht, fun now' t' hnow h' => ?_, ?_⟩
  · exact nextRunAfter_mono hh hm hnow ht h'
  · exact nextRunAfter_of_shows hh hm hleast.1.2

end daily

def yearEnd : Instant :=
  ⟨1798761599, 500000000, by omega, by omega, by omega, by omega⟩

theorem nextRunAfter_yearEnd : (0 : UInt32) ≤ 23 ∧ (5 : UInt32) ≤ 59 ∧ ¬ yearEnd.isLeap ∧
    ∃ u t, yearEnd.shiftDays? 1 = some u ∧ (daily 0 5).nextRunAfter yearEnd = some t ∧
      IsLeast {u | yearEnd < u ∧ u.Shows 0 5} t ∧ t ≤ u ∧
      (daily 0 5).nextDelay yearEnd = some ⟨300500000000⟩ ∧
      (daily 0 5).nextRunAfter t = t.shiftDays? 1 := by
  have hh : (0 : UInt32) ≤ 23 := by decide
  have hm : (5 : UInt32) ≤ 59 := by decide
  have hleap : ¬ yearEnd.isLeap := by decide
  obtain ⟨u, hu⟩ : ∃ u, yearEnd.shiftDays? 1 = some u := ⟨_, rfl⟩
  obtain ⟨t, ht, hleast, hle, -, -, hnext⟩ := nextRunAfter_daily_least hh hm hleap hu
  exact ⟨hh, hm, hleap, u, t, hu, ht, hleast, hle, rfl, hnext⟩

def lastNoonButOne : Instant :=
  (Instant.ofParts? 8210266747200 0).getD .epoch

/-- There is an instant 24 hours later and one more run, but none 24 hours after that run. -/
theorem exists_last_run : ∃ now u t : Instant, ¬ now.isLeap ∧ now.shiftDays? 1 = some u ∧
    (daily 10 0).nextRunAfter now = some t ∧ t.shiftDays? 1 = none ∧
    (daily 10 0).nextRunAfter t = none :=
  ⟨lastNoonButOne, _, _, by decide, rfl, rfl, rfl, rfl⟩

end Schedule

end PeerFleet
