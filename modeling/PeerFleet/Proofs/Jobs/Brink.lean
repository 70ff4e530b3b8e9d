import PeerFleet.Proofs.Jobs.Ending
import PeerFleet.Proofs.Jobs.Mailing

/-! # Ended and reminded of

A subscription is over from the instant of its end on, and the window of the threshold of one day
opens at the present instant. The two meet where a subscription ends at this very instant. Inside
a leap second the window opens a second earlier, with the fraction of the second before, and they
meet in all that lies between.
-/

namespace PeerFleet

namespace Reminder

open Fleet Program
open Health (Dispatch dispatch? told)

section window

variable {now e : Instant} {n : UInt32} {w : Instant × Instant}

/-- An instant is the present one or, inside a leap second, comes at most a second before it. -/
def AtHand (now e : Instant) : Prop :=
  e = now ∨ (now.isLeap ∧ e.seconds = now.seconds ∧ now.nanos - 1000000000 ≤ e.nanos ∧
    e.nanos ≤ now.nanos)

theorem atHand_iff : AtHand now e ↔
    e.seconds = now.seconds ∧ now.nanos % 1000000000 ≤ e.nanos ∧ e.nanos ≤ now.nanos := by
  have hlt := now.nanos_lt
  unfold AtHand Instant.isLeap
  constructor
  · rintro (rfl | ⟨hleap, hs, hl, hu⟩)
    · exact ⟨rfl, Nat.mod_le _ _, le_rfl⟩
    · exact ⟨hs, by omega, hu⟩
  · rintro ⟨hs, hl, hu⟩
    by_cases hleap : 1000000000 ≤ now.nanos
    · exact .inr ⟨hleap, hs, by omega, hu⟩
    · have hn : e.nanos = now.nanos := by omega
      cases e
      cases now
      simp only at hs hn
      subst hs hn
      exact .inl rfl

theorem mem_window_and_le_iff (hw : window now n = .ok w) (hn : n ≠ 0) :
    ((w.1 ≤ e ∧ e < w.2) ∧ e ≤ now) ↔ n = 1 ∧ AtHand now e := by
  obtain ⟨first, last⟩ := w
  obtain ⟨⟨hfs, hfn⟩, hls, hln⟩ := of_window_eq_ok hw (.inl hn)
  have hpos := toNat_pos hn
  have hone : n = 1 ↔ n.toNat = 1 := UInt32.toNat_inj.symm
  have hnow := now.nanos_lt
  have he := e.nanos_lt
  -- A window of two days or more opens a day after the present second.
  simp only [Instant.le_iff, Instant.lt_iff, Instant.place, atHand_iff, hone, hfs, hfn, hls, hln]
  constructor
  · rintro ⟨⟨hf, hl⟩, hle⟩
    omega
  · rintro ⟨h1, hs, hl, hu⟩
    omega

theorem ne_zero_of_one_le (h : 1 ≤ n) : n ≠ 0 := by
  rintro rfl
  exact absurd h (by decide)

theorem exists_window_iff (hn : n ≠ 0) :
    (∃ w, window now n = .ok w) ↔ ∃ last, now.shiftDays? n.toNat = some last := by
  have hpos := toNat_pos hn
  have hlower := now.lower
  rw [← inRange_iff]
  constructor
  · rintro ⟨w, hw⟩
    by_contra h
    rw [window_of_not_inRange h] at hw
    cases hw
  · exact exists_window_of_inRange (by omega)

end window

section pass

variable {C : Conditions} {now : Instant} {days : List UInt32} {s : State} {sub : Subscription}

/-- A subscription is over and reminded of, if no window is out of range, exactly if one day is a
threshold and its end is at hand. -/
theorem mem_listExpired_and_matches_iff (hdays : ∀ n ∈ days, 1 ≤ n)
    (hrange : ∀ n ∈ days, ∃ last, now.shiftDays? n.toNat = some last) :
    (sub ∈ s.store.listExpired now ∧ ∃ n ∈ days, Matches s.store now n sub) ↔
      1 ∈ days ∧ s.store.subscription? sub.id = some sub ∧ sub.status = .active ∧
        AtHand now sub.expiresAt := by
  rw [Expiration.mem_listExpired_iff]
  constructor
  · rintro ⟨⟨hs, ha, hle⟩, n, hn, -, -, w, hw, hin⟩
    obtain ⟨rfl, hat⟩ := (mem_window_and_le_iff hw (ne_zero_of_one_le (hdays n hn))).mp ⟨hin, hle⟩
    exact ⟨hn, hs, ha, hat⟩
  · rintro ⟨hone, hs, ha, hat⟩
    have hne : (1 : UInt32) ≠ 0 := by decide
    obtain ⟨w, hw⟩ := (exists_window_iff hne).mpr (hrange 1 hone)
    obtain ⟨hin, hle⟩ := (mem_window_and_le_iff hw hne).mpr ⟨rfl, hat⟩
    exact ⟨⟨hs, ha, hle⟩, 1, hone, hs, ha, w, hw, hin⟩

end pass

/-- What a pass messages, whether or not its windows are in range. A subscription that is already
over is among it exactly if one day is a threshold, no window is out of range and the end of the
subscription is the present instant or, inside a leap second, in the second up to then. -/
theorem expired_and_reminded_iff {C : Conditions}
    (hC : ∀ s a b err, ¬ C.storeFault s (.listExpiring a b) err) {days : List UInt32}
    (hdays : ∀ n ∈ days, 1 ≤ n) (now : Instant) (s : State) :
    (∃ r u, Runs C.surroundings (runAt days now) s r u) ∧
    ∀ r u, Runs C.surroundings (runAt days now) s r u →
      ∃ (attempts : List (UInt32 × Subscription)) (ds : List Dispatch),
        told dispatch? u = told dispatch? s ++ ds ∧ ds.map Sigma.fst = attempts.map call ∧
        (∀ n sub, (n, sub) ∈ attempts ↔
          (∀ m ∈ days, ∃ last, now.shiftDays? m.toNat = some last) ∧ n ∈ days ∧
            Matches s.store now n sub) ∧
        ∀ sub, (sub ∈ s.store.listExpired now ∧ ∃ n, (n, sub) ∈ attempts) ↔
          (∀ m ∈ days, ∃ last, now.shiftDays? m.toNat = some last) ∧ 1 ∈ days ∧
            s.store.subscription? sub.id = some sub ∧ sub.status = .active ∧
            AtHand now sub.expiresAt := by
  by_cases hrange : ∀ n ∈ days, ∃ last, now.shiftDays? n.toNat = some last
  · have hwindows : ∀ n ∈ days, ∃ w, window now n = .ok w := fun n hn =>
      (exists_window_iff (ne_zero_of_one_le (hdays n hn))).mpr (hrange n hn)
    obtain ⟨hruns, hall⟩ := runs_of_surely (runAt_surely (s := s) hC hwindows)
    refine ⟨hruns, fun r u hr => ?_⟩
    obtain ⟨ds, htold, hcalls, rfl⟩ := hall r u hr
    refine ⟨attemptsAt s.store now (thresholds days), ds, htold, hcalls, fun n sub => ?_,
      fun sub => ?_⟩
    · rw [mem_attemptsAt_iff, mem_thresholds_iff, and_iff_right hrange]
    · simp only [mem_attemptsAt_iff, mem_thresholds_iff, and_iff_right hrange]
      exact mem_listExpired_and_matches_iff hdays hrange
  · -- The largest threshold comes first, and with its window the pass breaks off.
    simp only [hrange, false_and, iff_false]
    simp only [not_forall] at hrange
    obtain ⟨n, hn, hout⟩ := hrange
    rw [← inRange_iff] at hout
    obtain ⟨hruns, hall⟩ := runs_of_surely
      (runAt_surely_of_not_inRange (C := C) (s := s) hn hout)
    refine ⟨hruns, fun r u hr => ⟨[], [], ?_⟩⟩
    obtain ⟨-, rfl⟩ := hall r u hr
    simp

def monthUntil (e : Instant) : Subscription where
  id := 1
  userId := 10
  tariff := "month"
  expiresAt := e

def leapSecond : Instant :=
  (Instant.ofParts? 1483228799 1500000000).getD .epoch

def beforeLeapSecond : Instant :=
  (Instant.ofParts? 1483228799 900000000).getD .epoch

theorem reminded_in_leapSecond : (∀ n ∈ ([1] : List UInt32), 1 ≤ n) ∧
    ∃ (sub : Subscription) (attempts : List (UInt32 × Subscription)) (ds : List Dispatch)
      (r : Except String ReminderReport) (u : State),
      sub.expiresAt = beforeLeapSecond ∧ beforeLeapSecond < leapSecond ∧
      Runs calm.surroundings (runAt [1] leapSecond)
        (State.waiting.setStore (storeUntil beforeLeapSecond)) r u ∧
      told dispatch? u = ds ∧ ds.map Sigma.fst = attempts.map call ∧
      sub ∈ (storeUntil beforeLeapSecond).listExpired leapSecond ∧
      ∃ n, (n, sub) ∈ attempts := by
  have hdays : ∀ n ∈ ([1] : List UInt32), 1 ≤ n := List.forall_mem_singleton.mpr (UInt32.le_refl 1)
  have hrange : ∀ n ∈ ([1] : List UInt32), ∃ last, leapSecond.shiftDays? n.toNat = some last := by
    simp only [List.forall_mem_singleton, ← inRange_iff, InRange]
    decide
  have hat : AtHand leapSecond beforeLeapSecond := by
    unfold AtHand
    decide
  obtain ⟨⟨r, u, hr⟩, hall⟩ := expired_and_reminded_iff (C := calm) (fun _ _ _ _ => id) hdays
    leapSecond (State.waiting.setStore (storeUntil beforeLeapSecond))
  obtain ⟨attempts, ds, htold, hcalls, -, hboth⟩ := hall r u hr
  obtain ⟨hexpired, hreminded⟩ := (hboth (monthUntil beforeLeapSecond)).mpr
    ⟨hrange, by decide, rfl, rfl, hat⟩
  exact ⟨hdays, _, attempts, ds, r, u, rfl, by decide, hr, htold, hcalls, hexpired, hreminded⟩

/-- A subscription that ends at the present instant is over, and its owner is told that it is about
to end. -/
theorem exists_expired_and_reminded : ∃ (days : List UInt32) (now : Instant) (s : State)
    (sub : Subscription) (report : ReminderReport) (u : State),
    (∀ n ∈ days, 1 ≤ n) ∧ ¬ now.isLeap ∧ sub.expiredAt now = true ∧
    sub ∈ s.store.listExpired now ∧ s.history = [] ∧
    Runs calm.surroundings (runAt days now) s (.ok report) u ∧
    (told dispatch? u).map Sigma.fst = [.send sub.userId (text sub 1)] := by
  have hdays : ∀ n ∈ ([1] : List UInt32), 1 ≤ n := List.forall_mem_singleton.mpr (UInt32.le_refl 1)
  have hattempts : attemptsAt (storeUntil june) june [1] = [(1, monthUntil june)] := by decide
  have hwindows : ∀ n ∈ ([1] : List UInt32), ∃ w, window june n = .ok w := by
    simp only [List.forall_mem_singleton]
    exact exists_window_of_inRange (by decide) (by unfold InRange; decide)
  obtain ⟨⟨r, u, hr⟩, hall⟩ := runs_of_surely (runAt_surely (C := calm)
    (s := State.waiting.setStore (storeUntil june)) (fun _ _ _ _ => id) hwindows)
  obtain ⟨ds, htold, hcalls, rfl⟩ := hall r u hr
  refine ⟨[1], june, State.waiting.setStore (storeUntil june), monthUntil june, _, u, hdays,
    by decide, by decide, by decide, rfl, hr, ?_⟩
  have hds : told dispatch? u = ds := htold
  have hone : thresholds [1] = [1] := by
    rw [thresholds, List.mergeSort_singleton]
    rfl
  rw [hds, hcalls, hone]
  exact congrArg (List.map call) hattempts

end Reminder

end PeerFleet
