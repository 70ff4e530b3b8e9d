import Mathlib.Data.Int.Notation
import Mathlib.Data.Nat.Notation
import PeerFleet.Time.Instant

/-! # The order of instants

An instant has a place on a line of integers on which every second has room for a leap second,
so that instants are compared as their places are. A shift by whole seconds moves the seconds
of an instant and keeps the fraction, and forwards it turns a leap second into a plain one.
-/

namespace PeerFleet.Instant

def place (t : Instant) : ℤ :=
  t.seconds * 2000000000 + t.nanos

section order

variable {a b : Instant}

theorem lt_iff : a < b ↔ a.place < b.place := by
  change a.seconds < b.seconds ∨ (a.seconds = b.seconds ∧ a.nanos < b.nanos) ↔ _
  have ha := a.nanos_lt
  have hb := b.nanos_lt
  unfold place
  omega

theorem le_iff : a ≤ b ↔ a.place ≤ b.place := by
  change a.seconds < b.seconds ∨ (a.seconds = b.seconds ∧ a.nanos ≤ b.nanos) ↔ _
  have ha := a.nanos_lt
  have hb := b.nanos_lt
  unfold place
  omega

theorem not_le : ¬ a ≤ b ↔ b < a := by
  rw [le_iff, lt_iff]
  omega

theorem not_lt : ¬ a < b ↔ b ≤ a := by
  rw [le_iff, lt_iff]
  omega

end order

section shift

variable {t u : Instant} {k : ℤ}

theorem of_ofParts?_eq_some {seconds : ℤ} {nanos : ℕ} (h : ofParts? seconds nanos = some u) :
    u.seconds = seconds ∧ u.nanos = nanos := by
  unfold ofParts? at h
  split at h
  · cases h
    exact ⟨rfl, rfl⟩
  · cases h

theorem ofParts?_self (t : Instant) : ofParts? t.seconds t.nanos = some t :=
  dif_pos ⟨t.nanos_lt, t.leap_last, t.lower, t.upper⟩

theorem shift?_seconds (h : 0 < k ∨ ¬ t.isLeap) :
    t.shift? (k * 1000000000) = ofParts? (t.seconds + k) (t.nanos % 1000000000) := by
  have hlt := t.nanos_lt
  have hdiv : (k * 1000000000).tdiv 1000000000 = k := Int.mul_tdiv_cancel k (by decide)
  have hmod : (k * 1000000000).tmod 1000000000 = 0 := Int.mul_tmod_left k _
  simp only [shift?, hdiv, hmod]
  by_cases hleap : t.isLeap
  · have hk : 0 < k := h.resolve_right (not_not_intro hleap)
    have hnanos : 1000000000 ≤ t.nanos := hleap
    rw [if_pos hleap, if_pos (.inl hk), settle?, if_neg (by omega), if_neg (by omega)]
    congr 1
    omega
  · have hnanos : t.nanos < 1000000000 := Nat.lt_of_not_le hleap
    rw [if_neg hleap, settle?, if_neg (by omega), if_neg (by omega)]
    congr 1
    omega

theorem shiftDays?_eq (t : Instant) (days : ℤ) :
    t.shiftDays? days = t.shift? (days * 86400 * 1000000000) := by
  rw [shiftDays?, nanosPerDay, Int.mul_assoc]
  rfl

theorem shiftDays?_of_not_isLeap (h : ¬ t.isLeap) (days : ℤ) :
    t.shiftDays? days = ofParts? (t.seconds + days * 86400) t.nanos := by
  have hnanos : t.nanos < 1000000000 := Nat.lt_of_not_le h
  rw [shiftDays?_eq, shift?_seconds (.inr h), Nat.mod_eq_of_lt hnanos]

theorem of_shift?_seconds_eq_some (h : t.shift? (k * 1000000000) = some u)
    (hk : 0 < k ∨ ¬ t.isLeap) :
    u.seconds = t.seconds + k ∧ u.nanos = t.nanos % 1000000000 := by
  rw [shift?_seconds hk] at h
  exact of_ofParts?_eq_some h

theorem not_isLeap_of_nanos_eq (h : u.nanos = t.nanos % 1000000000) : ¬ u.isLeap := by
  unfold isLeap
  omega

theorem ofParts?_of_le {seconds : ℤ} {nanos : ℕ} (hn : nanos < 1000000000)
    (hl : -8334601228800 ≤ seconds) (hu : seconds ≤ 8210266876799) :
    ∃ u, ofParts? seconds nanos = some u := by
  unfold ofParts?
  rw [dif_pos ⟨by omega, by omega, hl, hu⟩]
  exact ⟨_, rfl⟩

theorem shift?_zero (t : Instant) : t.shift? 0 = some t := by
  simp only [shift?, Int.zero_tdiv, Int.zero_tmod, Int.add_zero]
  by_cases hleap : t.isLeap
  · have hnanos := t.nanos_lt
    rw [if_pos hleap, if_neg (by omega), if_neg (by decide)]
    exact ofParts?_self t
  · have hnanos : t.nanos < 1000000000 := Nat.lt_of_not_le hleap
    rw [if_neg hleap, settle?, if_neg (by omega), if_neg (by omega)]
    exact ofParts?_self t

/-- An instant can be moved forwards up to the last one. -/
theorem exists_shift?_iff (hk : 0 ≤ k) :
    (∃ u, t.shift? (k * 1000000000) = some u) ↔ t.seconds + k ≤ 8210266876799 := by
  have hl := t.lower
  obtain rfl | hk : k = 0 ∨ 0 < k := by omega
  · rw [Int.zero_mul, shift?_zero, Int.add_zero]
    exact iff_of_true ⟨t, rfl⟩ t.upper
  · rw [shift?_seconds (.inl hk)]
    constructor
    · rintro ⟨u, hu⟩
      rw [← (of_ofParts?_eq_some hu).1]
      exact u.upper
    · exact ofParts?_of_le (Nat.mod_lt _ (by decide)) (by omega)

theorem seconds_of_shift? (hk : 0 ≤ k) (h : t.shift? (k * 1000000000) = some u) :
    u.seconds = t.seconds + k := by
  obtain rfl | hk : k = 0 ∨ 0 < k := by omega
  · rw [Int.zero_mul, shift?_zero] at h
    cases h
    exact (Int.add_zero _).symm
  · exact (of_shift?_seconds_eq_some h (.inl hk)).1

theorem exists_shift?_neg (hk : k < 0) (hl : -8334601228800 ≤ t.seconds + k) :
    ∃ u, t.shift? (k * 1000000000) = some u := by
  have hu := t.upper
  have hlt := t.nanos_lt
  by_cases hleap : t.isLeap
  · have hnanos : 1000000000 ≤ t.nanos := hleap
    have hdiv : (k * 1000000000).tdiv 1000000000 = k := Int.mul_tdiv_cancel k (by decide)
    have hmod : (k * 1000000000).tmod 1000000000 = 0 := Int.mul_tmod_left k _
    simp only [shift?, hdiv, hmod]
    rw [if_pos hleap, if_neg (by omega), if_pos hk, settle?, if_neg (by omega), if_neg (by omega)]
    exact ofParts?_of_le (by omega) (by omega) (by omega)
  · rw [shift?_seconds (.inr hleap)]
    exact ofParts?_of_le (Nat.mod_lt _ (by decide)) hl (by omega)

end shift

end PeerFleet.Instant
