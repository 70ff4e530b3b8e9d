import PeerFleet.Proofs.Text.Blank
import PeerFleet.Proofs.Time.Calendar
import PeerFleet.Proofs.Time.Instant
import PeerFleet.Time.Timestamp

/-! # Written instants read again

The timestamp of an instant names that instant, from the first to the last one and with leap
seconds. Every part is written with as many digits as the reader takes at most, or up to a
character that is no digit.
-/

namespace PeerFleet

namespace Timestamp

open Text

variable {rest : List Char}

theorem number?_digits {least most : ℕ} {ds : List Char} (hd : ∀ c ∈ ds, isDigit c = true)
    (hl : least ≤ ds.length)
    (hm : ds.length = most ∨ ds.length ≤ most ∧ ∀ c ∈ rest.head?, isDigit c = false) :
    number? least most (ds ++ rest) = some (decimalValue ds, rest) := by
  have htake : ((ds ++ rest).takeWhile isDigit).take most = ds := by
    rcases hm with hm | ⟨hm, hr⟩
    · rw [List.takeWhile_append_of_pos hd, List.take_left' hm]
    · rw [takeWhile_isDigit hd hr, List.take_of_length_le hm]
  rw [number?, htake, if_neg (by omega), List.drop_left]
  rfl

theorem trimStart_padded (w n : ℕ) :
    trimStart ((padded w n).toList ++ rest) = (padded w n).toList ++ rest := by
  cases h : (padded w n).toList with
  | nil => exact absurd h padded_ne_nil
  | cons c cs =>
    exact trimStart_cons (isBlank_eq_false (isDigit_of_mem_padded (h ▸ List.mem_cons_self)))

theorem number?_padded {least w n : ℕ} (hw : 0 < w) (hl : least ≤ w) (h : n < 10 ^ w) :
    number? least w ((padded w n).toList ++ rest) = some (n, rest) := by
  have hlen := length_padded hw h
  rw [number?_digits (fun c => isDigit_of_mem_padded) (by omega) (.inl hlen), decimalValue_padded]

theorem twoDigits?_padded {n : ℕ} (h : n < 100) :
    twoDigits? ((padded 2 n).toList ++ rest) = some (n, rest) := by
  rw [twoDigits?, trimStart_padded, number?_padded (by decide) (by decide) h]

theorem literal?_cons {c : Char} (h : isBlank c = false) : literal? c (c :: rest) = some rest := by
  rw [literal?, trimStart_cons h]
  exact if_pos rfl

theorem toList_mark_append {mark s : String} {c : Char} (h : mark.toList = [c]) :
    (mark ++ s).toList ++ rest = c :: (s.toList ++ rest) := by
  rw [String.toList_append, h, List.append_assoc]
  rfl

theorem number?_signed {n : ℕ} (h : ∀ c ∈ rest.head?, isDigit c = false) :
    number? 1 ((padded 4 n).toList ++ rest).length ((padded 4 n).toList ++ rest) =
      some (n, rest) := by
  have hpos : 1 ≤ (padded 4 n).toList.length := List.length_pos_iff.mpr padded_ne_nil
  rw [number?_digits (fun c => isDigit_of_mem_padded) hpos
    (.inr ⟨by rw [List.length_append]; omega, h⟩), decimalValue_padded]

theorem year?_minus {n : ℕ} (h : ∀ c ∈ rest.head?, isDigit c = false) :
    year? (("-" ++ padded 4 n).toList ++ rest) = some (-(n : ℤ), rest) := by
  rw [toList_mark_append (c := '-') rfl, year?, trimStart_cons rfl]
  exact congrArg (Option.map _) (number?_signed h)

theorem year?_plus {n : ℕ} (h : ∀ c ∈ rest.head?, isDigit c = false) :
    year? (("+" ++ padded 4 n).toList ++ rest) = some ((n : ℤ), rest) := by
  rw [toList_mark_append (c := '+') rfl, year?, trimStart_cons rfl]
  exact congrArg (Option.map _) (number?_signed h)

theorem year?_digit {c : Char} {cs : List Char} (h : isDigit c = true) :
    year? (c :: cs) = (number? 1 4 (c :: cs)).map fun (n, r) => ((n : ℤ), r) := by
  rw [year?, trimStart_cons (isBlank_eq_false h)]
  split
  all_goals first
    | rfl
    | next hm =>
      cases hm
      cases h

theorem year?_year (y : ℤ) (h : ∀ c ∈ rest.head?, isDigit c = false) :
    year? ((year y).toList ++ rest) = some (y, rest) := by
  unfold year
  split_ifs with hy hneg
  · have hn : number? 1 4 ((padded 4 y.toNat).toList ++ rest) = some (y.toNat, rest) :=
      number?_padded (by decide) (by decide) (by omega)
    cases hp : (padded 4 y.toNat).toList with
    | nil => exact absurd hp padded_ne_nil
    | cons c cs =>
      rw [hp, List.cons_append] at hn
      rw [List.cons_append, year?_digit (isDigit_of_mem_padded (hp ▸ List.mem_cons_self)), hn,
        Option.map_some]
      dsimp only
      rw [Int.toNat_of_nonneg hy.1]
  · have hval : -(y.natAbs : ℤ) = y := by omega
    rw [year?_minus h, hval]
  · have hval : (y.natAbs : ℤ) = y := by omega
    rw [year?_plus h, hval]

theorem fraction?_padded {w n : ℕ} (hw : 0 < w) (hw' : w ≤ 9) (h : n < 10 ^ w)
    (hr : ∀ c ∈ rest.head?, isDigit c = false) :
    fraction? (("." ++ padded w n).toList ++ rest) = some (n * 10 ^ (9 - w), rest) := by
  have hlen := length_padded hw h
  have hn : number? 1 9 ((padded w n).toList ++ rest) = some (n, rest) := by
    rw [number?_digits (fun c => isDigit_of_mem_padded) (by omega) (.inr ⟨by omega, hr⟩),
      decimalValue_padded]
  rw [toList_mark_append (c := '.') rfl, fraction?, hn]
  simp [hlen, dropWhile_not_digit hr]

theorem fraction?_none (h : rest.head? ≠ some '.') : fraction? rest = some (0, rest) := by
  unfold fraction?
  split
  · exact absurd rfl h
  · rfl

theorem fraction?_fraction {nanos : ℕ} (h : nanos < 1000000000)
    (hr : ∀ c ∈ rest.head?, isDigit c = false) (hp : rest.head? ≠ some '.') :
    fraction? ((fraction nanos).toList ++ rest) = some (nanos, rest) := by
  unfold fraction
  split_ifs with h₀ h₁ h₂
  · rw [h₀]
    exact fraction?_none hp
  · rw [fraction?_padded (by decide) (by decide) (by omega) hr]
    simp
    omega
  · rw [fraction?_padded (by decide) (by decide) (by omega) hr]
    simp
    omega
  · rw [fraction?_padded (by decide) (by decide) (by omega) hr]
    simp

theorem separator?_letter : separator? ('T' :: rest) = some rest := rfl

theorem offset?_zone : offset? ('Z' :: rest) = some (0, rest) := by
  rw [offset?, trimStart_cons rfl]
  rfl

variable (t : Instant)

/-- The day and the time of day of an instant, a leap second as the second 60, name it. -/
theorem ofCivil?_parts :
    ofCivil? (Date.ofDays t.day) (t.secondOfDay.toNat / 3600) (t.secondOfDay.toNat % 3600 / 60)
      (t.secondOfDay.toNat % 60 + t.nanos / 1000000000) (t.nanos % 1000000000) 0 = some t := by
  have hn := t.nanos_lt
  have hleap := t.leap_last
  have hl := t.lower
  have hu := t.upper
  obtain ⟨s, hs, hs'⟩ : ∃ s : ℕ, t.secondOfDay = s ∧ s < 86400 := by
    unfold Instant.secondOfDay
    exact ⟨(t.seconds % 86400).toNat, by omega, by omega⟩
  have hsplit : t.seconds = t.day * 86400 + s := by
    rw [← hs, Instant.day, Instant.secondOfDay]
    omega
  have hyear := Date.year_ofDays (by omega : -96465292 ≤ t.day) (by omega)
  have hvalid := Date.valid_ofDays t.day
  rw [hs, Int.toNat_natCast]
  refine Eq.trans ?_ t.ofParts?_self
  unfold ofCivil?
  dsimp only
  rw [if_pos ⟨hvalid, hyear, by omega, by omega, by omega⟩, Date.toDays_ofDays]
  by_cases h : 1000000000 ≤ t.nanos
  · have hsecond : s % 60 + t.nanos / 1000000000 = 60 := by omega
    rw [if_pos hsecond, if_pos hsecond]
    congr 1 <;> omega
  · have hsecond : s % 60 + t.nanos / 1000000000 ≠ 60 := by omega
    rw [if_neg hsecond, if_neg hsecond]
    congr 1 <;> omega

theorem toList_render : t.render.toList =
    (year (Date.ofDays t.day).year).toList ++
      '-' :: ((padded 2 (Date.ofDays t.day).month).toList ++
      '-' :: ((padded 2 (Date.ofDays t.day).day).toList ++
      'T' :: ((padded 2 (t.secondOfDay.toNat / 3600)).toList ++
      ':' :: ((padded 2 (t.secondOfDay.toNat % 3600 / 60)).toList ++
      ':' :: ((padded 2 (t.secondOfDay.toNat % 60 + t.nanos / 1000000000)).toList ++
      ((fraction (t.nanos % 1000000000)).toList ++ ['Z'])))))) := by
  simp [Instant.render, date, time, hourMinute]

end Timestamp

open Timestamp in
theorem Instant.parse_render (t : Instant) : Instant.parse t.render = some t := by
  have hday := Date.valid_ofDays t.day
  simp only [Date.valid, Bool.and_eq_true, decide_eq_true_eq] at hday
  have hlast : Date.daysInMonth (Date.ofDays t.day).year (Date.ofDays t.day).month ≤ 31 := by
    unfold Date.daysInMonth
    split_ifs <;> omega
  have hs : t.secondOfDay.toNat < 86400 := by
    unfold Instant.secondOfDay
    omega
  have hn := t.nanos_lt
  rw [Instant.parse, parseChars, toList_render, year?_year _ (by rintro _ ⟨⟩; rfl)]
  simp only [Option.bind_eq_bind, Option.bind_some]
  rw [literal?_cons rfl, Option.bind_some, twoDigits?_padded (by omega), Option.bind_some,
    literal?_cons rfl, Option.bind_some, twoDigits?_padded (by omega), Option.bind_some,
    separator?_letter, Option.bind_some, twoDigits?_padded (by omega), Option.bind_some,
    literal?_cons rfl, Option.bind_some, twoDigits?_padded (by omega), Option.bind_some,
    literal?_cons rfl, Option.bind_some, twoDigits?_padded (by omega), Option.bind_some,
    fraction?_fraction (by omega) (by rintro _ ⟨⟩; rfl) (by simp), Option.bind_some,
    offset?_zone, Option.bind_some]
  exact (if_pos rfl).trans (ofCivil?_parts t)

end PeerFleet
