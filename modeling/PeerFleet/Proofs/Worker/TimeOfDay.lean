import PeerFleet.Proofs.Config.Acceptance
import PeerFleet.Proofs.Text.Blank
import PeerFleet.Proofs.Text.Split

/-! # Written times of day

A text is a time of day if it consists of an hour and a minute with a colon between them, and of
blanks around them. The numbers may have a plus sign and any count of zeros in front. Such a text
gives the schedule of that time, and every other text is refused. The numbers are read as a reader
reads them that keeps to 32 bits at every digit.
-/

namespace PeerFleet

namespace Text

variable {cs ds : List Char} {n : ℕ}

/-- Digits, at least one, after a plus sign or without one, and the number that they stand for. -/
inductive Numeral : List Char → ℕ → Prop
  | bare {ds : List Char} (hne : ds ≠ []) (hd : ∀ d ∈ ds, isDigit d = true) :
    Numeral ds (decimalValue ds)
  | plus {ds : List Char} (hne : ds ≠ []) (hd : ∀ d ∈ ds, isDigit d = true) :
    Numeral ('+' :: ds) (decimalValue ds)

def unsigned : List Char → List Char
  | '+' :: ds => ds
  | ds => ds

theorem unsigned_of_ne (h : ∀ ds, cs ≠ '+' :: ds) : unsigned cs = cs := by
  rw [unsigned]
  exact h

theorem unsigned_of_digits (h : ∀ d ∈ ds, isDigit d = true) : unsigned ds = ds := by
  refine unsigned_of_ne ?_
  rintro ds rfl
  exact absurd (h '+' List.mem_cons_self) (by decide)

theorem numeral_iff : Numeral cs n ↔
    unsigned cs ≠ [] ∧ (∀ d ∈ unsigned cs, isDigit d = true) ∧ decimalValue (unsigned cs) = n := by
  constructor
  · rintro (⟨hne, hd⟩ | ⟨hne, hd⟩)
    · rw [unsigned_of_digits hd]
      exact ⟨hne, hd, rfl⟩
    · exact ⟨hne, hd, rfl⟩
  · rintro ⟨hne, hd, rfl⟩
    by_cases hplus : ∃ ds, cs = '+' :: ds
    · obtain ⟨ds, rfl⟩ := hplus
      exact .plus hne hd
    · rw [unsigned_of_ne (not_exists.mp hplus)] at hne hd ⊢
      exact .bare hne hd

theorem natOfSigned?_eq (cs : List Char) : natOfSigned? cs = natOfDigits? 10 (unsigned cs) := by
  unfold natOfSigned?
  split
  next => rfl
  next h => rw [unsigned_of_ne h]

theorem Numeral.isDigit_or_eq (h : Numeral cs n) {c : Char} (hc : c ∈ cs) :
    isDigit c = true ∨ c = '+' := by
  cases h with
  | bare _ hd => exact .inl (hd c hc)
  | plus _ hd => exact (List.mem_cons.mp hc).symm.imp_left (hd c)

theorem Numeral.colon_not_mem (h : Numeral cs n) : ':' ∉ cs := fun hc =>
  absurd (h.isDigit_or_eq hc) (by decide)

end Text

namespace Schedule

open Text

variable {s : String} {cs ds : List Char} {hour minute n m : UInt32}

def fit? (k : ℕ) : Option UInt32 :=
  if k < UInt32.size then some (UInt32.ofNat k) else none

theorem fit?_eq_some_iff {k : ℕ} : fit? k = some n ↔ k = n.toNat := by
  rw [fit?]
  split_ifs with hk
  · rw [Option.some.injEq, ← UInt32.toNat_inj, UInt32.toNat_ofNat_of_lt' hk]
  · refine iff_of_false nofun ?_
    rintro rfl
    exact hk n.toNat_lt_size

theorem number?_eq_some_iff : number? cs = some n ↔ Numeral cs n.toNat := by
  change (natOfSigned? cs).bind fit? = some n ↔ _
  simp only [natOfSigned?_eq, Option.bind_eq_some_iff, natOfDigits?_ten_eq_some_iff,
    fit?_eq_some_iff, exists_eq_right, numeral_iff]

def pushDigit? (n : UInt32) (c : Char) : Option UInt32 := do
  let tens ← fit? (n.toNat * 10)
  if isDigit c then fit? (tens.toNat + digitValue c) else none

/-- A number read digit by digit in 32 bits, and given up at the first digit that leaves them. -/
def boundedNumber? (cs : List Char) : Option UInt32 :=
  match unsigned cs with
  | [] => none
  | ds => ds.foldlM pushDigit? 0

theorem pushDigit?_eq_some_iff {c : Char} : pushDigit? n c = some m ↔
    isDigit c = true ∧ n.toNat * 10 + digitValue c = m.toNat := by
  simp only [pushDigit?, Option.bind_eq_bind, Option.bind_eq_some_iff, fit?_eq_some_iff]
  constructor
  · rintro ⟨tens, htens, h⟩
    split_ifs at h with hc
    rw [fit?_eq_some_iff, ← htens] at h
    exact ⟨hc, h⟩
  · rintro ⟨hc, h⟩
    have hlt : n.toNat * 10 < UInt32.size := Nat.lt_of_le_of_lt (by omega) m.toNat_lt_size
    have htens := UInt32.toNat_ofNat_of_lt' hlt
    refine ⟨UInt32.ofNat (n.toNat * 10), htens.symm, ?_⟩
    rw [if_pos hc, fit?_eq_some_iff, htens]
    exact h

theorem le_foldl_digits (k : ℕ) (ds : List Char) :
    k ≤ ds.foldl (fun n c => n * 10 + digitValue c) k := by
  induction ds generalizing k with
  | nil => exact Nat.le_refl k
  | cons d ds ih => exact Nat.le_trans (by omega) (ih (k * 10 + digitValue d))

/-- A number that has room in the end has room at each of its digits. -/
theorem foldlM_pushDigit?_eq_some_iff : ds.foldlM pushDigit? n = some m ↔
    (∀ d ∈ ds, isDigit d = true) ∧
      ds.foldl (fun n c => n * 10 + digitValue c) n.toNat = m.toNat := by
  induction ds generalizing n with
  | nil => simp [UInt32.toNat_inj]
  | cons d ds ih =>
    simp only [List.foldlM_cons, Option.bind_eq_bind, Option.bind_eq_some_iff,
      pushDigit?_eq_some_iff, ih, List.forall_mem_cons, List.foldl_cons]
    constructor
    · rintro ⟨k, ⟨hd, hk⟩, hds, hm⟩
      exact ⟨⟨hd, hds⟩, hk ▸ hm⟩
    · rintro ⟨⟨hd, hds⟩, hm⟩
      -- the whole number bounds every number on the way to it
      have hlt : n.toNat * 10 + digitValue d < UInt32.size :=
        Nat.lt_of_le_of_lt (hm ▸ le_foldl_digits _ ds) m.toNat_lt_size
      have hk := UInt32.toNat_ofNat_of_lt' hlt
      refine ⟨_, ⟨hd, hk.symm⟩, hds, ?_⟩
      rw [hk]
      exact hm

theorem boundedNumber?_eq_some_iff : boundedNumber? cs = some n ↔ Numeral cs n.toNat := by
  rw [numeral_iff, boundedNumber?]
  cases unsigned cs with
  | nil => simp
  | cons d ds =>
    refine foldlM_pushDigit?_eq_some_iff.trans ?_
    simp [decimalValue]

theorem number?_eq_boundedNumber? (cs : List Char) : number? cs = boundedNumber? cs :=
  Option.ext fun _ => number?_eq_some_iff.trans boundedNumber?_eq_some_iff.symm

/-- A text that is, without the blanks around it, an hour up to 23 and a minute up to 59 with a colon
between them. -/
def Tells (s : String) (hour minute : ℕ) : Prop :=
  ∃ a b, Trimmed s.toList (a ++ ':' :: b) ∧ Numeral a hour ∧ Numeral b minute ∧
    hour ≤ 23 ∧ minute ≤ 59

theorem clock?_eq_some_iff : clock? s = some (hour, minute) ↔
    ∃ a b, Trimmed s.toList (a ++ ':' :: b) ∧ Numeral a hour.toNat ∧ Numeral b minute.toNat := by
  simp only [clock?, Option.bind_eq_bind, Option.bind_eq_some_iff, Prod.exists,
    splitFirst_eq_some_iff, Option.some.injEq, Prod.mk.injEq, number?_eq_some_iff,
    trimChars_eq_iff]
  constructor
  · rintro ⟨a, b, ⟨hs, -⟩, h, ha, m, hb, rfl, rfl⟩
    exact ⟨a, b, hs, ha, hb⟩
  · rintro ⟨a, b, hs, ha, hb⟩
    exact ⟨a, b, ⟨hs, ha.colon_not_mem⟩, hour, ha, minute, hb, rfl, rfl⟩

theorem tells_iff : Tells s hour.toNat minute.toNat ↔
    clock? s = some (hour, minute) ∧ ¬ (hour > 23 ∨ minute > 59) := by
  have hrange : ¬ (hour > 23 ∨ minute > 59) ↔ hour.toNat ≤ 23 ∧ minute.toNat ≤ 59 := by
    simp only [not_or, gt_iff_lt, UInt32.not_lt, UInt32.le_iff_toNat_le, UInt32.reduceToNat]
  rw [clock?_eq_some_iff, hrange, Tells]
  constructor
  · rintro ⟨a, b, hs, ha, hb, hr⟩
    exact ⟨⟨a, b, hs, ha, hb⟩, hr⟩
  · rintro ⟨⟨a, b, hs, ha, hb⟩, hr⟩
    exact ⟨a, b, hs, ha, hb, hr⟩

theorem Tells.exists_uint32 {h m : ℕ} (ht : Tells s h m) :
    ∃ hour minute : UInt32, hour.toNat = h ∧ minute.toNat = m := by
  obtain ⟨_, _, -, -, -, hh, hm⟩ := ht
  have hsize : UInt32.size = 2 ^ 32 := rfl
  exact ⟨.ofNat h, .ofNat m, UInt32.toNat_ofNat_of_lt' (by omega),
    UInt32.toNat_ofNat_of_lt' (by omega)⟩

theorem parseDaily_of_tells (h : Tells s hour.toNat minute.toNat) :
    parseDaily s = .ok (daily hour minute) := by
  obtain ⟨hclock, hrange⟩ := tells_iff.mp h
  simp only [parseDaily, hclock, validate, if_neg hrange]
  rfl

theorem parseDaily_of_not_tells (h : ∀ hour minute, ¬ Tells s hour minute) :
    ∃ reason, parseDaily s = .error (.invalidSchedule reason) := by
  cases hclock : clock? s with
  | none => exact ⟨_, by rw [parseDaily, hclock]⟩
  | some time =>
    obtain ⟨hour, minute⟩ := time
    have hrange : hour > 23 ∨ minute > 59 := by
      by_contra hr
      exact h _ _ (tells_iff.mpr ⟨hclock, hr⟩)
    refine ⟨s!"{padded 2 hour.toNat}:{padded 2 minute.toNat} is not a time of day", ?_⟩
    simp only [parseDaily, hclock, validate, if_pos hrange]
    rfl

theorem parseDaily_eq_ok_iff {schedule : Schedule} : parseDaily s = .ok schedule ↔
    ∃ hour minute : UInt32, Tells s hour.toNat minute.toNat ∧ schedule = daily hour minute := by
  constructor
  · intro h
    by_cases ht : ∃ hour minute, Tells s hour minute
    · obtain ⟨_, _, ht⟩ := ht
      obtain ⟨hour, minute, rfl, rfl⟩ := ht.exists_uint32
      rw [parseDaily_of_tells ht, Except.ok.injEq] at h
      exact ⟨hour, minute, ht, h.symm⟩
    · simp only [not_exists] at ht
      obtain ⟨reason, herr⟩ := parseDaily_of_not_tells ht
      cases herr.symm.trans h
  · rintro ⟨hour, minute, ht, rfl⟩
    exact parseDaily_of_tells ht

/-- A time of day is accepted as the schedule of that time, and every other text is refused. No
schedule that is read is invalid, and no digit of any text overflows. -/
theorem parseDaily_exact (s : String) :
    (∀ schedule, parseDaily s = .ok schedule ↔
      ∃ hour minute : UInt32, Tells s hour.toNat minute.toNat ∧ schedule = daily hour minute) ∧
    ((∀ hour minute, ¬ Tells s hour minute) →
      ∃ reason, parseDaily s = .error (.invalidSchedule reason)) ∧
    (∀ schedule, parseDaily s = .ok schedule → schedule.validate = .ok ()) ∧
    ∀ cs, number? cs = boundedNumber? cs :=
  ⟨fun _ => parseDaily_eq_ok_iff, parseDaily_of_not_tells, fun _ => validate_of_parseDaily,
    number?_eq_boundedNumber?⟩

theorem parseDaily_exact_plus_sign : parseDaily "\u3000+007:59\n" = .ok (daily 7 59) := by
  have htrim : Trimmed "\u3000+007:59\n".toList (['+', '0', '0', '7'] ++ ':' :: ['5', '9']) := {
    between := ⟨['\u3000'], ['\n'], rfl, List.all_eq_true.mp rfl, List.all_eq_true.mp rfl⟩
    first := by
      rintro _ ⟨⟩
      rfl
    last := by
      rintro _ ⟨⟩
      rfl }
  have hhour : Numeral ['+', '0', '0', '7'] 7 := .plus (by simp) (List.all_eq_true.mp rfl)
  have hminute : Numeral ['5', '9'] 59 := .bare (by simp) (List.all_eq_true.mp rfl)
  exact ((parseDaily_exact "\u3000+007:59\n").1 _).mpr
    ⟨7, 59, ⟨_, _, htrim, hhour, hminute, by decide, by decide⟩, rfl⟩

end Schedule

end PeerFleet
