import Mathlib.Algebra.Group.Nat.Defs
import Mathlib.Tactic.SplitIfs
import PeerFleet.Text.Digits

/-! # Numbers in digits

A number is written in decimal digits of which the first is not zero, unless it is the only one
or zeros were added to fill a width, and a run of digits stands for the number that it was written
for.
-/

namespace PeerFleet.Text

/-- The number that decimal digits stand for. -/
def decimalValue (ds : List Char) : ℕ :=
  ds.foldl (fun n c => n * 10 + digitValue c) 0

variable {n w : ℕ} {ds rest : List Char}

theorem decimalValue_eq (ds : List Char) : decimalValue ds = Nat.ofDigitChars 10 ds 0 := by
  rw [Nat.ofDigitChars_eq_foldl]
  unfold decimalValue
  congr 1
  funext n c
  rw [Nat.mul_comm, digitValue]

theorem toList_toString (n : ℕ) : (toString n).toList = Nat.toDigits 10 n := by
  rw [Nat.toString_eq_ofList_toDigits, String.toList_ofList]

theorem toList_toString_int (n : ℤ) : (toString n).toList =
    if 0 ≤ n then Nat.toDigits 10 n.toNat else '-' :: Nat.toDigits 10 (-n).toNat := by
  change n.repr.toList = _
  rw [Int.repr_eq_if]
  split_ifs
  · exact toList_toString _
  · exact (String.toList_append ..).trans (congrArg ('-' :: ·) (toList_toString _))

theorem isDigit_of_mem_toDigits {c : Char} (h : c ∈ Nat.toDigits 10 n) : isDigit c = true :=
  Nat.isDigit_of_mem_toDigits (by decide) (by decide) h

theorem decimalValue_toDigits (n : ℕ) : decimalValue (Nat.toDigits 10 n) = n := by
  rw [decimalValue_eq, Nat.ofDigitChars_ten_toDigits]

theorem head?_toDigits (h : (Nat.toDigits 10 n).head? = some '0') : n = 0 := by
  induction n using Nat.strongRecOn with
  | ind n ih =>
    by_cases hn : n < 10
    · rw [Nat.toDigits_of_lt_base hn] at h
      simpa using h
    · rw [Nat.toDigits_of_base_le (by decide) (by omega)] at h
      cases hl : Nat.toDigits 10 (n / 10) with
      | nil => exact absurd hl Nat.toDigits_ne_nil
      | cons d ds =>
        rw [hl] at h
        have hz := ih (n / 10) (by omega) (by rw [hl]; exact h)
        omega

theorem toDigits_unpadded (n : ℕ) :
    ¬ ((Nat.toDigits 10 n).head? = some '0' ∧ 1 < (Nat.toDigits 10 n).length) := by
  rintro ⟨h, hl⟩
  rw [head?_toDigits h] at hl
  exact absurd hl (by decide)

theorem toString_self (s : String) : toString s = s :=
  rfl

theorem toList_toString_uint32 (n : UInt32) : (toString n).toList = Nat.toDigits 10 n.toNat :=
  toList_toString n.toNat

theorem toList_padded (w n : ℕ) : (padded w n).toList =
    List.replicate (w - (Nat.toDigits 10 n).length) '0' ++ Nat.toDigits 10 n := by
  simp only [padded, toList_toString, String.toList_ofList]

theorem isDigit_of_mem_padded {c : Char} (h : c ∈ (padded w n).toList) : isDigit c = true := by
  rw [toList_padded, List.mem_append] at h
  rcases h with h | h
  · rw [List.eq_of_mem_replicate h]
    rfl
  · exact isDigit_of_mem_toDigits h

theorem decimalValue_padded (w n : ℕ) : decimalValue (padded w n).toList = n := by
  rw [toList_padded, decimalValue_eq, Nat.ofDigitChars_append, Nat.ofDigitChars_replicate_zero,
    Nat.mul_zero, Nat.ofDigitChars_ten_toDigits]

theorem length_padded (hw : 0 < w) (h : n < 10 ^ w) : (padded w n).toList.length = w := by
  have := (Nat.length_toDigits_le_iff (by decide) hw).mpr h
  rw [toList_padded, List.length_append, List.length_replicate]
  omega

theorem padded_ne_nil : (padded w n).toList ≠ [] := by
  rw [toList_padded]
  simp

theorem takeWhile_isDigit (hd : ∀ c ∈ ds, isDigit c = true)
    (hr : ∀ c ∈ rest.head?, isDigit c = false) : (ds ++ rest).takeWhile isDigit = ds := by
  rw [List.takeWhile_append_of_pos hd]
  cases rest with
  | nil => simp
  | cons c rest => simp [hr c rfl]

theorem dropWhile_not_digit (hr : ∀ c ∈ rest.head?, isDigit c = false) :
    rest.dropWhile isDigit = rest := by
  cases rest with
  | nil => rfl
  | cons c rest => simp [hr c rfl]

theorem dropWhile_isDigit (hd : ∀ c ∈ ds, isDigit c = true)
    (hr : ∀ c ∈ rest.head?, isDigit c = false) : (ds ++ rest).dropWhile isDigit = rest := by
  rw [List.dropWhile_append_of_pos hd, dropWhile_not_digit hr]

theorem toDigits_append_inj {m n : ℕ} {xs ys : List Char}
    (hx : ∀ c ∈ xs.head?, isDigit c = false) (hy : ∀ c ∈ ys.head?, isDigit c = false)
    (h : Nat.toDigits 10 m ++ xs = Nat.toDigits 10 n ++ ys) : m = n ∧ xs = ys := by
  have hdigits := congrArg (List.takeWhile isDigit) h
  rw [takeWhile_isDigit (fun _ => isDigit_of_mem_toDigits) hx,
    takeWhile_isDigit (fun _ => isDigit_of_mem_toDigits) hy] at hdigits
  constructor
  · rw [← decimalValue_toDigits m, hdigits, decimalValue_toDigits]
  · rw [hdigits] at h
    exact List.append_cancel_left h

def appendDigit (n : Option ℕ) (c : Char) : Option ℕ := do
  let v ← hexValue? c
  if v < 10 then some ((← n) * 10 + v) else none

theorem digitValue_lt {c : Char} (h : isDigit c = true) : digitValue c < 10 := by
  rw [isDigit, Bool.and_eq_true, decide_eq_true_eq, decide_eq_true_eq] at h
  have hle : c.toNat ≤ '9'.toNat := h.2
  have hzero : '0'.toNat = 48 := rfl
  have hnine : '9'.toNat = 57 := rfl
  rw [digitValue]
  omega

theorem appendDigit_eq_some_iff {o : Option ℕ} {c : Char} :
    appendDigit o c = some n ↔
      ∃ k, o = some k ∧ isDigit c = true ∧ k * 10 + digitValue c = n := by
  have hletter (k : ℕ) : ¬ k + 10 < 10 := by omega
  rw [appendDigit, hexValue?]
  split_ifs with hd ha hA
  · cases o <;> simp [hd, digitValue_lt hd]
  · simp [hd, hletter]
  · simp [hd, hletter]
  · simp [hd]

/-- What is read as a decimal number is a run of digits, at least one, and is their value. -/
theorem natOfDigits?_ten_eq_some_iff : natOfDigits? 10 ds = some n ↔
    ds ≠ [] ∧ (∀ d ∈ ds, isDigit d = true) ∧ decimalValue ds = n := by
  have hfold (ds : List Char) (o : Option ℕ) : ds.foldl appendDigit o = some n ↔
      ∃ k, o = some k ∧ (∀ d ∈ ds, isDigit d = true) ∧
        ds.foldl (fun n c => n * 10 + digitValue c) k = n := by
    induction ds generalizing o with
    | nil => simp
    | cons d ds ih =>
      simp only [List.foldl_cons, ih, appendDigit_eq_some_iff, List.forall_mem_cons]
      constructor
      · rintro ⟨_, ⟨k, rfl, hd, rfl⟩, hds, hn⟩
        exact ⟨k, rfl, ⟨hd, hds⟩, hn⟩
      · rintro ⟨k, rfl, ⟨hd, hds⟩, hn⟩
        exact ⟨_, ⟨k, rfl, hd, rfl⟩, hds, hn⟩
  cases ds with
  | nil => simp [natOfDigits?]
  | cons d ds =>
    refine (hfold (d :: ds) (some 0)).trans ?_
    simp [decimalValue]

end PeerFleet.Text
