import Mathlib.Data.List.DropRight
import PeerFleet.Proofs.Text.Digits
import PeerFleet.Text.Blank

/-! # Texts without the blanks around them

A text is trimmed down to the part that has blanks alone on both sides and neither begins nor ends
with one.
-/

namespace PeerFleet.Text

variable {cs ds : List Char}

theorem isBlank_eq_false {c : Char} (h : isDigit c = true) : isBlank c = false := by
  simp only [isDigit, Bool.and_eq_true, decide_eq_true_eq] at h
  have h₀ : 48 ≤ c.toNat := h.1
  have h₁ : c.toNat ≤ 57 := h.2
  simp [isBlank, blankRanges]
  omega

theorem trimStart_cons {c : Char} (h : isBlank c = false) : trimStart (c :: cs) = c :: cs :=
  List.dropWhile_cons_of_neg (by simp [h])

/-- What is left of a text without the blanks at its start and at its end. -/
structure Trimmed (cs ds : List Char) : Prop where
  between : ∃ before after, cs = before ++ ds ++ after ∧
    (∀ c ∈ before, isBlank c = true) ∧ ∀ c ∈ after, isBlank c = true
  first : ∀ c ∈ ds.head?, isBlank c = false
  last : ∀ c ∈ ds.getLast?, isBlank c = false

theorem trimmed_trimChars (cs : List Char) : Trimmed cs (trimChars cs) := by
  have hfront : cs.takeWhile isBlank ++ trimStart cs = cs := List.takeWhile_append_dropWhile
  have hback : trimChars cs ++ (trimStart cs).rtakeWhile isBlank = trimStart cs :=
    List.rdropWhile_append_rtakeWhile
  refine ⟨⟨cs.takeWhile isBlank, (trimStart cs).rtakeWhile isBlank, ?_,
    fun c => List.mem_takeWhile_imp, fun c => List.mem_rtakeWhile_imp⟩, fun c hc => ?_,
    fun c hc => ?_⟩
  · rw [List.append_assoc, hback, hfront]
  -- the blanks at the end are cut off behind the first character, which stays the first
  · have hhead : (trimStart cs).head? = some c := by
      rw [← hback, List.head?_append, Option.mem_def.mp hc, Option.some_or]
    have hnot := List.head?_dropWhile_not isBlank cs
    rw [← trimStart, hhead] at hnot
    exact hnot
  · obtain ⟨hne, rfl⟩ := List.mem_getLast?_eq_getLast hc
    exact eq_false_of_ne_true (List.rdropWhile_last_not isBlank (trimStart cs) hne)

theorem trimChars_eq_iff : trimChars cs = ds ↔ Trimmed cs ds := by
  constructor
  · rintro rfl
    exact trimmed_trimChars cs
  · rintro ⟨⟨before, after, rfl, hbefore, hafter⟩, hfirst, hlast⟩
    rw [trimChars, trimStart, List.append_assoc, List.dropWhile_append_of_pos hbefore, trimEnd]
    cases ds with
    | nil => simp [List.dropWhile_eq_nil_iff.mpr hafter]
    | cons d ds =>
      rw [List.cons_append, List.dropWhile_cons_of_neg (by simp [hfirst d rfl]), ← List.cons_append,
        List.reverse_append, List.dropWhile_append_of_pos (by simpa using hafter)]
      have hstay : (d :: ds).rdropWhile isBlank = d :: ds :=
        List.rdropWhile_eq_self_iff.mpr fun hne => by
          simp [hlast _ (List.getLast?_eq_some_getLast hne)]
      exact hstay

end PeerFleet.Text
