import Mathlib.Data.List.Basic
import PeerFleet.Proofs.Text.Utf8
import PeerFleet.Url.PercentEncoding

/-! # Escapes undone

Undoing the escapes of a text gives its octets, as long as the percent sign itself is escaped.
So different texts have different escaped forms, and what a set escapes occurs in none of them.
-/

namespace PeerFleet.Url

open Text

variable {escaped : EncodeSet} {c d : Char} {cs ds : List Char}

theorem hexValue?_hexDigit {n : ℕ} (h : n < 16) : hexValue? (hexDigit true n) = some n := by
  have hall : ∀ n : Fin 16, hexValue? (hexDigit true n) = some n.val := by decide
  exact hall ⟨n, h⟩

theorem percentDecode_escapeOctet (b : UInt8) (cs : List Char) :
    percentDecode (escapeOctet b ++ cs) = b :: percentDecode cs := by
  have hb : b.toNat < 256 := b.toNat_lt
  have hsum : b.toNat / 16 * 16 + b.toNat % 16 = b.toNat := by omega
  rw [escapeOctet, List.cons_append, List.cons_append, List.cons_append, List.nil_append,
    percentDecode, hexValue?_hexDigit (by omega), hexValue?_hexDigit (by omega)]
  simp only [hsum, UInt8.ofNat_toNat]

theorem percentDecode_escapes (bs : List UInt8) (cs : List Char) :
    percentDecode (bs.flatMap escapeOctet ++ cs) = bs ++ percentDecode cs := by
  induction bs with
  | nil => rfl
  | cons b bs ih =>
    rw [List.flatMap_cons, List.append_assoc, percentDecode_escapeOctet, ih, List.cons_append]

theorem percentDecode_cons (h : c ≠ '%') :
    percentDecode (c :: cs) = String.utf8EncodeChar c ++ percentDecode cs := by
  rw [percentDecode]
  rintro a b rest rfl
  exact absurd rfl h

theorem percentEncode_cons (escaped : EncodeSet) (c : Char) (cs : List Char) :
    percentEncode escaped (c :: cs) = escapeChar escaped c ++ percentEncode escaped cs :=
  List.flatMap_cons

theorem percentDecode_escapeChar (he : escaped '%' = true) (c : Char) (cs : List Char) :
    percentDecode (escapeChar escaped c ++ cs) = String.utf8EncodeChar c ++ percentDecode cs := by
  rw [escapeChar]
  split_ifs with h
  · exact percentDecode_escapes _ _
  · refine percentDecode_cons ?_
    rintro rfl
    exact h (.inr he)

/-- Escapes are undone once, and nothing else is. -/
theorem percentDecode_percentEncode (he : escaped '%' = true) (cs : List Char) :
    percentDecode (percentEncode escaped cs) = Utf8.encode cs := by
  induction cs with
  | nil => rfl
  | cons c cs ih =>
    rw [percentEncode_cons, percentDecode_escapeChar he, ih]
    rfl

theorem percentEncode_injective (he : escaped '%' = true) :
    Function.Injective (percentEncode escaped) := by
  intro cs ds h
  refine Utf8.encode_injective ?_
  rw [← percentDecode_percentEncode he, ← percentDecode_percentEncode he, h]

theorem mem_escapeOctet {b : UInt8} (h : d ∈ escapeOctet b) :
    d = '%' ∨ (hexValue? d).isSome = true := by
  have hb : b.toNat < 256 := b.toNat_lt
  rw [escapeOctet, List.mem_cons, List.mem_cons, List.mem_singleton] at h
  rcases h with rfl | rfl | rfl
  · exact .inl rfl
  · rw [hexValue?_hexDigit (by omega)]
    exact .inr rfl
  · rw [hexValue?_hexDigit (by omega)]
    exact .inr rfl

theorem of_mem_percentEncode (hd : d ≠ '%') (hx : hexValue? d = none)
    (h : d ∈ percentEncode escaped cs) : d ∈ cs ∧ escaped d = false := by
  obtain ⟨c, hmem, hc⟩ := List.mem_flatMap.mp h
  rw [escapeChar] at hc
  split_ifs at hc with hs
  · obtain ⟨b, -, hb⟩ := List.mem_flatMap.mp hc
    rcases mem_escapeOctet hb with rfl | hsome
    · exact absurd rfl hd
    · simp [hx] at hsome
  · obtain rfl := List.mem_singleton.mp hc
    exact ⟨hmem, Bool.eq_false_iff.mpr fun he => hs (.inr he)⟩

theorem not_mem_percentEncode (he : escaped d = true) (hd : d ≠ '%') (hx : hexValue? d = none) :
    d ∉ percentEncode escaped cs := by
  intro h
  have hn := (of_mem_percentEncode hd hx h).2
  rw [he] at hn
  cases hn

theorem mem_percentEncode (hc : c.toNat < 0x80) (he : escaped c = false) (h : c ∈ cs) :
    c ∈ percentEncode escaped cs := by
  refine List.mem_flatMap.mpr ⟨c, h, ?_⟩
  have hn : ¬ (0x80 ≤ c.toNat ∨ escaped c = true) := by simp [he, hc]
  rw [escapeChar, if_neg hn]
  exact List.mem_singleton_self c

theorem mem_percentDecode (hc : c.toNat < 0x80) (hp : c ≠ '%') (hx : hexValue? c = none)
    (h : c ∈ cs) : UInt8.ofNat c.toNat ∈ percentDecode cs := by
  have hself : UInt8.ofNat c.toNat ∈ String.utf8EncodeChar c := by
    have hv : c.val.toNat ≤ 127 := Nat.le_of_lt_succ hc
    simp only [String.utf8EncodeChar, if_pos hv]
    exact List.mem_singleton_self _
  fun_induction percentDecode cs with
  | case1 => cases h
  | case2 a b cs hi lo hb ha ih =>
    have hne (e : Char) {n : ℕ} (he : hexValue? e = some n) : c ≠ e := by
      rintro rfl
      simp [hx] at he
    have hmem : c ∈ cs := by
      simpa [hp, hne a ha, hne b hb] using h
    exact List.mem_cons_of_mem _ (ih hmem)
  | case3 a b cs hno ih =>
    have hmem : c ∈ a :: b :: cs := by simpa [hp] using h
    exact List.mem_append_right _ (ih hmem)
  | case4 a cs hno ih =>
    rcases List.mem_cons.mp h with rfl | h
    · exact List.mem_append_left _ hself
    · exact List.mem_append_right _ (ih h)

end PeerFleet.Url
