import Mathlib.Data.Int.Notation
import Mathlib.Tactic.Common
import PeerFleet.Json.Parser
import PeerFleet.Json.Printer
import PeerFleet.Proofs.Text.Digits
import PeerFleet.Proofs.Text.Utf8

/-! # Written JSON read again

The reader takes the text of a value for that value and leaves what follows it. Every written
character is a unit of its own, every written number ends where its digits end, and the fuel of
the reader, two for each character, outlasts the text.
-/

namespace PeerFleet.Json

open Text

/-- A value whose numbers are all integers, with nothing broken in it. -/
inductive Sound : Json → Prop
  | null : Sound .null
  | bool (b : Bool) : Sound (.bool b)
  | integer (n : ℤ) : Sound (.integer n)
  | string (s : String) : Sound (.string s)
  | array {items : List Json} : (∀ j ∈ items, Sound j) → Sound (.array items)
  | object {members : List (String × Json)} : (∀ m ∈ members, Sound m.2) → Sound (.object members)

/-- What may follow a value inside a text: nothing, or a mark of an array or an object. -/
def Follows (rest : List Char) : Prop :=
  ∀ c ∈ rest.head?, c = ',' ∨ c = ']' ∨ c = '\x7d'

variable {fuel : ℕ} {rest : List Char}

theorem natOfDigits?_hexDigit {n : ℕ} (h : n < 32) :
    natOfDigits? 16 ['0', '0', hexDigit false (n / 16), hexDigit false (n % 16)] = some n := by
  revert n
  decide

theorem eq_of_toNat_eq {c : Char} {n : ℕ} (h : c.toNat = n) : c = Char.ofNat n := by
  rw [← h, Char.ofNat_toNat]

theorem units?_escape {u : Unit16} {cs : List Char} (h : escape? cs = some (u, rest)) :
    units? (fuel + 1) ('\\' :: cs) =
      (units? fuel rest).map fun (us, rest) => (u :: us, rest) := by
  rw [units?, h]
  cases hu : units? fuel rest <;> simp [hu]

theorem units?_escapeChar (c : Char) :
    units? (fuel + 1) (escapeChar c ++ rest) =
      (units? fuel rest).map fun (us, rest) => (.char c :: us, rest) := by
  unfold escapeChar
  split_ifs with hq hs hn hr ht hb hf hc
  · subst hq
    exact units?_escape rfl
  · subst hs
    exact units?_escape rfl
  · subst hn
    exact units?_escape rfl
  · subst hr
    exact units?_escape rfl
  · subst ht
    exact units?_escape rfl
  · rw [eq_of_toNat_eq hb]
    exact units?_escape rfl
  · rw [eq_of_toNat_eq hf]
    exact units?_escape rfl
  · have hu : ¬ (0xD800 ≤ c.toNat ∧ c.toNat < 0xE000) := by omega
    exact units?_escape (by simp [escape?, hex4?, natOfDigits?_hexDigit hc, hu])
  · simp [units?, hc]

theorem units?_flatMap {cs : List Char} (h : cs.length < fuel) :
    units? fuel (cs.flatMap escapeChar ++ '"' :: rest) = some (cs.map .char, rest) := by
  induction cs generalizing fuel with
  | nil =>
    obtain ⟨fuel, rfl⟩ := Nat.exists_eq_add_of_lt h
    simp [units?]
  | cons c cs ih =>
    obtain ⟨fuel, rfl⟩ := Nat.exists_eq_add_one_of_ne_zero (show fuel ≠ 0 by omega)
    rw [List.flatMap_cons, List.append_assoc, units?_escapeChar, ih (by simpa using h)]
    rfl

theorem denote?_map_char (cs : List Char) : denote? (cs.map .char) = some cs := by
  induction cs with
  | nil => rfl
  | cons c cs ih => simp [denote?, ih]

theorem length_le_flatMap (cs : List Char) : cs.length ≤ (cs.flatMap escapeChar).length := by
  induction cs with
  | nil => exact Nat.zero_le 0
  | cons c cs ih =>
    have hpos : 0 < (escapeChar c).length := by
      unfold escapeChar
      split_ifs <;> exact Nat.succ_pos _
    rw [List.flatMap_cons, List.length_append, List.length_cons]
    omega

theorem string?_quoted (s : String) :
    string? (s.toList.flatMap escapeChar ++ '"' :: rest) = some (some s, rest) := by
  have hl := length_le_flatMap s.toList
  rw [string?, units?_flatMap (by rw [List.length_append, List.length_cons]; omega)]
  simp [denote?_map_char]

theorem digits?_toDigits {n : ℕ} (h : ∀ c ∈ rest.head?, isDigit c = false) :
    digits? (Nat.toDigits 10 n ++ rest) = some (Nat.toDigits 10 n, rest) := by
  have hd : ∀ c ∈ Nat.toDigits 10 n, isDigit c = true := fun c => isDigit_of_mem_toDigits
  rw [digits?, takeWhile_isDigit hd h, dropWhile_isDigit hd h]
  cases hn : Nat.toDigits 10 n with
  | nil => exact absurd hn Nat.toDigits_ne_nil
  | cons => rfl

theorem Follows.not_digit (h : Follows rest) : ∀ c ∈ rest.head?, isDigit c = false := by
  intro c hc
  rcases h c hc with rfl | rfl | rfl <;> rfl

theorem Follows.fraction? (h : Follows rest) : Json.fraction? rest = some ([], rest) := by
  cases rest with
  | nil => rfl
  | cons c rest => rcases h c rfl with rfl | rfl | rfl <;> rfl

theorem Follows.exponent? (h : Follows rest) : Json.exponent? rest = some ([], rest) := by
  cases rest with
  | nil => rfl
  | cons c rest => rcases h c rfl with rfl | rfl | rfl <;> rfl

theorem whole?_toDigits {n : ℕ} (h : Follows rest) :
    whole? (Nat.toDigits 10 n ++ rest) = some (Nat.toDigits 10 n, rest) := by
  rw [whole?, digits?_toDigits h.not_digit]
  exact if_neg (toDigits_unpadded n)

theorem exists_toDigits (n : ℕ) : ∃ d ds, Nat.toDigits 10 n = d :: ds ∧ isDigit d = true := by
  cases h : Nat.toDigits 10 n with
  | nil => exact absurd h Nat.toDigits_ne_nil
  | cons d ds => exact ⟨d, ds, rfl, isDigit_of_mem_toDigits (h ▸ List.mem_cons_self)⟩

theorem number?_toDigits {n : ℕ} (h : Follows rest) :
    number? (Nat.toDigits 10 n ++ rest) = some (.integer n, rest) := by
  have hv : (Nat.toDigits 10 n).foldl (fun n c => n * 10 + digitValue c) 0 = n :=
    decimalValue_toDigits n
  have hw := whole?_toDigits (n := n) h
  obtain ⟨d, ds, hds, hd⟩ := exists_toDigits n
  have hne : d ≠ '-' := by
    rintro rfl
    cases hd
  rw [hds] at hv hw ⊢
  rw [List.cons_append] at hw ⊢
  simp [number?, hne, hw, h.fraction?, h.exponent?, hv]

theorem number?_neg_toDigits {n : ℕ} (hn : n ≠ 0) (h : Follows rest) :
    number? ('-' :: (Nat.toDigits 10 n ++ rest)) = some (.integer (-n), rest) := by
  have hv : (Nat.toDigits 10 n).foldl (fun n c => n * 10 + digitValue c) 0 = n :=
    decimalValue_toDigits n
  simp [number?, whole?_toDigits h, h.fraction?, h.exponent?, hv, hn]

theorem number?_toString (n : ℤ) (h : Follows rest) :
    number? ((toString n).toList ++ rest) = some (.integer n, rest) := by
  rw [toList_toString_int]
  split_ifs with hn
  · rw [number?_toDigits h, Int.toNat_of_nonneg hn]
  · rw [List.cons_append, number?_neg_toDigits (by omega) h]
    congr 3
    omega

/-- A value is read from its text, whatever may follow it. -/
def Reads (j : Json) : Prop :=
  ∀ fuel rest, Follows rest → 2 * (chars j).length ≤ fuel →
    value? fuel (chars j ++ rest) = some (j, rest)

theorem skipSpace_cons {c : Char} {cs : List Char} (h : isSpace c = false) :
    skipSpace (c :: cs) = c :: cs :=
  List.dropWhile_cons_of_neg (by simp [h])

theorem not_isSpace {c : Char} (hc : isDigit c = true ∨ c = '-') : isSpace c = false := by
  by_contra hs
  simp only [isSpace, Bool.not_eq_false, Bool.or_eq_true, decide_eq_true_eq] at hs
  rcases hs with ((rfl | rfl) | rfl) | rfl <;> exact absurd hc (by decide)

theorem Sound.exists_chars {j : Json} (h : Sound j) :
    ∃ c cs, chars j = c :: cs ∧ isSpace c = false ∧ c ≠ ']' := by
  cases h with
  | null => exact ⟨_, _, rfl, rfl, by decide⟩
  | bool b => cases b <;> exact ⟨_, _, rfl, rfl, by decide⟩
  | integer n =>
    rw [chars, toList_toString_int]
    split_ifs
    · obtain ⟨d, ds, hds, hd⟩ := exists_toDigits n.toNat
      refine ⟨d, ds, hds, not_isSpace (.inl hd), ?_⟩
      rintro rfl
      cases hd
    · exact ⟨'-', _, rfl, rfl, by decide⟩
  | string s => exact ⟨_, _, rfl, rfl, by decide⟩
  | array | object => exact ⟨_, _, by rw [chars], rfl, by decide⟩

/-- The text of a value is not empty, so that there is fuel to begin with it. -/
theorem reads_of_succ {j : Json} (hs : Sound j) (h : ∀ fuel rest, Follows rest →
    2 * (chars j).length ≤ fuel + 1 → value? (fuel + 1) (chars j ++ rest) = some (j, rest)) :
    Reads j := by
  intro fuel rest hr hf
  obtain ⟨c, cs, hcs, -⟩ := hs.exists_chars
  cases fuel with
  | zero => simp [hcs] at hf
  | succ fuel => exact h fuel rest hr hf

theorem value?_of_number {c : Char} {cs : List Char} {j : Json}
    (hc : isDigit c = true ∨ c = '-') (h : number? (c :: cs) = some (j, rest)) :
    value? (fuel + 1) (c :: cs) = some (j, rest) := by
  rw [value?, skipSpace_cons (not_isSpace hc)]
  split
  all_goals first
    | exact h
    | next hm => cases hm <;> exact absurd hc (by decide)

theorem reads_integer (n : ℤ) : Reads (.integer n) := by
  refine reads_of_succ (.integer n) fun fuel rest hr _ => ?_
  have hn := number?_toString n hr
  obtain ⟨c, cs, hcs, hc⟩ :
      ∃ c cs, (toString n).toList = c :: cs ∧ (isDigit c = true ∨ c = '-') := by
    rw [toList_toString_int]
    split_ifs
    · obtain ⟨d, ds, hds, hd⟩ := exists_toDigits n.toNat
      exact ⟨d, ds, hds, .inl hd⟩
    · exact ⟨'-', _, rfl, .inr rfl⟩
  rw [hcs] at hn
  rw [chars, hcs]
  exact value?_of_number hc hn

theorem reads_string (s : String) : Reads (.string s) := by
  refine reads_of_succ (.string s) fun fuel rest _ _ => ?_
  rw [chars, quote, List.cons_append, List.append_assoc, value?, skipSpace_cons rfl]
  change Option.map _ (string? (s.toList.flatMap escapeChar ++ '"' :: rest)) = _
  rw [string?_quoted]
  rfl

theorem elements?_commas {items : List Json} (hne : items ≠ [])
    (hr : ∀ j ∈ items, Reads j) (hf : 2 * (commas (itemChars items)).length + 1 ≤ fuel) :
    elements? fuel (commas (itemChars items) ++ ']' :: rest) = some (items, rest) := by
  induction items generalizing fuel with
  | nil => exact absurd rfl hne
  | cons j items ih =>
    obtain ⟨fuel, rfl⟩ := Nat.exists_eq_add_one_of_ne_zero (show fuel ≠ 0 by omega)
    obtain ⟨hj, hr⟩ := List.forall_mem_cons.mp hr
    cases items with
    | nil =>
      have hv := hj fuel (']' :: rest) (by simp [Follows])
        (by simp [itemChars, commas] at hf; omega)
      rw [itemChars, itemChars, commas, elements?, hv]
      rfl
    | cons k items =>
      rw [itemChars, itemChars, commas, List.length_append, List.length_cons, ← itemChars] at hf
      have hv := hj fuel (',' :: (commas (itemChars (k :: items)) ++ ']' :: rest))
        (by simp [Follows]) (by omega)
      rw [itemChars, itemChars, commas, List.append_assoc, List.cons_append, ← itemChars, elements?,
        hv]
      change Option.map _ (elements? fuel (commas (itemChars (k :: items)) ++ ']' :: rest)) = _
      rw [ih (by simp) hr (by omega)]
      rfl

theorem value?_open_array {c : Char} {cs : List Char} (hs : isSpace c = false) (hc : c ≠ ']') :
    value? (fuel + 1) ('[' :: c :: cs) =
      (elements? fuel (c :: cs)).map fun (items, rest) => (.array items, rest) := by
  rw [value?, skipSpace_cons rfl]
  simp only [skipSpace_cons hs]
  split
  next hm =>
    cases hm
    exact absurd rfl hc
  next => rfl

theorem reads_array {items : List Json} (hs : ∀ j ∈ items, Sound j) (hr : ∀ j ∈ items, Reads j) :
    Reads (.array items) := by
  refine reads_of_succ (.array hs) fun fuel rest _ hf => ?_
  rw [chars, List.length_cons, List.length_append, List.length_singleton] at hf
  rw [chars, List.cons_append, List.append_assoc]
  cases items with
  | nil => rfl
  | cons j items =>
    have he : elements? fuel (commas (itemChars (j :: items)) ++ ']' :: rest) =
        some (j :: items, rest) := elements?_commas (by simp) hr (by omega)
    obtain ⟨c, cs, hcs, hspace, hend⟩ := (hs j List.mem_cons_self).exists_chars
    obtain ⟨ds, hds⟩ : ∃ ds, commas (itemChars (j :: items)) = c :: ds := by
      cases items with
      | nil => exact ⟨cs, by rw [itemChars, itemChars, commas, hcs]⟩
      | cons => exact ⟨_, by rw [itemChars, itemChars, commas, hcs]; rfl⟩
    rw [hds, List.cons_append] at he ⊢
    exact (value?_open_array hspace hend).trans (congrArg (Option.map _) he)

theorem members?_last {name : String} {j : Json}
    (hj : value? fuel (chars j ++ '\x7d' :: rest) = some (j, '\x7d' :: rest)) :
    members? (fuel + 1) (quote name ++ ':' :: (chars j ++ '\x7d' :: rest)) =
      some ([(some name, j)], rest) := by
  simp only [quote, List.cons_append, List.append_assoc, List.nil_append, members?,
    skipSpace_cons (c := '"') rfl, string?_quoted, skipSpace_cons (c := ':') rfl, hj,
    skipSpace_cons (c := '\x7d') rfl]

theorem members?_next {name : String} {j : Json}
    (hj : value? fuel (chars j ++ ',' :: rest) = some (j, ',' :: rest)) :
    members? (fuel + 1) (quote name ++ ':' :: (chars j ++ ',' :: rest)) =
      (members? fuel rest).map fun (ms, rest) => ((some name, j) :: ms, rest) := by
  simp only [quote, List.cons_append, List.append_assoc, List.nil_append, members?,
    skipSpace_cons (c := '"') rfl, string?_quoted, skipSpace_cons (c := ':') rfl, hj,
    skipSpace_cons (c := ',') rfl]

theorem members?_commas {members : List (String × Json)} (hne : members ≠ [])
    (hr : ∀ m ∈ members, Reads m.2) (hf : 2 * (commas (memberChars members)).length + 1 ≤ fuel) :
    members? fuel (commas (memberChars members) ++ '\x7d' :: rest) =
      some (members.map fun m => (some m.1, m.2), rest) := by
  induction members generalizing fuel with
  | nil => exact absurd rfl hne
  | cons m members ih =>
    obtain ⟨name, j⟩ := m
    obtain ⟨fuel, rfl⟩ := Nat.exists_eq_add_one_of_ne_zero (show fuel ≠ 0 by omega)
    obtain ⟨hj, hr⟩ := List.forall_mem_cons.mp hr
    cases members with
    | nil =>
      rw [memberChars, memberChars, commas, List.length_append, List.length_cons] at hf
      have hv := hj fuel ('\x7d' :: rest) (by simp [Follows]) (by dsimp only; omega)
      rw [memberChars, memberChars, commas, List.append_assoc, List.cons_append,
        members?_last hv]
      rfl
    | cons k members =>
      obtain ⟨key, k⟩ := k
      rw [memberChars, memberChars, commas, List.length_append, List.length_append,
        List.length_cons, List.length_cons, ← memberChars] at hf
      have hv := hj fuel (',' :: (commas (memberChars ((key, k) :: members)) ++ '\x7d' :: rest))
        (by simp [Follows]) (by dsimp only; omega)
      rw [memberChars, memberChars, commas, List.append_assoc, List.append_assoc,
        List.cons_append, List.cons_append, ← memberChars, members?_next hv,
        ih (by simp) hr (by omega)]
      rfl

theorem ofMembers_map (members : List (String × Json)) :
    ofMembers (members.map fun m => (some m.1, m.2)) = .object members := by
  have h : (members.map fun m => (some m.1, m.2)).mapM
      (fun m => m.1.map fun name => (name, m.2)) = some members := by
    induction members with
    | nil => rfl
    | cons m members ih => rw [List.map_cons, List.mapM_cons, ih]; rfl
  rw [ofMembers, h]

theorem reads_object {members : List (String × Json)} (hs : ∀ m ∈ members, Sound m.2)
    (hr : ∀ m ∈ members, Reads m.2) : Reads (.object members) := by
  refine reads_of_succ (.object hs) fun fuel rest _ hf => ?_
  rw [chars, List.length_cons, List.length_append, List.length_singleton] at hf
  rw [chars, List.cons_append, List.append_assoc]
  cases members with
  | nil => rfl
  | cons m members =>
    have he : members? fuel (commas (memberChars (m :: members)) ++ '\x7d' :: rest) = _ :=
      members?_commas (by simp) hr (by omega)
    obtain ⟨ds, hds⟩ : ∃ ds, commas (memberChars (m :: members)) = '"' :: ds := by
      obtain ⟨name, j⟩ := m
      cases members with
      | nil => exact ⟨_, by rw [memberChars, memberChars, commas, quote]; rfl⟩
      | cons => exact ⟨_, by rw [memberChars, memberChars, commas, quote]; rfl⟩
    rw [hds, List.cons_append] at he ⊢
    rw [value?, skipSpace_cons rfl]
    refine (congrArg (Option.map _) he).trans ?_
    change some (ofMembers (List.map _ _), rest) = _
    rw [ofMembers_map]

/-- A sound value is read from its text. -/
theorem Sound.reads {j : Json} (h : Sound j) : Reads j := by
  induction h with
  | null =>
    refine reads_of_succ .null fun fuel rest _ _ => ?_
    rw [chars, value?]
    rfl
  | bool b =>
    refine reads_of_succ (.bool b) fun fuel rest _ _ => ?_
    cases b <;> rw [chars, value?] <;> rfl
  | integer n => exact reads_integer n
  | string s => exact reads_string s
  | array hs ih => exact reads_array hs ih
  | object hs ih => exact reads_object hs ih

theorem parse_render {j : Json} (h : Sound j) : parse j.render = some j := by
  have hv := h.reads (2 * (chars j).length + 2) [] (by simp [Follows]) (by omega)
  rw [List.append_nil] at hv
  rw [parse, render, String.toList_ofList, parseChars, hv]
  rfl

theorem render_inj {i j : Json} (hi : Sound i) (hj : Sound j) : i.render = j.render ↔ i = j := by
  refine ⟨fun h => ?_, congrArg render⟩
  have hp := congrArg parse h
  rw [parse_render hi, parse_render hj] at hp
  exact Option.some.inj hp

theorem chars?_map_some (quoted escaped : Bool) (cs : List Char) :
    chars? quoted escaped (cs.map some) = some cs := by
  induction cs generalizing quoted escaped with
  | nil => rfl
  | cons c cs ih => rw [List.map_cons, chars?, ih, Option.map_some]

theorem parseOctets_encode (cs : List Char) : parseOctets (Utf8.encode cs) = parseChars cs := by
  rw [parseOctets, Utf8.pieces_encode, chars?_map_some]
  rfl

theorem parseOctets_render {j : Json} (h : Sound j) :
    parseOctets (Utf8.encode j.render.toList) = some j := by
  rw [parseOctets_encode]
  exact parse_render h

/-- What denotes no character does no harm in a string, and only there. -/
example : parseOctets [0x5B, 0x22, 0xFF, 0x22, 0x5D] = some (.array [.broken]) ∧
    parseOctets [0x5B, 0xFF, 0x5D] = none :=
  ⟨rfl, rfl⟩

end PeerFleet.Json
