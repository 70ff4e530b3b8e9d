import Mathlib.Data.List.Basic
import PeerFleet.Text.Utf8

/-! # Texts as octets

What is written as octets is read back, so that different texts have different octets. An octet
below the lead octets is a character of its own wherever it stands.
-/

namespace PeerFleet.Utf8

variable {b lo hi : UInt8} {bits more : ℕ} {bs : List UInt8} {s : State}

theorem start_ascii (h : b < 0x80) : start b = ([some (Char.ofNat b.toNat)], .ready) := by
  simp [start, h]

theorem start_two (hl : 0xC2 ≤ b.toNat) (hu : b.toNat ≤ 0xDF) :
    start b = ([], .owing 0 (b.toNat - 0xC0) 0x80 0xBF) := by
  have hb : bounds b = (0x80, 0xBF) := by
    simp only [bounds, ← UInt8.toNat_inj, UInt8.reduceToNat]
    split_ifs <;> first | omega | rfl
  simp only [start, hb, UInt8.lt_iff_toNat_lt, UInt8.le_iff_toNat_le, UInt8.reduceToNat]
  split_ifs <;> first | omega | rfl

theorem start_three (hl : 0xE0 ≤ b.toNat) (hu : b.toNat ≤ 0xEF) :
    start b = ([], .owing 1 (b.toNat - 0xE0) (bounds b).1 (bounds b).2) := by
  simp only [start, UInt8.lt_iff_toNat_lt, UInt8.le_iff_toNat_le, UInt8.reduceToNat]
  split_ifs <;> first | omega | rfl

theorem start_four (hl : 0xF0 ≤ b.toNat) (hu : b.toNat ≤ 0xF4) :
    start b = ([], .owing 2 (b.toNat - 0xF0) (bounds b).1 (bounds b).2) := by
  simp only [start, UInt8.lt_iff_toNat_lt, UInt8.le_iff_toNat_le, UInt8.reduceToNat]
  split_ifs <;> first | omega | rfl

/-- The octet after a lead: any that continues a sequence, but for the leads whose sequences
could otherwise be too long, a surrogate, or beyond the last code point. -/
theorem within_bounds {c : UInt8} (hl : 0x80 ≤ c.toNat) (hu : c.toNat ≤ 0xBF)
    (h3 : b.toNat = 0xE0 → 0xA0 ≤ c.toNat) (hs : b.toNat = 0xED → c.toNat ≤ 0x9F)
    (h4 : b.toNat = 0xF0 → 0x90 ≤ c.toNat) (he : b.toNat = 0xF4 → c.toNat ≤ 0x8F) :
    (bounds b).1 ≤ c ∧ c ≤ (bounds b).2 := by
  simp only [bounds, ← UInt8.toNat_inj, UInt8.le_iff_toNat_le, UInt8.reduceToNat]
  split_ifs <;> simp only [UInt8.reduceToNat] <;> omega

theorem run_ready (bs : List UInt8) : run .ready (b :: bs) = (start b).1 ++ run (start b).2 bs :=
  rfl

theorem run_owing_zero (h : lo ≤ b ∧ b ≤ hi) :
    run (.owing 0 bits lo hi) (b :: bs) =
      some (Char.ofNat (bits * 64 + (b.toNat - 0x80))) :: run .ready bs := by
  simp [run, step, h]

theorem run_owing_succ (h : lo ≤ b ∧ b ≤ hi) :
    run (.owing (more + 1) bits lo hi) (b :: bs) =
      run (.owing more (bits * 64 + (b.toNat - 0x80)) 0x80 0xBF) bs := by
  simp [run, step, h]

theorem toNat_ofNat_of_lt {n : ℕ} (hn : n < 256) : (UInt8.ofNat n).toNat = n := by
  rw [UInt8.toNat_ofNat']
  exact Nat.mod_eq_of_lt hn

theorem continues {n : ℕ} (hl : 0x80 ≤ n) (hu : n ≤ 0xBF) :
    (0x80 : UInt8) ≤ UInt8.ofNat n ∧ UInt8.ofNat n ≤ 0xBF := by
  simp only [UInt8.le_iff_toNat_le, UInt8.reduceToNat, toNat_ofNat_of_lt (show n < 256 by omega)]
  omega

theorem toNat_valid (c : Char) :
    c.toNat < 0x110000 ∧ ¬ (0xD800 ≤ c.toNat ∧ c.toNat < 0xE000) := by
  have hc : c.toNat < 0xD800 ∨ (0xDFFF < c.toNat ∧ c.toNat < 0x110000) := c.valid
  omega

theorem run_encodeChar (c : Char) (bs : List UInt8) :
    run .ready (String.utf8EncodeChar c ++ bs) = some c :: run .ready bs := by
  obtain ⟨hmax, hsur⟩ := toNat_valid c
  have hval : c.val.toNat = c.toNat := rfl
  have hchar {n : ℕ} (h : n = c.toNat) : Char.ofNat n = c := by rw [h, Char.ofNat_toNat]
  unfold String.utf8EncodeChar
  simp only [hval]
  -- one case for each length of a sequence
  split_ifs with h1 h2 h3
  · have hb := toNat_ofNat_of_lt (show c.toNat < 256 by omega)
    rw [List.singleton_append, run_ready, start_ascii, hb]
    · rw [hchar rfl]
      rfl
    · rw [UInt8.lt_iff_toNat_lt, hb]
      exact Nat.lt_succ_of_le h1
  · have hb := toNat_ofNat_of_lt (show c.toNat / 64 % 32 + 192 < 256 by omega)
    have hb' := toNat_ofNat_of_lt (show c.toNat % 64 + 128 < 256 by omega)
    rw [List.cons_append, List.cons_append, run_ready, start_two (by omega) (by omega),
      List.nil_append, List.nil_append, run_owing_zero (continues (by omega) (by omega)), hb, hb']
    rw [hchar (by omega)]
  · have hb := toNat_ofNat_of_lt (show c.toNat / 4096 % 16 + 224 < 256 by omega)
    have hb' := toNat_ofNat_of_lt (show c.toNat / 64 % 64 + 128 < 256 by omega)
    have hb'' := toNat_ofNat_of_lt (show c.toNat % 64 + 128 < 256 by omega)
    rw [List.cons_append, List.cons_append, List.cons_append, run_ready,
      start_three (by omega) (by omega), List.nil_append, List.nil_append,
      run_owing_succ (within_bounds (by omega) (by omega) (by omega) (by omega) (by omega)
        (by omega)),
      run_owing_zero (continues (by omega) (by omega)), hb, hb', hb'']
    rw [hchar (by omega)]
  · have hb := toNat_ofNat_of_lt (show c.toNat / 262144 % 8 + 240 < 256 by omega)
    have hb' := toNat_ofNat_of_lt (show c.toNat / 4096 % 64 + 128 < 256 by omega)
    have hb'' := toNat_ofNat_of_lt (show c.toNat / 64 % 64 + 128 < 256 by omega)
    have hb''' := toNat_ofNat_of_lt (show c.toNat % 64 + 128 < 256 by omega)
    rw [List.cons_append, List.cons_append, List.cons_append, List.cons_append, run_ready,
      start_four (by omega) (by omega), List.nil_append, List.nil_append,
      run_owing_succ (within_bounds (by omega) (by omega) (by omega) (by omega) (by omega)
        (by omega)),
      run_owing_succ (continues (by omega) (by omega)),
      run_owing_zero (continues (by omega) (by omega)), hb, hb', hb'', hb''']
    rw [hchar (by omega)]

theorem pieces_encode (cs : List Char) : pieces (encode cs) = cs.map some := by
  induction cs with
  | nil => rfl
  | cons c cs ih =>
    rw [encode, List.flatMap_cons, pieces, run_encodeChar, List.map_cons]
    exact congrArg _ ih

theorem mapM_id_eq_some {α : Type} {l : List (Option α)} {cs : List α} :
    l.mapM id = some cs ↔ l = cs.map some := by
  constructor
  · intro h
    induction l generalizing cs with
    | nil =>
      cases h
      rfl
    | cons o l ih =>
      simp only [List.mapM_cons, Option.bind_eq_bind, Option.bind_eq_some_iff, id] at h
      obtain ⟨c, rfl, ds, hds, h⟩ := h
      cases h
      rw [ih hds, List.map_cons]
  · rintro rfl
    rw [List.mapM_map]
    exact List.mapM_pure.trans (congrArg some (List.map_id cs))

theorem decode?_eq_some_iff {cs : List Char} : decode? bs = some cs ↔ pieces bs = cs.map some :=
  mapM_id_eq_some

theorem decode?_encode (cs : List Char) : decode? (encode cs) = some cs :=
  decode?_eq_some_iff.mpr (pieces_encode cs)

theorem encode_injective : Function.Injective encode := by
  intro cs ds h
  exact Option.some.inj ((decode?_encode cs).symm.trans (h ▸ decode?_encode ds))

def State.Continuing : State → Prop
  | .ready => True
  | .owing _ _ lower _ => 0x80 ≤ lower

theorem start_continuing (b : UInt8) : (start b).2.Continuing := by
  have hb : 0x80 ≤ (bounds b).1 := by
    unfold bounds
    split_ifs <;> decide
  unfold start
  split_ifs
  all_goals first | exact hb | trivial

theorem step_continuing (hs : s.Continuing) (b : UInt8) : (step s b).2.Continuing := by
  cases s with
  | ready => exact start_continuing b
  | owing more bits lo hi =>
    simp only [step]
    split_ifs
    · cases more with
      | zero => trivial
      | succ more => exact UInt8.le_refl _
    · exact start_continuing b

/-- An ASCII octet is a character, also where it breaks a sequence off. -/
theorem step_ascii (hs : s.Continuing) (hb : b < 0x80) :
    some (Char.ofNat b.toNat) ∈ (step s b).1 := by
  cases s with
  | ready => simp [step, start_ascii hb]
  | owing more bits lo hi =>
    have hlo : ¬ lo ≤ b := UInt8.not_le.mpr (UInt8.lt_of_lt_of_le hb hs)
    simp [step, hlo, start_ascii hb]

theorem mem_run_of_ascii (hs : s.Continuing) (hb : b < 0x80) (h : b ∈ bs) :
    some (Char.ofNat b.toNat) ∈ run s bs := by
  induction bs generalizing s with
  | nil => cases h
  | cons d bs ih =>
    rw [run, List.mem_append]
    rcases List.mem_cons.mp h with rfl | h
    · exact .inl (step_ascii hs hb)
    · exact .inr (ih (step_continuing hs d) h)

theorem mem_of_ascii {cs : List Char} (hd : decode? bs = some cs) (hb : b < 0x80) (h : b ∈ bs) :
    Char.ofNat b.toNat ∈ cs := by
  have hmem := mem_run_of_ascii (s := .ready) trivial hb h
  rw [← pieces, decode?_eq_some_iff.mp hd] at hmem
  simpa using hmem

end PeerFleet.Utf8
