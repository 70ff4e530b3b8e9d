import Mathlib.Data.List.TakeWhile
import PeerFleet.Text.Split

/-! # Texts cut in parts

The parts of a text are the ones around a separator that does not occur in the part that the
search went through, so that cutting undoes joining.
-/

namespace PeerFleet.Text

variable {sep c : Char} {cs ds before after word rest : List Char}

theorem splitFirst_eq_some_iff :
    splitFirst sep cs = some (before, after) ↔ cs = before ++ sep :: after ∧ sep ∉ before := by
  induction cs generalizing before with
  | nil => simp [splitFirst]
  | cons c cs ih =>
    rw [splitFirst]
    split_ifs with hc
    · subst hc
      cases before with
      | nil => simp [eq_comm]
      | cons b before => simp only [Option.some.injEq, Prod.mk.injEq]; grind
    · rw [Option.map_eq_some_iff]
      cases before with
      | nil => simp [hc]
      | cons b before =>
        simp only [Prod.exists, Prod.mk.injEq, List.cons.injEq]
        constructor
        · rintro ⟨x, y, h, ⟨rfl, rfl⟩, rfl⟩
          obtain ⟨rfl, hn⟩ := ih.mp h
          exact ⟨rfl, by simp [hn, Ne.symm hc]⟩
        · rintro ⟨⟨rfl, rfl⟩, hn⟩
          exact ⟨before, after, ih.mpr ⟨rfl, fun h => hn (List.mem_cons_of_mem _ h)⟩,
            ⟨rfl, rfl⟩, rfl⟩

theorem splitFirst_eq_none_iff : splitFirst sep cs = none ↔ sep ∉ cs := by
  induction cs with
  | nil => simp [splitFirst]
  | cons c cs ih =>
    rw [splitFirst]
    split_ifs with hc
    · simp [hc]
    · simp [ih, Ne.symm hc]

theorem splitLast_eq_some_iff :
    splitLast sep cs = some (before, after) ↔ cs = before ++ sep :: after ∧ sep ∉ after := by
  rw [splitLast, Option.map_eq_some_iff]
  constructor
  · rintro ⟨⟨x, y⟩, h, he⟩
    obtain ⟨hcs, hn⟩ := splitFirst_eq_some_iff.mp h
    obtain ⟨rfl, rfl⟩ := Prod.mk.inj he
    refine ⟨?_, by simpa using hn⟩
    rw [← List.reverse_reverse cs, hcs]
    simp
  · rintro ⟨rfl, hn⟩
    exact ⟨(after.reverse, before.reverse),
      splitFirst_eq_some_iff.mpr ⟨by simp, by simpa using hn⟩, by simp⟩

theorem splitLast_eq_none_iff : splitLast sep cs = none ↔ sep ∉ cs := by
  simp [splitLast, splitFirst_eq_none_iff]

theorem exists_splitLast (h : sep ∈ cs) :
    ∃ before after, splitLast sep cs = some (before, after) := by
  cases hs : splitLast sep cs with
  | none => exact absurd h (splitLast_eq_none_iff.mp hs)
  | some p => exact ⟨p.1, p.2, rfl⟩

theorem splitAll_eq_splitOn (sep : Char) (cs : List Char) : splitAll sep cs = cs.splitOn sep := by
  induction cs with
  | nil => rfl
  | cons c cs ih =>
    rw [splitAll, ih, List.splitOn_cons_eq_if_modifyHead]
    cases h : cs.splitOn sep with
    | nil => exact absurd h (List.splitOn_ne_nil _ _)
    | cons part parts => by_cases hc : c = sep <;> simp [hc]

theorem splitAll_intercalate {parts : List (List Char)} (hne : parts ≠ [])
    (h : ∀ p ∈ parts, sep ∉ p) : splitAll sep ([sep].intercalate parts) = parts := by
  rw [splitAll_eq_splitOn, List.splitOn_intercalate sep h hne]

theorem not_mem_of_mem_splitAll {part : List Char} (h : part ∈ splitAll sep cs) : sep ∉ part := by
  rw [splitAll_eq_splitOn] at h
  induction cs generalizing part with
  | nil =>
    rw [List.splitOn_nil, List.mem_singleton] at h
    rw [h]
    exact List.not_mem_nil
  | cons c cs ih =>
    rw [List.splitOn_cons_eq_if_modifyHead] at h
    split_ifs at h with hc
    · rcases List.mem_cons.mp h with rfl | h
      · exact List.not_mem_nil
      · exact ih h
    · cases hs : cs.splitOn sep with
      | nil => exact absurd hs (List.splitOn_ne_nil _ _)
      | cons first others =>
        rw [hs] at h ih
        rcases List.mem_cons.mp h with rfl | h
        · rw [beq_iff_eq] at hc
          simpa [Ne.symm hc] using ih List.mem_cons_self
        · exact ih (List.mem_cons_of_mem _ h)

theorem eq_nil_of_mem_splitAll {part : List Char} (hc : ∀ c ∈ cs, c = sep)
    (h : part ∈ splitAll sep cs) : part = [] := by
  rw [splitAll_eq_splitOn] at h
  induction cs with
  | nil => simpa using h
  | cons c cs ih =>
    obtain ⟨rfl, hcs⟩ := List.forall_mem_cons.mp hc
    have hcut : (c :: cs).splitOn c = [[]] ++ cs.splitOn c := List.splitOn_append_cons_self [] cs
    rw [hcut] at h
    rcases List.mem_append.mp h with h | h
    · exact List.mem_singleton.mp h
    · exact ih hcs h

/-- What has no separator in it is the end of a part, and behind separators alone there is
nothing. -/
theorem exists_splitAll_append (before : List Char) {tail : List Char} (h : sep ∉ after)
    (ht : ∀ c ∈ tail, c = sep) : ∃ parts part empties,
      splitAll sep (before ++ after ++ tail) = parts ++ (part ++ after) :: empties ∧
        ∀ e ∈ empties, e = [] := by
  have hfront : ∃ parts part, (before ++ after).splitOn sep = parts ++ [part ++ after] := by
    by_cases hs : sep ∈ before
    · obtain ⟨front, part, hsplit⟩ := exists_splitLast hs
      obtain ⟨rfl, hn⟩ := splitLast_eq_some_iff.mp hsplit
      have hlast : (part ++ after).splitOn sep = [part ++ after] :=
        List.splitOn_eq_singleton (by simp [hn, h])
      refine ⟨front.splitOn sep, part, ?_⟩
      rw [List.append_assoc, List.cons_append, List.splitOn_append_cons_self, hlast]
    · exact ⟨[], before, List.splitOn_eq_singleton (by simp [hs, h])⟩
  obtain ⟨parts, part, hparts⟩ := hfront
  rw [splitAll_eq_splitOn]
  cases tail with
  | nil => exact ⟨parts, part, [], by rw [List.append_nil, hparts], by simp⟩
  | cons c tail =>
    obtain ⟨rfl, ht⟩ := List.forall_mem_cons.mp ht
    refine ⟨parts, part, splitAll c tail, ?_, fun e he => eq_nil_of_mem_splitAll ht he⟩
    rw [List.splitOn_append_cons_self, hparts, splitAll_eq_splitOn, List.append_assoc]
    rfl

theorem dropWord_eq_some_iff : dropWord word cs = some rest ↔ cs = word ++ rest := by
  induction word generalizing cs with
  | nil => simp [dropWord, eq_comm]
  | cons w word ih =>
    cases cs with
    | nil => simp [dropWord]
    | cons c cs =>
      rw [dropWord]
      split_ifs with h
      · simp [ih, h]
      · simp [Ne.symm h]

theorem eq_of_splitAtWord (h : splitAtWord word cs = some (before, after)) :
    cs = before ++ word ++ after := by
  induction cs generalizing before with
  | nil =>
    obtain ⟨rest, hr, he⟩ := Option.map_eq_some_iff.mp h
    cases he
    exact dropWord_eq_some_iff.mp hr
  | cons c cs ih =>
    rw [splitAtWord] at h
    split at h
    next rest hr =>
      cases h
      exact dropWord_eq_some_iff.mp hr
    next =>
      obtain ⟨⟨x, y⟩, hxy, he⟩ := Option.map_eq_some_iff.mp h
      cases he
      rw [ih hxy]
      rfl

theorem splitAtWord_ne_none (before word after : List Char) :
    splitAtWord word (before ++ word ++ after) ≠ none := by
  induction before with
  | nil =>
    have hdrop : dropWord word (word ++ after) = some after := dropWord_eq_some_iff.mpr rfl
    rw [List.nil_append]
    cases h : word ++ after with
    | nil => simp [splitAtWord, ← h, hdrop]
    | cons c cs => simp [splitAtWord, ← h, hdrop]
  | cons b before ih =>
    rw [List.cons_append, List.cons_append, splitAtWord]
    split
    next => simp
    next => simpa using ih

theorem occurs_iff : occurs word cs = true ↔ word <:+: cs := by
  constructor
  · intro h
    obtain ⟨⟨before, after⟩, hs⟩ := Option.isSome_iff_exists.mp h
    exact ⟨before, after, (eq_of_splitAtWord hs).symm⟩
  · rintro ⟨before, after, rfl⟩
    exact Option.isSome_iff_ne_none.mpr (splitAtWord_ne_none before word after)

theorem exists_dropTrailing (c : Char) (cs : List Char) :
    ∃ n, cs = dropTrailing c cs ++ List.replicate n c := by
  refine ⟨(cs.reverse.takeWhile (· = c)).length, ?_⟩
  have hrep : cs.reverse.takeWhile (· = c) =
      List.replicate (cs.reverse.takeWhile (· = c)).length c :=
    List.eq_replicate_iff.mpr ⟨rfl, fun b hb => by simpa using List.mem_takeWhile_imp hb⟩
  have hcs : (cs.reverse.takeWhile (· = c) ++ cs.reverse.dropWhile (· = c)).reverse = cs := by
    rw [List.takeWhile_append_dropWhile, List.reverse_reverse]
  rw [List.reverse_append, hrep, List.reverse_replicate] at hcs
  exact hcs.symm

theorem dropTrailing_append (c : Char) (cs ds : List Char) : dropTrailing c (cs ++ ds) =
    if dropTrailing c ds = [] then dropTrailing c cs else cs ++ dropTrailing c ds := by
  rw [dropTrailing, List.reverse_append, List.dropWhile_append, dropTrailing, dropTrailing]
  by_cases h : ds.reverse.dropWhile (· = c) = [] <;> simp [h]

theorem dropTrailing_eq_nil_iff : dropTrailing c cs = [] ↔ ∀ d ∈ cs, d = c := by
  simp [dropTrailing, List.dropWhile_eq_nil_iff]

theorem dropTrailing_eq_self (h : c ∉ cs) : dropTrailing c cs = cs := by
  obtain ⟨n, hn⟩ := exists_dropTrailing c cs
  cases n with
  | zero => simpa using hn.symm
  | succ n => exact absurd (hn ▸ List.mem_append_right _ (by simp)) h

end PeerFleet.Text
