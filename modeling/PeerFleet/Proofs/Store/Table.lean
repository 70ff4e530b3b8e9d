import Mathlib.Tactic.Common
import PeerFleet.Table

/-! # Records of a table

A record is found by its key and by no other, and a change of the record with a key leaves
all other records in their places.
-/

namespace PeerFleet.Table

open Keyed

variable {α : Type} [Keyed α] {t : Table α} {k j : Int} {a b : α}

theorem eq_of_key_eq (ha : a ∈ t.items) (hb : b ∈ t.items) (h : key a = key b) : a = b := by
  by_contra hne
  have hp := List.pairwise_iff_getElem.mp t.ascending
  obtain ⟨i, hi, rfl⟩ := List.getElem_of_mem ha
  obtain ⟨l, hl, rfl⟩ := List.getElem_of_mem hb
  rcases Nat.lt_trichotomy i l with hlt | heq | hlt
  · have := hp i l hi hl hlt
    omega
  · subst heq
    exact hne rfl
  · have := hp l i hl hi hlt
    omega

theorem find?_eq_some_iff : t.find? k = some a ↔ a ∈ t.items ∧ key a = k := by
  constructor
  · intro h
    exact ⟨List.mem_of_find?_eq_some h, by simpa using List.find?_some h⟩
  · rintro ⟨ha, rfl⟩
    obtain ⟨b, hb⟩ : ∃ b, t.find? (key a) = some b :=
      Option.isSome_iff_exists.mp (List.find?_isSome.mpr ⟨a, ha, by simp⟩)
    have hk : key b = key a := by simpa using List.find?_some hb
    rw [hb, eq_of_key_eq (List.mem_of_find?_eq_some hb) ha hk]

theorem find?_eq_none_iff : t.find? k = none ↔ ∀ a ∈ t.items, key a ≠ k := by
  simp [find?]

theorem mem_place_iff {l : List α} (hl : l.Pairwise fun a b => key a < key b) :
    b ∈ place a l ↔ b = a ∨ (b ∈ l ∧ key b ≠ key a) := by
  induction l with
  | nil => simp [place]
  | cons c l ih =>
    obtain ⟨hc, hl'⟩ := List.pairwise_cons.mp hl
    unfold place
    split_ifs with h₁ h₂
    · have hne : ∀ x ∈ c :: l, key x ≠ key a := by
        intro x hx
        rcases List.mem_cons.mp hx with rfl | hx
        · omega
        · have := hc x hx
          omega
      simp only [List.mem_cons]
      constructor
      · rintro (h | h)
        · exact .inl h
        · exact .inr ⟨h, hne b (List.mem_cons.mpr h)⟩
      · rintro (h | ⟨h, _⟩)
        · exact .inl h
        · exact .inr h
    · have hne : ∀ x ∈ l, key x ≠ key a := fun x hx => by have := hc x hx; omega
      simp only [List.mem_cons]
      constructor
      · rintro (h | h)
        · exact .inl h
        · exact .inr ⟨.inr h, hne b h⟩
      · rintro (h | ⟨rfl | h, hk⟩)
        · exact .inl h
        · exact absurd h₂.symm hk
        · exact .inr h
    · rw [List.mem_cons, ih hl', List.mem_cons]
      constructor
      · rintro (rfl | h | ⟨h, hk⟩)
        · exact .inr ⟨.inl rfl, fun h => h₂ h.symm⟩
        · exact .inl h
        · exact .inr ⟨.inr h, hk⟩
      · rintro (h | ⟨h | h, hk⟩)
        · exact .inr (.inl h)
        · exact .inl h
        · exact .inr (.inr ⟨h, hk⟩)

theorem mem_insert_iff : b ∈ (t.insert a).items ↔ b = a ∨ (b ∈ t.items ∧ key b ≠ key a) :=
  mem_place_iff t.ascending

theorem find?_insert : (t.insert a).find? k = if key a = k then some a else t.find? k := by
  split_ifs with h
  · exact find?_eq_some_iff.mpr ⟨mem_insert_iff.mpr (.inl rfl), h⟩
  · ext b
    rw [find?_eq_some_iff, find?_eq_some_iff, mem_insert_iff]
    constructor
    · rintro ⟨rfl | ⟨hb, _⟩, rfl⟩
      · exact absurd rfl h
      · exact ⟨hb, rfl⟩
    · rintro ⟨hb, rfl⟩
      exact ⟨.inr ⟨hb, fun he => h he.symm⟩, rfl⟩

theorem insert_split (h : t.find? (key a) = none) :
    ∃ l r, t.items = l ++ r ∧ (t.insert a).items = l ++ a :: r := by
  have hne := find?_eq_none_iff.mp h
  change ∃ l r, t.items = l ++ r ∧ place a t.items = l ++ a :: r
  generalize t.items = items at hne
  induction items with
  | nil => exact ⟨[], [], rfl, rfl⟩
  | cons c l ih =>
    unfold place
    split_ifs with h₁ h₂
    · exact ⟨[], c :: l, rfl, rfl⟩
    · exact absurd h₂.symm (hne c List.mem_cons_self)
    · obtain ⟨l', r, rfl, hp⟩ := ih fun x hx => hne x (List.mem_cons_of_mem _ hx)
      exact ⟨c :: l', r, rfl, by rw [hp]; rfl⟩

theorem items_foldl_insert {l : List α} (h : ((t.items ++ l).map key).Nodup) :
    (l.foldl insert t).items.Perm (t.items ++ l) := by
  induction l generalizing t with
  | nil => simp
  | cons a l ih =>
    have hmid : (t.items ++ a :: l).Perm (a :: (t.items ++ l)) := List.perm_middle
    have hnew : t.find? (key a) = none := by
      have hd := (hmid.map key).nodup_iff.mp h
      rw [List.map_cons, List.nodup_cons] at hd
      refine find?_eq_none_iff.mpr fun b hb hk => hd.1 ?_
      exact hk ▸ List.mem_map_of_mem (List.mem_append_left l hb)
    obtain ⟨l₁, l₂, hl, hi⟩ := insert_split hnew
    have hins : (t.insert a).items.Perm (a :: t.items) := by
      rw [hi, hl]
      exact List.perm_middle
    have happ : ((t.insert a).items ++ l).Perm (t.items ++ a :: l) :=
      (hins.append_right l).trans hmid.symm
    exact (ih ((happ.map key).nodup_iff.mpr h)).trans happ

theorem items_ofList {l : List α} (h : (l.map key).Nodup) : (ofList l).items.Perm l :=
  items_foldl_insert (t := empty) h

theorem find?_split (h : t.find? k = some a) :
    ∃ l r, t.items = l ++ a :: r ∧ ∀ x ∈ l ++ r, key x ≠ k := by
  obtain ⟨ha, rfl⟩ := find?_eq_some_iff.mp h
  obtain ⟨l, r, hlr⟩ := List.append_of_mem ha
  have hp := t.ascending
  rw [hlr, List.pairwise_append, List.pairwise_cons] at hp
  obtain ⟨-, ⟨hr, -⟩, hl⟩ := hp
  refine ⟨l, r, hlr, List.forall_mem_append.mpr ⟨fun x hx => ?_, fun x hx => ?_⟩⟩
  · have := hl x hx a List.mem_cons_self
    omega
  · have := hr x hx
    omega

theorem modify_split (f : α → α) (hf : ∀ a, key (f a) = key a) (h : t.find? k = some a) :
    ∃ l r, t.items = l ++ a :: r ∧ (t.modify k f hf).items = l ++ f a :: r := by
  obtain ⟨l, r, hlr, hne⟩ := find?_split h
  obtain ⟨hl, hr⟩ := List.forall_mem_append.mp hne
  have same {m : List α} (hm : ∀ x ∈ m, key x ≠ k) :
      m.map (fun x => if key x = k then f x else x) = m := by
    conv_rhs => rw [← List.map_id m]
    exact List.map_congr_left fun x hx => if_neg (hm x hx)
  refine ⟨l, r, hlr, ?_⟩
  simp only [modify, hlr, List.map_append, List.map_cons]
  rw [same hl, same hr, if_pos (find?_eq_some_iff.mp h).2]

theorem items_erase (h : t.find? k = some a) : t.items.Perm (a :: (t.erase k).items) := by
  obtain ⟨l, r, hlr, hne⟩ := find?_split h
  obtain ⟨hl, hr⟩ := List.forall_mem_append.mp hne
  have same {m : List α} (hm : ∀ x ∈ m, key x ≠ k) : m.filter (fun x => key x != k) = m :=
    List.filter_eq_self.mpr fun x hx => by simpa using hm x hx
  have he : (t.erase k).items = l ++ r := by
    simp [erase, filter, hlr, same hl, same hr, (find?_eq_some_iff.mp h).2]
  rw [he, hlr]
  exact List.perm_middle

theorem find?_erase : (t.erase k).find? j = if j = k then none else t.find? j := by
  split_ifs with hj
  · subst hj
    exact find?_eq_none_iff.mpr fun b hb => by simpa using (List.mem_filter.mp hb).2
  · ext b
    rw [find?_eq_some_iff, find?_eq_some_iff, erase, filter, List.mem_filter]
    constructor
    · rintro ⟨⟨hb, -⟩, rfl⟩
      exact ⟨hb, rfl⟩
    · rintro ⟨hb, rfl⟩
      exact ⟨⟨hb, by simpa using hj⟩, rfl⟩

theorem erase_of_none (h : t.find? k = none) : (t.erase k).items = t.items :=
  List.filter_eq_self.mpr fun a ha => by simpa using find?_eq_none_iff.mp h a ha

theorem countP_key : t.items.countP (key · = k) = if (t.find? k).isSome then 1 else 0 := by
  cases h : t.find? k with
  | none => simpa using find?_eq_none_iff.mp h
  | some a =>
    obtain ⟨l, r, hlr, hne⟩ := find?_split h
    obtain ⟨hl, hr⟩ := List.forall_mem_append.mp hne
    have hzero {m : List α} (hm : ∀ x ∈ m, key x ≠ k) : m.countP (key · = k) = 0 := by
      simpa [List.countP_eq_zero] using hm
    simp [hlr, hzero hl, hzero hr, (find?_eq_some_iff.mp h).2]

theorem find?_modify {f : α → α} {hf : ∀ a, key (f a) = key a} :
    (t.modify k f hf).find? j = if j = k then (t.find? j).map f else t.find? j := by
  have hk (x : α) : key (if key x = k then f x else x) = key x := by
    split
    · exact hf x
    · rfl
  have hfind : (t.modify k f hf).find? j =
      (t.find? j).map fun x => if key x = k then f x else x := by
    simp only [find?, modify, List.find?_map, Function.comp_def, hk]
  rw [hfind]
  split_ifs with hj
  · cases h : t.find? j with
    | none => rfl
    | some a => simp [(find?_eq_some_iff.mp h).2, hj]
  · cases h : t.find? j with
    | none => rfl
    | some a => simp [(find?_eq_some_iff.mp h).2, hj]

end PeerFleet.Table
