/-! # Tables of records

Records in ascending order of a key, one to a key. The order is part of the type, so that
every listing is sorted and every look-up has one answer.
-/

namespace PeerFleet

/-- A record with the number by which it is filed. -/
class Keyed (α : Type) where
  key : α → Int

open Keyed

/-- Records filed by their keys. -/
structure Table (α : Type) [Keyed α] where
  items : List α
  ascending : items.Pairwise fun a b => key a < key b

namespace Table

variable {α : Type} [Keyed α]

def empty : Table α :=
  ⟨[], .nil⟩

instance : Inhabited (Table α) := ⟨empty⟩

def find? (t : Table α) (k : Int) : Option α :=
  t.items.find? fun a => key a = k

def place (a : α) : List α → List α
  | [] => [a]
  | b :: bs =>
    if key a < key b then a :: b :: bs
    else if key a = key b then a :: bs
    else b :: place a bs

theorem mem_of_mem_place {a x : α} : ∀ {l : List α}, x ∈ place a l → x = a ∨ x ∈ l
  | [], h => by simpa [place] using h
  | b :: bs, h => by
    unfold place at h
    split at h
    · simpa using h
    · split at h
      · rcases List.mem_cons.1 h with h | h
        · exact .inl h
        · exact .inr (List.mem_cons_of_mem _ h)
      · rcases List.mem_cons.1 h with h | h
        · exact .inr (h ▸ List.mem_cons_self)
        · exact (mem_of_mem_place h).imp id (List.mem_cons_of_mem _)

theorem place_ascending (a : α) : ∀ {l : List α},
    l.Pairwise (fun a b => key a < key b) → (place a l).Pairwise fun a b => key a < key b
  | [], _ => by simp [place]
  | b :: bs, h => by
    obtain ⟨hb, hbs⟩ := List.pairwise_cons.1 h
    unfold place
    split
    · refine List.pairwise_cons.2 ⟨fun x hx => ?_, h⟩
      rcases List.mem_cons.1 hx with rfl | hx
      · assumption
      · exact Int.lt_trans ‹_› (hb x hx)
    · split
      · exact List.pairwise_cons.2 ⟨fun x hx => ‹key a = key b› ▸ hb x hx, hbs⟩
      · refine List.pairwise_cons.2 ⟨fun x hx => ?_, place_ascending a hbs⟩
        rcases mem_of_mem_place hx with rfl | hx
        · omega
        · exact hb x hx

def insert (t : Table α) (a : α) : Table α :=
  ⟨place a t.items, place_ascending a t.ascending⟩

def ofList (as : List α) : Table α :=
  as.foldl insert empty

def modify (t : Table α) (k : Int) (f : α → α) (keep : ∀ a, key (f a) = key a) : Table α where
  items := t.items.map fun a => if key a = k then f a else a
  ascending := by
    have same (a : α) : key (if key a = k then f a else a) = key a := by
      split
      · exact keep a
      · rfl
    rw [List.pairwise_map]
    exact t.ascending.imp fun h => by rw [same, same]; exact h

def filter (t : Table α) (p : α → Bool) : Table α :=
  ⟨t.items.filter p, t.ascending.filter p⟩

def erase (t : Table α) (k : Int) : Table α :=
  t.filter fun a => key a != k

def contains (t : Table α) (k : Int) : Bool :=
  (t.find? k).isSome

def size (t : Table α) : Nat :=
  t.items.length

end Table

end PeerFleet
