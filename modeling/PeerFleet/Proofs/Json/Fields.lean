import Mathlib.Data.List.Nodup
import PeerFleet.Proofs.Json.Text
import PeerFleet.Proofs.Time.Timestamp
import PeerFleet.Record

/-! # Written fields

A record is written as an object with some of the names of its fields, in their order. A written
field is found under its name, a field that was left out is not found, and each value of a field
is read as what it was.
-/

namespace PeerFleet

/-- Whatever is written is sound JSON, and is read as what it was. -/
structure Json.Restores {α : Type} (write : α → Json) (read? : Json → Option α) : Prop where
  sound (a : α) : (write a).Sound
  read? (a : α) : read? (write a) = some a

theorem Json.Restores.injective {α : Type} {write : α → Json} {read? : Json → Option α}
    (h : Restores write read?) : Function.Injective write := fun a b hab =>
  Option.some.inj <| (h.read? a).symm.trans <| (congrArg read? hab).trans (h.read? b)

namespace Record

open Json

variable {α : Type} {names : List String} {entries es fs : List (String × Json)} {name key : String}

/-- The entries of an object are some of the named fields, in order, and sound. -/
structure Fills (names : List String) (entries : List (String × Json)) : Prop where
  sublist : (entries.map (·.1)).Sublist names
  sound : ∀ m ∈ entries, m.2.Sound

namespace Fills

variable {names' : List String} {write : α → Json} {v : Option α}

theorem all (h : ∀ m ∈ es, m.2.Sound) : Fills (es.map (·.1)) es :=
  ⟨.refl _, h⟩

theorem single {v : Json} (h : v.Sound) : Fills [key] [(key, v)] :=
  ⟨.refl _, by simpa using h⟩

theorem append (he : Fills names es) (hf : Fills names' fs) :
    Fills (names ++ names') (es ++ fs) where
  sublist := by
    rw [List.map_append]
    exact he.sublist.append hf.sublist
  sound := List.forall_mem_append.mpr ⟨he.sound, hf.sound⟩

theorem optional (h : ∀ a, (write a).Sound) : Fills [key] (Json.optional key (v.map write)) := by
  cases v with
  | none => exact ⟨List.nil_sublist _, by simp [Json.optional]⟩
  | some a =>
    refine ⟨.refl _, ?_⟩
    simpa [Json.optional] using h a

theorem object (h : Fills names entries) : (Json.object entries).Sound :=
  .object h.sound

theorem of? (h : Fills names entries) (hn : names.Nodup) :
    Record.of? names (Json.object entries) = some ⟨names, .named entries⟩ := by
  have honce : ∀ n ∈ names, (entries.filter (·.1 = n)).length ≤ 1 := by
    intro n _
    have hcount := List.nodup_iff_count_le_one.mp (hn.sublist h.sublist) n
    rw [List.count_eq_countP, List.countP_map, List.countP_eq_length_filter] at hcount
    exact hcount
  change (if (names.all fun n => (entries.filter (·.1 = n)).length ≤ 1) = true then _ else _) = _
  exact if_pos (by simpa using honce)

end Fills

@[simp] theorem find?_cons {v : Json} :
    find? ⟨names, .named ((key, v) :: es)⟩ name =
      if key = name then some v else find? ⟨names, .named es⟩ name := by
  by_cases h : key = name <;> simp [find?, h]

@[simp] theorem find?_nil : find? (⟨names, .named []⟩ : Record Json) name = none := rfl

@[simp] theorem find?_append : find? ⟨names, .named (es ++ fs)⟩ name =
    (find? ⟨names, .named es⟩ name).or (find? ⟨names, .named fs⟩ name) := by
  simp [find?, Option.map_or]

@[simp] theorem find?_optional {v : Option Json} :
    find? ⟨names, .named (Json.optional key v)⟩ name = if key = name then v else none := by
  cases v <;> simp [Json.optional]

def given (read : Json → Option α) : Option Json → Option (Option α)
  | none => some none
  | some v => if v.isNull then some none else (read v).map some

theorem optional_eq {r : Record Json} {read : Json → Option α} :
    r.optional name read = given read (r.find? name) := by
  unfold Record.optional
  cases r.find? name <;> rfl

theorem given_map {write : α → Json} {read : Json → Option α} (h : Restores write read)
    (hn : ∀ a, (write a).isNull = false) (v : Option α) : given read (v.map write) = some v := by
  cases v with
  | none => rfl
  | some a => simp [given, hn, h.read?]

/-- A record whose entries are its fields is read as what it was if its fields are. -/
theorem restores_of_fills (names : List String) {write : α → Json} {read? : Json → Option α}
    {entries : α → List (String × Json)} {names' : α → List String}
    (hw : ∀ a, write a = .object (entries a)) (hf : ∀ a, Fills (names' a) (entries a))
    (heq : ∀ a, names' a = names) (hn : names.Nodup)
    (hr : ∀ a, of? names (write a) = some ⟨names, .named (entries a)⟩ → read? (write a) = some a) :
    Restores write read? where
  sound a := hw a ▸ (hf a).object
  read? a := hr a (hw a ▸ (heq a ▸ hf a).of? hn)

end Record

namespace Json

theorem restores_text : Restores .string Read.text :=
  ⟨.string, fun _ => rfl⟩

theorem restores_bool : Restores .bool Read.bool :=
  ⟨.bool, fun _ => rfl⟩

theorem restores_int64 : Restores ofInt64 Read.int64 where
  sound _ := .integer _
  read? n := (if_pos ⟨n.minValue_le_toInt, n.toInt_le⟩).trans (congrArg some n.ofInt_toInt)

theorem restores_uint32 : Restores ofUInt32 Read.uint32 where
  sound _ := .integer _
  read? n := (if_pos n.toNat_lt).trans (congrArg some n.ofNat_toNat)

theorem restores_uint64 : Restores ofUInt64 Read.uint64 where
  sound _ := .integer _
  read? n := (if_pos n.toNat_lt).trans (congrArg some n.ofNat_toNat)

theorem restores_instant : Restores ofInstant Read.instant where
  sound _ := .string _
  read? t := by
    change (some t.render).bind Instant.parse = some t
    rw [Option.bind_some, t.parse_render]

theorem restores_texts : Restores ofTexts (Read.list Read.text) where
  sound ss := .array (by simpa using fun s _ => .string s)
  read? ss := by
    have h : (ss.map Json.string).mapM Read.text = some ss := by
      induction ss with
      | nil => rfl
      | cons s ss ih =>
        rw [List.map_cons, List.mapM_cons, ih]
        rfl
    exact h

end Json

end PeerFleet
