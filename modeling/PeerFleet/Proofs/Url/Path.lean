import PeerFleet.Proofs.Text.Split
import PeerFleet.Proofs.Url.PercentEncoding
import PeerFleet.Url.Basic

/-! # Paths that grow by names

A name that is added to a path becomes one segment, from which it can be read again. Two kinds of
names do not: the two dot segments, which are left out, and names with tabs or line breaks, which
are removed first and may leave a dot segment behind.
-/

namespace PeerFleet.Url

open Text

variable {path names : List String} {name : String} {cs s : List Char} {c d : Char} {u v : Url}

theorem eq_or_eq_of_lowerAscii (h : lowerAscii c = d) : c = d ∨ c = Char.ofNat (d.toNat - 32) := by
  rw [lowerAscii] at h
  split_ifs at h with hc
  · have hu : c.toNat ≤ 90 := hc.2
    have hd : d.toNat = c.toNat + 32 := by
      rw [← h, Char.ofNat, dif_pos (.inl (by omega))]
      rfl
    rw [hd, Nat.add_sub_cancel, Char.ofNat_toNat]
    exact .inr rfl
  · exact .inl h

theorem eq_of_lowerAscii (h : lowerAscii c = d)
    (hd : lowerAscii (Char.ofNat (d.toNat - 32)) ≠ d) : c = d := by
  rcases eq_or_eq_of_lowerAscii h with rfl | rfl
  · rfl
  · exact absurd h hd

theorem hexValue?_of_lowerAscii (h : lowerAscii c = 'e') : hexValue? c = some 14 := by
  rcases eq_or_eq_of_lowerAscii h with rfl | rfl <;> rfl

def IsDot (t : List Char) : Prop :=
  t = ['.'] ∨ t = ['%', '2', 'e']

theorem percentDecode_dot {t : List Char} (ht : IsDot t) (h : s.map lowerAscii = t ++ cs) :
    ∃ r, percentDecode s = 0x2E :: percentDecode r ∧ r.map lowerAscii = cs := by
  rcases ht with rfl | rfl
  · obtain ⟨a, r, rfl, ha, hr⟩ := List.map_eq_cons_iff.mp h
    rw [eq_of_lowerAscii ha (by decide)]
    exact ⟨r, percentDecode_cons (by decide), hr⟩
  · obtain ⟨a, r, rfl, ha, hr⟩ := List.map_eq_cons_iff.mp h
    obtain ⟨b, r, rfl, hb, hr⟩ := List.map_eq_cons_iff.mp hr
    obtain ⟨e, r, rfl, he, hr⟩ := List.map_eq_cons_iff.mp hr
    rw [eq_of_lowerAscii ha (by decide), eq_of_lowerAscii hb (by decide)]
    refine ⟨r, ?_, hr⟩
    rw [percentDecode, hexValue?_of_lowerAscii he]
    rfl

theorem mem_map_toList {forms : List String} (h : forms.contains (String.ofList cs) = true) :
    cs ∈ forms.map String.toList := by
  have hmem := List.mem_map_of_mem (f := String.toList) (List.contains_iff_mem.mp h)
  rwa [String.toList_ofList] at hmem

theorem percentDecode_of_isSingleDot (h : isSingleDot s = true) :
    percentDecode s = Utf8.encode ['.'] := by
  obtain ⟨t, ht, hs⟩ : ∃ t, IsDot t ∧ s.map lowerAscii = t ++ [] := by
    have hmem : s.map lowerAscii ∈ [['.'], ['%', '2', 'e']] := mem_map_toList h
    simp only [List.mem_cons, List.not_mem_nil, or_false] at hmem
    rcases hmem with h | h
    · exact ⟨_, .inl rfl, h⟩
    · exact ⟨_, .inr rfl, h⟩
  obtain ⟨r, hd, hr⟩ := percentDecode_dot ht hs
  rw [hd, List.map_eq_nil_iff.mp hr]
  rfl

theorem percentDecode_of_isDoubleDot (h : isDoubleDot s = true) :
    percentDecode s = Utf8.encode ['.', '.'] := by
  obtain ⟨t, t', ht, ht', hs⟩ :
      ∃ t t', IsDot t ∧ IsDot t' ∧ s.map lowerAscii = t ++ (t' ++ []) := by
    have hmem : s.map lowerAscii ∈ [['.', '.'], ['.', '%', '2', 'e'], ['%', '2', 'e', '.'],
      ['%', '2', 'e', '%', '2', 'e']] := mem_map_toList h
    simp only [List.mem_cons, List.not_mem_nil, or_false] at hmem
    rcases hmem with h | h | h | h
    · exact ⟨_, _, .inl rfl, .inl rfl, h⟩
    · exact ⟨_, _, .inl rfl, .inr rfl, h⟩
    · exact ⟨_, _, .inr rfl, .inl rfl, h⟩
    · exact ⟨_, _, .inr rfl, .inr rfl, h⟩
  obtain ⟨r, hd, hr⟩ := percentDecode_dot ht hs
  obtain ⟨q, hd', hq⟩ := percentDecode_dot ht' hr
  rw [hd, hd', List.map_eq_nil_iff.mp hq]
  rfl

/-- The escaped form of a text is a dot segment only if the text is one. -/
theorem isSingleDot_percentEncode :
    isSingleDot (percentEncode segmentSet cs) = true ↔ cs = ['.'] := by
  constructor
  · intro h
    have hd := percentDecode_of_isSingleDot h
    rw [percentDecode_percentEncode (by decide)] at hd
    exact Utf8.encode_injective hd
  · rintro rfl
    decide

theorem isDoubleDot_percentEncode :
    isDoubleDot (percentEncode segmentSet cs) = true ↔ cs = ['.', '.'] := by
  constructor
  · intro h
    have hd := percentDecode_of_isDoubleDot h
    rw [percentDecode_percentEncode (by decide)] at hd
    exact Utf8.encode_injective hd
  · rintro rfl
    decide

/-- A segment in which the given characters are written. -/
def segmentOf (cs : List Char) : String :=
  String.ofList (percentEncode segmentSet cs)

theorem segmentOf_injective : Function.Injective segmentOf := fun _ _ h =>
  percentEncode_injective (by decide) (String.ofList_injective h)

theorem slash_not_mem_segmentOf (cs : List Char) : '/' ∉ (segmentOf cs).toList := by
  rw [segmentOf, String.toList_ofList]
  exact not_mem_percentEncode (by decide) (by decide) (by decide)

/-- What a name leaves in a path that it is added to. -/
inductive Trace where
  | nothing
  /-- An empty segment in the place of the one before it: the name becomes two dots. -/
  | parent
  | kept (cs : List Char)
  deriving DecidableEq

def counted (cs : List Char) : List Char :=
  cs.filter fun c => !isSkipped c

def traceOf (name : String) : Trace :=
  if name = "." ∨ name = ".." then .nothing
  else if counted name.toList = ['.', '.'] then .parent
  else if counted name.toList = ['.'] then .kept []
  else .kept (counted name.toList)

/-- A path with what a name leaves in it. -/
def Trace.extend (path : List String) : Trace → List String
  | .nothing => path
  | .parent => path.dropLast ++ [""]
  | .kept cs => path ++ [segmentOf cs]

def backwards (path : List String) : List (List Char) :=
  path.reverse.map String.toList

theorem map_ofList_backwards (path : List String) (s : List Char) :
    ((backwards path).reverse ++ [s]).map String.ofList = path ++ [String.ofList s] := by
  simp [backwards, ← List.map_reverse]

theorem pushSegment_of_ne (h : ¬ (name = "." ∨ name = "..")) :
    pushSegment path name =
      let before := backwards (if path = [""] then [] else path)
      let cs := counted name.toList
      (if cs = ['.', '.'] then (parent before).reverse ++ [[]]
        else if cs = ['.'] then before.reverse ++ [[]]
        else before.reverse ++ [percentEncode segmentSet cs]).map String.ofList := by
  rw [pushSegment, if_neg h]
  simp only [settle, isSingleDot_percentEncode, isDoubleDot_percentEncode]
  rfl

theorem pushSegment_kept (h : traceOf name = .kept cs) :
    pushSegment path name = (if path = [""] then [] else path) ++ [segmentOf cs] := by
  rw [traceOf] at h
  split_ifs at h with hdot htwo hone
  · cases h
    rw [pushSegment_of_ne hdot]
    simp only [if_neg htwo, if_pos hone, map_ofList_backwards]
    rfl
  · cases h
    rw [pushSegment_of_ne hdot]
    simp only [if_neg htwo, if_neg hone, map_ofList_backwards]
    rfl

theorem parent_backwards (h : ∀ s ∈ path.getLast?, isDrive s.toList = false) :
    parent (backwards path) = backwards path.dropLast := by
  rw [backwards, backwards, ← List.tail_reverse]
  cases hr : path.reverse with
  | nil => rfl
  | cons s before =>
    have hs : isDrive s.toList = false := by
      refine h s ?_
      rw [← List.head?_reverse, hr]
      rfl
    simp [parent, hs]

theorem pushSegment_parent (h : traceOf name = .parent) (hne : path ≠ [""])
    (hd : ∀ s ∈ path.getLast?, isDrive s.toList = false) :
    pushSegment path name = path.dropLast ++ [""] := by
  rw [traceOf] at h
  split_ifs at h with hdot htwo
  rw [pushSegment_of_ne hdot]
  simp only [if_pos htwo, if_neg hne, parent_backwards hd, map_ofList_backwards]

theorem pushSegment_nothing (h : traceOf name = .nothing) : pushSegment path name = path := by
  rw [traceOf] at h
  split_ifs at h with hdot
  exact if_pos hdot

theorem pushSegment_eq_extend (hne : path ≠ [""])
    (hd : ∀ s ∈ path.getLast?, isDrive s.toList = false) :
    pushSegment path name = (traceOf name).extend path := by
  cases h : traceOf name with
  | nothing => exact pushSegment_nothing h
  | parent => exact pushSegment_parent h hne hd
  | kept cs => rw [pushSegment_kept h, if_neg hne, Trace.extend]

/-- A name that a path takes as it is: neither a dot segment nor with tabs or line breaks. -/
def Plain (name : String) : Prop :=
  name ≠ "." ∧ name ≠ ".." ∧ ∀ c ∈ name.toList, isSkipped c = false

instance : DecidablePred Plain := fun name =>
  decidable_of_iff (name ≠ "." ∧ name ≠ ".." ∧ name.toList.all (fun c => !isSkipped c) = true)
    (by simp [Plain])

theorem traceOf_eq_kept_iff : traceOf name = .kept name.toList ↔ Plain name := by
  have hone : ['.'] = ".".toList := rfl
  have htwo : ['.', '.'] = "..".toList := rfl
  have hall : counted name.toList = name.toList ↔ ∀ c ∈ name.toList, isSkipped c = false := by
    rw [counted, List.filter_eq_self]
    simp
  constructor
  · intro h
    rw [traceOf] at h
    split_ifs at h with hdot hc hc'
    · have hnil : name.toList = [] := (Trace.kept.inj h).symm
      rw [counted, hnil] at hc'
      cases hc'
    · rw [not_or] at hdot
      exact ⟨hdot.1, hdot.2, hall.mp (Trace.kept.inj h)⟩
  · rintro ⟨h1, h2, h⟩
    have hc := hall.mpr h
    have hn1 : counted name.toList ≠ ['.'] := by
      rw [hc, hone]
      exact fun he => h1 (String.toList_injective he)
    have hn2 : counted name.toList ≠ ['.', '.'] := by
      rw [hc, htwo]
      exact fun he => h2 (String.toList_injective he)
    rw [traceOf, if_neg (not_or.mpr ⟨h1, h2⟩), if_neg hn2, if_neg hn1, hc]

theorem foldl_pushSegment_plain (hne : path ≠ [""]) (hn : path ≠ [])
    (h : ∀ name ∈ names, Plain name) :
    names.foldl pushSegment path = path ++ names.map fun name => segmentOf name.toList := by
  induction names generalizing path with
  | nil => simp
  | cons name names ih =>
    have hp := traceOf_eq_kept_iff.mpr (h name List.mem_cons_self)
    rw [List.foldl_cons, pushSegment_kept hp, if_neg hne,
      ih (by simp [List.append_eq_singleton_iff, hn]) (by simp)
        fun n hn => h n (List.mem_cons_of_mem _ hn)]
    simp

def pathText (u : Url) : String :=
  "/" ++ "/".intercalate u.path

/-- Every segment is free of slashes, and there is at least one. -/
structure Segmented (u : Url) : Prop where
  ne_nil : u.path ≠ []
  slash_not_mem : ∀ s ∈ u.path, '/' ∉ s.toList

theorem toList_pathText (u : Url) :
    u.pathText.toList = '/' :: ['/'].intercalate (u.path.map String.toList) := by
  rw [pathText, String.toList_append, String.toList_intercalate]
  rfl

theorem target_eq (u : Url) : u.target = u.pathText ++ (u.query.map ("?" ++ ·)).getD "" :=
  rfl

theorem Segmented.splitAll (h : u.Segmented) :
    Text.splitAll '/' (['/'].intercalate (u.path.map String.toList)) = u.path.map String.toList :=
  splitAll_intercalate (by simpa using h.ne_nil) (by simpa using h.slash_not_mem)

/-- The names in a path: the parts between its slashes, after the first one, with their escapes
undone. -/
def names? (u : Url) : Option (List String) :=
  (Text.splitAll '/' (u.pathText.toList.drop 1)).mapM fun part =>
    (Utf8.decode? (percentDecode part)).map String.ofList

/-- A path whose segments are names is read as these names. -/
theorem names?_eq_some (hne : names ≠ [])
    (h : u.path = names.map fun name => segmentOf name.toList) : u.names? = some names := by
  have hu : u.Segmented := by
    refine ⟨by simpa [h] using hne, fun s hs => ?_⟩
    obtain ⟨name, -, rfl⟩ := List.mem_map.mp (h ▸ hs)
    exact slash_not_mem_segmentOf _
  have hread (name : String) : (Utf8.decode? (percentDecode (segmentOf name.toList).toList)).map
      String.ofList = some name := by
    rw [segmentOf, String.toList_ofList, percentDecode_percentEncode (by decide),
      Utf8.decode?_encode, Option.map_some, String.ofList_toList]
  rw [names?, toList_pathText, List.drop_one, List.tail_cons, hu.splitAll, h, List.mapM_map,
    List.mapM_map]
  simp only [Function.comp_def, hread]
  exact List.mapM_pure.trans (congrArg some (List.map_id names))

theorem path_eq_of_pathText (hu : u.Segmented) (hv : v.Segmented) (h : u.pathText = v.pathText) :
    u.path = v.path := by
  have ht := congrArg String.toList h
  rw [toList_pathText, toList_pathText] at ht
  have hs := congrArg (Text.splitAll '/') (List.cons.inj ht).2
  rw [hu.splitAll, hv.splitAll] at hs
  exact List.map_injective_iff.mpr (fun _ _ => String.toList_injective) hs

theorem path_eq_of_target (hu : u.Segmented) (hv : v.Segmented) (hq : u.query = v.query)
    (h : u.target = v.target) : u.path = v.path := by
  rw [target_eq, target_eq, hq] at h
  exact path_eq_of_pathText hu hv ((String.append_left_inj _).mp h)

end PeerFleet.Url
