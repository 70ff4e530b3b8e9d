import PeerFleet.Proofs.Text.Digits
import PeerFleet.Proofs.Url.Path

/-! # Addresses that are read

What an address holds stands in the parts of its text: the authority up to its first delimiter,
in it the host up to a colon that no bracket closes in, then the port, and the path after the
authority.
-/

namespace PeerFleet

namespace DomainToAscii

/-- A colon is a forbidden code point of domains: no text with one is a domain. -/
def RefusesColons (toAscii? : DomainToAscii) : Prop :=
  ∀ cs, ':' ∈ cs → toAscii? cs = none

/-- Digits and dots are in ASCII as they are. No other text is known for a domain here. -/
def dotted : DomainToAscii := fun cs =>
  if cs.all (fun c => Text.isDigit c || c = '.') then some cs else none

theorem refusesColons_dotted : dotted.RefusesColons := fun cs h =>
  if_neg fun hall => absurd (List.all_eq_true.mp hall ':' h) (by decide)

end DomainToAscii

namespace Url

open Text

variable {toAscii? : DomainToAscii} {scheme : Scheme} {u : Url} {cs ds front rest authority tail s : List Char} {c d : Char}

theorem exists_hostText (bracketed : Bool) (cs : List Char) :
    ∃ rest, cs = hostText bracketed cs ++ rest ∧ ∀ c ∈ rest.head?, c = ':' := by
  induction cs generalizing bracketed with
  | nil => exact ⟨[], rfl, by simp⟩
  | cons d cs ih =>
    rw [hostText]
    split_ifs with h
    · exact ⟨d :: cs, rfl, by simpa using h.1⟩
    · obtain ⟨rest, hcs, hr⟩ := ih (d = '[' || (bracketed && d != ']'))
      exact ⟨rest, congrArg (d :: ·) hcs, hr⟩

theorem bracketed_of_parse (ha : toAscii?.RefusesColons) {host : Host}
    (h : Host.parse toAscii? cs = .ok host) (hc : ':' ∈ cs) : cs.getLast? = some ']' := by
  rw [Host.parse.eq_def] at h
  split at h
  next rest =>
    rw [Host.ofBracketed] at h
    split_ifs at h with hlast
    cases rest with
    | nil => cases hlast
    | cons d rest => rwa [List.getLast?_cons_cons]
  next =>
    have hocts : UInt8.ofNat ':'.toNat ∈ percentDecode cs :=
      mem_percentDecode (by decide) (by decide) (by decide) hc
    split at h
    next decoded hd =>
      have hmem : ':' ∈ decoded := Utf8.mem_of_ascii hd (by decide) hocts
      rw [Host.ofDecoded, ha decoded hmem] at h
      cases h
    next => cases h

theorem portOf_eq_ok {port : Option ℕ} (h : portOf scheme (c :: ds) = .ok port) (hne : ds ≠ []) :
    ∃ n, natOfDigits? 10 ds = some n ∧ n ≤ 65535 ∧ port.getD scheme.defaultPort = n := by
  cases ds with
  | nil => exact absurd rfl hne
  | cons d ds =>
    rw [portOf.eq_def] at h
    dsimp only at h
    split at h
    next n hn =>
      split_ifs at h with hlt hdef <;> cases h
      · exact ⟨n, hn, Nat.not_lt.mp hlt, hdef.symm⟩
      · exact ⟨n, hn, Nat.not_lt.mp hlt, rfl⟩
    next => cases h

/-- Host and port are read from a text: the host up to where it ends, and the port from there. -/
structure Located (toAscii? : DomainToAscii) (u : Url) (text : List Char) : Prop where
  host : Host.parse toAscii? (hostText false text) = .ok u.host
  port : portOf u.scheme (text.drop (hostText false text).length) = .ok u.port

/-- What ends in a colon and a port is a host and this port: no colon before it is taken for the
one in front of the port. -/
theorem Located.of_port (ha : toAscii?.RefusesColons)
    (h : u.Located toAscii? (front ++ ':' :: ds)) (hd : ∀ d ∈ ds, d ≠ ':' ∧ d ≠ ']')
    (hne : ds ≠ []) : Host.parse toAscii? front = .ok u.host ∧
      ∃ n, natOfDigits? 10 ds = some n ∧ n ≤ 65535 ∧ u.effectivePort = n := by
  obtain ⟨hh, hp⟩ := h
  obtain ⟨rest, hcs, hr⟩ := exists_hostText false (front ++ ':' :: ds)
  generalize hostText false (front ++ ':' :: ds) = host at hh hp hcs
  have hlast {d : Char} (h : (front ++ ':' :: ds).getLast? = some d) : d ≠ ':' ∧ d ≠ ']' := by
    rw [List.append_cons, List.getLast?_append_of_ne_nil _ hne] at h
    exact hd d (List.mem_of_getLast? h)
  rw [hcs, List.drop_left] at hp
  -- A host that is all of the text has a colon in it, and so a bracket at its end.
  cases rest with
  | nil =>
    rw [List.append_nil] at hcs
    have hb := bracketed_of_parse ha hh (hcs ▸ List.mem_append_right _ List.mem_cons_self)
    exact absurd rfl (hlast (hcs ▸ hb)).2
  | cons c rest =>
    obtain rfl := hr c rfl
    have hrest : rest ≠ [] := by
      rintro rfl
      exact absurd rfl (hlast (hcs ▸ List.getLast?_concat)).1
    obtain ⟨n, hn, hport⟩ := portOf_eq_ok hp hrest
    have hcolon : ':' ∉ rest := fun h =>
      absurd ((natOfDigits?_ten_eq_some_iff.mp hn).2.1 _ h) (by decide)
    have hsplit := splitLast_eq_some_iff.mpr ⟨hcs, hcolon⟩
    rw [splitLast_eq_some_iff.mpr ⟨rfl, fun h => (hd _ h).1 rfl⟩] at hsplit
    obtain ⟨rfl, rfl⟩ := Prod.mk.inj (Option.some.inj hsplit)
    exact ⟨hh, n, hn, hport⟩

theorem exists_of_bind_eq_ok {ε α β : Type} {x : Except ε α} {f : α → Except ε β} {b : β}
    (h : x >>= f = .ok b) : ∃ a, x = .ok a ∧ f a = .ok b := by
  cases x with
  | error e => cases h
  | ok a => exact ⟨a, rfl, h⟩

def afterUserinfo (authority : List Char) : List Char :=
  ((splitLast '@' authority).getD ([], authority)).2

theorem afterUserinfo_append (cs : List Char) (h : '@' ∉ ds) :
    afterUserinfo (cs ++ ds) = afterUserinfo cs ++ ds := by
  by_cases hc : '@' ∈ cs
  · obtain ⟨front, after, hsplit⟩ := exists_splitLast hc
    obtain ⟨rfl, hn⟩ := splitLast_eq_some_iff.mp hsplit
    have hsplit' : splitLast '@' (front ++ '@' :: after ++ ds) = some (front, after ++ ds) :=
      splitLast_eq_some_iff.mpr ⟨by simp, by simp [hn, h]⟩
    rw [afterUserinfo, afterUserinfo, hsplit, hsplit']
    rfl
  · have hcd : '@' ∉ cs ++ ds := by simp [hc, h]
    rw [afterUserinfo, afterUserinfo, splitLast_eq_none_iff.mpr hc, splitLast_eq_none_iff.mpr hcd]
    rfl

/-- The authority that a text starts with. -/
def authorityOf (cs : List Char) : List Char :=
  cs.takeWhile fun c => !endsAuthority c

/-- What follows the authority of a text. -/
def afterAuthority (cs : List Char) : List Char :=
  cs.dropWhile fun c => !endsAuthority c

theorem authorityOf_append_afterAuthority (cs : List Char) :
    authorityOf cs ++ afterAuthority cs = cs :=
  List.takeWhile_append_dropWhile

theorem of_mem_authorityOf (h : c ∈ authorityOf cs) : endsAuthority c = false := by
  simpa using List.mem_takeWhile_imp h

theorem afterAuthority_cons (h : afterAuthority cs = c :: rest) : endsAuthority c = true := by
  have := List.head?_dropWhile_not (fun c => !endsAuthority c) cs
  rw [← afterAuthority, h] at this
  simpa using this

theorem not_endsAuthority_of_isSkipped (h : isSkipped c = true) : endsAuthority c = false := by
  simp only [isSkipped, Bool.or_eq_true, decide_eq_true_eq] at h
  rcases h with (rfl | rfl) | rfl <;> rfl

theorem not_isSlash (h : endsAuthority c = false) : isSlash c = false := by
  simp only [endsAuthority, Bool.or_eq_false_iff] at h
  exact h.1.1

theorem counted_parts (cs : List Char) : authorityOf (counted cs) = counted (authorityOf cs) ∧
    afterAuthority (counted cs) = counted (afterAuthority cs) := by
  induction cs with
  | nil => exact ⟨rfl, rfl⟩
  | cons c cs ih =>
    simp only [authorityOf, afterAuthority, counted] at ih ⊢
    by_cases hs : isSkipped c = true
    · simp [hs, not_endsAuthority_of_isSkipped hs, ih]
    · by_cases he : endsAuthority c = true <;> simp [hs, he, ih]

theorem parts_of_ofAuthority (h : ofAuthority toAscii? scheme cs = .ok u)
    (hcs : cs.dropWhile isSlash = ds) :
    u.scheme = scheme ∧ u.Located toAscii? (afterUserinfo (authorityOf ds)) ∧
      tailOf (afterAuthority ds) = (u.path, u.query, u.fragment) := by
  have hdrop : (authorityOf ds ++ afterAuthority ds).drop (authorityOf ds).length =
    afterAuthority ds := List.drop_left
  rw [authorityOf_append_afterAuthority] at hdrop
  have htake : ds.takeWhile (fun c => !endsAuthority c) = authorityOf ds := rfl
  have hdef : ((splitLast '@' (authorityOf ds)).getD ([], authorityOf ds)).2 =
    afterUserinfo (authorityOf ds) := rfl
  rw [ofAuthority] at h
  simp only [hcs, htake, hdrop, hdef] at h
  split_ifs at h
  · cases h
  · obtain ⟨host, hh, h⟩ := exists_of_bind_eq_ok h
    obtain ⟨port, hp, h⟩ := exists_of_bind_eq_ok h
    cases h
    exact ⟨rfl, ⟨hh, hp⟩, rfl⟩

theorem mem_parent {before : List (List Char)} (h : s ∈ parent before) : s ∈ before := by
  cases before with
  | nil => exact h
  | cons t before =>
    rw [parent] at h
    split_ifs at h
    · exact h
    · exact List.mem_cons_of_mem _ h

theorem mem_settle (before segs : List (List Char)) (h : s ∈ settle before segs) :
    s = [] ∨ s ∈ before ∨ s ∈ segs := by
  fun_induction settle before segs with
  | case1 before => exact .inr (.inl (List.mem_reverse.mp h))
  | case2 before t hd =>
    rcases List.mem_append.mp h with h | h
    · exact .inr (.inl (mem_parent (List.mem_reverse.mp h)))
    · exact .inl (List.mem_singleton.mp h)
  | case3 before t hd hs =>
    rcases List.mem_append.mp h with h | h
    · exact .inr (.inl (List.mem_reverse.mp h))
    · exact .inl (List.mem_singleton.mp h)
  | case4 before t hd hs =>
    rcases List.mem_append.mp h with h | h
    · exact .inr (.inl (List.mem_reverse.mp h))
    · exact .inr (.inr h)
  | case5 before t t' segs hd ih =>
    rcases ih h with h | h | h
    · exact .inl h
    · exact .inr (.inl (mem_parent h))
    · exact .inr (.inr (List.mem_cons_of_mem _ h))
  | case6 before t t' segs hd hs ih =>
    rcases ih h with h | h | h
    · exact .inl h
    · exact .inr (.inl h)
    · exact .inr (.inr (List.mem_cons_of_mem _ h))
  | case7 before t t' segs hd hs ih =>
    rcases ih h with h | h | h
    · exact .inl h
    · rcases List.mem_cons.mp h with rfl | h
      · exact .inr (.inr List.mem_cons_self)
      · exact .inr (.inl h)
    · exact .inr (.inr (List.mem_cons_of_mem _ h))

theorem settle_ne_nil (before : List (List Char)) {segs : List (List Char)} (h : segs ≠ []) :
    settle before segs ≠ [] := by
  fun_induction settle before segs with
  | case1 => exact absurd rfl h
  | case2 | case3 | case4 => simp
  | case5 _ _ _ _ _ ih | case6 _ _ _ _ _ _ ih | case7 _ _ _ _ _ _ ih => exact ih (by simp)

theorem exists_settle_append {last : List (List Char)} (hne : last ≠ [])
    (hl : ∀ s ∈ last, isDoubleDot s = false ∧ isSingleDot s = false)
    (before segs : List (List Char)) : ∃ front, settle before (segs ++ last) = front ++ last := by
  have hlast (before : List (List Char)) : settle before last = before.reverse ++ last := by
    induction last generalizing before with
    | nil => exact absurd rfl hne
    | cons s last ih =>
      obtain ⟨⟨hd, hs⟩, hl⟩ := List.forall_mem_cons.mp hl
      cases last with
      | nil => simp [settle, hd, hs]
      | cons t last =>
        rw [settle, if_neg (by simp [hd]), if_neg (by simp [hs]), ih (by simp) hl]
        simp
  induction segs generalizing before with
  | nil => exact ⟨before.reverse, hlast before⟩
  | cons t segs ih =>
    obtain ⟨t', segs', hsegs⟩ : ∃ t' segs', segs ++ last = t' :: segs' :=
      List.exists_cons_of_ne_nil (by simp [hne])
    rw [List.cons_append, hsegs, settle, ← hsegs]
    split_ifs
    · exact ih _
    · exact ih _
    · exact ih _

theorem not_isDot_of_colon (h : ':' ∈ s) : isDoubleDot s = false ∧ isSingleDot s = false := by
  have hmem : ':' ∈ s.map lowerAscii := List.mem_map.mpr ⟨':', h, by decide⟩
  have hnot {forms : List String} (hf : ∀ t ∈ forms.map String.toList, ':' ∉ t) :
      forms.contains (String.ofList (s.map lowerAscii)) = false :=
    Bool.eq_false_iff.mpr fun hc => hf _ (mem_map_toList hc) hmem
  exact ⟨hnot (by decide), hnot (by decide)⟩

def slashed (cs : List Char) : List Char :=
  cs.map fun c => if c = '\\' then '/' else c

theorem segmentsOf_eq (cs : List Char) :
    segmentsOf cs = settle [] ((splitAll '/' (slashed cs)).map (percentEncode pathSet)) :=
  rfl

theorem mem_segmentsOf (h : s ∈ segmentsOf cs) :
    s = [] ∨ ∃ part ∈ splitAll '/' (slashed cs), s = percentEncode pathSet part := by
  rcases mem_settle _ _ h with h | h | h
  · exact .inl h
  · cases h
  · obtain ⟨part, hp, rfl⟩ := List.mem_map.mp h
    exact .inr ⟨part, hp, rfl⟩

theorem slash_not_mem_segmentsOf (h : s ∈ segmentsOf cs) : '/' ∉ s := by
  rcases mem_segmentsOf h with rfl | ⟨part, hp, rfl⟩
  · exact List.not_mem_nil
  · exact fun hs =>
      not_mem_of_mem_splitAll hp (of_mem_percentEncode (by decide) (by decide) hs).1

theorem segmentsOf_ne_nil (cs : List Char) : segmentsOf cs ≠ [] :=
  settle_ne_nil _ (by simp [splitAll_eq_splitOn, List.splitOn_ne_nil])

theorem slashed_of_slashes (hc : ∀ c ∈ cs, c = '/') : ∀ c ∈ slashed cs, c = '/' := by
  intro c hmem
  obtain ⟨d, hd, rfl⟩ := List.mem_map.mp hmem
  rw [hc d hd]
  rfl

theorem slash_not_mem_slashed (h : ∀ c ∈ cs, isSlash c = false) : '/' ∉ slashed cs := by
  intro hmem
  obtain ⟨c, hc, he⟩ := List.mem_map.mp hmem
  have hslash := h c hc
  rw [isSlash, Bool.or_eq_false_iff, decide_eq_false_iff_not, decide_eq_false_iff_not] at hslash
  rw [if_neg hslash.2] at he
  exact hslash.1 he

theorem eq_nil_of_slashes (hc : ∀ c ∈ cs, c = '/') (h : s ∈ segmentsOf cs) : s = [] := by
  rcases mem_segmentsOf h with rfl | ⟨part, hp, rfl⟩
  · rfl
  · rw [eq_nil_of_mem_splitAll (slashed_of_slashes hc) hp]
    rfl

/-- A colon with nothing but slashes behind its segment is kept in a path. -/
theorem exists_mem_segmentsOf (front : List Char) (hs : ∀ c ∈ ds, isSlash c = false)
    (ht : ∀ c ∈ tail, c = '/') : ∃ s ∈ segmentsOf (front ++ ':' :: ds ++ tail), ':' ∈ s := by
  have hslash : '/' ∉ slashed (':' :: ds) :=
    slash_not_mem_slashed (List.forall_mem_cons.mpr ⟨rfl, hs⟩)
  obtain ⟨parts, part, empties, hsplit, hempty⟩ :=
    exists_splitAll_append (slashed front) hslash (slashed_of_slashes ht)
  have hmem : ':' ∈ percentEncode pathSet (part ++ slashed (':' :: ds)) :=
    mem_percentEncode (by decide) (by decide) (List.mem_append_right _ List.mem_cons_self)
  have hdots : ∀ s ∈ ((part ++ slashed (':' :: ds)) :: empties).map (percentEncode pathSet),
      isDoubleDot s = false ∧ isSingleDot s = false := by
    refine List.forall_mem_map.mpr (List.forall_mem_cons.mpr ⟨not_isDot_of_colon hmem, ?_⟩)
    intro e he
    rw [hempty e he]
    decide
  obtain ⟨before, hsettle⟩ := exists_settle_append (List.cons_ne_nil _ _) hdots []
    (parts.map (percentEncode pathSet))
  refine ⟨_, ?_, hmem⟩
  rw [segmentsOf_eq, slashed, List.map_append, List.map_append, ← slashed, ← slashed, ← slashed,
    hsplit, List.map_append, List.map_cons, hsettle]
  exact List.mem_append_right _ List.mem_cons_self

def afterSlash (cs : List Char) : List Char :=
  match cs with
  | c :: rest => if isSlash c then rest else c :: rest
  | [] => []

theorem tailOf_eq (hf : '#' ∉ cs) (hq : '?' ∉ cs) :
    tailOf cs = ((segmentsOf (afterSlash cs)).map String.ofList, none, none) := by
  simp only [tailOf, splitFirst_eq_none_iff.mpr hf, splitFirst_eq_none_iff.mpr hq]
  rfl

theorem tailOf_of_slashes (h : ∀ c ∈ cs, c = '/') :
    ∃ path, tailOf cs = (path, none, none) ∧ ∀ s ∈ path, s = "" := by
  have hno {c : Char} (hc : c ≠ '/') : c ∉ cs := fun hmem => hc (h c hmem)
  refine ⟨_, tailOf_eq (hno (by decide)) (hno (by decide)), List.forall_mem_map.mpr fun s hs => ?_⟩
  have hafter : ∀ c ∈ afterSlash cs, c = '/' := by
    cases cs with
    | nil => simp [afterSlash]
    | cons c cs =>
      obtain ⟨rfl, hcs⟩ := List.forall_mem_cons.mp h
      exact hcs
  rw [eq_nil_of_slashes hafter hs]

theorem not_mem_of_tailOf {path : List String} (h : tailOf cs = (path, none, none)) :
    '#' ∉ cs ∧ '?' ∉ cs := by
  rw [← splitFirst_eq_none_iff, ← splitFirst_eq_none_iff]
  cases hf : splitFirst '#' cs with
  | some p => simp [tailOf, hf] at h
  | none =>
    cases hq : splitFirst '?' cs with
    | some p => simp [tailOf, hf, hq] at h
    | none => exact ⟨rfl, rfl⟩

theorem exists_path_tailOf (cs : List Char) :
    ∃ path, (tailOf cs).1 = (segmentsOf path).map String.ofList :=
  ⟨_, rfl⟩

theorem dropWhile_eq_self {p : Char → Bool} (h : ∀ c ∈ cs.head?, p c = false) :
    cs.dropWhile p = cs := by
  cases cs with
  | nil => rfl
  | cons c cs => simp [h c rfl]

theorem significant_eq (hh : ∀ c ∈ cs.head?, isOuter c = false)
    (hl : ∀ c ∈ cs.getLast?, isOuter c = false) : significant cs = counted cs := by
  rw [significant, dropWhile_eq_self hh, dropWhile_eq_self (by rwa [List.head?_reverse]),
    List.reverse_reverse]
  rfl

theorem parse_eq (scheme : Scheme) (hl : ∀ c ∈ cs.getLast?, isOuter c = false) :
    parse toAscii? (scheme.name ++ "://" ++ String.ofList cs) =
      ofAuthority toAscii? scheme ('/' :: '/' :: counted cs) := by
  have htext : (scheme.name ++ "://" ++ String.ofList cs).toList =
      scheme.name.toList ++ ':' :: '/' :: '/' :: cs := by
    simp [String.toList_append]
  have hname : scheme.name.toList.filter (fun c => !isSkipped c) = scheme.name.toList := by
    cases scheme <;> rfl
  have hsig : significant (scheme.name.toList ++ ':' :: '/' :: '/' :: cs) =
      scheme.name.toList ++ ':' :: '/' :: '/' :: counted cs := by
    rw [significant_eq, counted, List.filter_append, hname]
    · rfl
    · cases scheme <;> simp [Scheme.name, isOuter]
    · rw [List.getLast?_append_of_ne_nil _ (List.cons_ne_nil _ _), List.getLast?_cons_cons]
      cases cs with
      | nil => simp [isOuter]
      | cons c cs => rwa [List.getLast?_cons_cons, List.getLast?_cons_cons]
  have hsplit : splitFirst ':' (scheme.name.toList ++ ':' :: '/' :: '/' :: counted cs) =
      some (scheme.name.toList, '/' :: '/' :: counted cs) :=
    splitFirst_eq_some_iff.mpr ⟨rfl, by cases scheme <;> decide⟩
  rw [parse]
  simp only [htext, hsig, hsplit]
  cases scheme <;> rfl

/-- What is read of an address whose authority is not empty. -/
theorem parts_of_parse (h : parse toAscii? (scheme.name ++ "://" ++ String.ofList cs) = .ok u)
    (hl : ∀ c ∈ cs.getLast?, isOuter c = false) (hne : counted (authorityOf cs) ≠ []) :
    u.scheme = scheme ∧ u.Located toAscii? (afterUserinfo (counted (authorityOf cs))) ∧
      tailOf (counted (afterAuthority cs)) = (u.path, u.query, u.fragment) := by
  rw [parse_eq scheme hl] at h
  obtain ⟨c, rest, hc⟩ := List.exists_cons_of_ne_nil hne
  have hslash : isSlash c = false :=
    not_isSlash (of_mem_authorityOf (List.mem_of_mem_filter (hc ▸ List.mem_cons_self)))
  have hhead : ∀ c ∈ (counted cs).head?, isSlash c = false := by
    rw [← authorityOf_append_afterAuthority (counted cs), (counted_parts cs).1, hc]
    simpa using hslash
  have hdrop : ('/' :: '/' :: counted cs).dropWhile isSlash = counted cs :=
    dropWhile_eq_self hhead
  have hparts := parts_of_ofAuthority h hdrop
  rwa [(counted_parts cs).1, (counted_parts cs).2] at hparts

theorem exists_ofAuthority {text : String} (h : parse toAscii? text = .ok u) :
    ∃ scheme cs, ofAuthority toAscii? scheme cs = .ok u := by
  rw [parse] at h
  split at h
  next => cases h
  next =>
    split at h
    next => exact ⟨_, _, h⟩
    next => exact ⟨_, _, h⟩
    next => cases h

theorem segmented_of_parse {text : String} (h : parse toAscii? text = .ok u) : u.Segmented := by
  obtain ⟨scheme, cs, h⟩ := exists_ofAuthority h
  obtain ⟨-, -, htail⟩ := parts_of_ofAuthority h rfl
  obtain ⟨path, hpath⟩ := exists_path_tailOf (afterAuthority (cs.dropWhile isSlash))
  replace hpath : u.path = (segmentsOf path).map String.ofList := by rw [← hpath, htail]
  refine ⟨by simp [hpath, segmentsOf_ne_nil], fun s hs => ?_⟩
  rw [hpath] at hs
  obtain ⟨t, ht, rfl⟩ := List.mem_map.mp hs
  rw [String.toList_ofList]
  exact slash_not_mem_segmentsOf ht

end Url

end PeerFleet
