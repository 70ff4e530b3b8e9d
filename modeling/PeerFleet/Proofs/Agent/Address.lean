import PeerFleet.Agent.Address
import PeerFleet.Proofs.Url.Reading

/-! # Addresses with a port

The text of an address is read twice: as an address of a resource, and from its end for a colon and
a port. Both see the same port as long as nothing but slashes follows the authority. Otherwise the
port is one of a path, a query or a fragment, and the authority need not have one.
-/

namespace PeerFleet.Agent

open Text Url

variable {toAscii? : DomainToAscii} {address : String} {tls : Bool} {url : Url} {cs rest front port : List Char} {c : Char}

/-- The text of an address, without blanks around it and without a scheme in front. -/
def bare (address : String) : List Char :=
  let cs := trimChars address.toList
  match dropWord "http://".toList cs with
  | some rest => rest
  | none => (dropWord "https://".toList cs).getD cs

/-- The authority of an address ends in a colon and the digits of a port. -/
def EndsInPort (address : String) (before : List Char) (port : ℕ) : Prop :=
  ∃ digits, authorityOf (bare address) = before ++ ':' :: digits ∧ digits ≠ [] ∧
    (∀ d ∈ digits, isDigit d = true) ∧ decimalValue digits = port ∧ port ≤ 65535

/-- All that a base holds is what the authority of the address says, and how the channel is
secured. -/
structure ReadAs (toAscii? : DomainToAscii) (address : String) (tls : Bool) (url : Url) :
    Prop where
  authority : ∃ before, EndsInPort address before url.effectivePort ∧
    Host.parse toAscii? (afterUserinfo (counted before)) = .ok url.host
  path : ∀ s ∈ url.path, s = ""
  query : url.query = none
  fragment : url.fragment = none
  scheme : url.scheme = .https ↔ tls = true

/-- An address is accepted for what its authority says, and only with a port there. -/
structure PortRequired (toAscii? : DomainToAscii) (address : String) (tls : Bool) : Prop where
  accepted : ∀ url, parseAddress toAscii? address tls = .ok url →
    ReadAs toAscii? address tls url
  refused : (¬ ∃ before port, EndsInPort address before port) →
    ∃ reason, parseAddress toAscii? address tls = .error (.invalidAddress address reason)

theorem bare_eq (h : withoutScheme (trimChars address.toList) = .ok rest) :
    bare address = rest := by
  rw [bare]
  generalize trimChars address.toList = cs at h
  rw [withoutScheme] at h
  split at h
  next scheme rest' hs =>
    have hcs := eq_of_splitAtWord hs
    dsimp only at h
    split_ifs at h with hname
    cases h
    rcases hname with hname | hname
    · obtain rfl : scheme = "http".toList := by rw [← hname, String.toList_ofList]
      have hdrop : dropWord "http://".toList cs = some rest := dropWord_eq_some_iff.mpr hcs
      simp only [hdrop]
    · obtain rfl : scheme = "https".toList := by rw [← hname, String.toList_ofList]
      have hnone : dropWord "http://".toList cs = none := by
        rw [hcs]
        rfl
      have hdrop : dropWord "https://".toList cs = some rest := dropWord_eq_some_iff.mpr hcs
      simp only [hnone, hdrop, Option.getD_some]
  next hs =>
    have hnone {scheme word : List Char} (hw : word = scheme ++ "://".toList) :
        dropWord word cs = none := by
      rw [Option.eq_none_iff_forall_ne_some]
      intro rest hd
      have hcs := dropWord_eq_some_iff.mp hd
      rw [hw] at hcs
      exact splitAtWord_ne_none scheme _ rest (hcs ▸ hs)
    cases h
    have hhttp : "http://".toList = "http".toList ++ "://".toList := by decide
    have hhttps : "https://".toList = "https".toList ++ "://".toList := by decide
    simp only [hnone hhttp, hnone hhttps, Option.getD_none]

def schemeOf (tls : Bool) : Scheme :=
  if tls then .https else .http

theorem of_parseAddress (h : parseAddress toAscii? address tls = .ok url) :
    Url.parse toAscii? ((schemeOf tls).name ++ "://" ++ String.ofList (bare address)) = .ok url ∧
      endsInPort (bare address) = true := by
  have hbase : baseOfChars toAscii? (trimChars address.toList) tls = .ok url := by
    rw [parseAddress] at h
    split at h
    next u hu => exact hu.trans (by cases h; rfl)
    next => cases h
  rw [baseOfChars] at hbase
  by_cases hempty : (trimChars address.toList).isEmpty = true
  · rw [if_pos hempty] at hbase
    cases hbase
  · rw [if_neg hempty] at hbase
    obtain ⟨rest, hrest, hbase⟩ := exists_of_bind_eq_ok hbase
    rw [bare_eq hrest]
    dsimp only at hbase
    split at hbase
    next => cases hbase
    next u hu =>
      by_cases hport : endsInPort rest = true
      · rw [if_pos hport] at hbase
        cases hbase
        exact ⟨hu, hport⟩
      · rw [if_neg hport] at hbase
        cases hbase

def portChars : List Char :=
  "+0123456789".toList

theorem forall_of_all {p : Char → Prop} [DecidablePred p] (h : portChars.all (p ·) = true)
    (hsub : port ⊆ portChars) : ∀ c ∈ port, p c := fun c hc =>
  of_decide_eq_true (List.all_eq_true.mp h c (hsub hc))

theorem mem_portChars (h : isDigit c = true) : c ∈ portChars := by
  have hall : ∀ n : Fin 10, Char.ofNat ('0'.toNat + n) ∈ portChars := by decide
  have hle : '0'.toNat ≤ c.toNat := by
    rw [isDigit, Bool.and_eq_true, decide_eq_true_eq] at h
    exact h.1
  have hc : Char.ofNat ('0'.toNat + (c.toNat - '0'.toNat)) = c := by
    rw [Nat.add_sub_cancel' hle, Char.ofNat_toNat]
  exact hc ▸ hall ⟨digitValue c, digitValue_lt h⟩

theorem of_endsInPort (h : endsInPort cs = true) : ∃ front port,
    dropTrailing '/' cs = front ++ ':' :: port ∧ port ≠ [] ∧ port ⊆ portChars := by
  have hdigits {ds : List Char} {n : ℕ} (hn : natOfDigits? 10 ds = some n) :
      ds ≠ [] ∧ ds ⊆ portChars := by
    obtain ⟨hne, hd, -⟩ := natOfDigits?_ten_eq_some_iff.mp hn
    exact ⟨hne, fun c hc => mem_portChars (hd c hc)⟩
  rw [endsInPort] at h
  split at h
  next front port hs =>
    refine ⟨front, port, (splitLast_eq_some_iff.mp hs).1, ?_⟩
    cases hn : natOfSigned? port with
    | none =>
      rw [hn] at h
      cases h
    | some n =>
      rw [natOfSigned?.eq_def] at hn
      split at hn
      next digits =>
        exact ⟨by simp, List.cons_subset.mpr ⟨by decide, (hdigits hn).2⟩⟩
      next => exact hdigits hn
  next => cases h

theorem not_isOuter_of_endsInPort (h : endsInPort cs = true) :
    ∀ c ∈ cs.getLast?, isOuter c = false := by
  obtain ⟨front, port, hcs, hne, hsub⟩ := of_endsInPort h
  have hport : ∀ c ∈ port, isOuter c = false := forall_of_all (by decide) hsub
  obtain ⟨n, hn⟩ := exists_dropTrailing '/' cs
  have hsplit : cs = front ++ [':'] ++ (port ++ List.replicate n '/') := by
    rw [hn, hcs]
    simp
  intro c hc
  rw [hsplit, List.getLast?_append_of_ne_nil _ (by simp [hne])] at hc
  rcases List.mem_append.mp (List.mem_of_getLast? hc) with hc | hc
  · exact hport c hc
  · rw [List.eq_of_mem_replicate hc]
    decide

theorem counted_port (h : port ⊆ portChars) (front : List Char) :
    counted (front ++ ':' :: port) = counted front ++ ':' :: port := by
  have hall : ∀ c ∈ port, (!isSkipped c) = true := forall_of_all (by decide) h
  have hport : counted port = port := List.filter_eq_self.mpr hall
  rw [counted, List.filter_append]
  exact congrArg (counted front ++ ':' :: ·) hport

theorem authorityOf_eq (hcs : dropTrailing '/' cs = front ++ ':' :: port)
    (ht : ∀ c ∈ afterAuthority cs, c = '/') : authorityOf cs = front ++ ':' :: port := by
  have hslash : '/' ∉ authorityOf cs := fun hmem => absurd (of_mem_authorityOf hmem) (by decide)
  rw [← authorityOf_append_afterAuthority cs, dropTrailing_append,
    if_pos (dropTrailing_eq_nil_iff.mpr ht), dropTrailing_eq_self hslash] at hcs
  exact hcs

/-- With slashes alone behind its authority an address is read from its authority. -/
theorem readAs_of_slashes (ha : toAscii?.RefusesColons)
    (h : parseAddress toAscii? address tls = .ok url)
    (ht : ∀ c ∈ afterAuthority (bare address), c = '/') : ReadAs toAscii? address tls url := by
  obtain ⟨hparse, hends⟩ := of_parseAddress h
  obtain ⟨front, port, hcs, hne, hport⟩ := of_endsInPort hends
  have hA := authorityOf_eq hcs ht
  have hcounted : counted (authorityOf (bare address)) = counted front ++ ':' :: port := by
    rw [hA, counted_port hport]
  have hat : '@' ∉ ':' :: port := by
    intro hmem
    rcases List.mem_cons.mp hmem with hc | hc
    · exact absurd hc (by decide)
    · exact absurd (hport hc) (by decide)
  obtain ⟨hscheme, hlocated, htail⟩ := parts_of_parse hparse (not_isOuter_of_endsInPort hends)
    (by simp [hcounted])
  rw [hcounted, afterUserinfo_append _ hat] at hlocated
  have hdelimiters : ∀ c ∈ port, c ≠ ':' ∧ c ≠ ']' := forall_of_all (by decide) hport
  obtain ⟨hhost, n, hn, hle, heff⟩ := hlocated.of_port ha hdelimiters hne
  obtain ⟨hne, hd, hval⟩ := natOfDigits?_ten_eq_some_iff.mp hn
  have hbehind : ∀ c ∈ counted (afterAuthority (bare address)), c = '/' := fun c hc =>
    ht c (List.mem_of_mem_filter hc)
  obtain ⟨path, hslashes, hempty⟩ := tailOf_of_slashes hbehind
  rw [htail] at hslashes
  obtain ⟨rfl, hquery, hfragment⟩ : url.path = path ∧ url.query = none ∧ url.fragment = none := by
    simpa using hslashes
  refine ⟨⟨front, ⟨port, hA, hne, hd, hval.trans heff.symm, heff ▸ hle⟩, hhost⟩, hempty, hquery,
    hfragment, ?_⟩
  rw [hscheme, schemeOf]
  cases tls <;> simp

theorem exists_port_behind (h : endsInPort cs = true) (hno : ¬ ∀ c ∈ afterAuthority cs, c = '/') :
    ∃ d mid port n, afterAuthority cs = d :: (mid ++ ':' :: port ++ List.replicate n '/') ∧
      port ⊆ portChars := by
  obtain ⟨front, port, hcs, -, hport⟩ := of_endsInPort h
  have hinside : ∀ c ∈ port, endsAuthority c = false := forall_of_all (by decide) hport
  rw [← dropTrailing_eq_nil_iff] at hno
  obtain ⟨d, rest, hd⟩ := List.exists_cons_of_ne_nil hno
  obtain ⟨n, hn⟩ := exists_dropTrailing '/' (afterAuthority cs)
  rw [hd, List.cons_append] at hn
  have hdport : d ∉ ':' :: port := by
    have hends := afterAuthority_cons hn
    intro hmem
    rcases List.mem_cons.mp hmem with rfl | hmem
    · cases hends
    · rw [hinside d hmem] at hends
      cases hends
  rw [← authorityOf_append_afterAuthority cs, dropTrailing_append, if_neg hno, hd] at hcs
  rcases List.append_eq_append_iff.mp hcs with ⟨mid, -, hmid⟩ | ⟨mid, -, hmid⟩
  · cases mid with
    | nil =>
      rw [List.nil_append] at hmid
      exact absurd (hmid ▸ List.mem_cons_self) hdport
    | cons c mid =>
      rw [(List.cons.inj hmid).2] at hn
      exact ⟨d, mid, port, n, hn, hport⟩
  · exact absurd (hmid ▸ List.mem_append_right _ List.mem_cons_self) hdport

theorem exists_mem_ne_empty {d : Char} {mid : List Char} {segments : List String} {n : ℕ}
    (hends : endsAuthority d = true) (hport : port ⊆ portChars)
    (h : tailOf (counted (d :: (mid ++ ':' :: port ++ List.replicate n '/'))) =
      (segments, none, none)) : ∃ s ∈ segments, s ≠ "" := by
  have hslashes : ∀ c ∈ port, isSlash c = false := forall_of_all (by decide) hport
  have hcounted : counted (d :: (mid ++ ':' :: port ++ List.replicate n '/')) =
      d :: (counted mid ++ ':' :: port ++ List.replicate n '/') := by
    have hslashes : counted (List.replicate n '/') = List.replicate n '/' :=
      List.filter_eq_self.mpr fun c hc => by
        rw [List.eq_of_mem_replicate hc]
        rfl
    have hd : isSkipped d = false := by
      by_contra hs
      rw [Bool.not_eq_false] at hs
      rw [not_endsAuthority_of_isSkipped hs] at hends
      cases hends
    rw [counted, List.filter_cons_of_pos (by simp [hd]), List.filter_append, ← counted,
      counted_port hport, ← counted, hslashes]
  rw [hcounted] at h
  obtain ⟨hf, hq⟩ := not_mem_of_tailOf h
  have hslash : isSlash d = true := by
    rw [List.mem_cons, not_or] at hf hq
    simpa [endsAuthority, Ne.symm hf.1, Ne.symm hq.1] using hends
  rw [tailOf_eq hf hq, afterSlash, if_pos hslash] at h
  obtain ⟨s, hs, hcolon⟩ := exists_mem_segmentsOf (counted mid) hslashes
    (fun c hc => List.eq_of_mem_replicate (n := n) hc)
  have hsegments : (segmentsOf (counted mid ++ ':' :: port ++ List.replicate n '/')).map
      String.ofList = segments := congrArg Prod.fst h
  refine ⟨String.ofList s, hsegments ▸ List.mem_map_of_mem hs, fun he => ?_⟩
  obtain rfl : s = [] := String.ofList_injective he
  cases hcolon

/-- An address that is read from its authority has slashes alone behind it. -/
theorem slashes_of_readAs (h : parseAddress toAscii? address tls = .ok url)
    (hr : ReadAs toAscii? address tls url) : ∀ c ∈ afterAuthority (bare address), c = '/' := by
  obtain ⟨hparse, hends⟩ := of_parseAddress h
  obtain ⟨before, ⟨digits, hA, -⟩, -⟩ := hr.authority
  have hfilled : counted (authorityOf (bare address)) ≠ [] := by
    rw [hA, counted, List.filter_append]
    exact List.append_ne_nil_of_right_ne_nil _ (List.cons_ne_nil _ _)
  obtain ⟨-, -, htail⟩ := parts_of_parse hparse (not_isOuter_of_endsInPort hends) hfilled
  by_contra hno
  obtain ⟨d, mid, port, n, hd, hport⟩ := exists_port_behind hends hno
  rw [hr.query, hr.fragment, hd] at htail
  obtain ⟨s, hs, hne⟩ := exists_mem_ne_empty (afterAuthority_cons hd) hport htail
  exact hne (hr.path s hs)

theorem parseAddress_cases (toAscii? : DomainToAscii) (address : String) (tls : Bool) :
    (∃ url, parseAddress toAscii? address tls = .ok url) ∨
      ∃ reason, parseAddress toAscii? address tls = .error (.invalidAddress address reason) := by
  rw [parseAddress]
  split
  next url _ => exact .inl ⟨url, rfl⟩
  next reason _ => exact .inr ⟨reason, rfl⟩

/-- An address is taken for what its authority says exactly if it is refused or has nothing but
slashes behind its authority. -/
theorem portRequired_iff (ha : toAscii?.RefusesColons) (address : String) (tls : Bool) :
    PortRequired toAscii? address tls ↔
      ((∃ url, parseAddress toAscii? address tls = .ok url) →
        ∀ c ∈ afterAuthority (bare address), c = '/') := by
  constructor
  · rintro h ⟨url, hurl⟩
    exact slashes_of_readAs hurl (h.accepted url hurl)
  · intro h
    refine ⟨fun url hurl => readAs_of_slashes ha hurl (h ⟨url, hurl⟩), fun hno => ?_⟩
    rcases parseAddress_cases toAscii? address tls with ⟨url, hurl⟩ | hrefused
    · obtain ⟨before, hport, -⟩ := (readAs_of_slashes ha hurl (h ⟨url, hurl⟩)).authority
      exact absurd ⟨before, _, hport⟩ hno
    · exact hrefused

theorem portRequired_dotted :
    DomainToAscii.dotted.RefusesColons ∧ PortRequired .dotted " http://10.0.0.5:7443/ " true := by
  refine ⟨DomainToAscii.refusesColons_dotted,
    (portRequired_iff DomainToAscii.refusesColons_dotted _ _).mpr fun _ => ?_⟩
  have hslash : afterAuthority (bare " http://10.0.0.5:7443/ ") = ['/'] := by decide
  rw [hslash]
  exact fun c hc => List.mem_singleton.mp hc

/-- An address with a colon and a number at the end of its path needs no port. -/
theorem exists_accepted_without_port : ∃ url : Url,
    parseAddress .dotted "10.0.0.5/x:80" false = .ok url ∧ url.path = ["x:80"] ∧
      ¬ ∃ before port, EndsInPort "10.0.0.5/x:80" before port := by
  refine ⟨_, rfl, rfl, ?_⟩
  rintro ⟨before, port, digits, hA, -⟩
  have hcolon : ':' ∈ authorityOf (bare "10.0.0.5/x:80") :=
    hA ▸ List.mem_append_right _ List.mem_cons_self
  exact absurd hcolon (by decide)

end PeerFleet.Agent
