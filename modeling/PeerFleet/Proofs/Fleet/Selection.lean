import Mathlib.Data.List.MinMax
import Mathlib.Data.Prod.Lex
import PeerFleet.Proofs.Fleet.Capacity

/-! # The node that is picked

Nodes are ranked by their load and then by their id. The node that is picked is the first one of
least rank among those that take peers and have room. It is also the one that a search finds
first when it runs through the nodes in the order of their ranks, full ones included. Which id
is picked depends on the nodes alone and not on their order.
-/

namespace PeerFleet

/-- Loads and ids, ordered by the load first. -/
def Rank : Type :=
  ℕ ×ₗ ℤ

instance : LinearOrder Rank :=
  inferInstanceAs (LinearOrder (ℕ ×ₗ ℤ))

def Node.rank (n : Node) : Rank :=
  toLex (n.currentPeers.toNat, n.id.toInt)

namespace Fleet

section rank

variable {a b n : Node} {ns : List Node}

theorem lighter_iff : lighter a b ↔ a.currentPeers.toNat < b.currentPeers.toNat ∨
    a.currentPeers.toNat = b.currentPeers.toNat ∧ a.id.toInt < b.id.toInt := by
  rw [lighter, Bool.or_eq_true, Bool.and_eq_true, decide_eq_true_iff, decide_eq_true_iff,
    decide_eq_true_iff, UInt32.lt_iff_toNat_lt, ← UInt32.toNat_inj, Int64.lt_iff_toInt_lt]

theorem lighter_iff_rank_lt : lighter a b ↔ a.rank < b.rank := by
  change _ ↔ toLex (a.currentPeers.toNat, a.id.toInt) < toLex (b.currentPeers.toNat, b.id.toInt)
  rw [lighter_iff, Prod.Lex.toLex_lt_toLex]

theorem id_eq_of_rank_eq (h : a.rank = b.rank) : a.id = b.id := by
  have hid : a.id.toInt = b.id.toInt := congrArg (fun r => (ofLex r).2) h
  exact Store.toInt_eq_iff.mp hid

theorem lightest_eq_argmin : lightest ns = ns.argmin Node.rank := by
  induction ns with
  | nil => rfl
  | cons n ns ih =>
    rw [List.argmin_cons, ← ih, lightest]
    cases lightest ns with
    | none => rfl
    | some m => simp [lighter_iff_rank_lt]

theorem not_lighter_of_lightest (h : lightest ns = some n) (ha : a ∈ ns) : ¬ lighter a n := by
  rw [lightest_eq_argmin] at h
  rw [lighter_iff_rank_lt]
  exact List.not_lt_of_mem_argmin ha h

theorem not_lighter_of_pickLeastLoaded (h : pickLeastLoaded ns = .ok n) (ha : a ∈ ns)
    (he : a.eligible) (hc : a.hasCapacity) : ¬ lighter a n := by
  simp only [pickLeastLoaded] at h
  split_ifs at h
  split at h
  next m hm =>
    cases h
    exact not_lighter_of_lightest hm
      (List.mem_filter.mpr ⟨List.mem_filter.mpr ⟨ha, he⟩, hc⟩)
  · cases h

end rank

section sorted

variable {α β : Type*} [LinearOrder β] {f : α → β} {p : α → Bool}

/-- The first match among sorted items is the first match of least rank: whatever stands before
an item that is inserted has a smaller rank. -/
theorem find?_mergeSort (l : List α) :
    (l.mergeSort fun a b => f a ≤ f b).find? p = (l.filter p).argmin f := by
  induction l with
  | nil => simp
  | cons a l ih =>
    have htrans (a b c : α) (hab : decide (f a ≤ f b)) (hbc : decide (f b ≤ f c)) :
        decide (f a ≤ f c) := by
      simp only [decide_eq_true_eq] at *
      exact hab.trans hbc
    have htotal (a b : α) : decide (f a ≤ f b) || decide (f b ≤ f a) := by
      simpa using le_total (f a) (f b)
    obtain ⟨l₁, l₂, hcons, hl, hbefore⟩ := List.mergeSort_cons htrans htotal a l
    have hsorted := List.pairwise_mergeSort htrans htotal (a :: l)
    rw [hl, List.find?_append] at ih
    rw [hcons, List.pairwise_append, List.pairwise_cons] at hsorted
    rw [hcons, List.find?_append]
    by_cases ha : p a = true
    · rw [List.filter_cons_of_pos ha, List.argmin_cons, ← ih, List.find?_cons_of_pos ha]
      cases h₁ : l₁.find? p with
      | some c =>
        have hlt : f c < f a := by simpa using hbefore c (List.mem_of_find?_eq_some h₁)
        simp [hlt]
      | none =>
        cases h₂ : l₂.find? p with
        | none => rfl
        | some c =>
          have hle : f a ≤ f c := by
            simpa using hsorted.2.1.1 c (List.mem_of_find?_eq_some h₂)
          simp [hle.not_gt]
    · rw [List.filter_cons_of_neg ha, List.find?_cons_of_neg ha, ih]

end sorted

/-- The first node with room, when the nodes that take peers stand in the order of their ranks. -/
def firstFit (ns : List Node) : Except FleetError Node :=
  let eligible := ns.filter Node.eligible
  if eligible.isEmpty then .error .noNodesAvailable
  else
    match (eligible.mergeSort fun a b => a.rank ≤ b.rank).find? Node.hasCapacity with
    | some n => .ok n
    | none => .error .atCapacity

def Open (n : Node) : Prop :=
  n.enabled = true ∧ n.archived = false

/-- A node of least rank among those that take peers and have room. -/
structure Least (ns : List Node) (n : Node) : Prop where
  mem : n ∈ ns
  isOpen : Open n
  room : n.currentPeers < n.maxPeers
  le : ∀ m ∈ ns, Open m → m.currentPeers < m.maxPeers → n.rank ≤ m.rank

section pick

variable {ns ms : List Node} {n m : Node}

theorem firstFit_eq (ns : List Node) : firstFit ns = pickLeastLoaded ns := by
  simp only [pickLeastLoaded, lightest_eq_argmin, ← find?_mergeSort]
  rfl

theorem eligible_iff : n.eligible ↔ Open n := by
  simp [Node.eligible, Open]

theorem hasCapacity_iff : n.hasCapacity ↔ n.currentPeers < n.maxPeers :=
  decide_eq_true_iff

theorem least_of_pickLeastLoaded (h : pickLeastLoaded ns = .ok n) : Least ns n := by
  obtain ⟨hmem, he, hc⟩ := of_pickLeastLoaded_ok h
  constructor
  · exact hmem
  · exact eligible_iff.mp he
  · exact hasCapacity_iff.mp hc
  · intro m hm ho hroom
    have hlight := not_lighter_of_pickLeastLoaded h hm (eligible_iff.mpr ho)
      (hasCapacity_iff.mpr hroom)
    rwa [lighter_iff_rank_lt, not_lt] at hlight

theorem Least.id_eq (hn : Least ns n) (hm : Least ms m) (h : ns.Perm ms) : n.id = m.id := by
  apply id_eq_of_rank_eq
  apply le_antisymm
  · exact hn.le m (h.mem_iff.mpr hm.mem) hm.isOpen hm.room
  · exact hm.le n (h.mem_iff.mp hn.mem) hn.isOpen hn.room

/-- No node takes peers, or none of those that do has room, or one of least rank is picked. -/
theorem pickLeastLoaded_cases (ns : List Node) :
    (pickLeastLoaded ns = .error .noNodesAvailable ∧ ∀ n ∈ ns, ¬ Open n) ∨
    (pickLeastLoaded ns = .error .atCapacity ∧ (∃ n ∈ ns, Open n) ∧
      ∀ n ∈ ns, Open n → n.maxPeers ≤ n.currentPeers) ∨
    ∃ n, pickLeastLoaded ns = .ok n ∧ Least ns n := by
  cases h : pickLeastLoaded ns with
  | ok n => exact .inr (.inr ⟨n, rfl, least_of_pickLeastLoaded h⟩)
  | error e =>
    have hfull := (of_pickLeastLoaded_error h).2
    simp only [eligible_iff, hasCapacity_iff, UInt32.not_lt] at hfull
    have hnone : (ns.filter Node.eligible).isEmpty ↔ ∀ n ∈ ns, ¬ Open n := by
      simp only [List.isEmpty_iff, List.filter_eq_nil_iff, eligible_iff]
    simp only [pickLeastLoaded] at h
    split_ifs at h with hempty
    · cases h
      exact .inl ⟨rfl, hnone.mp hempty⟩
    · split at h
      · cases h
      · cases h
        have hopen : ∃ n ∈ ns, Open n := by simpa using mt hnone.mpr hempty
        exact .inr (.inl ⟨rfl, hopen, hfull⟩)

theorem pickLeastLoaded_eq_noNodes_iff :
    pickLeastLoaded ns = .error .noNodesAvailable ↔ ∀ n ∈ ns, ¬ Open n := by
  rcases pickLeastLoaded_cases ns with ⟨h, hnone⟩ | ⟨h, ⟨n, hn, ho⟩, -⟩ | ⟨n, h, hl⟩
  · exact iff_of_true h hnone
  · exact iff_of_false (by simp [h]) fun hnone => hnone n hn ho
  · exact iff_of_false (by simp [h]) fun hnone => hnone n hl.mem hl.isOpen

theorem pickLeastLoaded_eq_atCapacity_iff :
    pickLeastLoaded ns = .error .atCapacity ↔
      (∃ n ∈ ns, Open n) ∧ ∀ n ∈ ns, Open n → n.maxPeers ≤ n.currentPeers := by
  rcases pickLeastLoaded_cases ns with ⟨h, hnone⟩ | ⟨h, hfull⟩ | ⟨n, h, hl⟩
  · exact iff_of_false (by simp [h]) fun ⟨⟨n, hn, ho⟩, _⟩ => hnone n hn ho
  · exact iff_of_true h hfull
  · refine iff_of_false (by simp [h]) fun ⟨_, hfull⟩ => ?_
    exact UInt32.not_lt.mpr (hfull n hl.mem hl.isOpen) hl.room

theorem exists_pickLeastLoaded_iff :
    (∃ n, pickLeastLoaded ns = .ok n) ↔ ∃ n ∈ ns, Open n ∧ n.currentPeers < n.maxPeers := by
  rcases pickLeastLoaded_cases ns with ⟨h, hnone⟩ | ⟨h, -, hfull⟩ | ⟨n, h, hl⟩
  · exact iff_of_false (by simp [h]) fun ⟨n, hn, ho, _⟩ => hnone n hn ho
  · exact iff_of_false (by simp [h]) fun ⟨n, hn, ho, hroom⟩ =>
      UInt32.not_lt.mpr (hfull n hn ho) hroom
  · exact iff_of_true ⟨n, h⟩ ⟨n, hl.mem, hl.isOpen, hl.room⟩

theorem map_id_pickLeastLoaded (h : ns.Perm ms) :
    (pickLeastLoaded ms).map Node.id = (pickLeastLoaded ns).map Node.id := by
  rcases pickLeastLoaded_cases ns with ⟨hp, hnone⟩ | ⟨hp, hopen, hfull⟩ | ⟨n, hp, hl⟩
  · have hms : pickLeastLoaded ms = .error .noNodesAvailable := by
      apply pickLeastLoaded_eq_noNodes_iff.mpr
      simpa only [h.mem_iff] using hnone
    rw [hp, hms]
  · have hms : pickLeastLoaded ms = .error .atCapacity := by
      apply pickLeastLoaded_eq_atCapacity_iff.mpr
      simpa only [h.mem_iff] using And.intro hopen hfull
    rw [hp, hms]
  · obtain ⟨m, hms⟩ : ∃ m, pickLeastLoaded ms = .ok m :=
      exists_pickLeastLoaded_iff.mpr ⟨n, h.mem_iff.mp hl.mem, hl.isOpen, hl.room⟩
    rw [hp, hms]
    exact congrArg Except.ok (hl.id_eq (least_of_pickLeastLoaded hms) h).symm

/-- No node is available exactly if none takes peers, and the fleet is at capacity exactly if some
do and all of these are full. Otherwise a node of least rank is picked among those with room, the
one that comes first in the order of ranks. The order of the list changes neither the failure
nor the id. -/
theorem pickLeastLoaded_picks_least (ns : List Node) :
    (pickLeastLoaded ns = .error .noNodesAvailable ↔ ∀ n ∈ ns, ¬ Open n) ∧
    (pickLeastLoaded ns = .error .atCapacity ↔
      (∃ n ∈ ns, Open n) ∧ ∀ n ∈ ns, Open n → n.maxPeers ≤ n.currentPeers) ∧
    ((∃ n ∈ ns, Open n ∧ n.currentPeers < n.maxPeers) ↔
      ∃ n, pickLeastLoaded ns = .ok n ∧ Least ns n) ∧
    pickLeastLoaded ns = firstFit ns ∧
    ∀ ms, ns.Perm ms →
      (pickLeastLoaded ms).map Node.id = (pickLeastLoaded ns).map Node.id := by
  refine ⟨pickLeastLoaded_eq_noNodes_iff, pickLeastLoaded_eq_atCapacity_iff, ?_,
    (firstFit_eq ns).symm, fun ms => map_id_pickLeastLoaded⟩
  rw [← exists_pickLeastLoaded_iff]
  constructor
  · rintro ⟨n, h⟩
    exact ⟨n, h, least_of_pickLeastLoaded h⟩
  · rintro ⟨n, h, -⟩
    exact ⟨n, h⟩

-- The node with the smallest load is full, and of the next two the smaller id is picked.
example : (pickLeastLoaded [{ Node.create 9 "" "" 10 with currentPeers := 3 },
    { Node.create 1 "" "" 2 with currentPeers := 2 },
    { Node.create 4 "" "" 10 with currentPeers := 3 }]).map Node.id = .ok 4 := rfl

end pick

end Fleet

end PeerFleet
