import Mathlib.Algebra.BigOperators.Group.List.Basic
import Mathlib.Algebra.Ring.Nat
import PeerFleet.Proofs.Fleet.Operations

/-! # Room for peers

How many peers still fit on the nodes that take any. A node is picked exactly if one fits, and
one that is picked leaves room for one less.
-/

namespace PeerFleet

theorem Node.hasCapacity_iff {n : Node} : n.hasCapacity ↔ 0 < n.freeSlots := by
  rw [hasCapacity, decide_eq_true_iff, UInt32.lt_iff_toNat_lt, freeSlots, Nat.sub_pos_iff_lt]

theorem Node.freeSlots_increased {n : Node} (h : n.hasCapacity) :
    { n with currentPeers := Store.increased n.currentPeers }.freeSlots + 1 = n.freeSlots := by
  have hc : n.currentPeers.toNat < n.maxPeers.toNat :=
    UInt32.lt_iff_toNat_lt.mp (of_decide_eq_true h)
  have hi := Store.increased_toNat (Fleet.toNat_lt_of_hasCapacity h)
  simp only [freeSlots, hi]
  omega

namespace Store

/-- Peers that still fit on the nodes that take any. -/
def freeSlots (s : Store) : ℕ :=
  (s.listEligible.map Node.freeSlots).sum

variable {s t : Store} {n : Node}

theorem freeSlots_eq_zero_iff : s.freeSlots = 0 ↔ ∀ n ∈ s.listEligible, ¬ n.hasCapacity := by
  simp [freeSlots, List.sum_eq_zero_iff_forall_eq_nat, Node.hasCapacity_iff]

theorem freeSlots_setPeers {f : UInt32 → UInt32} (h : s.node? n.id = some n)
    (he : n.eligible) :
    (s.setPeers n.id f).2.freeSlots + n.freeSlots =
      s.freeSlots + { n with currentPeers := f n.currentPeers }.freeSlots := by
  obtain ⟨l, r, hlr, hlr'⟩ := Table.modify_split
    (fun n : Node => { n with currentPeers := f n.currentPeers }) (fun _ => rfl) h
  have hs : (s.setPeers n.id f).2.listNodes =
      l ++ { n with currentPeers := f n.currentPeers } :: r := by
    simp only [setPeers, h]
    exact hlr'
  have he' : { n with currentPeers := f n.currentPeers }.eligible := he
  simp only [freeSlots, listEligible, hs, show s.listNodes = l ++ n :: r from hlr,
    List.filter_append, List.filter_cons_of_pos he, List.filter_cons_of_pos he', List.map_append,
    List.map_cons, List.sum_append, List.sum_cons]
  omega

end Store

namespace Fleet

variable {ns : List Node} {n : Node} {s : Store}

theorem lightest_eq_none_iff : lightest ns = none ↔ ns = [] := by
  cases ns with
  | nil => simp [lightest]
  | cons n ns =>
    unfold lightest
    split
    · simp
    · split_ifs <;> simp

theorem of_pickLeastLoaded_error {e : FleetError} (h : pickLeastLoaded ns = .error e) :
    e.isCapacity ∧ ∀ n ∈ ns, n.eligible → ¬ n.hasCapacity := by
  simp only [pickLeastLoaded] at h
  split_ifs at h with he
  · cases h
    refine ⟨rfl, fun n hn hel => ?_⟩
    have hm : n ∈ ns.filter Node.eligible := List.mem_filter.mpr ⟨hn, hel⟩
    rw [List.isEmpty_iff.mp he] at hm
    cases hm
  · split at h
    · cases h
    next hl =>
      cases h
      refine ⟨rfl, fun n hn hel hc => ?_⟩
      have hm : n ∈ (ns.filter Node.eligible).filter Node.hasCapacity :=
        List.mem_filter.mpr ⟨List.mem_filter.mpr ⟨hn, hel⟩, hc⟩
      rw [lightest_eq_none_iff.mp hl] at hm
      cases hm

theorem freeSlots_of_pickLeastLoaded_error {e : FleetError}
    (h : pickLeastLoaded s.listEligible = .error e) : e.isCapacity ∧ s.freeSlots = 0 := by
  obtain ⟨he, hns⟩ := of_pickLeastLoaded_error h
  refine ⟨he, Store.freeSlots_eq_zero_iff.mpr fun n hn => hns n hn ?_⟩
  exact (List.mem_filter.mp hn).2

theorem freeSlots_increment (h : pickLeastLoaded s.listEligible = .ok n) :
    (s.setPeers n.id Store.increased).2.freeSlots + 1 = s.freeSlots := by
  obtain ⟨hm, he, hc⟩ := of_pickLeastLoaded_ok h
  have hs := Store.freeSlots_setPeers (f := Store.increased) (Store.node?_of_mem_listEligible hm) he
  have hi := Node.freeSlots_increased hc
  omega

end Fleet

end PeerFleet
