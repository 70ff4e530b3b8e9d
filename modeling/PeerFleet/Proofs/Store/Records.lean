import Mathlib.Data.Multiset.Filter
import PeerFleet.Proofs.Store.Table
import PeerFleet.Store.Basic

/-! # Records of the store

What each call on the store does to the look-ups, and to the peers that the stored bindings
name.
-/

namespace PeerFleet

def Binding.peer (b : Binding) : NodeId × String :=
  (b.nodeId, b.peerId)

def Subscription.peer? (sub : Subscription) : Option (NodeId × String) :=
  sub.binding.map Binding.peer

def Store.boundTo (s : Store) (id : SubscriptionId) : Option (NodeId × String) :=
  (s.subscription? id).bind Subscription.peer?

theorem Subscription.needsProvisioning_iff {sub : Subscription} :
    sub.needsProvisioning ↔ sub.status = .active ∧ sub.binding = none := by
  simp [needsProvisioning, isActive]

theorem nodup_of_ascending {α : Type*} {f : α → Int64} {l : List α}
    (h : l.Pairwise fun a b => (f a).toInt < (f b).toInt) : (l.map f).Nodup := by
  rw [List.Nodup, List.pairwise_map]
  refine h.imp fun hlt he => ?_
  rw [he] at hlt
  exact absurd hlt (lt_irrefl _)

namespace Store

variable {s s' : Store} {id j : Int64}

theorem ext_lists (hn : s'.listNodes = s.listNodes) (hs : s'.subscriptions = s.subscriptions) :
    s' = s := by
  obtain ⟨⟨nodes, hnodes⟩, subs⟩ := s
  obtain ⟨⟨nodes', hnodes'⟩, subs'⟩ := s'
  obtain rfl : nodes' = nodes := hn
  obtain rfl : subs' = subs := hs
  rfl

theorem toInt_eq_iff {a b : Int64} : a.toInt = b.toInt ↔ a = b :=
  ⟨Int64.toInt_inj.mp, congrArg _⟩

theorem node?_eq_some_iff {n : Node} : s.node? id = some n ↔ n ∈ s.nodes.items ∧ n.id = id := by
  rw [node?, Table.find?_eq_some_iff]
  exact and_congr_right fun _ => toInt_eq_iff

theorem subscription?_eq_some_iff {sub : Subscription} :
    s.subscription? id = some sub ↔ sub ∈ s.subscriptions.items ∧ sub.id = id := by
  rw [subscription?, Table.find?_eq_some_iff]
  exact and_congr_right fun _ => toInt_eq_iff

theorem listNodes_ascending (s : Store) : s.listNodes.Pairwise fun a b => a.id < b.id :=
  s.nodes.ascending.imp Int64.lt_iff_toInt_lt.mpr

theorem listNodes_ofNodes {ns : List Node} (h : (ns.map Node.id).Nodup) :
    (ofNodes ns).listNodes.Perm ns := by
  refine Table.items_ofList ?_
  have hk : ns.map Keyed.key = (ns.map Node.id).map Int64.toInt := by
    rw [List.map_map]
    rfl
  rw [hk]
  exact h.map fun _ _ => toInt_eq_iff.mp

theorem listSubscriptions_ascending (s : Store) (p : Subscription → Bool) :
    (s.listSubscriptions p).Pairwise fun a b => a.id < b.id :=
  (s.subscriptions.ascending.filter p).imp Int64.lt_iff_toInt_lt.mpr

theorem nodup_listSubscriptions (s : Store) (p : Subscription → Bool) :
    ((s.listSubscriptions p).map Subscription.id).Nodup :=
  nodup_of_ascending (s.subscriptions.ascending.filter p)

theorem mem_listSubscriptions_iff {p : Subscription → Bool} :
    id ∈ (s.listSubscriptions p).map Subscription.id ↔
      ∃ sub, s.subscription? id = some sub ∧ p sub = true := by
  simp only [listSubscriptions, List.mem_map, List.mem_filter, subscription?_eq_some_iff]
  constructor
  · rintro ⟨sub, ⟨hm, hp⟩, hid⟩
    exact ⟨sub, ⟨hm, hid⟩, hp⟩
  · rintro ⟨sub, ⟨hm, hid⟩, hp⟩
    exact ⟨sub, ⟨hm, hp⟩, hid⟩

theorem node?_id {n : Node} (h : s.node? id = some n) : n.id = id :=
  (node?_eq_some_iff.mp h).2

theorem mem_listSubscriptions {p : Subscription → Bool} {sub : Subscription} :
    sub ∈ s.listSubscriptions p ↔ s.subscription? sub.id = some sub ∧ p sub = true := by
  simp [listSubscriptions, subscription?_eq_some_iff]

theorem mem_listEligible_iff {n : Node} :
    n ∈ s.listEligible ↔ s.node? n.id = some n ∧ n.eligible = true := by
  simp [listEligible, listNodes, node?_eq_some_iff]

theorem listEligible_ascending (s : Store) : s.listEligible.Pairwise fun a b => a.id < b.id :=
  s.listNodes_ascending.filter _

theorem node?_of_mem_listEligible {n : Node} (h : n ∈ s.listEligible) : s.node? n.id = some n :=
  (mem_listEligible_iff.mp h).1

section counters

variable {f : UInt32 → UInt32}

theorem setPeers_fst {n : Node} (h : s.node? id = some n) : (s.setPeers id f).1 = .ok () := by
  simp [setPeers, h]

theorem setPeers_of_none (h : s.node? id = none) :
    s.setPeers id f = (.error (.nodeNotFound id), s) := by
  simp [setPeers, h]

@[simp] theorem setPeers_subscriptions : (s.setPeers id f).2.subscriptions = s.subscriptions := by
  unfold setPeers
  split <;> rfl

@[simp] theorem setPeers_subscription? :
    (s.setPeers id f).2.subscription? j = s.subscription? j := by
  simp [subscription?]

theorem setPeers_node? : (s.setPeers id f).2.node? j =
    if j = id then (s.node? j).map fun n => { n with currentPeers := f n.currentPeers }
    else s.node? j := by
  unfold setPeers
  split
  next h =>
    split_ifs with hj
    · subst hj
      simp [h]
    · rfl
  next =>
    simp only [node?, Table.find?_modify, toInt_eq_iff]

theorem setPeers_isSome : ((s.setPeers id f).2.node? j).isSome = (s.node? j).isSome := by
  rw [setPeers_node?]
  split_ifs <;> simp

end counters

theorem increased_toNat {c : UInt32} (h : c.toNat + 1 < UInt32.size) :
    (increased c).toNat = c.toNat + 1 := by
  simp only [increased, h, if_true, UInt32.toNat_add, UInt32.toNat_one]
  exact Nat.mod_eq_of_lt h

theorem decreased_toNat (c : UInt32) : (decreased c).toNat = c.toNat - 1 := by
  unfold decreased
  split_ifs with h
  · simp [h]
  · have hc : 1 ≤ c := by
      rw [UInt32.le_iff_toNat_le, UInt32.toNat_one]
      have : c.toNat ≠ 0 := fun h0 => h (UInt32.toNat_inj.mp h0)
      omega
    rw [UInt32.toNat_sub_of_le _ _ hc, UInt32.toNat_one]

theorem decreased_increased {c : UInt32} (h : c.toNat + 1 < UInt32.size) :
    decreased (increased c) = c := by
  apply UInt32.toNat_inj.mp
  rw [decreased_toNat, increased_toNat h, Nat.add_sub_cancel]

theorem setPeers_decreased_increased {n : Node} (h : s.node? id = some n)
    (hn : n.currentPeers.toNat + 1 < UInt32.size) :
    ((s.setPeers id increased).2.setPeers id decreased).2.node? j = s.node? j := by
  rw [setPeers_node?, setPeers_node?]
  split_ifs with hj
  · simp [hj, h, decreased_increased hn]
  · rfl

section subscriptions

variable {f : Subscription → Subscription} {hf : ∀ sub, (f sub).id = sub.id} {sub : Subscription}

theorem modifySubscription_of_none (h : s.subscription? id = none) :
    s.modifySubscription id f hf = (.error (.subscriptionNotFound id), s) := by
  simp [modifySubscription, h]

theorem modifySubscription_fst (h : s.subscription? id = some sub) :
    (s.modifySubscription id f hf).1 = .ok () := by
  simp [modifySubscription, h]

@[simp] theorem modifySubscription_nodes : (s.modifySubscription id f hf).2.nodes = s.nodes := by
  unfold modifySubscription
  split <;> rfl

@[simp] theorem modifySubscription_node? :
    (s.modifySubscription id f hf).2.node? j = s.node? j := by
  simp [node?]

theorem modifySubscription_subscription? : (s.modifySubscription id f hf).2.subscription? j =
    if j = id then (s.subscription? j).map f else s.subscription? j := by
  unfold modifySubscription
  split
  next h =>
    split_ifs with hj
    · subst hj
      simp [h]
    · rfl
  next =>
    simp only [subscription?, Table.find?_modify, toInt_eq_iff]

theorem of_updateStatus_eq_some {status : SubscriptionStatus} {new : Subscription}
    (h : (s.updateStatus id status).2.subscription? j = some new) :
    ∃ old, s.subscription? j = some old ∧ new.binding = old.binding ∧
      new.status = if j = id then status else old.status := by
  rw [updateStatus, modifySubscription_subscription?] at h
  split_ifs at h ⊢ with hj
  · obtain ⟨old, ho, rfl⟩ := Option.map_eq_some_iff.mp h
    exact ⟨old, ho, rfl, rfl⟩
  · exact ⟨new, h, rfl, rfl⟩

theorem updateStatus_of_eq_some {status : SubscriptionStatus} {old : Subscription}
    (h : s.subscription? j = some old) :
    ∃ new, (s.updateStatus id status).2.subscription? j = some new ∧
      new.binding = old.binding := by
  rw [updateStatus, modifySubscription_subscription?, h]
  split_ifs <;> exact ⟨_, rfl, rfl⟩

theorem of_setBinding_eq_some {b : Option Binding} {new : Subscription}
    (h : (s.setBinding id b).2.subscription? j = some new) :
    ∃ old, s.subscription? j = some old ∧ new.status = old.status ∧
      new.binding = if j = id then b else old.binding := by
  rw [setBinding, modifySubscription_subscription?] at h
  split_ifs at h ⊢ with hj
  · obtain ⟨old, ho, rfl⟩ := Option.map_eq_some_iff.mp h
    exact ⟨old, ho, rfl, rfl⟩
  · exact ⟨new, h, rfl, rfl⟩

theorem setBinding_subscription? {b : Option Binding} : (s.setBinding id b).2.subscription? j =
    if j = id then (s.subscription? j).map fun sub => { sub with binding := b }
    else s.subscription? j :=
  modifySubscription_subscription?

theorem setBinding_isSome {b : Option Binding} :
    ((s.setBinding id b).2.subscription? j).isSome = (s.subscription? j).isSome := by
  rw [setBinding_subscription?]
  split_ifs <;> simp

theorem setBinding_node? {b : Option Binding} : (s.setBinding id b).2.node? j = s.node? j :=
  modifySubscription_node?

theorem clearBindingIf_of_none {p : String} (h : s.subscription? id = none) :
    s.clearBindingIf id p = (.error (.subscriptionNotFound id), s) := by
  simp [clearBindingIf, h]

theorem clearBindingIf_fst {p : String} (h : s.subscription? id = some sub) :
    (s.clearBindingIf id p).1 = .ok (sub.binding.any (·.peerId = p)) := by
  simp only [clearBindingIf, h]
  split_ifs with hp
  · rw [hp]
  · rw [Bool.eq_false_of_not_eq_true hp]

theorem clearBindingIf_of_some {b : Binding} (h : s.subscription? id = some sub)
    (hb : sub.binding = some b) :
    s.clearBindingIf id b.peerId = (.ok true, (s.setBinding id none).2) := by
  simp [clearBindingIf, h, hb]

theorem clearBindingIf_node? {p : String} : (s.clearBindingIf id p).2.node? j = s.node? j := by
  unfold clearBindingIf
  split
  · rfl
  · split_ifs
    · exact setBinding_node?
    · rfl

end subscriptions

/-- A subscription is bound to a peer of a registered node. -/
structure Placed (s : Store) (id : SubscriptionId) (b : Binding) : Prop where
  bound : ∃ sub, s.subscription? id = some sub ∧ sub.binding = some b
  registered : (s.node? b.nodeId).isSome

/-- The store when a subscription has lost its binding and a place on a node is free again. -/
def release (s : Store) (id : SubscriptionId) (n : NodeId) : Store :=
  ((s.setBinding id none).2.setPeers n decreased).2

theorem release_subscription? {n : NodeId} : (s.release id n).subscription? j =
    if j = id then (s.subscription? j).map fun sub => { sub with binding := none }
    else s.subscription? j := by
  rw [release, setPeers_subscription?, setBinding_subscription?]

theorem release_node? {n : NodeId} : (s.release id n).node? j =
    if j = n then (s.node? j).map fun node =>
      { node with currentPeers := decreased node.currentPeers }
    else s.node? j := by
  rw [release, setPeers_node?, setBinding_node?]

def peersOf (subs : List Subscription) : Multiset (NodeId × String) :=
  (subs : Multiset Subscription).filterMap Subscription.peer?

theorem peersOf_split (l r : List Subscription) (sub : Subscription) :
    peersOf (l ++ sub :: r) = sub.peer?.elim (peersOf (l ++ r)) (· ::ₘ peersOf (l ++ r)) := by
  have hp : ((l ++ sub :: r : List Subscription) : Multiset Subscription) =
      sub ::ₘ ((l ++ r : List Subscription) : Multiset Subscription) :=
    Multiset.coe_eq_coe.mpr List.perm_middle
  rw [peersOf, hp]
  cases hs : sub.peer? with
  | none => exact Multiset.filterMap_cons_none _ _ hs
  | some x => exact Multiset.filterMap_cons_some _ _ _ hs

/-- The peers that the stored bindings name. -/
def bound (s : Store) : Multiset (NodeId × String) :=
  peersOf s.subscriptions.items

theorem mem_bound_iff {x : NodeId × String} :
    x ∈ s.bound ↔ ∃ id sub b, s.subscription? id = some sub ∧ sub.binding = some b ∧
      b.peer = x := by
  simp only [bound, peersOf, Multiset.mem_filterMap, Multiset.mem_coe, Subscription.peer?,
    Option.map_eq_some_iff, subscription?_eq_some_iff]
  constructor
  · rintro ⟨sub, hs, b, hb, rfl⟩
    exact ⟨sub.id, sub, b, ⟨hs, rfl⟩, hb, rfl⟩
  · rintro ⟨_, sub, b, ⟨hs, -⟩, hb, rfl⟩
    exact ⟨sub, hs, b, hb, rfl⟩

theorem bound_congr {s s' : Store} (h : s'.subscriptions = s.subscriptions) :
    s'.bound = s.bound := by
  simp [bound, h]

theorem bound_modifySubscription (f : Subscription → Subscription)
    (hf : ∀ sub, (f sub).id = sub.id) {sub : Subscription} (h : s.subscription? id = some sub) :
    ∃ rest, s.bound = sub.peer?.elim rest (· ::ₘ rest) ∧
      (s.modifySubscription id f hf).2.bound = (f sub).peer?.elim rest (· ::ₘ rest) := by
  have hm : (s.modifySubscription id f hf).2.subscriptions =
      s.subscriptions.modify id.toInt f fun a => congrArg Int64.toInt (hf a) := by
    simp [modifySubscription, h]
  obtain ⟨l, r, hlr, hlr'⟩ := Table.modify_split f (fun a => congrArg Int64.toInt (hf a)) h
  refine ⟨peersOf (l ++ r), ?_, ?_⟩
  · rw [bound, hlr, peersOf_split]
  · rw [bound, hm, hlr', peersOf_split]

theorem bound_updateStatus {status : SubscriptionStatus} :
    (s.updateStatus id status).2.bound = s.bound := by
  cases h : s.subscription? id with
  | none => rw [updateStatus, modifySubscription_of_none h]
  | some sub =>
    obtain ⟨rest, h₁, h₂⟩ := bound_modifySubscription (fun sub => { sub with status })
      (fun _ => rfl) h
    exact h₂.trans h₁.symm

theorem bound_setBinding_some {sub : Subscription} {b : Binding} (h : s.subscription? id = some sub)
    (hb : sub.binding = none) : (s.setBinding id (some b)).2.bound = b.peer ::ₘ s.bound := by
  obtain ⟨rest, h₁, h₂⟩ := bound_modifySubscription
    (fun sub => { sub with binding := some b }) (fun _ => rfl) h
  rw [Subscription.peer?, hb] at h₁
  rw [h₁]
  exact h₂

theorem bound_setBinding_none {sub : Subscription} {b : Binding} (h : s.subscription? id = some sub)
    (hb : sub.binding = some b) : s.bound = b.peer ::ₘ (s.setBinding id none).2.bound := by
  obtain ⟨rest, h₁, h₂⟩ := bound_modifySubscription
    (fun sub => { sub with binding := none }) (fun _ => rfl) h
  rw [Subscription.peer?, hb] at h₁
  rw [h₁]
  exact congrArg _ h₂.symm

theorem bound_upsertSubscription {sub : Subscription} (h : s.subscription? sub.id = none)
    (hb : sub.binding = none) : (s.upsertSubscription sub).bound = s.bound := by
  obtain ⟨l, r, hlr, hlr'⟩ := Table.insert_split (t := s.subscriptions) (a := sub) h
  have hi : (s.upsertSubscription sub).subscriptions.items = l ++ sub :: r := hlr'
  rw [bound, bound, hi, hlr, peersOf_split, Subscription.peer?, hb]
  rfl

end Store

end PeerFleet
