import PeerFleet.Proofs.Fleet.Steps

/-! # Operations that run alone

What each operation of the fleet comes to when nothing else runs meanwhile and the store can
be read and counted in. An operation changes the store and the agents in the one way that it
is there for, or it fails and changes nothing; only the removal of a peer for a subscription
that is not stored does neither.
-/

namespace PeerFleet.Fleet

open Program

variable {C : Conditions} {s : State} {F : FleetError → State → Prop}

section find

variable {sub : Subscription} {id : NodeId}

theorem bindingOf_wp (hC : C.FaultsOnSave) {S : Binding → State → Prop}
    (hS : ∀ b u, s.Quiet u → ((s.store.subscription? sub.id).getD sub).binding = some b → S b u)
    (hF : ∀ u, ((s.store.subscription? sub.id).getD sub).binding = none → s.Quiet u →
      F (.bindingMissing sub.id) u) :
    (bindingOf sub).run.wp C.logic (Outcome S F) s := by
  rw [wp_bindingOf]
  refine pre_steady hC (by simp) fun u hu => ?_
  change ((s.store.subscription? sub.id).getD sub).binding.elim (_ : State → Prop) _ u
  cases hb : ((s.store.subscription? sub.id).getD sub).binding with
  | none => exact hF u hb hu
  | some b => exact hS b u hu hb

theorem nodeOf_wp (hC : C.FaultsOnSave) {S : Node → State → Prop}
    (hS : ∀ n u, s.Quiet u → s.store.node? id = some n → S n u)
    (hF : ∀ u, s.store.node? id = none → s.Quiet u → F (.nodeMissing id) u) :
    (nodeOf id).run.wp C.logic (Outcome S F) s := by
  rw [wp_nodeOf]
  refine pre_steady hC (by simp) fun u hu => ?_
  change (s.store.node? id).elim (_ : State → Prop) _ u
  cases hn : s.store.node? id with
  | none => exact hF u hn hu
  | some n => exact hS n u hu hn

variable (C sub) in
/-- What keeps the peer of a subscription from being suspended. -/
inductive Conditions.Hinders (s : State) : FleetError → Prop
  | unbound : ((s.store.subscription? sub.id).getD sub).binding = none →
      Hinders s (.bindingMissing sub.id)
  | unregistered (b : Binding) : ((s.store.subscription? sub.id).getD sub).binding = some b →
      s.store.node? b.nodeId = none → Hinders s (.nodeMissing b.nodeId)
  | unconnected (id : NodeId) (e : AgentError) : Hinders s (.clientConstruction id e)
  | refused (b : Binding) (t : State) (e : AgentError) :
      ((s.store.subscription? sub.id).getD sub).binding = some b → s.Quiet t →
      C.Refuses t b.nodeId b.peerId e → Hinders s (.remoteCall b.nodeId .disablePeer e)

theorem resolve_wp_of_fault (hC : C.FaultsOnSave) {S : Binding × Node × Client → State → Prop}
    (hS : ∀ b n k u, s.Quiet u → ((s.store.subscription? sub.id).getD sub).binding = some b →
      s.store.node? b.nodeId = some n → k.nodeId = n.id → S (b, n, k) u)
    (hF : ∀ e u, C.Hinders sub s e → s.Quiet u → F e u) :
    (resolve sub).run.wp C.logic (Outcome S F) s := by
  rw [resolve, wp_run_bind]
  refine bindingOf_wp hC (fun b u hu hb => ?_) fun u hb hu => hF _ u (.unbound hb) hu
  rw [wp_run_bind]
  refine nodeOf_wp hC (fun n v hv hn => ?_) fun v hn hv => ?_
  · rw [hu.store] at hn
    rw [wp_run_bind]
    refine clientFor_wp (fun k w hw hk _ => ?_) fun e w _ hw => ?_
    · exact hS b n k w ((hu.trans hv).trans hw) hb hn hk
    · exact hF _ w (.unconnected n.id e) ((hu.trans hv).trans hw)
  · rw [hu.store] at hn
    exact hF _ v (.unregistered b hb hn) (hu.trans hv)

theorem resolve_wp (hC : C.FaultsOnSave) {S : Binding × Node × Client → State → Prop}
    (hS : ∀ b n k u, s.Quiet u → ((s.store.subscription? sub.id).getD sub).binding = some b →
      s.store.node? b.nodeId = some n → k.nodeId = n.id → S (b, n, k) u)
    (hF : ∀ e u, s.Quiet u → F e u) : (resolve sub).run.wp C.logic (Outcome S F) s :=
  resolve_wp_of_fault hC hS fun e u _ hu => hF e u hu

end find

theorem toNat_lt_of_hasCapacity {n : Node} (h : n.hasCapacity) :
    n.currentPeers.toNat + 1 < UInt32.size := by
  have hlt := UInt32.lt_iff_toNat_lt.mp (of_decide_eq_true h)
  have hmax := n.maxPeers.toNat_lt_size
  omega

theorem mem_of_lightest {ns : List Node} {n : Node} (h : lightest ns = some n) : n ∈ ns := by
  induction ns generalizing n with
  | nil => cases h
  | cons m ns ih =>
    unfold lightest at h
    split at h
    · cases h
      exact List.mem_cons_self
    next k hk =>
      split_ifs at h with hl
      · cases h
        exact List.mem_cons_of_mem _ (ih hk)
      · cases h
        exact List.mem_cons_self

theorem of_pickLeastLoaded_ok {ns : List Node} {n : Node} (h : pickLeastLoaded ns = .ok n) :
    n ∈ ns ∧ n.eligible ∧ n.hasCapacity := by
  simp only [pickLeastLoaded] at h
  split_ifs at h
  split at h
  next m hm =>
    cases h
    obtain ⟨hn, hc⟩ := List.mem_filter.mp (mem_of_lightest hm)
    obtain ⟨hn, he⟩ := List.mem_filter.mp hn
    exact ⟨hn, he, hc⟩
  · cases h

theorem of_pickLeastLoaded {t : Store} {n : Node} (h : pickLeastLoaded t.listEligible = .ok n) :
    t.node? n.id = some n ∧ n.hasCapacity :=
  have ⟨hn, _, hc⟩ := of_pickLeastLoaded_ok h
  ⟨Store.node?_of_mem_listEligible hn, hc⟩

theorem selectNode_wp (hC : C.FaultsOnSave) {S : Node → State → Prop}
    (hS : ∀ n u, s.Quiet u → pickLeastLoaded s.store.listEligible = .ok n → S n u)
    (hF : ∀ e u, s.Quiet u → pickLeastLoaded s.store.listEligible = .error e → F e u) :
    selectNode.run.wp C.logic (Outcome S F) s := by
  rw [selectNode, wp_run_bind, wp_fromStore]
  refine pre_steady hC (by simp) fun u hu => ?_
  change Outcome S F (pickLeastLoaded s.store.listEligible) u
  cases hp : pickLeastLoaded s.store.listEligible with
  | error e => exact hF e u hu hp
  | ok n => exact hS n u hu hp

def State.create (s : State) (n : NodeId) (p : String) : State :=
  (s.setStore (s.store.setPeers n Store.increased).2).addPeer n p

/-- A peer is created, or no node has room for one, or the channel or the agent fails. -/
theorem createClient_wp_of_fault (hC : C.FaultsOnSave) {user : UserId} {S : Binding → State → Prop}
    (hS : ∀ n b t k u, s.Quiet t → pickLeastLoaded s.store.listEligible = .ok n →
      b.nodeId = n.id → C.issues t n.id b.peerId → (s.create n.id b.peerId).Quiet u →
      u.pool.client? n.id = some k → S b u)
    (hfull : ∀ e u, s.Quiet u → pickLeastLoaded s.store.listEligible = .error e → F e u)
    (hconnect : ∀ (n : Node) e t u, s.Quiet t → C.connectFault t n e → t.Quiet u →
      F (.clientConstruction n.id e) u)
    (hagent : ∀ (n : Node) suffix e t u, s.Quiet t →
      C.agentFault t n.id (.create n.interface (peerName user suffix)) e → t.Quiet u →
      F (.remoteCall n.id .createPeer e) u) :
    (createClient user).run.wp C.logic (Outcome S F) s := by
  refine createClient_wp_of (selectNode_wp hC (fun n u hu hn => ?_) hfull)
  refine clientFor_wp_of_fault (fun h => h) (fun k v hv hk hp => ?_)
    fun e t v _ ht he hv => hconnect n e t v (hu.trans ht) he hv
  refine pre_suffix fun a w hw => ?_
  have hq := (hu.trans hv).trans hw
  refine create_wp hk (fun peer x hi hx => ?_) fun e x he hx => hagent n a e w x hq he hx
  refine pre_steady hC (by simp) fun y hy => ?_
  refine hS n _ w k y hq hn rfl hi (.trans ?_ hy) (hy.client (hx.client (hw.client hp)))
  have hs : x.store = s.store := hx.store.trans hq.store
  have h := (hq.addPeer (n := n.id) (p := peer.peerId)).trans hx
  change (s.create n.id peer.peerId).Quiet (x.setStore (x.store.setPeers n.id _).2)
  rw [hs]
  exact h.setStore _

theorem createClient_wp (hC : C.FaultsOnSave) {user : UserId} {S : Binding → State → Prop}
    (hS : ∀ n b t k u, s.Quiet t → pickLeastLoaded s.store.listEligible = .ok n →
      b.nodeId = n.id → C.issues t n.id b.peerId → (s.create n.id b.peerId).Quiet u →
      u.pool.client? n.id = some k → S b u)
    (hF : ∀ e u, s.Quiet u → F e u) : (createClient user).run.wp C.logic (Outcome S F) s :=
  createClient_wp_of_fault hC hS (fun e u hu _ => hF e u hu)
    (fun _ _ _ u ht _ hu => hF _ u (ht.trans hu)) fun _ _ _ _ u ht _ hu => hF _ u (ht.trans hu)

section bound

variable {sub : Subscription} {S : Unit → State → Prop}

theorem disableClient_wp_of_fault (hC : C.FaultsOnSave)
    (hS : ∀ b u, ((s.store.subscription? sub.id).getD sub).binding = some b →
      (s.setEnabled b.nodeId b.peerId false).Quiet u → S () u)
    (hF : ∀ e u, C.Hinders sub s e → s.Quiet u → F e u) :
    (disableClient sub).run.wp C.logic (Outcome S F) s := by
  rw [disableClient, wp_run_bind]
  refine resolve_wp_of_fault hC (fun b n k u hu hb hn hk => ?_) hF
  refine wp_run_bind_of (disable_wp_of_fault hk (fun v _ hv => ?_) fun e v he hv => ?_)
  · rw [Store.node?_id hn] at hv
    exact hS b v hb ((hu.setEnabled false).trans hv)
  · rw [Store.node?_id hn] at he ⊢
    exact hF _ v (.refused b u e hb hu he) (hu.trans hv)

theorem disableClient_wp (hC : C.FaultsOnSave)
    (hS : ∀ b u, ((s.store.subscription? sub.id).getD sub).binding = some b →
      (s.setEnabled b.nodeId b.peerId false).Quiet u → S () u)
    (hF : ∀ e u, s.Quiet u → F e u) : (disableClient sub).run.wp C.logic (Outcome S F) s :=
  disableClient_wp_of_fault hC hS fun e u _ hu => hF e u hu

theorem enableClient_wp (hC : C.FaultsOnSave)
    (hS : ∀ b u, ((s.store.subscription? sub.id).getD sub).binding = some b →
      (s.setEnabled b.nodeId b.peerId true).Quiet u → S () u)
    (hF : ∀ e u, s.Quiet u → F e u) : (enableClient sub).run.wp C.logic (Outcome S F) s := by
  rw [enableClient, wp_run_bind]
  refine resolve_wp hC (fun b n k u hu hb hn hk => ?_) hF
  refine wp_run_bind_of (enable_wp hk (fun v _ hv => ?_) fun e v hv => hF e v (hu.trans hv))
  rw [Store.node?_id hn] at hv
  exact hS b v hb ((hu.setEnabled true).trans hv)

theorem deleteClient_wp (hC : C.FaultsOnSave)
    (hS : ∀ stored b t u v, s.store.subscription? sub.id = some stored → stored.binding = some b →
      s.Quiet t → C.Removed t b.nodeId b.peerId u →
      (u.setStore
        ((s.store.setBinding sub.id none).2.setPeers b.nodeId Store.decreased).2).Quiet v →
      S () v)
    (hlost : ∀ b n t u v, s.store.subscription? sub.id = none → sub.binding = some b →
      s.store.node? b.nodeId = some n → s.Quiet t → C.Removed t b.nodeId b.peerId u → u.Quiet v →
      F (.store (.subscriptionNotFound sub.id)) v)
    (hF : ∀ e u, s.Quiet u → F e u) : (deleteClient sub).run.wp C.logic (Outcome S F) s := by
  rw [deleteClient, wp_run_bind]
  refine resolve_wp hC (fun b n k t ht hb hn hk => ?_) hF
  refine wp_run_bind_of (removePeer_wp hk (fun u v hu hv => ?_)
    fun e v _ hv => hF _ v (ht.trans hv))
  rw [Store.node?_id hn] at hu
  have hs : v.store = s.store := by
    rw [hv.store, hu.store, ht.store]
  refine wp_run_bind_of (fromStore_wp hC (by simp) fun w hw => ?_)
  change (v.setStore (v.store.clearBindingIf sub.id b.peerId).2).Quiet w at hw
  change Outcome _ _ (v.store.clearBindingIf sub.id b.peerId).1 w
  cases hsub : s.store.subscription? sub.id with
  | none =>
    rw [hsub] at hb
    rw [Store.clearBindingIf_of_none (hs ▸ hsub)] at hw ⊢
    exact hlost b n t u w hsub hb hn ht hu (hv.trans hw)
  | some stored =>
    rw [hsub] at hb
    rw [Store.clearBindingIf_of_some (hs ▸ hsub) hb] at hw ⊢
    refine wp_run_bind_of ?_
    rw [wp_run_lift, wp_count]
    refine pre_steady hC (by simp) fun x hx => ?_
    have hws : w.store = (s.store.setBinding sub.id none).2 := by
      rw [hw.store, ← hs]
      rfl
    change (w.setStore (w.store.setPeers n.id Store.decreased).2).Quiet x at hx
    rw [hws, Store.node?_id hn] at hx
    exact hS stored b t u x hsub hb ht hu (((hv.setStore _).trans (hw.setStore _)).trans hx)

theorem discardBinding_wp (hC : C.FaultsOnSave) {b : Binding}
    (hS : ∀ n t u v, s.store.node? b.nodeId = some n → s.Quiet t →
      C.Removed t b.nodeId b.peerId u →
      (u.setStore (s.store.setPeers b.nodeId Store.decreased).2).Quiet v → S () v)
    (hnode : ∀ u, s.store.node? b.nodeId = none → s.Quiet u → F (.nodeMissing b.nodeId) u)
    (hclient : ∀ e u, s.pool.client? b.nodeId = none → s.Quiet u →
      F (.clientConstruction b.nodeId e) u)
    (hF : ∀ n t e u, s.store.node? b.nodeId = some n → s.Quiet t →
      C.agentFault t b.nodeId (.delete n.interface b.peerId) e → t.Quiet u →
      F (.remoteCall b.nodeId .deletePeer e) u) :
    (discardBinding b).run.wp C.logic (Outcome S F) s := by
  rw [discardBinding]
  refine wp_run_bind_of (nodeOf_wp hC (fun n t ht hn => ?_) hnode)
  have hid := Store.node?_id hn
  refine wp_run_bind_of (clientFor_wp (fun k u hu hk _ => ?_) fun e u hk hu => ?_)
  · have htu := ht.trans hu
    refine wp_run_bind_of (removePeer_wp hk (fun v w hv hw => ?_) fun e v he hv => ?_)
    · rw [wp_run_bind, wp_run_lift, wp_count]
      refine pre_steady hC (by simp) fun x hx => ?_
      change (w.setStore (w.store.setPeers n.id Store.decreased).2).Quiet x at hx
      rw [hw.store, hv.store, htu.store, hid] at hx
      rw [hid] at hv
      exact hS n u v x hn htu hv ((hw.setStore _).trans hx)
    · rw [hid] at he ⊢
      exact hF n u e v hn htu he hv
  · rw [hid] at hk ⊢
    exact hclient e u (ht.client?_eq_none hk) (ht.trans hu)

end bound

theorem syncPeerCount_wp (hC : C.FaultsOnSave) {n : Node} {S : UInt32 → State → Prop}
    (hS : ∀ infos u, Lists infos (s.agents n.id) →
      (s.setStore (s.store.setPeers n.id fun _ => countOf infos).2).Quiet u → S (countOf infos) u)
    (hF : ∀ e u, s.Quiet u → F e u) : (syncPeerCount n).run.wp C.logic (Outcome S F) s := by
  refine syncPeerCount_wp_of (clientFor_wp (fun k u hu hk _ => ?_) fun e u _ hu => hF _ u hu)
  refine list_wp hk (fun infos v hi hv => ?_) fun e v hv => hF e v (hu.trans hv)
  rw [hu.agents] at hi
  have hs : v.store = s.store := hv.store.trans hu.store
  refine pre_steady hC (by simp) fun w hw => ?_
  change (v.setStore (v.store.setPeers n.id fun _ => countOf infos).2).Quiet w at hw
  change Outcome _ _ (v.store.setPeers n.id fun _ => countOf infos).1 w
  rw [hs] at hw ⊢
  cases hn : s.store.node? n.id with
  | none =>
    rw [Store.setPeers_of_none hn] at hw ⊢
    rw [← hs] at hw
    exact hF _ w ((hu.trans hv).trans hw)
  | some m =>
    rw [Store.setPeers_fst hn]
    exact hS infos w hi (((hu.trans hv).setStore _).trans hw)

end PeerFleet.Fleet
