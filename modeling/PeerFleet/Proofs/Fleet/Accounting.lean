import Mathlib.Logic.Relation
import PeerFleet.Proofs.Fleet.Ledger
import PeerFleet.Proofs.Fleet.Operations
import PeerFleet.Proofs.Jobs.Shape

/-! # Accounting over whole runs

One operation after another, channels and agents failing at any time: stored bindings and live
peers go on corresponding one to one, and every counter goes on being right.
-/

namespace PeerFleet.Fleet

open Program

variable {s t u : State}

/-- A binding of the peer could not be saved. -/
def State.Unsaved (s : State) (n : NodeId) (p : String) : Prop :=
  ∃ id b e, (⟨.store (.setBinding id (some b)), .error e⟩ : Exchange) ∈ s.history ∧
    b.peer = (n, p)

/-- The store may fail to save a binding; channels and agents may fail at any time, but an
agent removes a peer whose binding could not be saved, and denies no peer that it has. The id
of a new peer was never issued in the fleet. -/
def troubles : Conditions where
  storeFault _ c _ := ∃ id b, c = .setBinding id b
  connectFault _ _ _ := True
  agentFault s n c e := ∀ i p, c = .delete i p → ¬ s.Unsaved n p ∧ (e.isNotFound → p ∉ s.agents n)
  issues s _ p := ∀ n, (n, p) ∉ s.issued

theorem troubles_faultsOnSave : troubles.FaultsOnSave := fun _ _ _ h => h

theorem Ledger.quiet {fresh held gone : Multiset (NodeId × String)} {due : Multiset NodeId}
    (h : Ledger s fresh held due gone) (hu : s.Quiet u) : Ledger u fresh held due gone := by
  refine h.congr ?_ ?_ hu.issued.ge fun x => ?_
  · rw [hu.store]
  · rw [hu.store]
  · rw [hu.agents]

theorem Tallied.quiet (h : Tallied s) (hu : s.Quiet u) : Tallied u :=
  tallied_iff_ledger.mpr ((tallied_iff_ledger.mp h).quiet hu)

theorem quiet_of_removed {n : NodeId} {p : String} (h : troubles.Removed s n p t) :
    (s.removePeer n p).Quiet t := by
  rcases h with rfl | ⟨rfl, i, e, he, hn⟩
  · exact .refl _
  · exact State.removePeer_of_notMem ((he i p rfl).2 hn)

theorem ledger_create {n : Node} {p : String} (h : Tallied s)
    (hn : pickLeastLoaded s.store.listEligible = .ok n) (hp : (n.id, p) ∉ s.issued) :
    Ledger (s.create n.id p) 0 {(n.id, p)} 0 0 := by
  obtain ⟨hnode, hcap⟩ := of_pickLeastLoaded hn
  have hc := (tallied_iff_ledger.mp h).create (x := (n.id, p)) hp (by simp [hnode])
  refine hc.increment fun {m} hm => ?_
  obtain rfl : n = m := Option.some.inj (hnode.symm.trans hm)
  exact toNat_lt_of_hasCapacity hcap

theorem createClient_ledger {user : UserId} (h : Tallied s) :
    (createClient user).run.wp troubles.logic (Outcome
      (fun b u => Ledger u 0 {b.peer} 0 0 ∧ (u.pool.client? b.nodeId).isSome ∧
        u.store.subscriptions = s.store.subscriptions)
      fun _ => Tallied) s := by
  refine createClient_wp troubles_faultsOnSave (fun n b t k u ht hn hb hi hu hk => ?_)
    fun e u hu => h.quiet hu
  have hl := ledger_create h hn (ht.issued ▸ hi n.id)
  rw [← hb] at hl hk hu
  refine ⟨hl.quiet hu, by simp [hk], ?_⟩
  rw [hu.store]
  exact Store.setPeers_subscriptions

theorem discardBinding_tallied {b : Binding} (h : Ledger s 0 {b.peer} 0 0)
    (hk : (s.pool.client? b.nodeId).isSome) (hb : s.Unsaved b.nodeId b.peerId) :
    (discardBinding b).run.wp troubles.logic (fun _ => Tallied) s := by
  have hnode : (s.store.node? b.nodeId).isSome := (h.live b.peer (by simp)).1
  have hfault {v : State} {i : String} {e : AgentError} (hv : s.Quiet v)
      (he : troubles.agentFault v b.nodeId (.delete i b.peerId) e) : False := by
    obtain ⟨id, b', e', hm, hp⟩ := hb
    exact (he i b.peerId rfl).1 ⟨id, b', e', hv.history hm, hp⟩
  rw [← outcome_eta fun _ => Tallied]
  refine discardBinding_wp troubles_faultsOnSave (fun n v w x _ hv hw hx => ?_) ?_ ?_ ?_
  · have hq := (hv.removePeer (n := b.nodeId) (p := b.peerId)).trans (quiet_of_removed hw)
    exact tallied_iff_ledger.mpr ((h.discard.decrement).quiet ((hq.setStore _).trans hx))
  · intro u hn
    rw [hn] at hnode
    cases hnode
  · intro e u hn
    rw [hn] at hk
    cases hk
  · intro n v e u _ hv he _
    exact (hfault hv he).elim

theorem save_tallied {sub stored : Subscription} {b : Binding} (h : Ledger s 0 {b.peer} 0 0)
    (hk : (s.pool.client? b.nodeId).isSome) (hs : s.store.subscription? sub.id = some stored)
    (hb : stored.binding = none) :
    (Provisioning.save sub b).run.wp troubles.logic (fun _ => Tallied) s := by
  rw [Provisioning.wp_save]
  refine pre_store ?_ fun e _ => ?_
  · change Outcome _ _ (s.store.setBinding sub.id (some b)).1 _
    rw [Store.setBinding, Store.modifySubscription_fst hs]
    exact tallied_iff_ledger.mpr ((h.save hs hb).quiet ((State.Quiet.refl _).record _ _))
  · have hq := (State.Quiet.refl s).record (.store (.setBinding sub.id (some b))) (.error e)
    exact discardBinding_tallied (h.quiet hq) hk ⟨sub.id, b, e, List.mem_cons_self, rfl⟩

theorem provision_tallied {sub : Subscription} (h : Tallied s) :
    (Provisioning.provision sub).run.wp troubles.logic (fun _ => Tallied) s := by
  rw [← outcome_eta fun _ => Tallied]
  refine Provisioning.provision_wp (pre_steady troubles_faultsOnSave (by simp) fun u hu => ?_)
  change if (s.store.subscription? sub.id).any Subscription.needsProvisioning then _ else _
  split_ifs with hc
  · obtain ⟨stored, hs, hneeds⟩ := (Option.any_eq_true ..).mp hc
    have hb : stored.binding = none := (Subscription.needsProvisioning_iff.mp hneeds).2
    refine wp_mono (fun r v hv => hv.mono (fun b w hw => ?_) fun e w hw => hw)
      (createClient_ledger (h.quiet hu))
    obtain ⟨hl, hk, hsubs⟩ := hw
    have hs' : w.store.subscription? sub.id = some stored := by
      rw [Store.subscription?, hsubs, hu.store]
      exact hs
    refine wp_mono (fun r x hx => ?_) (save_tallied hl hk hs' hb)
    rcases r with e | _
    · exact hx
    · exact fun text => pre_message fun a y hy => hx.quiet hy
  · exact h.quiet hu

theorem deleteClient_tallied {sub : Subscription} (h : Tallied s)
    (hs : (s.store.subscription? sub.id).isSome) :
    (deleteClient sub).run.wp troubles.logic (fun _ => Tallied) s := by
  rw [← outcome_eta fun _ => Tallied]
  refine deleteClient_wp troubles_faultsOnSave (fun stored b t u v hs hb ht hu hv => ?_)
    (fun b n t u v hn => ?_) fun e u hu => h.quiet hu
  · have hl := (tallied_iff_ledger.mp h).remove (x := b.peer) (by simp)
    have hq := (ht.removePeer (n := b.nodeId) (p := b.peerId)).trans (quiet_of_removed hu)
    have hp : b.peerId ∉ (s.removePeer b.nodeId b.peerId).agents b.nodeId := fun hp =>
      (State.mem_removePeer_iff.mp hp).1 rfl
    exact tallied_iff_ledger.mpr (((hl.unbind hs hb hp).decrement).quiet ((hq.setStore _).trans hv))
  · rw [hn] at hs
    cases hs

theorem setEnabled_tallied {n : NodeId} {p : String} {enabled : Bool} (h : Tallied s) :
    Tallied (s.setEnabled n p enabled) :=
  tallied_iff_ledger.mpr <| (tallied_iff_ledger.mp h).congr rfl rfl subset_rfl
    fun _ => State.mem_setEnabled_iff

theorem disableClient_tallied {sub : Subscription} (h : Tallied s) :
    (disableClient sub).run.wp troubles.logic (fun _ => Tallied) s := by
  rw [← outcome_eta fun _ => Tallied]
  exact disableClient_wp troubles_faultsOnSave
    (fun b u _ hu => (setEnabled_tallied h).quiet hu) fun e u hu => h.quiet hu

theorem enableClient_tallied {sub : Subscription} (h : Tallied s) :
    (enableClient sub).run.wp troubles.logic (fun _ => Tallied) s := by
  rw [← outcome_eta fun _ => Tallied]
  exact enableClient_wp troubles_faultsOnSave
    (fun b u _ hu => (setEnabled_tallied h).quiet hu) fun e u hu => h.quiet hu

theorem expire_tallied {sub : Subscription} (h : Tallied s) :
    (Expiration.expire sub).wp troubles.logic (fun _ => Tallied) s := by
  rw [← outcome_eta fun _ => Tallied]
  refine Expiration.expire_wp (U := Tallied) ?_ fun u hu => ?_
  · split_ifs
    · exact h
    · refine wp_mono (fun r u hu => ?_) (disableClient_tallied h)
      rcases r with e | _
      · rw [outcome_error]
        split_ifs <;> exact hu
      · exact hu
  · refine pre_steady troubles_faultsOnSave (by simp) fun v hv => ?_
    have ht : Tallied (u.setStore (u.store.updateStatus sub.id .expired).2) :=
      tallied_iff_ledger.mpr <| (tallied_iff_ledger.mp hu).congr Store.modifySubscription_nodes
        Store.bound_updateStatus subset_rfl fun _ => Iff.rfl
    cases (u.store.perform (.updateStatus sub.id .expired)).1 <;> exact ht.quiet hv

theorem length_of_lists {infos : List PeerInfo} {ps : Peers} (h : Lists infos ps) :
    infos.length = ps.keys.card := by
  have hc := congrArg Multiset.card h
  rw [Multiset.coe_card, List.length_map] at hc
  rw [hc]
  exact (Multiset.card_map Sigma.fst ps.entries).symm

theorem syncPeerCount_tallied {n : Node} (h : Tallied s) :
    (syncPeerCount n).run.wp troubles.logic (fun _ => Tallied) s := by
  rw [← outcome_eta fun _ => Tallied]
  refine syncPeerCount_wp troubles_faultsOnSave (fun infos u hi hu => ?_) fun e u hu => h.quiet hu
  have hl := tallied_iff_ledger.mp h
  refine tallied_iff_ledger.mpr (Ledger.quiet (hl.recount rfl (fun {m} hm => ?_) fun _ _ => rfl) hu)
  rw [← hl.counted hm, h.counted hm]
  have hlen : infos.length = s.liveOn n.id := length_of_lists hi
  have hlt := m.currentPeers.toNat_lt_size
  rw [h.counted hm, ← hlen] at hlt
  rw [countOf, min_eq_left (by omega), UInt32.toNat_ofNat_of_lt' hlt, hlen]

theorem provisioning_tallied (h : Tallied s) :
    Provisioning.runOnce.run.wp troubles.logic (fun _ => Tallied) s := by
  have hw : Provisioning.runOnce.run.wp troubles.logic
      (Outcome (fun _ u => ∃ _ : List Subscription, Tallied u) fun _ => Tallied) s :=
    Provisioning.runOnce_wp (I := fun _ => Tallied) (fun _ _ _ => provision_tallied)
      (pre_steady troubles_faultsOnSave (by simp) fun u hu => h.quiet hu)
  refine wp_mono (fun r u hu => ?_) hw
  rcases r with e | _
  · exact hu
  · obtain ⟨_, hu⟩ := hu
    exact hu

theorem expiration_tallied (h : Tallied s) {now : Instant} :
    (Expiration.runAt now).run.wp troubles.logic (fun _ => Tallied) s := by
  rw [← outcome_eta fun _ => Tallied]
  exact Expiration.runAt_wp (I := fun _ => Tallied) (fun _ _ _ => expire_tallied)
    (pre_steady troubles_faultsOnSave (by simp) fun u hu => h.quiet hu)

theorem recount_tallied (h : Tallied s) :
    PeerCount.runOnce.run.wp troubles.logic (fun _ => Tallied) s := by
  rw [← outcome_eta fun _ => Tallied]
  exact PeerCount.runOnce_wp (fun _ _ => syncPeerCount_tallied)
    (pre_steady troubles_faultsOnSave (by simp) fun u hu => h.quiet hu)

/-- What may happen to a fleet on which nothing is under way: a subscription without a peer
comes in, or one operation runs to its end. -/
inductive Happens : State → State → Prop
  | subscribe {s : State} {sub : Subscription} :
      s.store.subscription? sub.id = none → sub.binding = none →
        Happens s (s.setStore (s.store.upsertSubscription sub))
  | provision {s s' : State} {r} :
      Runs troubles.surroundings Provisioning.runOnce.run s r s' → Happens s s'
  | delete {sub : Subscription} {s s' : State} {r} : (s.store.subscription? sub.id).isSome →
      Runs troubles.surroundings (deleteClient sub).run s r s' → Happens s s'
  | disable {sub : Subscription} {s s' : State} {r} :
      Runs troubles.surroundings (disableClient sub).run s r s' → Happens s s'
  | enable {sub : Subscription} {s s' : State} {r} :
      Runs troubles.surroundings (enableClient sub).run s r s' → Happens s s'
  | expire {now : Instant} {s s' : State} {r} :
      Runs troubles.surroundings (Expiration.runAt now).run s r s' → Happens s s'
  | recount {s s' : State} {r} :
      Runs troubles.surroundings PeerCount.runOnce.run s r s' → Happens s s'

theorem Happens.tallied {s s' : State} (hs : Happens s s') (h : Tallied s) : Tallied s' := by
  cases hs with
  | subscribe hn hb =>
    refine tallied_iff_ledger.mpr <| (tallied_iff_ledger.mp h).congr rfl
      (Store.bound_upsertSubscription hn hb) subset_rfl fun _ => Iff.rfl
  | provision hr => exact hr.of_wp (provisioning_tallied h)
  | delete hd hr => exact hr.of_wp (deleteClient_tallied h hd)
  | disable hr => exact hr.of_wp (disableClient_tallied h)
  | enable hr => exact hr.of_wp (enableClient_tallied h)
  | expire hr => exact hr.of_wp (expiration_tallied h)
  | recount hr => exact hr.of_wp (recount_tallied h)

/-- However long it goes on, bindings and live peers correspond one to one after every
operation, and every counter is the number of live peers on its node. -/
theorem tallied_of_happens {s s' : State} (h : Tallied s)
    (hr : Relation.ReflTransGen Happens s s') : Tallied s' := by
  induction hr with
  | refl => exact h
  | tail _ hs ih => exact hs.tallied ih

theorem tallied_of_first_peer : ∃ s s' : State, Tallied s ∧
    Relation.ReflTransGen Happens s s' ∧ s'.store.bound = {(1, "p")} ∧ Tallied s' := by
  let s : State := .founding (.create 1 "node-1" "10.0.0.1:7443" 10)
  let sub : Subscription := { id := 1, userId := 10, tariff := "month", expiresAt := .epoch }
  have hrun : Can troubles.surroundings Provisioning.runOnce.run
      (fun _ s' => s'.store.bound = {(1, "p")}) (s.setStore (s.store.upsertSubscription sub)) := by
    refine .call ⟨_, .inl ⟨rfl, rfl⟩, rfl⟩ ?_
    refine .call ⟨_, .inl ⟨rfl, rfl⟩, rfl⟩ ?_
    refine .call ⟨_, .inl ⟨rfl, rfl⟩, rfl⟩ ?_
    refine .call ⟨_, ⟨.ok (), nofun, rfl, rfl⟩, rfl⟩ ?_
    refine .call ⟨_, ⟨.ok (), nofun, rfl, rfl⟩, rfl⟩ (.note ?_)
    refine .call (a := "12345678") ⟨_, rfl, rfl⟩ ?_
    refine .call
      ⟨_, .inl ⟨⟨"p", "", "", "10.8.0.2"⟩, fun _ => Set.notMem_empty _, rfl, rfl⟩, rfl⟩ ?_
    refine .call ⟨_, .inl ⟨rfl, rfl⟩, rfl⟩ (.note ?_)
    refine .call ⟨_, .inl ⟨rfl, rfl⟩, rfl⟩ (.note ?_)
    refine .call (a := Except.ok (1 : Telegram.MessageId)) ⟨_, rfl, rfl⟩ (.done ?_)
    decide
  obtain ⟨r, s', hr, hb⟩ := hrun
  have hs : Tallied s := tallied_founding rfl
  have hh : Relation.ReflTransGen Happens s s' :=
    .tail (.single (.subscribe rfl rfl)) (.provision hr)
  exact ⟨s, s', hs, hh, hb, tallied_of_happens hs hh⟩

end PeerFleet.Fleet
