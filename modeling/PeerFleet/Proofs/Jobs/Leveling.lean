import PeerFleet.Proofs.Fleet.Omission
import PeerFleet.Proofs.Fleet.Selection
import PeerFleet.Proofs.Jobs.Shape

/-! # How a provisioning pass spreads its peers

A peer is created on the lightest node that has room, and in a pass that runs alone and can
save its bindings no counter goes down. So a node that was given a peer is ahead of another
one with room by that peer at most, and then only if it comes first among equals.
-/

namespace PeerFleet

namespace Fleet

def Leveled (ns : List Node) (given : List NodeId) : Prop :=
  ∀ a ∈ ns, ∀ b ∈ ns, a.id ≠ b.id → a.hasCapacity → b.id ∈ given →
    b.currentPeers.toNat ≤ a.currentPeers.toNat + 1 ∧
      (b.currentPeers.toNat = a.currentPeers.toNat + 1 → b.id < a.id)

section leveled

variable {t t' : Store} {n : Node} {given : List NodeId}

/-- The node that is picked may be given a peer, whether or not the peer is counted. -/
theorem Leveled.give {c : UInt32} (h : Leveled t.listEligible given)
    (hp : pickLeastLoaded t.listEligible = .ok n)
    (ht : ∀ id, t'.node? id = if id = n.id then some { n with currentPeers := c } else t.node? id)
    (hc : c.toNat = n.currentPeers.toNat ∨ c.toNat = n.currentPeers.toNat + 1) :
    Leveled t'.listEligible (given ++ [n.id]) := by
  obtain ⟨hn, -, hroom⟩ := of_pickLeastLoaded_ok hp
  have hold : ∀ m ∈ t'.listEligible,
      m = { n with currentPeers := c } ∨ m.id ≠ n.id ∧ m ∈ t.listEligible := by
    intro m hm
    obtain ⟨hm, he⟩ := Store.mem_listEligible_iff.mp hm
    rw [ht] at hm
    split_ifs at hm with hid
    · cases hm
      exact .inl rfl
    · exact .inr ⟨hid, Store.mem_listEligible_iff.mpr ⟨hm, he⟩⟩
  intro a ha b hb hne hcap hgiven
  obtain rfl | ⟨han, ha⟩ := hold a ha
  · obtain rfl | ⟨hbn, hb⟩ := hold b hb
    · exact absurd rfl hne
    -- The counter of the picked node only grows.
    · have hgiven : b.id ∈ given := by simpa [hbn] using hgiven
      obtain ⟨hle, hlt⟩ := h n hn b hb hne hroom hgiven
      refine ⟨?_, fun heq => hlt ?_⟩
      · dsimp only
        omega
      · dsimp only at heq
        omega
  · obtain rfl | ⟨hbn, hb⟩ := hold b hb
    -- The other node had room and was not picked.
    · have hlight := not_lighter_of_pickLeastLoaded hp ha (Store.mem_listEligible_iff.mp ha).2 hcap
      have hid : a.id.toInt ≠ n.id.toInt := mt Store.toInt_eq_iff.mp han
      rw [lighter_iff] at hlight
      rw [Int64.lt_iff_toInt_lt]
      dsimp only
      omega
    · exact h a ha b hb hne hcap (by simpa [hbn] using hgiven)

end leveled

end Fleet

namespace Provisioning

open Fleet Program
open Health (told)

/-- Anything may fail at any time, but for the saving of bindings. -/
def savings : Conditions where
  storeFault _ c _ := ∀ id b, c ≠ .setBinding id b
  connectFault _ _ _ := True
  agentFault _ _ _ _ := True
  issues _ _ _ := True

theorem savings_total : savings.surroundings.Total :=
  Conditions.total fun _ _ => ⟨"", trivial⟩

def creation? : Exchange → Option NodeId
  | ⟨.agent k (.create _ _), .ok _⟩ => some k.nodeId
  | _ => none

/-- Between two states peers were created on some nodes, one after another. A peer that is new
is on one of them, and the nodes are level. -/
structure Spread (s s' : State) (given : List NodeId) : Prop where
  created : told creation? s' = told creation? s ++ given
  peers : ∀ n p, p ∈ s'.agents n → p ∈ s.agents n ∨ n ∈ given
  leveled : Leveled s'.store.listEligible given

/-- No peer was created, and the store and the agents are as they were. -/
structure Still (s u : State) : Prop where
  store : u.store = s.store
  agents : u.agents = s.agents
  created : told creation? u = told creation? s

variable {C : Conditions} {s₀ s u v : State} {given : List NodeId} {n : Node}

theorem Spread.refl (s : State) : Spread s s [] where
  created := (List.append_nil _).symm
  peers _ _ := .inl
  leveled _ _ _ _ _ _ := nofun

theorem Still.trans (h : Still s u) (h' : Still u v) : Still s v :=
  ⟨h'.store.trans h.store, h'.agents.trans h.agents, h'.created.trans h.created⟩

theorem Still.record (h : Still s u) {c : Effect} {a : c.Answer} (hc : creation? ⟨c, a⟩ = none) :
    Still s (u.record c a) := by
  refine ⟨h.store, h.agents, ?_⟩
  rw [Health.told_record, hc]
  exact (List.append_nil _).trans h.created

theorem still_record {c : Effect} {a : c.Answer} (hc : creation? ⟨c, a⟩ = none) :
    Still s (s.record c a) :=
  Still.record ⟨rfl, rfl, rfl⟩ hc

theorem Spread.still (h : Spread s₀ s given) (hu : Still s u) : Spread s₀ u given where
  created := hu.created.trans h.created
  peers m p hp := h.peers m p (hu.agents ▸ hp)
  leveled := hu.store ▸ h.leveled

theorem Spread.give {p : String} (h : Spread s₀ s given)
    (hp : pickLeastLoaded s.store.listEligible = .ok n)
    (hcreated : told creation? u = told creation? s ++ [n.id])
    (hagents : u.agents = (s.addPeer n.id p).agents)
    (hstore : u.store = s.store ∨ u.store = (s.store.setPeers n.id Store.increased).2) :
    Spread s₀ u (given ++ [n.id]) where
  created := by rw [hcreated, h.created, List.append_assoc]
  peers m q hq := by
    rw [hagents] at hq
    obtain ⟨⟨⟩⟩ | hq := State.mem_addPeer_iff (x := (m, q)).mp hq
    · exact .inr (by simp)
    · exact (h.peers m q hq).imp_right fun hm => List.mem_append_left _ hm
  leveled := by
    obtain ⟨hn, hroom⟩ := of_pickLeastLoaded hp
    rcases hstore with hs | hs
    · refine h.leveled.give (c := n.currentPeers) hp (fun id => ?_) (.inl rfl)
      rw [hs]
      split_ifs with hid
      · rw [hid, hn]
      · rfl
    · refine h.leveled.give hp (fun id => ?_)
        (.inr (Store.increased_toNat (toNat_lt_of_hasCapacity hroom)))
      rw [hs, Store.setPeers_node?]
      split_ifs with hid
      · rw [hid, hn]
        rfl
      · rfl

theorem selectNode_still : selectNode.run.wp C.logic (Outcome
    (fun n u => Still s u ∧ pickLeastLoaded s.store.listEligible = .ok n)
    fun _ u => Still s u) s := by
  rw [selectNode, wp_run_bind, wp_fromStore]
  refine pre_store ?_ fun e _ => still_record rfl
  change Outcome _ _ (pickLeastLoaded s.store.listEligible) _
  have hs : Still s (s.record (.store .listEligible) (.ok s.store.listEligible)) :=
    still_record rfl
  cases hp : pickLeastLoaded s.store.listEligible with
  | error e => exact hs
  | ok n => exact ⟨hs, rfl⟩

theorem clientFor_still : (clientFor n).run.wp C.logic (Outcome
    (fun k u => Still s u ∧ k.nodeId = n.id) fun _ u => Still s u) s := by
  refine wp_of_runs fun r u hr => ?_
  have htold : told creation? u = told creation? s :=
    told_eq_of_ignores (ignores_clientFor fun _ _ => rfl) hr
  have hq : Outcome (fun k u => s.Quiet u ∧ k.nodeId = n.id) (fun _ u => s.Quiet u) r u :=
    hr.of_wp (clientFor_wp (fun _ _ hu hk _ => ⟨hu, hk⟩) fun _ _ _ hu => hu)
  cases r with
  | ok k => exact ⟨⟨hq.1.store, hq.1.agents, htold⟩, hq.2⟩
  | error e => exact ⟨hq.store, hq.agents, htold⟩

theorem told_created {k : Client} {i q : String} {peer : CreatedPeer} (hk : k.nodeId = n.id) :
    told creation? (s.record (.agent k (.create i q)) (.ok peer)) =
      told creation? s ++ [n.id] := by
  rw [← hk]
  exact Health.told_record

theorem createClient_spread {user : UserId} (h : Spread s₀ s given) :
    (createClient user).run.wp C.logic (Outcome
      (fun _ u => (∃ given, Spread s₀ u given) ∧ u.store.subscriptions = s.store.subscriptions)
      fun _ u => ∃ given, Spread s₀ u given) s := by
  refine createClient_wp_of (wp_mono (fun r u hu => ?_) selectNode_still)
  refine hu.mono (fun n u ⟨hu, hp⟩ => ?_) fun e u hu => ⟨given, h.still hu⟩
  refine wp_mono (fun r v hv => ?_) clientFor_still
  refine hv.mono (fun k v ⟨hv, hk⟩ => ?_) fun e v hv => ⟨given, h.still (hu.trans hv)⟩
  rintro suffix _ ⟨_, rfl, rfl⟩
  have hw := (hu.trans hv).record (c := .suffix) (a := suffix) rfl
  rw [← hw.store] at hp ⊢
  have hs := h.still hw
  rw [wp_remote]
  rintro _ _ ⟨x, ⟨peer, -, rfl, rfl⟩ | ⟨e, -, rfl, rfl⟩, rfl⟩
  · rw [hk]
    refine pre_store ?_ fun e _ => ?_
    · refine ⟨⟨_, hs.give hp ?_ rfl (.inr rfl)⟩, Store.setPeers_subscriptions⟩
      exact (still_record rfl).created.trans (told_created hk)
    · refine ⟨⟨_, hs.give hp ?_ rfl (.inl rfl)⟩, rfl⟩
      exact (still_record rfl).created.trans (told_created hk)
  · exact ⟨given, hs.still (still_record rfl)⟩

theorem save_spread {sub stored : Subscription} {b : Binding}
    (h : Spread s₀ s given) (hs : s.store.subscription? sub.id = some stored) :
    (save sub b).run.wp savings.logic (fun _ u => Spread s₀ u given) s := by
  rw [wp_save]
  refine pre_store ?_ fun e he => absurd rfl (he _ _)
  change Outcome _ _ (s.store.setBinding sub.id (some b)).1 _
  rw [Store.setBinding, Store.modifySubscription_fst hs]
  refine ⟨?_, h.peers, ?_⟩
  · exact (still_record rfl).created.trans h.created
  · have hnodes : (s.store.setBinding sub.id (some b)).2.listEligible = s.store.listEligible := by
      rw [Store.listEligible, Store.listNodes, Store.setBinding, Store.modifySubscription_nodes]
      rfl
    change Leveled (s.store.setBinding sub.id (some b)).2.listEligible given
    rw [hnodes]
    exact h.leveled

theorem provision_spread {sub : Subscription} (h : ∃ given, Spread s₀ s given) :
    (provision sub).run.wp savings.logic (fun _ u => ∃ given, Spread s₀ u given) s := by
  obtain ⟨given, h⟩ := h
  rw [← outcome_eta fun _ u => ∃ given, Spread s₀ u given]
  refine provision_wp (pre_store ?_ fun e _ => ⟨given, h.still (still_record rfl)⟩)
  have hu : Still s (s.record (.store (.getSubscription sub.id))
    (.ok (s.store.subscription? sub.id))) := still_record rfl
  change if (s.store.subscription? sub.id).any Subscription.needsProvisioning then _ else _
  split_ifs with hc
  · obtain ⟨stored, hs, -⟩ := (Option.any_eq_true ..).mp hc
    refine wp_mono (fun r v hv => ?_) (createClient_spread (h.still hu))
    refine hv.mono (fun b w hw => ?_) fun e w hw => hw
    obtain ⟨⟨given, hw⟩, hsubs⟩ := hw
    have hstored : w.store.subscription? sub.id = some stored := by
      rw [Store.subscription?, hsubs]
      exact hs
    refine wp_mono (fun r x hx => ?_) (save_spread hw hstored)
    cases r with
    | error e => exact ⟨given, hx⟩
    | ok =>
      rintro text a _ ⟨_, rfl, rfl⟩
      exact ⟨given, hx.still (still_record rfl)⟩
  · exact ⟨given, h.still hu⟩

/-- Where bindings can be saved and nothing else runs, a pass comes to an end, and leaves the
nodes level: one that was given a peer has at most one more than any other that still has room,
and it has one more only if its id is the smaller one. -/
theorem runOnce_spreads (s : State) :
    (∃ r s', Runs savings.surroundings runOnce.run s r s') ∧
    ∀ r s', Runs savings.surroundings runOnce.run s r s' → ∃ given, Spread s s' given := by
  refine ⟨exists_runs savings_total _ s, fun r s' hr => ?_⟩
  have hw : runOnce.run.wp savings.logic (Outcome
      (fun _ u => ∃ _ : List Subscription, ∃ given, Spread s u given)
      fun _ u => ∃ given, Spread s u given) s :=
    runOnce_wp (I := fun _ u => ∃ given, Spread s u given) (fun _ _ _ => provision_spread)
      (pre_store ⟨[], (Spread.refl s).still (still_record rfl)⟩
        fun e _ => ⟨[], (Spread.refl s).still (still_record rfl)⟩)
  have h := hr.of_wp hw
  cases r with
  | ok =>
    obtain ⟨_, h⟩ := h
    exact h
  | error => exact h

theorem runOnce_two_nodes : ∃ s r s', Runs savings.surroundings runOnce.run s r s' ∧
    s'.store.listEligible.map (fun n => (n.id, n.currentPeers)) = [(1, 1), (2, 0)] ∧
    Spread s s' [1] := by
  let s : State := State.waiting.setStore
    (State.waiting.store.upsertNode (.create 2 "node-2" "10.0.0.2:7443" 10))
  have hrun : Can savings.surroundings runOnce.run (fun _ s' => told creation? s' = [1] ∧
      s'.store.listEligible.map (fun n => (n.id, n.currentPeers)) = [(1, 1), (2, 0)]) s := by
    refine .call ⟨_, .inl ⟨rfl, rfl⟩, rfl⟩ ?_
    refine .call ⟨_, .inl ⟨rfl, rfl⟩, rfl⟩ ?_
    refine .call ⟨_, .inl ⟨rfl, rfl⟩, rfl⟩ ?_
    refine .call ⟨_, ⟨.ok (), nofun, rfl, rfl⟩, rfl⟩ ?_
    refine .call ⟨_, ⟨.ok (), nofun, rfl, rfl⟩, rfl⟩ (.note ?_)
    refine .call (a := "12345678") ⟨_, rfl, rfl⟩ ?_
    refine .call ⟨_, .inl ⟨⟨"p", "", "", "10.8.0.2"⟩, trivial, rfl, rfl⟩, rfl⟩ ?_
    refine .call ⟨_, .inl ⟨rfl, rfl⟩, rfl⟩ (.note ?_)
    refine .call ⟨_, .inl ⟨rfl, rfl⟩, rfl⟩ (.note ?_)
    refine .call (a := Except.ok (1 : Telegram.MessageId)) ⟨_, rfl, rfl⟩ (.done ?_)
    decide
  obtain ⟨r, s', hr, hcreated, hcounts⟩ := hrun
  obtain ⟨given, h⟩ := (runOnce_spreads s).2 r s' hr
  have hgiven : [1] = given := hcreated.symm.trans h.created
  exact ⟨s, r, s', hr, hcounts, hgiven ▸ h⟩

end Provisioning

end PeerFleet
