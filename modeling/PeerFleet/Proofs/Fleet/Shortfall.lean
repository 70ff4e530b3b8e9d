import PeerFleet.Proofs.Fleet.Accounting

/-! # Nodes that carry more than their counters say

An agent may lose a peer behind the back of the fleet. Two things make up for that: a recount
of the node, and the removal of the peer for its subscription, which frees a place although the
agent does not know the peer. A counter falls short of the peers on its node exactly if the
second comes after the first.
-/

namespace PeerFleet.Fleet

open Program

variable {s s' u : State}

/-- No eligible node has more peers than its counter says. -/
def State.Covered (s : State) : Prop :=
  ∀ id n, s.store.node? id = some n → n.eligible → s.liveOn id ≤ n.currentPeers.toNat

/-- The node that would take the next peer has room for it. -/
def State.Roomy (s : State) : Prop :=
  ∀ n, pickLeastLoaded s.store.listEligible = .ok n → s.liveOn n.id < n.maxPeers.toNat

theorem State.Quiet.liveOn (h : s.Quiet u) (id : NodeId) : u.liveOn id = s.liveOn id := by
  rw [State.liveOn, State.liveOn, h.agents]

theorem State.Covered.quiet (h : s.Covered) (hu : s.Quiet u) : u.Covered := by
  intro id n hn he
  rw [hu.liveOn id]
  exact h id n (hu.store ▸ hn) he

theorem State.Covered.roomy (h : s.Covered) : s.Roomy := by
  intro n hn
  obtain ⟨hm, he, hcap⟩ := of_pickLeastLoaded_ok hn
  have hle := h _ _ (Store.node?_of_mem_listEligible hm) he
  have hlt := UInt32.lt_iff_toNat_lt.mp (of_decide_eq_true hcap)
  omega

theorem State.Covered.change (h : s.Covered) (id : NodeId) (f : UInt32 → UInt32)
    (hstore : ∀ j, s'.store.node? j = (s.store.setPeers id f).2.node? j)
    (hothers : ∀ j, j ≠ id → s'.liveOn j = s.liveOn j)
    (hid : ∀ {n}, s.store.node? id = some n → n.eligible →
      s'.liveOn id ≤ (f n.currentPeers).toNat) : s'.Covered := by
  intro j n hn he
  rw [hstore, Store.setPeers_node?] at hn
  split_ifs at hn with hj
  · subst hj
    obtain ⟨m, hm, rfl⟩ := Option.map_eq_some_iff.mp hn
    exact hid hm he
  · rw [hothers j hj]
    exact h j n hn he

theorem createClient_covered {user : UserId} (h : s.Covered) :
    (createClient user).run.wp answers.logic (fun _ u => u.Covered) s := by
  rw [← outcome_eta fun _ (u : State) => u.Covered]
  refine createClient_wp answers_faultsOnSave (fun n b t k u _ hn hb _ hu _ => ?_)
    fun e u hu => h.quiet hu
  obtain ⟨hnode, hcap⟩ := of_pickLeastLoaded hn
  refine State.Covered.quiet (h.change n.id Store.increased ?_ ?_ ?_) hu
  · intro j
    rfl
  · intro j hj
    exact State.liveOn_addPeer.trans (by simp [hj, State.liveOn, State.setStore])
  · intro m hm he
    obtain rfl : n = m := Option.some.inj (hnode.symm.trans hm)
    have hlive : (s.create n.id b.peerId).liveOn n.id ≤ s.liveOn n.id + 1 := by
      refine State.liveOn_addPeer.le.trans ?_
      split_ifs
      · exact le_rfl
      · exact Nat.le_succ _
    have := h _ _ hnode he
    rw [Store.increased_toNat (toNat_lt_of_hasCapacity hcap)]
    omega

/-- A removal for a stored subscription takes away its binding and the peer if it is there, and
frees a place in any case. -/
theorem deleteClient_answers {sub : Subscription} (hs : (s.store.subscription? sub.id).isSome) :
    (deleteClient sub).run.wp answers.logic (Outcome
      (fun _ u => ∃ stored b, s.store.subscription? sub.id = some stored ∧
        stored.binding = some b ∧ ((s.removePeer b.nodeId b.peerId).setStore
          (s.store.release sub.id b.nodeId)).Quiet u)
      fun _ u => s.Quiet u) s := by
  refine deleteClient_wp answers_faultsOnSave (fun stored b t u v hs hb ht hu hv => ?_)
    (fun b n t u v hn => ?_) fun e u hu => hu
  · refine ⟨stored, b, hs, hb, ?_⟩
    obtain rfl : u = t.removePeer b.nodeId b.peerId := by
      obtain hu | ⟨-, _, _, he, -⟩ := hu
      · exact hu
      · exact he.elim
    exact (ht.removePeer.setStore _).trans hv
  · rw [hn] at hs
    cases hs

theorem syncPeerCount_covered {n : Node} (h : s.Covered) :
    (syncPeerCount n).run.wp answers.logic (fun _ u => u.Covered) s := by
  rw [← outcome_eta fun _ (u : State) => u.Covered]
  refine syncPeerCount_wp answers_faultsOnSave (fun infos u hi hu => ?_) fun e u hu => h.quiet hu
  refine State.Covered.quiet (h.change n.id (fun _ => countOf infos) ?_ ?_ ?_) hu
  · intro j
    rfl
  · intro j _
    rfl
  · intro m hm he
    have hlen : infos.length = s.liveOn n.id := length_of_lists hi
    have hle := h _ _ hm he
    have hlt := m.currentPeers.toNat_lt_size
    rw [countOf, min_eq_left (by omega), UInt32.toNat_ofNat_of_lt' (by omega), hlen]
    rfl

theorem recount_covered (h : s.Covered) :
    PeerCount.runOnce.run.wp answers.logic (fun _ u => u.Covered) s := by
  rw [← outcome_eta fun _ (u : State) => u.Covered]
  exact PeerCount.runOnce_wp (fun _ _ => syncPeerCount_covered)
    (pre_steady answers_faultsOnSave (by simp) fun u hu => h.quiet hu)

inductive Event where
  | provide
  | delete (sub : Subscription) (result : Except FleetError Unit)
  | recount
  | lose (peer : NodeId × String)

/-- What may happen to a fleet on which nothing is under way: an operation runs to its end, or
an agent loses a peer. -/
inductive Occurs : State → Event → State → Prop
  /-- A peer is created, and its binding is stored with a subscription. -/
  | provide {user : UserId} (sub : Subscription) {b : Binding} {s u : State} :
      Runs answers.surroundings (createClient user).run s (.ok b) u →
      Occurs s .provide
        (u.setStore (u.store.upsertSubscription { sub with binding := some b }))
  | refuse {user : UserId} {e : FleetError} {s s' : State} :
      Runs answers.surroundings (createClient user).run s (.error e) s' → Occurs s .provide s'
  | delete {sub : Subscription} {r} {s s' : State} : (s.store.subscription? sub.id).isSome →
      Runs answers.surroundings (deleteClient sub).run s r s' → Occurs s (.delete sub r) s'
  | recount {r} {s s' : State} :
      Runs answers.surroundings PeerCount.runOnce.run s r s' → Occurs s .recount s'
  | lose {n : NodeId} {p : String} {s : State} : p ∈ s.agents n →
      Occurs s (.lose (n, p)) (s.removePeer n p)

/-- One event after another, each with the state after it. -/
inductive Course : State → List (Event × State) → Prop
  | nil (s : State) : Course s []
  | cons {s s' : State} {e : Event} {log : List (Event × State)} :
      Occurs s e s' → Course s' log → Course s ((e, s') :: log)

/-- A place is freed for a peer that the agent does not have, on a node whose counter does not
count that peer any more but others. -/
def Doubles (s : State) : Event → Prop
  | .delete sub (.ok ()) => ∃ stored b n, s.store.subscription? sub.id = some stored ∧
      stored.binding = some b ∧ s.store.node? b.nodeId = some n ∧ n.eligible ∧
      b.peerId ∉ s.agents b.nodeId ∧ n.currentPeers.toNat = s.liveOn b.nodeId ∧
      0 < s.liveOn b.nodeId
  | _ => False

/-- At some point of the course a lost peer is made up for a second time. -/
def Doubled : State → List (Event × State) → Prop
  | _, [] => False
  | s, (e, s') :: log => Doubles s e ∨ Doubled s' log

section removal

variable {id : SubscriptionId} {b : Binding}

theorem release_covered (h : s.Covered)
    (hd : ∀ {n}, s.store.node? b.nodeId = some n → n.eligible → b.peerId ∉ s.agents b.nodeId →
      n.currentPeers.toNat = s.liveOn b.nodeId → s.liveOn b.nodeId = 0) :
    ((s.removePeer b.nodeId b.peerId).setStore (s.store.release id b.nodeId)).Covered := by
  refine h.change b.nodeId Store.decreased ?_ ?_ ?_
  · intro j
    change (s.store.release id b.nodeId).node? j = _
    rw [Store.release_node?, Store.setPeers_node?]
  · intro j hj
    have hl := @State.liveOn_removePeer s b.nodeId j b.peerId
    rwa [if_neg fun hjp => hj hjp.1] at hl
  · intro n hn he
    have hl := @State.liveOn_removePeer s b.nodeId b.nodeId b.peerId
    have hle := h _ _ hn he
    change (s.removePeer b.nodeId b.peerId).liveOn b.nodeId ≤ _
    rw [Store.decreased_toNat]
    by_cases hp : b.peerId ∈ s.agents b.nodeId
    · rw [if_pos ⟨rfl, hp⟩] at hl
      omega
    · rw [if_neg fun hjp => hp hjp.2] at hl
      have := hd hn he hp
      omega

theorem not_covered_release {n : Node} (id : SubscriptionId)
    (hn : s.store.node? b.nodeId = some n) (he : n.eligible) (hp : b.peerId ∉ s.agents b.nodeId)
    (hc : n.currentPeers.toNat = s.liveOn b.nodeId) (hl : 0 < s.liveOn b.nodeId) :
    ¬ ((s.removePeer b.nodeId b.peerId).setStore (s.store.release id b.nodeId)).Covered := by
  intro h
  have hnode : (s.store.release id b.nodeId).node? b.nodeId =
      some { n with currentPeers := Store.decreased n.currentPeers } := by
    rw [Store.release_node?, if_pos rfl, hn]
    rfl
  have hle : (s.removePeer b.nodeId b.peerId).liveOn b.nodeId ≤
      (Store.decreased n.currentPeers).toNat := h _ _ hnode he
  have hlive := @State.liveOn_removePeer s b.nodeId b.nodeId b.peerId
  rw [if_neg fun hjp => hp hjp.2] at hlive
  rw [Store.decreased_toNat] at hle
  omega

end removal

theorem State.Covered.upsertSubscription (h : s.Covered) (sub : Subscription) :
    (s.setStore (s.store.upsertSubscription sub)).Covered := h

/-- An event leaves every counter covering its peers unless it frees a place twice. -/
theorem Occurs.covered {e : Event} (hs : Occurs s e s') (h : s.Covered) (hd : ¬ Doubles s e) :
    s'.Covered := by
  cases hs with
  | provide _ hr => exact (hr.of_wp (createClient_covered h)).upsertSubscription _
  | refuse hr => exact hr.of_wp (createClient_covered h)
  | @delete sub r _ _ hs hr =>
    have hq := hr.of_wp (deleteClient_answers hs)
    rcases r with e | _
    · exact h.quiet hq
    · obtain ⟨stored, b, hstored, hb, hq⟩ := hq
      refine (release_covered h fun hn he hp hc => ?_).quiet hq
      by_contra hl
      exact hd ⟨stored, b, _, hstored, hb, hn, he, hp, hc, Nat.pos_of_ne_zero hl⟩
  | recount hr => exact hr.of_wp (recount_covered h)
  | @lose n p _ hp =>
    intro id m hm he
    have hl := @State.liveOn_removePeer s n id p
    have := h id m hm he
    omega

theorem Occurs.not_covered {e : Event} (hs : Occurs s e s') (hd : Doubles s e) :
    ¬ s'.Covered := by
  cases hs with
  | @delete sub r _ _ hs hr =>
    rcases r with e | _
    · exact hd.elim
    · obtain ⟨stored, b, n, hstored, hb, hn, he, hp, hc, hl⟩ := hd
      obtain ⟨stored', b', hstored', hb', hq⟩ := hr.of_wp (deleteClient_answers hs)
      obtain rfl : stored = stored' := Option.some.inj (hstored.symm.trans hstored')
      obtain rfl : b = b' := Option.some.inj (hb.symm.trans hb')
      intro h
      refine not_covered_release sub.id hn he hp hc hl fun j m hm hj => ?_
      rw [← hq.liveOn j]
      exact h j m (hq.store ▸ hm) hj
  | provide => exact hd.elim
  | refuse => exact hd.elim
  | recount => exact hd.elim
  | lose => exact hd.elim

/-- However long it goes on, every counter goes on covering the peers of its node, and new peers
go where there is room, exactly if no lost peer is made up for twice. -/
theorem covered_iff_not_doubled {log : List (Event × State)} (h : s.Covered) (hc : Course s log) :
    (∀ x ∈ log, x.2.Covered ∧ x.2.Roomy) ↔ ¬ Doubled s log := by
  induction hc with
  | nil => simp [Doubled]
  | @cons s s' e log hs _ ih =>
    rw [List.forall_mem_cons, Doubled, not_or]
    constructor
    · rintro ⟨⟨hs', -⟩, hlog⟩
      exact ⟨fun hd => hs.not_covered hd hs', (ih hs').mp hlog⟩
    · rintro ⟨hd, hlog⟩
      have hs' := hs.covered h hd
      exact ⟨⟨hs', hs'.roomy⟩, (ih hs').mpr hlog⟩

def fullNode : Node :=
  { Node.create 1 "node-1" "10.0.0.1:7443" 2 with currentPeers := 2 }

/-- One registered node, full, and two subscriptions whose peers are on it. -/
def State.full : State :=
  let sub (id : SubscriptionId) (p : String) : Subscription :=
    { id, userId := id, tariff := "month", expiresAt := .epoch,
      binding := some ⟨1, p, ⟨"", "", "10.8.0.2"⟩⟩ }
  let s := ((founding fullNode).addPeer 1 "p").addPeer 1 "q"
  s.setStore ((s.store.upsertSubscription (sub 1 "p")).upsertSubscription (sub 2 "q"))

theorem tallied_full : Tallied .full := by
  have hnode {id : NodeId} {n : Node} (hn : State.full.store.node? id = some n) :
      id = 1 ∧ n.currentPeers = 2 := by
    obtain ⟨hm, rfl⟩ := Store.node?_eq_some_iff.mp hn
    obtain rfl := List.mem_singleton.mp hm
    exact ⟨rfl, rfl⟩
  have hbound : State.full.store.bound = {(1, "p"), (1, "q")} := rfl
  have hagents {x : NodeId × String} :
      x.2 ∈ State.full.agents x.1 ↔ x = (1, "q") ∨ x = (1, "p") ∨ False := by
    refine State.mem_addPeer_iff.trans (or_congr_right (State.mem_addPeer_iff.trans ?_))
    exact or_congr_right (iff_of_false (fun h => Finmap.notMem_empty h) id)
  constructor
  · decide
  · intro x
    rw [hbound, State.Live, hagents]
    constructor
    · intro hx
      rcases Multiset.mem_cons.mp hx with rfl | hx
      · exact ⟨rfl, .inr (.inl rfl)⟩
      · obtain rfl := Multiset.mem_singleton.mp hx
        exact ⟨rfl, .inl rfl⟩
    · rintro ⟨-, rfl | rfl | h⟩
      · decide
      · decide
      · exact h.elim
  · intro id n hn
    obtain ⟨rfl, hc⟩ := hnode hn
    rw [hc]
    rfl

theorem mem_full : "p" ∈ State.full.agents 1 :=
  State.mem_addPeer_iff (x := (1, "p")).mpr (.inr (State.mem_addPeer_iff.mpr (.inl rfl)))

def owner : Subscription :=
  { id := 1, userId := 1, tariff := "month", expiresAt := .epoch }

theorem covered_full : State.full.Covered := by
  intro id n hn _
  exact (tallied_full.counted hn).ge

theorem exists_removal : ∃ s t : State,
    Course .full [(.lose (1, "p"), s), (.delete owner (.ok ()), t)] ∧
    ¬ Doubled .full [(.lose (1, "p"), s), (.delete owner (.ok ()), t)] := by
  let s := State.full.removePeer 1 "p"
  have hp : "p" ∉ s.agents 1 := fun h => (State.mem_removePeer_iff (x := (1, "p")).mp h).1 rfl
  have hrun : Can answers.surroundings (deleteClient owner).run (fun r _ => r = .ok ()) s := by
    refine .call ⟨_, .inl ⟨rfl, rfl⟩, rfl⟩ ?_
    refine .call ⟨_, .inl ⟨rfl, rfl⟩, rfl⟩ ?_
    refine .call ⟨_, ⟨.ok (), nofun, rfl, rfl⟩, rfl⟩ ?_
    refine .call ⟨_, ⟨.ok (), nofun, rfl, rfl⟩, rfl⟩ (.note ?_)
    refine .call (a := Except.error (AgentError.status .deletePeer 404 ""))
      ⟨_, .inl (.inr ⟨hp, ⟨_, rfl⟩, rfl⟩), rfl⟩ (.note ?_)
    refine .call ⟨_, .inl ⟨rfl, rfl⟩, rfl⟩ ?_
    exact .call ⟨_, .inl ⟨rfl, rfl⟩, rfl⟩ (.note (.done rfl))
  obtain ⟨_, t, hr, rfl⟩ := hrun
  refine ⟨s, t, .cons (.lose mem_full) (.cons (.delete rfl hr) (.nil t)), ?_⟩
  rintro (h | ⟨stored, b, n, hs, hb, hn, -, -, hc, -⟩ | h)
  · exact h
  · cases hs
    cases hb
    cases hn
    exact absurd hc (by decide)
  · exact h

theorem covered_of_removal : ∃ s t : State,
    Course .full [(.lose (1, "p"), s), (.delete owner (.ok ()), t)] ∧ s.Covered ∧ t.Covered := by
  obtain ⟨s, t, hc, hd⟩ := exists_removal
  have h := (covered_iff_not_doubled covered_full hc).mpr hd
  exact ⟨s, t, hc, (h _ List.mem_cons_self).1, (h _ (List.mem_cons_of_mem _ List.mem_cons_self)).1⟩

/-- An agent loses a peer, its node is recounted, and the peer is removed for its subscription.
Then the counter of the node lets it take one peer more than it has room for. -/
theorem exists_shortfall : ∃ log : List (Event × State), Tallied .full ∧ Course .full log ∧
    (∃ x ∈ log, ¬ x.2.Covered) ∧ ∃ x ∈ log, ¬ x.2.Roomy := by
  let s := State.full.removePeer 1 "p"
  have hq : Lists [{ peerId := "q", enabled := true }] (s.agents 1) := rfl
  have hp : "p" ∉ s.agents 1 := fun h => (State.mem_removePeer_iff (x := (1, "p")).mp h).1 rfl
  have hrun : Can answers.surroundings PeerCount.runOnce.run (fun _ t =>
      (t.store.subscription? 1).isSome ∧
        Can answers.surroundings (deleteClient owner).run (fun _ u => ¬ u.Covered ∧
          Can answers.surroundings (createClient 3).run (Outcome (fun _ v => ¬ v.Roomy)
            fun _ _ => False) u) t) s := by
    refine .call ⟨_, .inl ⟨rfl, rfl⟩, rfl⟩ ?_
    refine .call ⟨_, ⟨.ok (), nofun, rfl, rfl⟩, rfl⟩ ?_
    refine .call ⟨_, ⟨.ok (), nofun, rfl, rfl⟩, rfl⟩ (.note ?_)
    refine .call ⟨_, .inl ⟨rfl, _, hq, rfl⟩, rfl⟩ (.note ?_)
    refine .call ⟨_, .inl ⟨rfl, rfl⟩, rfl⟩ (.done ⟨rfl, ?_⟩)
    refine .call ⟨_, .inl ⟨rfl, rfl⟩, rfl⟩ ?_
    refine .call ⟨_, .inl ⟨rfl, rfl⟩, rfl⟩ ?_
    refine .call ⟨_, ⟨.ok (), nofun, rfl, rfl⟩, rfl⟩ ?_
    refine .call (a := Except.error (AgentError.status .deletePeer 404 ""))
      ⟨_, .inl (.inr ⟨hp, ⟨_, rfl⟩, rfl⟩), rfl⟩ (.note ?_)
    refine .call ⟨_, .inl ⟨rfl, rfl⟩, rfl⟩ ?_
    refine .call ⟨_, .inl ⟨rfl, rfl⟩, rfl⟩ (.note (.done ⟨?_, ?_⟩))
    · intro h
      exact absurd (h 1 _ rfl rfl) (by decide)
    · refine .call ⟨_, .inl ⟨rfl, rfl⟩, rfl⟩ ?_
      refine .call ⟨_, ⟨.ok (), nofun, rfl, rfl⟩, rfl⟩ ?_
      refine .call (a := "12345678") ⟨_, rfl, rfl⟩ ?_
      refine .call ⟨_, .inl ⟨⟨"r", "", "", "10.8.0.4"⟩, trivial, rfl, rfl⟩, rfl⟩ ?_
      refine .call ⟨_, .inl ⟨rfl, rfl⟩, rfl⟩ (.note (.done fun h => ?_))
      exact absurd (h _ rfl) (by decide)
  obtain ⟨_, t, ht, hsub, _, u, hu, hshort, r, v, hv, hfull⟩ := hrun
  rcases r with e | b
  · exact hfull.elim
  · refine ⟨_, tallied_full, .cons (.lose mem_full) (.cons (.recount ht)
      (.cons (.delete hsub hu) (.cons (.provide owner hv) (.nil _)))), ?_, ?_⟩
    · exact ⟨_, .tail _ (.tail _ (.head _)), hshort⟩
    · exact ⟨_, .tail _ (.tail _ (.tail _ (.head _))), hfull⟩

end PeerFleet.Fleet
