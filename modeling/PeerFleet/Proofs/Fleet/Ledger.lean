import PeerFleet.Proofs.Fleet.State

/-! # The ledger of peers

Every live peer is bound, or some operation holds it: it is fresh until the counter of its
node knows of it, and held until its binding is stored. A peer that is gone may leave its
binding behind for a while, and a place may still be due back. The counter of a node knows of
its held peers, of the bindings to it, and of the places that are due back.
-/

namespace PeerFleet.Fleet

def onNode (id : NodeId) (m : Multiset (NodeId × String)) : ℕ :=
  m.countP (·.1 = id)

@[simp] theorem onNode_zero (id : NodeId) : onNode id 0 = 0 := rfl

@[simp] theorem onNode_cons (id : NodeId) (x : NodeId × String) (m : Multiset (NodeId × String)) :
    onNode id (x ::ₘ m) = onNode id m + if x.1 = id then 1 else 0 :=
  Multiset.countP_cons ..

@[simp] theorem onNode_singleton (id : NodeId) (x : NodeId × String) :
    onNode id {x} = if x.1 = id then 1 else 0 := by
  rw [← Multiset.cons_zero, onNode_cons, onNode_zero, Nat.zero_add]

@[simp] theorem onNode_add (id : NodeId) (m m' : Multiset (NodeId × String)) :
    onNode id (m + m') = onNode id m + onNode id m' :=
  Multiset.countP_add ..

theorem count_due_cons (id j : NodeId) (due : Multiset NodeId) :
    (id ::ₘ due).count j = due.count j + if id = j then 1 else 0 := by
  rw [Multiset.count_cons]
  exact congrArg _ (if_congr eq_comm rfl rfl)

namespace State

def liveOn (s : State) (id : NodeId) : ℕ :=
  (s.agents id).keys.card

/-- The stored bindings whose peers the agents do not have. -/
def dangling (s : State) : Multiset (NodeId × String) :=
  s.store.bound.filter fun x => x.2 ∉ s.agents x.1

section liveOn

variable {s : State} {n id : NodeId} {p : String}

theorem liveOn_addPeer : (s.addPeer n p).liveOn id =
    s.liveOn id + if id = n ∧ p ∉ s.agents n then 1 else 0 := by
  change (Function.update s.agents n _ id).keys.card = _
  by_cases hid : id = n
  · subst hid
    have hkeys : ((s.agents id).insert p true).keys = insert p (s.agents id).keys := by
      ext q
      simp [Finmap.mem_keys, Finmap.mem_insert]
    rw [Function.update_self, hkeys]
    by_cases hp : p ∈ s.agents id
    · simp [hp, liveOn, Finset.insert_eq_of_mem (Finmap.mem_keys.mpr hp)]
    · simp [hp, liveOn, Finset.card_insert_of_notMem (mt Finmap.mem_keys.mp hp)]
  · simp [hid, liveOn]

theorem liveOn_removePeer : (s.removePeer n p).liveOn id +
    (if id = n ∧ p ∈ s.agents n then 1 else 0) = s.liveOn id := by
  change (Function.update s.agents n _ id).keys.card + _ = _
  by_cases hid : id = n
  · subst hid
    have hkeys : ((s.agents id).erase p).keys = (s.agents id).keys.erase p := by
      ext q
      simp [Finmap.mem_keys]
    rw [Function.update_self, hkeys]
    by_cases hp : p ∈ s.agents id
    · simp [hp, liveOn, Finset.card_erase_add_one (Finmap.mem_keys.mpr hp)]
    · simp [hp, liveOn, Finset.erase_eq_of_notMem (mt Finmap.mem_keys.mp hp)]
  · simp [hid, liveOn]

end liveOn

end State

structure Ledger (s : State) (fresh held : Multiset (NodeId × String)) (due : Multiset NodeId)
    (gone : Multiset (NodeId × String)) : Prop where
  nodup : (fresh + held + s.store.bound).Nodup
  live : ∀ x ∈ fresh + held, s.Live x
  accounted : ∀ {x}, s.Live x → x ∈ fresh + held + s.store.bound
  placed : ∀ x ∈ s.store.bound, x ∈ s.issued ∧ (s.store.node? x.1).isSome
  settled : ∀ x ∈ s.store.bound, x.2 ∉ s.agents x.1 → x ∈ gone
  counted : ∀ {id n}, s.store.node? id = some n →
    n.currentPeers.toNat = onNode id held + onNode id s.store.bound + due.count id

namespace Ledger

variable {s s' : State} {fresh held gone : Multiset (NodeId × String)} {due : Multiset NodeId}

theorem onNode_eq {m : Multiset (NodeId × String)} (hm : m.Nodup)
    (hl : ∀ {x}, s.Live x → x ∈ m) (id : NodeId) (hid : (s.store.node? id).isSome) :
    onNode id m = s.liveOn id + onNode id (m.filter fun x => x.2 ∉ s.agents x.1) := by
  have hkeys : ((m.filter fun x => x.2 ∈ s.agents x.1).filter (·.1 = id)).map Prod.snd =
      (s.agents id).keys.val := by
    refine (Multiset.Nodup.ext (.map_on ?_ ((hm.filter _).filter _)) (Finset.nodup _)).mpr ?_
    · intro x hx y hy hxy
      rw [Multiset.mem_filter] at hx hy
      exact Prod.ext (hx.2.trans hy.2.symm) hxy
    · intro p
      simp only [Multiset.mem_map, Multiset.mem_filter, Finset.mem_val, Finmap.mem_keys]
      constructor
      · rintro ⟨x, ⟨⟨-, hx⟩, rfl⟩, rfl⟩
        exact hx
      · intro hp
        exact ⟨(id, p), ⟨⟨hl ⟨hid, hp⟩, hp⟩, rfl⟩, rfl⟩
  have hc : onNode id (m.filter fun x => x.2 ∈ s.agents x.1) = s.liveOn id := by
    rw [onNode, Multiset.countP_eq_card_filter, ← Multiset.card_map Prod.snd, hkeys]
    rfl
  rw [← hc, ← onNode_add, Multiset.filter_add_not]

/-- What the counter of a node lacks are its fresh peers; what it has beyond the live peers
are the bindings left behind and the places due back. -/
theorem balance (h : Ledger s fresh held due gone) {id : NodeId} {n : Node}
    (hn : s.store.node? id = some n) :
    n.currentPeers.toNat + onNode id fresh = s.liveOn id + onNode id s.dangling + due.count id := by
  have hm := onNode_eq h.nodup h.accounted id (by simp [hn])
  have hd : (fresh + held + s.store.bound).filter (fun x => x.2 ∉ s.agents x.1) = s.dangling := by
    rw [Multiset.filter_add, Multiset.filter_eq_nil.mpr fun x hx => not_not.mpr (h.live x hx).2,
      zero_add]
    rfl
  rw [hd, onNode_add, onNode_add] at hm
  have := h.counted hn
  omega

theorem congr (h : Ledger s fresh held due gone) (hn : s'.store.nodes = s.store.nodes)
    (hb : s'.store.bound = s.store.bound) (hi : s.issued ⊆ s'.issued)
    (ha : ∀ x : NodeId × String, x.2 ∈ s'.agents x.1 ↔ x.2 ∈ s.agents x.1) :
    Ledger s' fresh held due gone := by
  have hnode : s'.store.node? = s.store.node? := by
    funext id
    rw [Store.node?, Store.node?, hn]
  have hlive (x : NodeId × String) : s'.Live x ↔ s.Live x := by
    rw [State.Live, State.Live, hnode, ha]
  exact
    { nodup := hb ▸ h.nodup
      live := fun x hx => (hlive x).mpr (h.live x hx)
      accounted := by
        intro x hx
        rw [hb]
        exact h.accounted ((hlive x).mp hx)
      placed := by
        intro x hx
        rw [hnode]
        obtain ⟨hxi, hxn⟩ := h.placed x (hb ▸ hx)
        exact ⟨hi hxi, hxn⟩
      settled := by
        intro x hx hp
        rw [ha] at hp
        exact h.settled x (hb ▸ hx) hp
      counted := by
        intro id n hid
        rw [hb]
        exact h.counted (hnode ▸ hid) }

theorem create (h : Ledger s fresh held due gone) {x : NodeId × String} (hx : x ∉ s.issued)
    (hn : (s.store.node? x.1).isSome) :
    Ledger (s.addPeer x.1 x.2) (x ::ₘ fresh) held due gone where
  nodup := by
    rw [Multiset.cons_add, Multiset.cons_add, Multiset.nodup_cons]
    refine ⟨fun hm => ?_, h.nodup⟩
    rcases Multiset.mem_add.mp hm with hm | hm
    · exact hx (s.issued_of_mem (h.live x hm).2)
    · exact hx (h.placed x hm).1
  live y hy := by
    rw [Multiset.cons_add, Multiset.mem_cons] at hy
    rcases hy with rfl | hy
    · exact ⟨hn, State.mem_addPeer_iff.mpr (.inl rfl)⟩
    · obtain ⟨hyn, hya⟩ := h.live y hy
      exact ⟨hyn, State.mem_addPeer_iff.mpr (.inr hya)⟩
  accounted {y} hy := by
    rw [Multiset.cons_add, Multiset.cons_add, Multiset.mem_cons]
    obtain ⟨hyn, hya⟩ := hy
    exact (State.mem_addPeer_iff.mp hya).imp id fun hya => h.accounted ⟨hyn, hya⟩
  placed y hy := by
    obtain ⟨hyi, hyn⟩ := h.placed y hy
    exact ⟨.inr hyi, hyn⟩
  settled y hy hp := h.settled y hy fun ha => hp (State.mem_addPeer_iff.mpr (.inr ha))
  counted hid := h.counted hid

theorem recount (h : Ledger s fresh held due gone) {id : NodeId} {f : UInt32 → UInt32}
    {fresh' held' : Multiset (NodeId × String)} {due' : Multiset NodeId}
    (hm : fresh' + held' = fresh + held)
    (hf : ∀ {n}, s.store.node? id = some n →
      (f n.currentPeers).toNat = onNode id held' + onNode id s.store.bound + due'.count id)
    (ho : ∀ j, j ≠ id → onNode j held' + due'.count j = onNode j held + due.count j) :
    Ledger (s.setStore (s.store.setPeers id f).2) fresh' held' due' gone := by
  have hb : (s.store.setPeers id f).2.bound = s.store.bound :=
    Store.bound_congr Store.setPeers_subscriptions
  exact
    { nodup := by
        change (fresh' + held' + (s.store.setPeers id f).2.bound).Nodup
        rw [hb, hm]
        exact h.nodup
      live := fun x hx => State.live_setPeers_iff.mpr (h.live x (hm ▸ hx))
      accounted := by
        intro x hx
        change x ∈ fresh' + held' + (s.store.setPeers id f).2.bound
        rw [hb, hm]
        exact h.accounted (State.live_setPeers_iff.mp hx)
      placed := by
        intro x hx
        change x ∈ (s.store.setPeers id f).2.bound at hx
        change x ∈ s.issued ∧ ((s.store.setPeers id f).2.node? x.1).isSome = true
        rw [hb] at hx
        rw [Store.setPeers_isSome]
        exact h.placed x hx
      settled := by
        intro x hx
        change x ∈ (s.store.setPeers id f).2.bound at hx
        rw [hb] at hx
        exact h.settled x hx
      counted := by
        intro j n hj
        change (s.store.setPeers id f).2.node? j = some n at hj
        change _ = onNode j held' + onNode j (s.store.setPeers id f).2.bound + due'.count j
        rw [Store.setPeers_node?] at hj
        rw [hb]
        split_ifs at hj with hji
        · subst hji
          obtain ⟨m, hm', rfl⟩ := Option.map_eq_some_iff.mp hj
          exact hf hm'
        · have := h.counted hj
          have := ho j hji
          omega }

theorem increment {x : NodeId × String} (h : Ledger s (x ::ₘ fresh) held due gone)
    (hlt : ∀ {n}, s.store.node? x.1 = some n → n.currentPeers.toNat + 1 < UInt32.size) :
    Ledger (s.setStore (s.store.setPeers x.1 Store.increased).2) fresh (x ::ₘ held) due gone := by
  refine h.recount ?_ (fun {n} hn => ?_) fun j hj => ?_
  · rw [Multiset.add_cons, Multiset.cons_add]
  · rw [Store.increased_toNat (hlt hn), h.counted hn, onNode_cons, if_pos rfl]
    omega
  · rw [onNode_cons, if_neg (Ne.symm hj), Nat.add_zero]

theorem decrement {id : NodeId} (h : Ledger s fresh held (id ::ₘ due) gone) :
    Ledger (s.setStore (s.store.setPeers id Store.decreased).2) fresh held due gone := by
  refine h.recount rfl (fun {n} hn => ?_) fun j hj => ?_
  · rw [Store.decreased_toNat, h.counted hn, Multiset.count_cons_self]
    omega
  · rw [Multiset.count_cons_of_ne hj]

theorem save {b : Binding} (h : Ledger s fresh (b.peer ::ₘ held) due gone)
    {sub : Subscription} {id : SubscriptionId} (hs : s.store.subscription? id = some sub)
    (hb : sub.binding = none) :
    Ledger (s.setStore (s.store.setBinding id (some b)).2) fresh held due gone := by
  have hbound : (s.setStore (s.store.setBinding id (some b)).2).store.bound =
      b.peer ::ₘ s.store.bound := Store.bound_setBinding_some hs hb
  have hsum : fresh + held + b.peer ::ₘ s.store.bound =
      fresh + b.peer ::ₘ held + s.store.bound := by
    rw [Multiset.add_cons, Multiset.add_cons, Multiset.cons_add]
  obtain ⟨hbn, hba⟩ := h.live b.peer (by simp)
  have hnode : (s.store.setBinding id (some b)).2.node? = s.store.node? :=
    funext fun _ => Store.setBinding_node?
  exact
    { nodup := by
        rw [hbound, hsum]
        exact h.nodup
      live := by
        intro x hx
        refine State.live_setBinding_iff.mpr (h.live x ?_)
        rw [Multiset.add_cons]
        exact Multiset.mem_cons_of_mem hx
      accounted := by
        intro x hx
        rw [hbound, hsum]
        exact h.accounted (State.live_setBinding_iff.mp hx)
      placed := by
        intro x hx
        change x ∈ s.issued ∧ ((s.store.setBinding id (some b)).2.node? x.1).isSome = true
        rw [hbound, Multiset.mem_cons] at hx
        rw [hnode]
        rcases hx with rfl | hx
        · exact ⟨s.issued_of_mem hba, hbn⟩
        · exact h.placed x hx
      settled := by
        intro x hx hp
        rw [hbound, Multiset.mem_cons] at hx
        rcases hx with rfl | hx
        · exact absurd hba hp
        · exact h.settled x hx hp
      counted := by
        intro j n hj
        change (s.store.setBinding id (some b)).2.node? j = some n at hj
        rw [hnode] at hj
        rw [hbound, h.counted hj, onNode_cons, onNode_cons]
        omega }

theorem unbind {b : Binding} (h : Ledger s fresh held due (b.peer ::ₘ gone))
    {sub : Subscription} {id : SubscriptionId} (hs : s.store.subscription? id = some sub)
    (hb : sub.binding = some b) (hp : b.peerId ∉ s.agents b.nodeId) :
    Ledger (s.setStore (s.store.setBinding id none).2) fresh held (b.nodeId ::ₘ due) gone := by
  have hbound : s.store.bound =
      b.peer ::ₘ (s.setStore (s.store.setBinding id none).2).store.bound :=
    Store.bound_setBinding_none hs hb
  have hnode : (s.store.setBinding id none).2.node? = s.store.node? :=
    funext fun _ => Store.setBinding_node?
  have hnd := h.nodup
  rw [hbound, Multiset.add_cons, Multiset.nodup_cons] at hnd
  obtain ⟨hb', hnd⟩ := hnd
  have hsub {x : NodeId × String}
      (hx : x ∈ (s.setStore (s.store.setBinding id none).2).store.bound) : x ∈ s.store.bound := by
    rw [hbound]
    exact Multiset.mem_cons_of_mem hx
  exact
    { nodup := hnd
      live := fun x hx => State.live_setBinding_iff.mpr (h.live x hx)
      accounted := by
        intro x hx
        have hl := State.live_setBinding_iff.mp hx
        have hm := h.accounted hl
        rw [hbound, Multiset.add_cons, Multiset.mem_cons] at hm
        rcases hm with rfl | hm
        · exact absurd hl.2 hp
        · exact hm
      placed := by
        intro x hx
        change x ∈ s.issued ∧ ((s.store.setBinding id none).2.node? x.1).isSome = true
        rw [hnode]
        exact h.placed x (hsub hx)
      settled := by
        intro x hx hp
        refine (Multiset.mem_cons.mp (h.settled x (hsub hx) hp)).resolve_left ?_
        rintro rfl
        exact hb' (Multiset.mem_add.mpr (.inr hx))
      counted := by
        intro j n hj
        change (s.store.setBinding id none).2.node? j = some n at hj
        rw [hnode] at hj
        have hc := h.counted hj
        rw [hbound, onNode_cons] at hc
        have hd : (b.nodeId ::ₘ due).count j = due.count j + if b.peer.1 = j then 1 else 0 :=
          count_due_cons ..
        omega }

theorem remove {x : NodeId × String} (h : Ledger s fresh held due gone) (hx : x ∉ fresh + held) :
    Ledger (s.removePeer x.1 x.2) fresh held due (x ::ₘ gone) where
  nodup := h.nodup
  live y hy := by
    obtain ⟨hyn, hya⟩ := h.live y hy
    have hne : y ≠ x := by
      rintro rfl
      exact hx hy
    exact ⟨hyn, State.mem_removePeer_iff.mpr ⟨hne, hya⟩⟩
  accounted := fun ⟨hyn, hya⟩ => h.accounted ⟨hyn, (State.mem_removePeer_iff.mp hya).2⟩
  placed := h.placed
  settled y hy hp := by
    rw [State.mem_removePeer_iff, not_and] at hp
    rw [Multiset.mem_cons]
    by_cases hyx : y = x
    · exact .inl hyx
    · exact .inr (h.settled y hy (hp hyx))
  counted := h.counted

theorem discard {x : NodeId × String} (h : Ledger s fresh (x ::ₘ held) due gone) :
    Ledger (s.removePeer x.1 x.2) fresh held (x.1 ::ₘ due) gone := by
  have hsum : fresh + x ::ₘ held + s.store.bound = x ::ₘ (fresh + held + s.store.bound) := by
    rw [Multiset.add_cons, Multiset.cons_add]
  have hnd := h.nodup
  rw [hsum, Multiset.nodup_cons] at hnd
  obtain ⟨hx, hnd⟩ := hnd
  exact
    { nodup := hnd
      live := by
        intro y hy
        have hne : y ≠ x := by
          rintro rfl
          exact hx (Multiset.mem_add.mpr (.inl hy))
        have hy' : y ∈ fresh + x ::ₘ held := by
          rw [Multiset.add_cons]
          exact Multiset.mem_cons_of_mem hy
        obtain ⟨hyn, hya⟩ := h.live y hy'
        exact ⟨hyn, State.mem_removePeer_iff.mpr ⟨hne, hya⟩⟩
      accounted := by
        intro y hy
        obtain ⟨hne, hya⟩ := State.mem_removePeer_iff.mp hy.2
        have hm := h.accounted ⟨hy.1, hya⟩
        rw [hsum, Multiset.mem_cons] at hm
        exact hm.resolve_left hne
      placed := h.placed
      settled := by
        intro y hy hp
        refine h.settled y hy fun hya => hp (State.mem_removePeer_iff.mpr ⟨?_, hya⟩)
        rintro rfl
        exact hx (Multiset.mem_add.mpr (.inr hy))
      counted := by
        intro j n hj
        have hc := h.counted hj
        rw [onNode_cons] at hc
        rw [count_due_cons]
        change _ = _ + onNode j s.store.bound + _
        omega }

theorem release {x : NodeId × String} (h : Ledger s fresh held due (x ::ₘ gone))
    (hx : x ∉ s.store.bound) : Ledger s fresh held due gone where
  __ := h
  settled y hy hp := by
    refine (Multiset.mem_cons.mp (h.settled y hy hp)).resolve_left ?_
    rintro rfl
    exact hx hy

end Ledger

/-- Stored bindings and live peers correspond one to one, and every counter is right. -/
structure Tallied (s : State) : Prop where
  distinct : s.store.bound.Nodup
  bound_iff_live : ∀ x, x ∈ s.store.bound ↔ s.Live x
  counted : ∀ {id n}, s.store.node? id = some n → n.currentPeers.toNat = s.liveOn id

theorem tallied_founding {n : Node} (h : n.currentPeers = 0) : Tallied (.founding n) where
  distinct := Multiset.nodup_zero
  bound_iff_live x := by
    refine iff_of_false (Multiset.notMem_zero x) fun hx => ?_
    exact Finmap.notMem_empty hx.2
  counted {id m} hm := by
    obtain rfl : m = n := List.mem_singleton.mp (Store.node?_eq_some_iff.mp hm).1
    rw [h]
    rfl

/-- The books are closed when nothing is held, due or gone. -/
theorem tallied_iff_ledger {s : State} : Tallied s ↔ Ledger s 0 0 0 0 := by
  constructor
  · intro h
    have hd : s.dangling = 0 :=
      Multiset.filter_eq_nil.mpr fun x hx => not_not.mpr ((h.bound_iff_live x).mp hx).2
    refine ⟨by simpa using h.distinct, by simp, fun {x} hx => ?_, fun x hx => ?_, fun x hx hp => ?_,
      fun {id n} hn => ?_⟩
    · simpa using (h.bound_iff_live x).mpr hx
    · have hl := (h.bound_iff_live x).mp hx
      exact ⟨s.issued_of_mem hl.2, hl.1⟩
    · exact absurd ((h.bound_iff_live x).mp hx).2 hp
    · have hc := Ledger.onNode_eq h.distinct (h.bound_iff_live _).mpr id (by simp [hn])
      change onNode id s.store.bound = s.liveOn id + onNode id s.dangling at hc
      rw [hd, onNode_zero, Nat.add_zero] at hc
      rw [h.counted hn, onNode_zero, Multiset.count_zero, hc]
      omega
  · intro h
    have hl : ∀ x ∈ s.store.bound, x.2 ∈ s.agents x.1 := fun x hx => by
      by_contra hp
      exact Multiset.notMem_zero x (h.settled x hx hp)
    have hd : s.dangling = 0 := Multiset.filter_eq_nil.mpr fun x hx => not_not.mpr (hl x hx)
    refine ⟨by simpa using h.nodup, fun x => ⟨fun hx => ⟨(h.placed x hx).2, hl x hx⟩, fun hx => ?_⟩,
      fun {id n} hn => ?_⟩
    · simpa using h.accounted hx
    · simpa [hd] using h.balance hn

theorem tallied_waiting : Tallied .waiting :=
  tallied_iff_ledger.mpr <| (tallied_iff_ledger.mp (tallied_founding rfl)).congr rfl
    (Store.bound_upsertSubscription rfl rfl) subset_rfl fun _ => Iff.rfl

end PeerFleet.Fleet
