import PeerFleet.Proofs.Fleet.Ledger
import PeerFleet.Proofs.Fleet.Turns

/-! # What a history tells

The calls that were made, the last one first, with their answers. They tell what the counter of
a node is now, and how many peers have come to the node and gone from it.
-/

namespace PeerFleet.Fleet

variable {C : Conditions} {s₀ s s' u : State} {id : NodeId} {c₀ : UInt32}

/-- What a call makes of the counter of a node. -/
def recounted (id : NodeId) : Effect → UInt32 → UInt32
  | .store (.increment n), c => if n = id then Store.increased c else c
  | .store (.decrement n), c => if n = id then Store.decreased c else c
  | .store (.setPeerCount n d), c => if n = id then d else c
  | _, c => c

/-- The counter of a node after a history. -/
def counterAfter (id : NodeId) (c₀ : UInt32) : List Exchange → UInt32
  | [] => c₀
  | x :: l => recounted id x.1 (counterAfter id c₀ l)

def calls (c : Effect) (l : List Exchange) : ℕ :=
  l.countP (·.1 = c)

def idle (id : NodeId) (c₀ : UInt32) (c : Effect) : List Exchange → ℕ
  | [] => 0
  | x :: l => idle id c₀ c l +
      if x.1 = c ∧ counterAfter id c₀ (x :: l) = counterAfter id c₀ l then 1 else 0

def overwrites (id : NodeId) : Effect → Bool
  | .store (.setPeerCount n _) => n = id
  | _ => false

theorem exists_of_overwrites {c : Effect} (h : overwrites id c) :
    ∃ d, c = .store (.setPeerCount id d) := by
  unfold overwrites at h
  split at h
  next n d =>
    obtain rfl := of_decide_eq_true h
    exact ⟨d, rfl⟩
  · cases h

section counters

variable {c : Effect} {x : Exchange} {l l' : List Exchange}

@[simp] theorem calls_nil : calls c [] = 0 := rfl

theorem calls_cons : calls c (x :: l) = calls c l + if x.1 = c then 1 else 0 := by
  simp [calls, List.countP_cons]

theorem calls_append : calls c (l ++ l') = calls c l + calls c l' :=
  List.countP_append

theorem counterAfter_append :
    counterAfter id c₀ (l ++ l') = counterAfter id (counterAfter id c₀ l') l := by
  induction l with
  | nil => rfl
  | cons x l ih => simp [counterAfter, ih]

theorem idle_append :
    idle id c₀ c (l ++ l') = idle id (counterAfter id c₀ l') c l + idle id c₀ c l' := by
  induction l with
  | nil => simp [idle]
  | cons x l ih =>
    have hc : counterAfter id c₀ (x :: (l ++ l')) =
        counterAfter id (counterAfter id c₀ l') (x :: l) := counterAfter_append (l := x :: l)
    rw [List.cons_append, idle, idle, ih, hc, counterAfter_append, Nat.add_right_comm]

theorem recounted_of_ne {d : UInt32} (hi : c ≠ .store (.increment id))
    (hd : c ≠ .store (.decrement id)) (hw : ¬ overwrites id c) : recounted id c d = d := by
  unfold recounted
  split
  · exact if_neg (by rintro rfl; exact hi rfl)
  · exact if_neg (by rintro rfl; exact hd rfl)
  · exact if_neg (by simpa [overwrites] using hw)
  · rfl

theorem increased_eq_or (d : UInt32) : Store.increased d = d ∨
    Store.increased d ≠ d ∧ (Store.increased d).toNat = d.toNat + 1 := by
  by_cases h : d.toNat + 1 < UInt32.size
  · have hi := Store.increased_toNat h
    refine .inr ⟨fun he => ?_, hi⟩
    rw [he] at hi
    omega
  · exact .inl (if_neg h)

theorem decreased_eq_or (d : UInt32) : Store.decreased d = d ∨
    Store.decreased d ≠ d ∧ (Store.decreased d).toNat + 1 = d.toNat := by
  have hd := Store.decreased_toNat d
  by_cases h : d = 0
  · exact .inl (by rw [Store.decreased, if_pos h, h])
  · have hpos : d.toNat ≠ 0 := fun h0 => h (UInt32.toNat_inj.mp h0)
    refine .inr ⟨fun he => ?_, by omega⟩
    rw [he] at hd
    omega

/-- As long as nothing writes over a counter, it is what it was and what it has been told, but
for what it could not follow. -/
theorem counterAfter_balance (c₀ : UInt32) (h : ∀ x ∈ l, ¬ overwrites id x.1) :
    (counterAfter id c₀ l).toNat + idle id c₀ (.store (.increment id)) l +
        calls (.store (.decrement id)) l =
      c₀.toNat + calls (.store (.increment id)) l + idle id c₀ (.store (.decrement id)) l := by
  induction l with
  | nil => simp [counterAfter, idle]
  | cons x l ih =>
    obtain ⟨hx, hl⟩ := List.forall_mem_cons.mp h
    have hb := ih hl
    rw [calls_cons, calls_cons, idle, idle]
    by_cases hi : x.1 = .store (.increment id)
    · have hc : counterAfter id c₀ (x :: l) = Store.increased (counterAfter id c₀ l) := by
        simp [counterAfter, recounted, hi]
      rw [hc]
      rcases increased_eq_or (counterAfter id c₀ l) with he | ⟨hne, he⟩
      · simp only [hi, he]
        simp
        omega
      · simp only [hi, he, hne]
        simp
        omega
    · by_cases hd : x.1 = .store (.decrement id)
      · have hc : counterAfter id c₀ (x :: l) = Store.decreased (counterAfter id c₀ l) := by
          simp [counterAfter, recounted, hd]
        rw [hc]
        rcases decreased_eq_or (counterAfter id c₀ l) with he | ⟨hne, he⟩
        · simp only [hd, he]
          simp
          omega
        · simp only [hd, hne]
          simp
          omega
      · have hc : counterAfter id c₀ (x :: l) = counterAfter id c₀ l :=
          recounted_of_ne hi hd hx
        simpa [hc, hi, hd] using hb

/-- A counter that is written over once. What it was before and what was written over it make
up for one another in what it comes to. -/
theorem counterAfter_overwrite (c₀ : UInt32) {later earlier : List Exchange} {d : UInt32}
    (hx : x.1 = .store (.setPeerCount id d)) (hl : ∀ y ∈ later, ¬ overwrites id y.1)
    (he : ∀ y ∈ earlier, ¬ overwrites id y.1) :
    (counterAfter id c₀ (later ++ x :: earlier)).toNat + (counterAfter id c₀ earlier).toNat +
        idle id c₀ (.store (.increment id)) (later ++ x :: earlier) +
        calls (.store (.decrement id)) (later ++ x :: earlier) =
      d.toNat + c₀.toNat + calls (.store (.increment id)) (later ++ x :: earlier) +
        idle id c₀ (.store (.decrement id)) (later ++ x :: earlier) := by
  have hd : counterAfter id c₀ (x :: earlier) = d := by
    simp [counterAfter, recounted, hx]
  have hle := counterAfter_balance d hl
  have hea := counterAfter_balance c₀ he
  have hxi : x.1 ≠ .store (.increment id) := by
    rw [hx]
    rintro ⟨⟩
  have hxd : x.1 ≠ .store (.decrement id) := by
    rw [hx]
    rintro ⟨⟩
  simp only [counterAfter_append, idle_append, calls_append, calls_cons, hd, idle, hxi, hxd,
    false_and, if_false]
  omega

end counters

def arrival? : Exchange → Option (NodeId × String)
  | ⟨.agent k (.create _ _), .ok peer⟩ => some (k.nodeId, CreatedPeer.peerId peer)
  | _ => none

def departure? : Exchange → Option (NodeId × String)
  | ⟨.agent k (.delete _ p), .ok _⟩ => some (k.nodeId, p)
  | _ => none

def State.arrivals (s : State) : Multiset (NodeId × String) :=
  (s.history : Multiset Exchange).filterMap arrival?

def State.departures (s : State) : Multiset (NodeId × String) :=
  (s.history : Multiset Exchange).filterMap departure?

def State.counter? (s : State) (id : NodeId) : Option UInt32 :=
  (s.store.node? id).map Node.currentPeers

/-- One call has been made: what it did to counters and peers can be told from its answer. -/
structure Ensues (s : State) (x : Exchange) (s' : State) : Prop where
  history : s'.history = x :: s.history
  counter : ∀ id, s'.counter? id = (s.counter? id).map (recounted id x.1)
  live : ∀ id, s'.liveOn id + (departure? x).elim 0 (fun y => if y.1 = id then 1 else 0) =
    s.liveOn id + (arrival? x).elim 0 fun y => if y.1 = id then 1 else 0
  issued : s.issued ⊆ s'.issued
  unissued : ∀ {y}, arrival? x = some y → y ∉ s.issued
  departed : ∀ {y}, departure? x = some y → y.2 ∈ s.agents y.1
  mem_agents : ∀ {y : NodeId × String}, y.2 ∈ s'.agents y.1 ↔
    arrival? x = some y ∨ y.2 ∈ s.agents y.1 ∧ departure? x ≠ some y

theorem node?_setPeers {t : Store} {n : NodeId} {f : UInt32 → UInt32} :
    (t.setPeers n f).2.node? id = (t.node? id).map fun m =>
      { m with currentPeers := if n = id then f m.currentPeers else m.currentPeers } := by
  rw [Store.setPeers_node?]
  by_cases h : id = n
  · simp [h]
  · simp [h, Ne.symm h]

theorem node?_perform {t : Store} {c : StoreCall} : (t.perform c).2.node? id =
    (t.node? id).map fun n =>
      { n with currentPeers := recounted id (.store c) n.currentPeers } := by
  have hkeep {u : Store} (h : u.node? id = t.node? id) :
      u.node? id = (t.node? id).map fun n => { n with currentPeers := n.currentPeers } := by
    rw [h, Option.map_id']
  cases c with
  | increment n => exact node?_setPeers
  | decrement n => exact node?_setPeers
  | setPeerCount n d => exact node?_setPeers
  | updateStatus i status =>
    refine hkeep ?_
    change (t.updateStatus i status).2.node? id = _
    rw [Store.updateStatus, Store.modifySubscription_node?]
  | setBinding i b => exact hkeep Store.setBinding_node?
  | clearBindingIf i p => exact hkeep Store.clearBindingIf_node?
  | _ => exact hkeep rfl

theorem counter?_perform {c : StoreCall} :
    (s.setStore (s.store.perform c).2).counter? id =
      (s.counter? id).map (recounted id (.store c)) := by
  rw [State.counter?, State.counter?, Option.map_map]
  change ((s.store.perform c).2.node? id).map _ = _
  rw [node?_perform, Option.map_map]
  rfl

theorem ensues_of_still {x : Exchange} (hh : s'.history = x :: s.history)
    (hc : ∀ id, s'.counter? id = (s.counter? id).map (recounted id x.1))
    (hm : ∀ y : NodeId × String, y.2 ∈ s'.agents y.1 ↔ y.2 ∈ s.agents y.1)
    (hi : s'.issued = s.issued) (ha : arrival? x = none) (hd : departure? x = none) :
    Ensues s x s' where
  history := hh
  counter := hc
  live id := by
    have hk : (s'.agents id).keys = (s.agents id).keys := by
      ext p
      rw [Finmap.mem_keys, Finmap.mem_keys]
      exact hm (id, p)
    simp [ha, hd, State.liveOn, hk]
  issued := hi.ge
  unissued h := by simp [ha] at h
  departed h := by simp [hd] at h
  mem_agents {y} := by simp [ha, hd, hm]

theorem ensues_pool {q : Pool} {c : PoolCall} {a : c.Answer} :
    Ensues s ⟨.pool c, a⟩ ((s.setPool q).record (.pool c) a) :=
  ensues_of_still rfl (fun _ => Option.map_id'.symm) (fun _ => Iff.rfl) rfl rfl rfl

section agent

variable {k : Client} {n : NodeId} {p : String}

theorem ensues_create {i q : String} {peer : CreatedPeer}
    (hp : (k.nodeId, peer.peerId) ∉ s.issued) :
    Ensues s ⟨.agent k (.create i q), .ok peer⟩
      ((s.addPeer k.nodeId peer.peerId).record (.agent k (.create i q)) (.ok peer)) where
  history := rfl
  counter _ := Option.map_id'.symm
  live id := by
    have hnew : peer.peerId ∉ s.agents k.nodeId := fun h => hp (s.issued_of_mem h)
    refine (State.liveOn_addPeer (s := s)).trans (congrArg _ (if_congr ?_ rfl rfl))
    exact ⟨fun h => h.1.symm, fun h => ⟨h.symm, hnew⟩⟩
  issued := Set.subset_insert _ _
  unissued h := by
    obtain rfl := Option.some.inj h
    exact hp
  departed := nofun
  mem_agents {y} := by
    refine State.mem_addPeer_iff.trans (or_congr ?_ ?_)
    · exact ⟨fun h => congrArg some h.symm, fun h => (Option.some.inj h).symm⟩
    · exact ⟨fun h => ⟨h, nofun⟩, fun h => h.1⟩

theorem ensues_delete {i : String} (hp : p ∈ s.agents k.nodeId) :
    Ensues s ⟨.agent k (.delete i p), .ok ()⟩
      ((s.removePeer k.nodeId p).record (.agent k (.delete i p)) (.ok ())) where
  history := rfl
  counter _ := Option.map_id'.symm
  live id := by
    refine Eq.trans (congrArg _ (if_congr ?_ rfl rfl)) (State.liveOn_removePeer (s := s))
    exact ⟨fun h => ⟨h.symm, hp⟩, fun h => h.1.symm⟩
  issued := le_rfl
  unissued := nofun
  departed h := by
    obtain rfl := Option.some.inj h
    exact hp
  mem_agents {y} := by
    refine State.mem_removePeer_iff.trans ⟨fun h => .inr ⟨h.2, fun hd => ?_⟩, ?_⟩
    · exact h.1 (Option.some.inj hd).symm
    · rintro (h | ⟨h, hd⟩)
      · cases h
      · exact ⟨fun hy => hd (congrArg some hy.symm), h⟩

end agent

/-- With a store that does not fail and agents that never issue an id twice, every call is told
by its answer. -/
theorem ensues_of_effect (hC : ∀ s c e, ¬ C.storeFault s c e)
    (hi : ∀ {s n p}, C.issues s n p → (n, p) ∉ s.issued) {c : Effect} {a : c.Answer}
    (h : C.effect s c a u) : Ensues s ⟨c, a⟩ (u.record c a) := by
  cases c with
  | store c =>
    obtain ⟨rfl, rfl⟩ | ⟨e, he, -⟩ := h
    · exact ensues_of_still rfl (fun _ => counter?_perform) (fun _ => Iff.rfl) rfl rfl rfl
    · exact (hC s c e he).elim
  | pool c =>
    obtain ⟨_, -, -, rfl⟩ := h
    exact ensues_pool
  | agent k c =>
    have hstill {u : State} (hu : u = s) (ha : arrival? ⟨.agent k c, a⟩ = none)
        (hd : departure? ⟨.agent k c, a⟩ = none) :
        Ensues s ⟨.agent k c, a⟩ (u.record (.agent k c) a) := by
      subst hu
      exact ensues_of_still rfl (fun _ => Option.map_id'.symm) (fun _ => Iff.rfl) rfl ha hd
    have hswitch {p : String} {b : Bool} (hu : u = s.setEnabled k.nodeId p b ∨ u = s)
        (ha : arrival? ⟨.agent k c, a⟩ = none) (hd : departure? ⟨.agent k c, a⟩ = none) :
        Ensues s ⟨.agent k c, a⟩ (u.record (.agent k c) a) := by
      rcases hu with rfl | rfl
      · exact ensues_of_still rfl (fun _ => Option.map_id'.symm)
          (fun _ => State.mem_setEnabled_iff) rfl ha hd
      · exact hstill rfl ha hd
    rcases h with h | ⟨e, -, rfl, rfl⟩
    · cases c with
      | create i q =>
        obtain ⟨peer, hp, rfl, rfl⟩ := h
        exact ensues_create (hi hp)
      | delete i p =>
        obtain ⟨hp, rfl, rfl⟩ | ⟨-, ⟨text, rfl⟩, rfl⟩ := h
        · exact ensues_delete hp
        · exact hstill rfl rfl rfl
      | enable i p => exact hswitch (h.imp (·.2.2) (·.2.2)) rfl rfl
      | disable i p => exact hswitch (h.imp (·.2.2) (·.2.2)) rfl rfl
      | get i p => exact hstill h.1 rfl rfl
      | list i => exact hstill h.1 rfl rfl
    · cases c <;> exact hstill rfl rfl rfl
  | health c =>
    obtain ⟨-, rfl⟩ := h
    exact ensues_of_still rfl (fun _ => Option.map_id'.symm) (fun _ => Iff.rfl) rfl rfl rfl
  | close | message | probe | suffix =>
    obtain rfl : u = s := h
    exact ensues_of_still rfl (fun _ => Option.map_id'.symm) (fun _ => Iff.rfl) rfl rfl rfl

/-- A peer that is on its node, or has gone from it. -/
def State.Seen (s : State) (x : NodeId × String) : Prop :=
  x ∈ s.departures ∨ x.2 ∈ s.agents x.1

/-- The history accounts for every counter and for the number of peers on every node. -/
structure Chronicled (s₀ s : State) : Prop where
  counter : ∀ id, s.counter? id = (s₀.counter? id).map (counterAfter id · s.history)
  live : ∀ id, s.liveOn id + onNode id s.departures = s₀.liveOn id + onNode id s.arrivals
  nodup : s.departures.Nodup
  gone : ∀ x ∈ s.departures, x ∈ s.issued ∧ x.2 ∉ s.agents x.1

theorem chronicled_of_nil (h : s.history = []) : Chronicled s s where
  counter id := by
    rw [h]
    exact Option.map_id'.symm
  live id := by simp [State.departures, State.arrivals, h]
  nodup := by simp [State.departures, h]
  gone := by simp [State.departures, h]

section step

variable {x : Exchange}

theorem Ensues.arrivals (h : Ensues s x s') :
    s'.arrivals = (arrival? x).elim s.arrivals (· ::ₘ s.arrivals) := by
  rw [State.arrivals, h.history]
  cases ha : arrival? x with
  | none => exact Multiset.filterMap_cons_none x (s.history : Multiset Exchange) ha
  | some y => exact Multiset.filterMap_cons_some arrival? x (s.history : Multiset Exchange) ha

theorem Ensues.departures (h : Ensues s x s') :
    s'.departures = (departure? x).elim s.departures (· ::ₘ s.departures) := by
  rw [State.departures, h.history]
  cases hd : departure? x with
  | none => exact Multiset.filterMap_cons_none x (s.history : Multiset Exchange) hd
  | some y => exact Multiset.filterMap_cons_some departure? x (s.history : Multiset Exchange) hd

theorem Ensues.onNode_arrivals (h : Ensues s x s') (id : NodeId) : onNode id s'.arrivals =
    onNode id s.arrivals + (arrival? x).elim 0 fun y => if y.1 = id then 1 else 0 := by
  rw [h.arrivals]
  cases arrival? x with
  | none => rfl
  | some y => simp

theorem Ensues.onNode_departures (h : Ensues s x s') (id : NodeId) : onNode id s'.departures =
    onNode id s.departures + (departure? x).elim 0 fun y => if y.1 = id then 1 else 0 := by
  rw [h.departures]
  cases departure? x with
  | none => rfl
  | some y => simp

theorem Ensues.mem_departures (h : Ensues s x s') {y : NodeId × String} :
    y ∈ s'.departures ↔ departure? x = some y ∨ y ∈ s.departures := by
  rw [h.departures]
  cases departure? x with
  | none => simp
  | some z => simp [eq_comm]

theorem State.Seen.ensues {y : NodeId × String} (hy : s.Seen y) (h : Ensues s x s') :
    s'.Seen y := by
  rcases hy with hy | hy
  · exact .inl (h.mem_departures.mpr (.inr hy))
  · by_cases hd : departure? x = some y
    · exact .inl (h.mem_departures.mpr (.inl hd))
    · exact .inr (h.mem_agents.mpr (.inr ⟨hy, hd⟩))

theorem Chronicled.ensues (hs : Chronicled s₀ s) (h : Ensues s x s') : Chronicled s₀ s' where
  counter id := by
    rw [h.counter, hs.counter, Option.map_map, h.history]
    rfl
  live id := by
    have := h.live id
    have := hs.live id
    rw [h.onNode_arrivals, h.onNode_departures]
    omega
  nodup := by
    rw [h.departures]
    cases hd : departure? x with
    | none => exact hs.nodup
    | some y => exact Multiset.nodup_cons.mpr ⟨fun hy => (hs.gone y hy).2 (h.departed hd), hs.nodup⟩
  gone y hy := by
    rcases h.mem_departures.mp hy with hd | hy
    · have hl := h.departed hd
      refine ⟨h.issued (s.issued_of_mem hl), fun hl' => ?_⟩
      rcases h.mem_agents.mp hl' with ha | ⟨-, hd'⟩
      · exact h.unissued ha (s.issued_of_mem hl)
      · exact hd' hd
    · obtain ⟨hi, hp⟩ := hs.gone y hy
      refine ⟨h.issued hi, fun hl => ?_⟩
      rcases h.mem_agents.mp hl with ha | ⟨hl, -⟩
      · exact h.unissued ha hi
      · exact hp hl

end step

end PeerFleet.Fleet
