import PeerFleet.Proofs.Fleet.Atomicity
import PeerFleet.Proofs.Fleet.Chronicle

/-! # Nodes beyond their maximum

Nothing is reserved between the selection of a node and the count of the new peer, so creations
that overlap may all choose the last place. A creation aims at a node from its selection to the
end of its count. Only a node with room is aimed at, so its counter and those that aim at it
together are beyond its maximum by less than the number of creations that overlap.
-/

namespace PeerFleet.Fleet

open Program

inductive Passage where
  | create (user : UserId)
  | delete (sub : Subscription)

def Passage.creates : Passage → Bool
  | .create _ => true
  | .delete _ => false

def Passage.Result : Passage → Type
  | .create _ => Except FleetError Binding
  | .delete _ => Except FleetError Unit

/-- Creations and removals, any number of them at any time. -/
def passages : Workload Effects State Passage where
  Result := Passage.Result
  program
    | .create user => (createClient user).run
    | .delete sub => (deleteClient sub).run
  admits _ _ _ := True

/-- A creation between the reading that its selection is made from and the end of its count. -/
def underway (t : Thread Effects passages.Result) : Bool :=
  t.kind.creates && t.rest.next?.any (· != Effect.store .listEligible)

def overlap (ts : passages.Threads) : ℕ :=
  ts.countP (underway ·)

theorem overlap_cons (t : Thread Effects passages.Result) (ts : passages.Threads) :
    overlap (t ::ₘ ts) = overlap ts + if underway t then 1 else 0 :=
  Multiset.countP_cons ..

def aimed (aim : Option NodeId) : (c : Effect) → c.Answer → Option NodeId
  | .store .listEligible, .ok ns => (pickLeastLoaded ns).toOption.map Node.id
  | .store (.increment _), _ => none
  | _, _ => aim

/-- Only a creation aims at a node, from its selection on, and what it counts is where it aims. -/
structure Takes (c : Effect) (k : Passage) (aim : Option NodeId) : Prop where
  creates : aim.isSome → k.creates ∧ c ≠ .store .listEligible
  counts : ∀ {id}, c = .store (.increment id) → aim = some id
  keeps : ∀ {id d}, c ≠ .store (.setPeerCount id d)

theorem takes_of_not_store {c : Effect} {k : Passage} {aim : Option NodeId}
    (hc : ∀ d, c ≠ .store d) (h : aim.isSome → k.creates) : Takes c k aim :=
  ⟨fun ha => ⟨h ha, hc _⟩, fun he => absurd he (hc _), fun he => hc _ he⟩

theorem of_aimed {t : Store} {id : NodeId}
    (h : aimed none (.store .listEligible) (t.perform .listEligible).1 = some id) :
    ∃ n, pickLeastLoaded t.listEligible = .ok n ∧ n.id = id := by
  change (pickLeastLoaded t.listEligible).toOption.map Node.id = some id at h
  cases hp : pickLeastLoaded t.listEligible with
  | error e =>
    rw [hp] at h
    cases h
  | ok n =>
    rw [hp] at h
    exact ⟨n, rfl, Option.some.inj h⟩

def aiming : Discipline passages (Option NodeId) where
  start _ := none
  Final _ aim := aim = none
  Guard := Takes
  Moves _ aim c a aim' := aim' = none ∨ aim' = aimed aim c a
  Inv _ _ := True

variable {C : Conditions} {k : Passage} {aim : Option NodeId}

section turns

theorem turn_aiming {c : Effect} {K : c.Answer → Option NodeId → Prop} (hg : Takes c k aim)
    (h : ∀ s a u, C.effect s c a u → K a none ∨ K a (aimed aim c a)) :
    (aiming.turns C.surroundings k).pre c K aim := by
  refine turn_of hg fun _ s a u _ he => ?_
  rcases h s a u he with h | h
  · exact ⟨none, trivial, .inl rfl, h⟩
  · exact ⟨_, trivial, .inr rfl, h⟩

theorem turn_none {c : Effect} {K : c.Answer → Option NodeId → Prop}
    (hi : ∀ id, c ≠ .store (.increment id)) (hs : ∀ id d, c ≠ .store (.setPeerCount id d))
    (h : ∀ a, K a none) : (aiming.turns C.surroundings k).pre c K none :=
  turn_aiming ⟨by rintro ⟨⟩, fun he => absurd he (hi _), fun {id d} => hs id d⟩
    fun _ a _ _ => .inl (h a)

theorem passesPool_aiming (h : aim.isSome → k.creates) :
    aiming.PassesPool k aim where
  guard _ := takes_of_not_store (by rintro _ ⟨⟩) h
  moves _ _ := .inr rfl
  inv _ := trivial

theorem clientFor_aiming (h : aim.isSome → k.creates) {n : Node}
    {S : Client → Option NodeId → Prop} {F : FleetError → Option NodeId → Prop}
    (hS : ∀ c, c.nodeId = n.id → S c aim) (hF : ∀ e, F e none) :
    (clientFor n).run.wp (aiming.turns C.surroundings k) (Outcome S F) aim :=
  clientFor_turn_of (fun h => h) (passesPool_aiming h) hS fun _ _ _ _ _ =>
    ⟨none, trivial, fun _ _ => .inl rfl, hF _⟩

theorem createClient_aiming {user : UserId} :
    (createClient user).run.wp (aiming.turns C.surroundings (.create user))
      (Outcome (fun _ aim => aim = none) fun _ aim => aim = none) none := by
  have hselect {S : Node → Option NodeId → Prop} {F : FleetError → Option NodeId → Prop}
      (hS : ∀ n, S n (some n.id)) (hF : ∀ e, F e none) :
      selectNode.run.wp (aiming.turns C.surroundings (.create user)) (Outcome S F) none := by
    rw [selectNode]
    refine wp_run_bind_of (wp_fromStore_of (turn_aiming ?_ fun s a u _ => ?_))
    · exact ⟨by rintro ⟨⟩, by rintro _ ⟨⟩, by rintro _ _ ⟨⟩⟩
    rcases a with e | ns
    · exact .inl (hF _)
    · change Outcome S F (pickLeastLoaded ns) none ∨
        Outcome S F (pickLeastLoaded ns) ((pickLeastLoaded ns).toOption.map Node.id)
      cases pickLeastLoaded ns with
      | error e => exact .inl (hF e)
      | ok n => exact .inr (hS n)
  refine createClient_wp_of (hselect (fun n => ?_) fun _ => rfl)
  refine clientFor_aiming (fun _ => rfl) (fun c hc => ?_) fun _ => rfl
  have htakes {c : Effect} (hc : ∀ d, c ≠ .store d) : Takes c (.create user) (some n.id) :=
    takes_of_not_store hc fun _ => rfl
  refine turn_aiming (htakes (by rintro _ ⟨⟩)) fun s suffix u _ => .inr ?_
  rw [wp_remote]
  refine turn_aiming (htakes (by rintro _ ⟨⟩)) fun s a u _ => ?_
  rcases a with e | peer
  · exact .inl rfl
  · refine .inr (turn_aiming ⟨fun _ => ⟨rfl, by rintro ⟨⟩⟩, ?_, by rintro _ _ ⟨⟩⟩
      fun s a u _ => .inl rfl)
    rintro _ ⟨⟩
    rfl

theorem removePeer_aiming {n : Node} {c : Client} {p : String} {S : Unit → Option NodeId → Prop}
    {F : FleetError → Option NodeId → Prop} (hS : S () none) (hF : ∀ e, F e none) :
    (removePeer n c p).run.wp (aiming.turns C.surroundings k) (Outcome S F) none := by
  rw [wp_removePeer]
  refine turn_none nofun nofun fun a => ?_
  rcases a with e | _
  · rw [outcome_error]
    split_ifs
    · exact hS
    · exact hF _
  · exact hS

theorem deleteClient_aiming {sub : Subscription} :
    (deleteClient sub).run.wp (aiming.turns C.surroundings (.delete sub))
      (Outcome (fun _ aim => aim = none) fun _ aim => aim = none) none := by
  refine deleteClient_wp_of ?_
  rw [wp_bindingOf]
  refine turn_none nofun nofun fun a => ?_
  rcases a with e | stored
  · rfl
  change (Option.getD stored sub).binding.elim (_ : Option NodeId → Prop) _ none
  cases (Option.getD stored sub).binding with
  | none => rfl
  | some b =>
    change (nodeOf b.nodeId).run.wp _ _ none
    rw [wp_nodeOf]
    refine turn_none nofun nofun fun a => ?_
    rcases a with e | _ | n
    · rfl
    · rfl
    change (clientFor n).run.wp _ _ none
    refine clientFor_aiming (by simp) (fun c _ => ?_) fun _ => rfl
    refine removePeer_aiming (turn_none nofun nofun fun a => ?_) fun _ => rfl
    rcases a with e | _ | _
    · rfl
    · rfl
    · exact turn_none (by rintro _ ⟨⟩) (by rintro _ _ ⟨⟩) fun _ => rfl

end turns

theorem passages_keep : aiming.Keeps C.surroundings where
  begins _ _ := trivial
  follows k := by
    cases k with
    | create user =>
      refine wp_mono (fun r _ h => ⟨?_, trivial⟩) createClient_aiming
      cases r <;> exact h
    | delete sub =>
      refine wp_mono (fun r _ h => ⟨?_, trivial⟩) deleteClient_aiming
      cases r <;> exact h

def aimsAt (id : NodeId) (m : Multiset (Passage × Option NodeId)) : ℕ :=
  m.countP (·.2 = some id)

@[simp] theorem aimsAt_cons (id : NodeId) (x : Passage × Option NodeId)
    (m : Multiset (Passage × Option NodeId)) :
    aimsAt id (x ::ₘ m) = aimsAt id m + if x.2 = some id then 1 else 0 :=
  Multiset.countP_cons ..

theorem underway_of_aim {t : Thread Effects passages.Result} {id : NodeId}
    (h : aiming.Follows C.surroundings t (some id)) : underway t := by
  cases hn : t.rest.next? with
  | none =>
    have hf : some id = none := h.final hn
    cases hf
  | some c =>
    have hg : Takes c t.kind (some id) := h.guard hn
    obtain ⟨hk, hc⟩ := hg.creates rfl
    rw [underway, hk, hn]
    exact bne_iff_ne.mpr hc

theorem aimsAt_le_overlap {M : Multiset (Thread Effects passages.Result × Option NodeId)}
    (h : ∀ x ∈ M, aiming.Follows C.surroundings x.1 x.2) (id : NodeId) :
    aimsAt id (Discipline.stages M) ≤ overlap (M.map Prod.fst) := by
  induction M using Multiset.induction_on with
  | empty => exact Nat.zero_le _
  | cons x M ih =>
    obtain ⟨hx, hM⟩ := Multiset.forall_mem_cons.mp h
    obtain ⟨t, aim⟩ := x
    have hs : Discipline.stages ((t, aim) ::ₘ M) = (t.kind, aim) ::ₘ Discipline.stages M :=
      Multiset.map_cons ..
    rw [hs, aimsAt_cons, Multiset.map_cons, overlap_cons]
    refine Nat.add_le_add (ih hM) ?_
    by_cases ha : aim = some id
    · subst ha
      rw [if_pos rfl, if_pos (underway_of_aim hx)]
    · rw [if_neg ha]
      exact Nat.zero_le _

/-- The counter of a node and those that aim at it together are within a margin of its maximum,
which is what it was. -/
structure Bounded (s₀ : State) (margin : ℕ) (s : State)
    (m : Multiset (Passage × Option NodeId)) : Prop where
  maxPeers : ∀ id, (s.store.node? id).map Node.maxPeers = (s₀.store.node? id).map Node.maxPeers
  total : ∀ {id n}, s.store.node? id = some n →
    n.currentPeers.toNat + aimsAt id m ≤ n.maxPeers.toNat + margin

namespace Bounded

variable {s₀ s u : State} {margin : ℕ} {m m' : Multiset (Passage × Option NodeId)}
  {aim' : Option NodeId}

/-- What holds of all counters and all that aim at their nodes holds after a step, if it holds
of each node as the step leaves it. -/
theorem of_recounted (h : Bounded s₀ margin s m) {f : NodeId → UInt32 → UInt32}
    (hu : ∀ id, u.store.node? id =
      (s.store.node? id).map fun n => { n with currentPeers := f id n.currentPeers })
    (hm : ∀ {id n}, s.store.node? id = some n →
      (f id n.currentPeers).toNat + aimsAt id m' ≤ n.currentPeers.toNat + aimsAt id m ∨
      (f id n.currentPeers).toNat + aimsAt id m' ≤ n.maxPeers.toNat + margin) :
    Bounded s₀ margin u m' where
  maxPeers id := by
    rw [hu, Option.map_map]
    exact h.maxPeers id
  total {id n} hn := by
    rw [hu] at hn
    obtain ⟨n, hs, rfl⟩ := Option.map_eq_some_iff.mp hn
    have ht := h.total hs
    rcases hm hs with hm | hm
    · exact hm.trans ht
    · exact hm

theorem of_store_eq (h : Bounded s₀ margin s m) (hu : u.store = s.store)
    (hm : ∀ id, aimsAt id m' ≤ aimsAt id m) : Bounded s₀ margin u m' :=
  h.of_recounted (f := fun _ c => c) (fun id => by rw [hu, Option.map_id'])
    fun _ => .inl (Nat.add_le_add_left (hm _) _)

theorem aimsAt_le (h : aim' = none ∨ aim' = aim) (id : NodeId) :
    aimsAt id ((k, aim') ::ₘ m) ≤ aimsAt id ((k, aim) ::ₘ m) := by
  rcases h with rfl | rfl
  · simp
  · exact le_rfl

theorem perform (h : Bounded s₀ margin s ((k, aim) ::ₘ m)) {c : StoreCall}
    (hc : Takes (.store c) k aim)
    (ha : aim' = none ∨ aim' = aimed aim (.store c) (s.store.perform c).1)
    (hm : ∀ id, aimsAt id ((k, aim') ::ₘ m) ≤ margin + 1) :
    Bounded s₀ margin (s.setStore (s.store.perform c).2) ((k, aim') ::ₘ m) := by
  refine h.of_recounted (f := fun id => recounted id (.store c)) (fun _ => node?_perform)
    fun {id n} hn => ?_
  cases c with
  | listEligible =>
    obtain rfl : aim = none := by
      by_contra hne
      exact (hc.creates (Option.isSome_iff_ne_none.mpr hne)).2 rfl
    change n.currentPeers.toNat + _ ≤ _ ∨ n.currentPeers.toNat + _ ≤ _
    by_cases hid : aim' = some id
    · obtain ⟨n', hp, rfl⟩ := of_aimed (ha.resolve_left (by simp [hid]) ▸ hid)
      obtain ⟨hn', hroom⟩ := of_pickLeastLoaded hp
      obtain rfl := Option.some.inj (hn'.symm.trans hn)
      have hlt := UInt32.lt_iff_toNat_lt.mp (of_decide_eq_true hroom)
      have hle := hm n'.id
      exact .inr (by omega)
    · exact .inl (by simp [hid])
  | increment j =>
    obtain rfl := hc.counts rfl
    obtain rfl : aim' = none := ha.elim (fun h => h) fun h => h
    refine .inl ?_
    change (if j = id then Store.increased n.currentPeers else n.currentPeers).toNat + _ ≤ _
    rw [aimsAt_cons, aimsAt_cons]
    by_cases hj : j = id
    · subst hj
      rcases increased_eq_or n.currentPeers with he | ⟨-, he⟩ <;> simp [he]
      omega
    · simp [hj]
  | decrement j =>
    refine .inl (Nat.add_le_add ?_ (aimsAt_le ha id))
    change (if j = id then Store.decreased n.currentPeers else n.currentPeers).toNat ≤ _
    split_ifs
    · rw [Store.decreased_toNat]
      exact Nat.sub_le _ _
    · exact le_rfl
  | setPeerCount j d => exact absurd rfl hc.keeps
  | _ => exact .inl (Nat.add_le_add_left (aimsAt_le ha id) _)

theorem call (h : Bounded s₀ margin s ((k, aim) ::ₘ m)) {c : Effect} {a : c.Answer}
    (he : C.effect s c a u) (hc : Takes c k aim) (ha : aim' = none ∨ aim' = aimed aim c a)
    (hm : ∀ id, aimsAt id ((k, aim') ::ₘ m) ≤ margin + 1) :
    Bounded s₀ margin u ((k, aim') ::ₘ m) := by
  cases c with
  | store c =>
    obtain ⟨rfl, rfl⟩ | ⟨e, -, rfl, rfl⟩ := he
    · exact h.perform hc ha hm
    · refine h.of_store_eq rfl (aimsAt_le ?_)
      cases c with
      | increment => exact .inl (ha.elim (fun h => h) fun h => h)
      | _ => exact ha
  | _ => exact h.of_store_eq (store_of_effect he (by rintro _ ⟨⟩)) (aimsAt_le ha)

/-- Every step to where no more creations overlap than the margin allows keeps the bound. -/
theorem advance {M M' : Multiset (Thread Effects passages.Result × Option NodeId)}
    (h : Bounded s₀ margin s (Discipline.stages M)) (hM' : aiming.Staged C.surroundings M' u)
    (ho : overlap (M'.map Prod.fst) ≤ margin + 1)
    (ha : aiming.Advances C.surroundings s (Discipline.stages M) u (Discipline.stages M')) :
    Bounded s₀ margin u (Discipline.stages M') := by
  have hm (id : NodeId) : aimsAt id (Discipline.stages M') ≤ margin + 1 :=
    (aimsAt_le_overlap hM'.follows id).trans ho
  generalize Discipline.stages M = m, Discipline.stages M' = m' at h ha hm
  cases ha with
  | start k => exact h.of_store_eq rfl fun id => by simp [aiming]
  | note => exact h
  | call he hg hmoves =>
    obtain ⟨v, hv, rfl⟩ := he
    exact (h.call hv hg hmoves hm).of_store_eq rfl fun _ => le_rfl

end Bounded

/-- No node is beyond its maximum at first, and at most so many creations ever overlap. Then no
node is ever beyond its maximum by more than that less one. -/
theorem overshoot_lt_overlap {s₀ s : State} {ts : passages.Threads} {limit : ℕ} (hl : 1 ≤ limit)
    (h₀ : ∀ {id n}, s₀.store.node? id = some n → n.currentPeers ≤ n.maxPeers)
    (hr : passages.ReachesWithin C.surroundings (overlap · ≤ limit) (0, s₀) (ts, s)) :
    (∀ id, (s.store.node? id).map Node.maxPeers = (s₀.store.node? id).map Node.maxPeers) ∧
    (∀ {id n}, s.store.node? id = some n →
      n.currentPeers.toNat ≤ n.maxPeers.toNat + limit - 1) ∧
    (limit = 1 → ∀ {id n}, s.store.node? id = some n → n.currentPeers ≤ n.maxPeers) := by
  obtain ⟨margin, rfl⟩ := Nat.exists_eq_add_of_le' hl
  have hstart : aiming.Staged C.surroundings (W := passages) 0 s₀ := .of_inv _ _ trivial
  have hj : Bounded s₀ margin s₀ 0 :=
    ⟨fun _ => rfl, fun hn => (UInt32.le_iff_toNat_le.mp (h₀ hn)).trans (Nat.le_add_right _ _)⟩
  obtain ⟨M, rfl, -, hb⟩ := hstart.reachesWithin passages_keep
    (fun _ hM' ho ha h => Bounded.advance h hM' ho ha) hj hr
  have hle {id : NodeId} {n : Node} (hn : s.store.node? id = some n) :
      n.currentPeers.toNat ≤ n.maxPeers.toNat + margin :=
    (Nat.le_add_right _ _).trans (hb.total hn)
  refine ⟨hb.maxPeers, hle, fun hone id n hn => ?_⟩
  obtain rfl : margin = 0 := by omega
  exact UInt32.le_iff_toNat_le.mpr (hle hn)

def lone : State :=
  .founding (.create 1 "node-1" "10.0.0.1:7443" 1)

/-- Two creations choose the last place before either is counted. -/
theorem exists_overshoot : passages.Can remoteTroubles.surroundings (0, lone) fun x =>
    Multiset.card x.1 = 2 ∧ (x.2.store.node? 1).map Node.currentPeers = some 2 := by
  refine .start (k := .create 10) trivial ?_
  refine .call ⟨_, .inl ⟨rfl, rfl⟩, rfl⟩ ?_
  refine .start (k := .create 20) trivial ?_
  refine .call ⟨_, .inl ⟨rfl, rfl⟩, rfl⟩ ?_
  refine .call ⟨_, ⟨.ok (), nofun, rfl, rfl⟩, rfl⟩ ?_
  refine .call ⟨_, ⟨.ok (), nofun, rfl, rfl⟩, rfl⟩ (.note ?_)
  refine .call (a := "12345678") ⟨_, rfl, rfl⟩ ?_
  refine .call ⟨_, .inl ⟨⟨"p", "", "", "10.8.0.2"⟩, trivial, rfl, rfl⟩, rfl⟩ ?_
  refine .call ⟨_, .inl ⟨rfl, rfl⟩, rfl⟩ (.note (.swap ?_))
  refine .call ⟨_, ⟨.ok (), nofun, rfl, rfl⟩, rfl⟩ ?_
  refine .call (a := "87654321") ⟨_, rfl, rfl⟩ ?_
  refine .call ⟨_, .inl ⟨⟨"q", "", "", "10.8.0.3"⟩, trivial, rfl, rfl⟩, rfl⟩ ?_
  exact .call ⟨_, .inl ⟨rfl, rfl⟩, rfl⟩ (.note (.here ⟨rfl, rfl⟩))

theorem overshoot_lone : ∃ (s : State) (ts : passages.Threads),
    passages.ReachesWithin remoteTroubles.surroundings (overlap · ≤ 2) (0, lone) (ts, s) ∧
    (s.store.node? 1).map Node.currentPeers = some 2 ∧
    ∀ {id n}, s.store.node? id = some n → n.currentPeers.toNat ≤ n.maxPeers.toNat + 2 - 1 := by
  obtain ⟨⟨ts, s⟩, hr, hc, hn⟩ := exists_overshoot
  have hr := hr.within (P := (overlap · ≤ 2)) fun ts' hts =>
    (Multiset.countP_le_card ..).trans (hts.trans hc.le)
  have h₀ : ∀ {id n}, lone.store.node? id = some n → n.currentPeers ≤ n.maxPeers := by
    intro id n hn
    obtain rfl := List.mem_singleton.mp (Store.node?_eq_some_iff.mp hn).1
    decide
  exact ⟨s, ts, hr, hn, (overshoot_lt_overlap (by decide) h₀ hr).2.1⟩

end PeerFleet.Fleet
