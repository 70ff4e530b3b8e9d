import Mathlib.Data.Multiset.Bind
import PeerFleet.Proofs.Fleet.Ledger
import PeerFleet.Proofs.Fleet.Turns
import PeerFleet.Proofs.Jobs.Overlap

/-! # Rival attempts

Any number of attempts to give one subscription its peer run at the same time. Each that finds
the record without a peer creates one, and the last to store its binding wins. The peers of
the others stay on their nodes and keep their places, so the subscription ends up with one
peer exactly if one attempt found it in need.
-/

namespace PeerFleet.Fleet

open Program

def created? : Exchange → Option (NodeId × String)
  | ⟨.agent k (.create _ _), a⟩ => a.toOption.map fun peer => (k.nodeId, peer.peerId)
  | _ => none

def State.created (s : State) : Multiset (NodeId × String) :=
  (s.history : Multiset Exchange).filterMap created?

def sighting (id : SubscriptionId) : Exchange → Bool
  | ⟨.store (.getSubscription j), a⟩ =>
    j = id && a.toOption.join.any Subscription.needsProvisioning
  | _ => false

/-- How often a subscription was found in need of a peer. -/
def State.vacancies (s : State) (id : SubscriptionId) : ℕ :=
  s.history.countP (sighting id)

section record

variable {s : State} {id : SubscriptionId} {c : Effect} {a : c.Answer}

theorem created_record (h : created? ⟨c, a⟩ = none) : (s.record c a).created = s.created :=
  Multiset.filterMap_cons_none _ (s.history : Multiset Exchange) h

theorem created_record_create {k : Client} {i q : String} {peer : CreatedPeer} :
    (s.record (.agent k (.create i q)) (Except.ok peer)).created =
      (k.nodeId, peer.peerId) ::ₘ s.created :=
  Multiset.filterMap_cons_some created? ⟨.agent k (.create i q), Except.ok peer⟩ s.history rfl

theorem vacancies_record (h : sighting id ⟨c, a⟩ = false) :
    (s.record c a).vacancies id = s.vacancies id :=
  List.countP_cons_of_neg (by simp [h])

theorem vacancies_record_sighting (h : sighting id ⟨c, a⟩ = true) :
    (s.record c a).vacancies id = s.vacancies id + 1 :=
  List.countP_cons_of_pos h

end record

/-- One of the created peers is live, the record is bound to it, and its place is the only one
that has been taken. -/
def Sole (s₀ s : State) (id : SubscriptionId) : Prop :=
  ∃ sub b, s.store.subscription? id = some sub ∧ sub.binding = some b ∧ b.peer ∈ s.created ∧
    (∀ x ∈ s.created, s.Live x ↔ x = b.peer) ∧
    ∀ n, s.store.node? n = (s₀.store.setPeers b.nodeId Store.increased).2.node? n

def attempts (id : SubscriptionId) :
    Workload Effects State {sub : Subscription // sub.id = id} where
  Result _ := Except FleetError Bool
  program sub := (Provisioning.provision sub).run
  admits _ _ _ := True

/-- What is known of the created peers: those that are counted, and those that have been saved
as the binding of the subscription, one of which it is bound to. -/
structure Roster (s₀ s : State) (id : SubscriptionId) (found : ℕ)
    (made counted saved : Multiset (NodeId × String)) : Prop where
  created : s.created = made
  vacancies : s.vacancies id = found
  nodup : made.Nodup
  live : ∀ x ∈ made, s.Live x
  nodes : ∀ n, s.store.node? n = (s₀.store.node? n).map fun node =>
    { node with currentPeers := Store.increased^[onNode n counted] node.currentPeers }
  binding : ∃ stored, s.store.subscription? id = some stored ∧
    stored.binding.elim (saved = 0) (·.peer ∈ saved)

namespace Roster

variable {s₀ s s' : State} {id : SubscriptionId} {found : ℕ}
  {made counted saved : Multiset (NodeId × String)}

theorem start (h₀ : s.history = []) (hv : Vacant s id) : Roster s s id 0 0 0 0 where
  created := by simp [State.created, h₀]
  vacancies := by simp [State.vacancies, h₀]
  nodup := Multiset.nodup_zero
  live := by simp
  nodes n := by simp
  binding := by
    obtain ⟨stored, hs, hb⟩ := hv
    exact ⟨stored, hs, by simp [hb]⟩

theorem registered (h : Roster s₀ s id found made counted saved) (n : NodeId) :
    (s.store.node? n).isSome = (s₀.store.node? n).isSome := by
  simp [h.nodes n]

section calls

variable {c : Effect} {a : c.Answer}

theorem write (h : Roster s₀ s id found made counted saved) (hc : created? ⟨c, a⟩ = none)
    {found' : ℕ} (hf : (s.record c a).vacancies id = found') :
    Roster s₀ (s.record c a) id found' made counted saved where
  created := (created_record hc).trans h.created
  vacancies := hf
  nodup := h.nodup
  live := h.live
  nodes := h.nodes
  binding := h.binding

theorem record (h : Roster s₀ s id found made counted saved) (hc : created? ⟨c, a⟩ = none)
    (hs : sighting id ⟨c, a⟩ = false) : Roster s₀ (s.record c a) id found made counted saved :=
  h.write hc ((vacancies_record hs).trans h.vacancies)

theorem look (h : Roster s₀ s id found made counted saved) (hc : created? ⟨c, a⟩ = none)
    (hs : sighting id ⟨c, a⟩ = true) :
    Roster s₀ (s.record c a) id (found + 1) made counted saved := by
  refine h.write hc ?_
  rw [vacancies_record_sighting hs, h.vacancies]

theorem setPool (h : Roster s₀ s id found made counted saved) (q : Pool) :
    Roster s₀ (s.setPool q) id found made counted saved :=
  ⟨h.created, h.vacancies, h.nodup, h.live, h.nodes, h.binding⟩

end calls

theorem create (h : Roster s₀ s id found made counted saved) {k : Client} {i q : String}
    {peer : CreatedPeer} (hp : (k.nodeId, peer.peerId) ∉ s.issued)
    (hn : (s₀.store.node? k.nodeId).isSome) :
    Roster s₀ ((s.addPeer k.nodeId peer.peerId).record (.agent k (.create i q)) (Except.ok peer)) id
      found ((k.nodeId, peer.peerId) ::ₘ made) counted saved where
  created := by
    rw [created_record_create]
    exact congrArg _ h.created
  vacancies := (vacancies_record rfl).trans h.vacancies
  nodup := by
    refine Multiset.nodup_cons.mpr ⟨fun hm => hp ?_, h.nodup⟩
    exact s.issued_of_mem (h.live _ hm).2
  live := by
    intro x hx
    refine ⟨?_, State.mem_addPeer_iff.mpr ?_⟩
    · rcases Multiset.mem_cons.mp hx with rfl | hx
      · exact (h.registered _).trans hn
      · exact (h.live x hx).1
    · exact (Multiset.mem_cons.mp hx).imp (fun hx => hx) fun hx => (h.live x hx).2
  nodes := h.nodes
  binding := h.binding

theorem count (h : Roster s₀ s id found made counted saved) (x : NodeId × String) :
    Roster s₀ (s.setStore (s.store.perform (.increment x.1)).2) id found made (x ::ₘ counted)
      saved where
  created := h.created
  vacancies := h.vacancies
  nodup := h.nodup
  live y hy := State.live_setPeers_iff.mpr (h.live y hy)
  nodes n := by
    change (s.store.setPeers x.1 Store.increased).2.node? n = _
    rw [Store.setPeers_node?, h.nodes n, onNode_cons]
    by_cases hn : n = x.1
    · rw [if_pos hn, if_pos hn.symm, Option.map_map]
      refine congrArg (Option.map · _) (funext fun node => ?_)
      simp [Function.iterate_succ_apply']
    · rw [if_neg hn, if_neg (Ne.symm hn)]
      rfl
  binding := by
    change ∃ stored, (s.store.setPeers x.1 Store.increased).2.subscription? id = some stored ∧ _
    rw [Store.setPeers_subscription?]
    exact h.binding

theorem save (h : Roster s₀ s id found made counted saved) (b : Binding) :
    (s.store.setBinding id (some b)).1 = .ok () ∧
      Roster s₀ (s.setStore (s.store.perform (.setBinding id (some b))).2) id found made counted
        (b.peer ::ₘ saved) := by
  obtain ⟨stored, hs, -⟩ := h.binding
  exact ⟨Store.modifySubscription_fst hs,
    { created := h.created
      vacancies := h.vacancies
      nodup := h.nodup
      live := fun y hy => State.live_setBinding_iff.mpr (h.live y hy)
      nodes := by
        intro n
        change (s.store.setBinding id (some b)).2.node? n = _
        rw [Store.setBinding_node?]
        exact h.nodes n
      binding := by
        refine ⟨{ stored with binding := some b }, ?_, Multiset.mem_cons_self _ _⟩
        change (s.store.setBinding id (some b)).2.subscription? id = _
        rw [Store.setBinding_subscription?, if_pos rfl, hs]
        rfl }⟩

/-- Once every created peer is counted and saved, the subscription has one peer of its own
exactly if one was created. -/
theorem sole_iff (h : Roster s₀ s id found made made made) :
    Sole s₀ s id ↔ made.card = 1 := by
  constructor
  · rintro ⟨sub, b, -, -, hb, hl, -⟩
    rw [h.created] at hb hl
    have hm : made = {b.peer} := by
      refine (Multiset.Nodup.ext h.nodup (Multiset.nodup_singleton _)).mpr fun x => ?_
      rw [Multiset.mem_singleton]
      constructor
      · exact fun hx => (hl x hx).mp (h.live x hx)
      · rintro rfl
        exact hb
    rw [hm, Multiset.card_singleton]
  · intro hc
    obtain ⟨x, rfl⟩ := Multiset.card_eq_one.mp hc
    obtain ⟨stored, hs, hb⟩ := h.binding
    cases hsb : stored.binding with
    | none => simp [hsb] at hb
    | some b =>
      obtain rfl : b.peer = x := by simpa [hsb] using hb
      refine ⟨stored, b, hs, hsb, ?_, fun y hy => ?_, fun n => ?_⟩
      · simp [h.created]
      · rw [h.created, Multiset.mem_singleton] at hy
        subst hy
        exact iff_of_true (h.live _ (Multiset.mem_singleton_self _)) rfl
      · have hnode : b.peer.1 = b.nodeId := rfl
        rw [h.nodes n, Store.setPeers_node?, onNode_singleton, hnode]
        by_cases hn : n = b.nodeId
        · rw [if_pos hn, if_pos hn.symm]
          rfl
        · rw [if_neg hn, if_neg (Ne.symm hn)]
          simp

end Roster

/-- How far an attempt is. -/
inductive Bid where
  | begun
  | idle
  | failed
  | vacant
  | chosen (node : NodeId)
  | created (peer : NodeId × String)
  | counted (peer : NodeId × String)
  | saved (peer : NodeId × String)

namespace Bid

@[simp] def found : Bid → ℕ
  | begun | idle => 0
  | failed | vacant | chosen _ | created _ | counted _ | saved _ => 1

@[simp] def made : Bid → Multiset (NodeId × String)
  | created x | counted x | saved x => {x}
  | _ => 0

@[simp] def tallied : Bid → Multiset (NodeId × String)
  | counted x | saved x => {x}
  | _ => 0

@[simp] def kept : Bid → Multiset (NodeId × String)
  | saved x => {x}
  | _ => 0

def Fits (s₀ : State) : Bid → Prop
  | chosen n => (s₀.store.node? n).isSome
  | _ => True

end Bid

def bidding (s₀ : State) (id : SubscriptionId) : Discipline (attempts id) Bid where
  start _ := .begun
  Final _ _ := True
  Yields _ r γ := Outcome (fun (provided : Bool) γ =>
    if provided then ∃ x, γ = .saved x else γ = .idle) (fun (_ : FleetError) γ => γ = .failed) r γ
  Guard _ _ _ := True
  Inv s m := Roster s₀ s id (m.map (·.2.found)).sum (m.bind (·.2.made)) (m.bind (·.2.tallied))
    (m.bind (·.2.kept)) ∧ ∀ x ∈ m, x.2.Fits s₀

section turns

variable {s₀ s : State} {id : SubscriptionId} {k : {sub : Subscription // sub.id = id}} {γ : Bid}
  {o : Multiset ({sub : Subscription // sub.id = id} × Bid)} {sub : Subscription}

theorem bidding_cons : (bidding s₀ id).Inv s ((k, γ) ::ₘ o) ↔
    Roster s₀ s id (γ.found + (o.map (·.2.found)).sum) (γ.made + o.bind (·.2.made))
      (γ.tallied + o.bind (·.2.tallied)) (γ.kept + o.bind (·.2.kept)) ∧
    γ.Fits s₀ ∧ ∀ x ∈ o, x.2.Fits s₀ := by
  simp only [bidding, Multiset.map_cons, Multiset.sum_cons, Multiset.cons_bind,
    Multiset.forall_mem_cons]

theorem bid_of {s' : State} {γ' : Bid} (hi : (bidding s₀ id).Inv s ((k, γ) ::ₘ o))
    (hf : γ'.Fits s₀)
    (h : γ.Fits s₀ → ∀ {found made counted saved},
      Roster s₀ s id (γ.found + found) (γ.made + made) (γ.tallied + counted) (γ.kept + saved) →
      Roster s₀ s' id (γ'.found + found) (γ'.made + made) (γ'.tallied + counted)
        (γ'.kept + saved)) :
    (bidding s₀ id).Inv s' ((k, γ') ::ₘ o) := by
  obtain ⟨hr, hγ, ho⟩ := bidding_cons.mp hi
  exact bidding_cons.mpr ⟨h hγ hr, hf, ho⟩

theorem passesPool_bid : (bidding s₀ id).PassesPool k γ where
  guard _ := trivial
  moves _ _ := trivial
  inv h := ⟨(h.1.setPool _).record rfl rfl, h.2⟩

theorem passes_bid {c : Effect} (hc : ∀ a, created? ⟨c, a⟩ = none)
    (hs : ∀ a, sighting id ⟨c, a⟩ = false) : (bidding s₀ id).Passes k γ c where
  guard := trivial
  moves _ := trivial
  inv h := ⟨h.1.record (hc _) (hs _), h.2⟩

theorem check_bid (hid : sub.id = id) {S S' : Bid → Prop} {F : StoreError → Bid → Prop}
    (hneeds : S .vacant) (hidle : S' .idle) :
    ((bidding s₀ id).turns calm.surroundings k).pre (.store (.getSubscription sub.id))
      (Outcome (fun (current : Option Subscription) γ =>
        if current.any Subscription.needsProvisioning then S γ else S' γ) F) .begun := by
  subst hid
  refine turn_store_of (fun _ _ _ h => h) trivial fun o s hi => ?_
  change ∃ γ', (bidding s₀ sub.id).Inv (s.record (.store (.getSubscription sub.id))
    (Except.ok (s.store.subscription? sub.id))) ((k, γ') ::ₘ o) ∧ _ ∧
      if (s.store.subscription? sub.id).any Subscription.needsProvisioning then S γ' else S' γ'
  have hsight : sighting sub.id ⟨.store (.getSubscription sub.id),
      Except.ok (s.store.subscription? sub.id)⟩ =
      (s.store.subscription? sub.id).any Subscription.needsProvisioning := by
    simp only [sighting, decide_true, Bool.true_and]
    rfl
  cases hc : (s.store.subscription? sub.id).any Subscription.needsProvisioning with
  | true =>
    refine ⟨.vacant, bid_of hi trivial fun _ found _ _ _ h => ?_, trivial, hneeds⟩
    have hl := h.look (c := .store (.getSubscription sub.id))
      (a := Except.ok (s.store.subscription? sub.id)) rfl (hsight.trans hc)
    simpa [Nat.add_comm] using hl
  | false =>
    refine ⟨.idle, bid_of hi trivial fun _ _ _ _ _ h => ?_, trivial, hidle⟩
    exact h.record rfl (hsight.trans hc)

theorem selectNode_bid {S : Node → Bid → Prop} {F : FleetError → Bid → Prop}
    (hS : ∀ n, S n (.chosen n.id)) (hF : ∀ e, F e .failed) :
    selectNode.run.wp ((bidding s₀ id).turns calm.surroundings k) (Outcome S F) .vacant := by
  rw [selectNode]
  refine wp_run_bind_of (wp_fromStore_of ?_)
  refine turn_store_of (fun _ _ _ h => h) trivial fun o s hi => ?_
  change ∃ γ', _ ∧ _ ∧ Outcome S F (pickLeastLoaded s.store.listEligible) γ'
  cases hp : pickLeastLoaded s.store.listEligible with
  | error e =>
    exact ⟨.failed, bid_of hi trivial fun _ _ _ _ _ h => h.record rfl rfl, trivial, hF e⟩
  | ok n =>
    have hn : (s₀.store.node? n.id).isSome := by
      rw [← hi.1.registered, (of_pickLeastLoaded hp).1]
      rfl
    exact ⟨.chosen n.id, bid_of hi hn fun _ _ _ _ _ h => h.record rfl rfl, trivial, hS n⟩

theorem create_bid {n : Node} {c : Client} {i q : String} (hc : c.nodeId = n.id)
    {S : CreatedPeer → Bid → Prop} {F : FleetError → Bid → Prop}
    (hS : ∀ peer, S peer (.created (n.id, peer.peerId))) :
    (remote n c (.create i q)).run.wp ((bidding s₀ id).turns calm.surroundings k) (Outcome S F)
      (.chosen n.id) := by
  rw [wp_remote]
  rw [← hc] at hS ⊢
  refine turn_of trivial fun o s a u hi he => ?_
  rcases he with ⟨peer, hp, rfl, rfl⟩ | ⟨_, he, -⟩
  · refine ⟨.created (c.nodeId, peer.peerId), bid_of hi trivial fun hn _ _ _ _ h => ?_, trivial,
      hS peer⟩
    simpa using h.create hp hn
  · exact he.elim

theorem increment_bid {x : NodeId × String} {S : Bid → Prop} (hS : S (.counted x)) :
    ((bidding s₀ id).turns calm.surroundings k).pre (.store (.increment x.1)) (fun _ => S)
      (.created x) := by
  refine turn_store_of (fun _ _ _ h => h) trivial fun o s hi => ?_
  refine ⟨.counted x, bid_of hi trivial fun _ _ _ _ _ h => ?_, trivial, hS⟩
  simpa using (h.count x).record rfl rfl

theorem save_bid (hid : sub.id = id) {b : Binding} {S : Unit → Bid → Prop}
    {F : FleetError → Bid → Prop} (hS : S () (.saved b.peer)) :
    (Provisioning.save sub b).run.wp ((bidding s₀ id).turns calm.surroundings k) (Outcome S F)
      (.counted b.peer) := by
  subst hid
  rw [Provisioning.wp_save]
  refine turn_store_of (fun _ _ _ h => h) trivial fun o s hi => ?_
  refine ⟨.saved b.peer, bid_of hi trivial fun _ _ _ _ _ h => ?_, trivial, ?_⟩
  · simpa using (h.save b).2.record rfl rfl
  · change Outcome _ _ (s.store.setBinding sub.id (some b)).1 _
    rw [(hi.1.save b).1]
    exact hS

theorem provision_bid (hid : sub.id = id) :
    (Provisioning.provision sub).run.wp ((bidding s₀ id).turns calm.surroundings k)
      (Outcome (fun (provided : Bool) γ => if provided then ∃ x, γ = .saved x else γ = .idle)
        fun _ γ => γ = .failed) .begun := by
  refine Provisioning.provision_wp (check_bid hid ?_ rfl)
  refine createClient_wp_of (selectNode_bid (fun n => ?_) fun e => rfl)
  refine clientFor_turn_of (fun h => h) passesPool_bid (fun c hc => ?_) fun _ _ _ _ h => h.elim
  refine turn_pass_of (passes_bid (fun _ => rfl) fun _ => rfl) (fun _ _ _ h => h) fun suffix => ?_
  refine create_bid hc fun peer => increment_bid (x := (n.id, peer.peerId)) ?_
  refine save_bid hid (b := ⟨n.id, peer.peerId, _⟩) fun text => ?_
  refine turn_pass_of (passes_bid (fun _ => rfl) fun _ => rfl) (fun _ _ _ h => h) fun _ => ?_
  exact ⟨_, rfl⟩

end turns

section runs

variable {s₀ s : State} {id : SubscriptionId} {ts : (attempts id).Threads}

theorem attempts_keep : (bidding s₀ id).Keeps calm.surroundings where
  begins hM _ := bidding_cons.mpr ⟨by simpa [bidding] using hM.inv.1, trivial, hM.inv.2⟩
  follows k := wp_mono (fun _ _ h => ⟨trivial, h⟩) (provision_bid k.2)

/-- As many peers are created as attempts find the subscription in need of one, and all of them
are live at the end. So the attempts leave it with one peer of its own exactly if one of them
found it in need. -/
theorem sole_iff_vacancies (hh : s₀.history = []) (hv : Vacant s₀ id)
    (hr : (attempts id).Reaches calm.surroundings (0, s₀) (ts, s))
    (hd : ∀ t ∈ ts, ∃ provided, t.rest.result? = some (.ok provided)) :
    s.created.card = s.vacancies id ∧ (∀ x ∈ s.created, s.Live x) ∧
      (Sole s₀ s id ↔ s.vacancies id = 1) := by
  have hstart : (bidding s₀ id).Staged calm.surroundings (W := attempts id) 0 s₀ := by
    refine ⟨⟨.start hh hv, ?_⟩, ?_⟩
    · exact fun x hx => absurd hx (Multiset.notMem_zero x)
    · exact fun x hx => absurd hx (Multiset.notMem_zero x)
  obtain ⟨M, rfl, hM⟩ := hstart.reaches attempts_keep hr
  have hdone : ∀ y ∈ Discipline.stages M, y.2 = .idle ∨ ∃ x, y.2 = .saved x := by
    intro y hy
    obtain ⟨x, hx, rfl⟩ := Multiset.mem_map.mp hy
    obtain ⟨provided, hp⟩ := hd _ (Multiset.mem_map_of_mem Prod.fst hx)
    obtain ⟨r, hr, hyields⟩ := (hM.follows x hx).yields (next?_eq_none hp)
    rw [hp] at hr
    cases hr
    cases provided with
    | true => exact .inr (by simpa [bidding, Outcome] using hyields)
    | false => exact .inl (by simpa [bidding, Outcome] using hyields)
  have hsettled : ∀ y ∈ Discipline.stages M,
      y.2.found = y.2.made.card ∧ y.2.tallied = y.2.made ∧ y.2.kept = y.2.made := by
    intro y hy
    rcases hdone y hy with hγ | ⟨x, hγ⟩
    · simp [hγ]
    · simp [hγ]
  let made := (Discipline.stages M).bind (·.2.made)
  have h : Roster s₀ s id made.card made made made := by
    have hfound : ((Discipline.stages M).map (·.2.found)).sum = made.card := by
      rw [Multiset.card_bind]
      exact congrArg _ (Multiset.map_congr rfl fun y hy => (hsettled y hy).1)
    have htallied : (Discipline.stages M).bind (·.2.tallied) = made :=
      Multiset.bind_congr fun y hy => (hsettled y hy).2.1
    have hkept : (Discipline.stages M).bind (·.2.kept) = made :=
      Multiset.bind_congr fun y hy => (hsettled y hy).2.2
    have hi := hM.inv.1
    rwa [hfound, htallied, hkept] at hi
  refine ⟨?_, ?_, ?_⟩
  · rw [h.created, h.vacancies]
  · rw [h.created]
    exact h.live
  · rw [h.vacancies]
    exact h.sole_iff

theorem exists_succession : (attempts 1).Can calm.surroundings (0, .waiting) fun x =>
    (∀ t ∈ x.1, ∃ provided, t.rest.result? = some (.ok provided)) ∧ x.2.vacancies 1 = 1 := by
  let sub : Subscription := { id := 1, userId := 10, tariff := "month", expiresAt := .epoch }
  refine .start (k := ⟨sub, rfl⟩) trivial ?_
  refine .call ⟨_, .inl ⟨rfl, rfl⟩, rfl⟩ ?_
  refine .call ⟨_, .inl ⟨rfl, rfl⟩, rfl⟩ ?_
  refine .call ⟨_, ⟨.ok (), nofun, rfl, rfl⟩, rfl⟩ ?_
  refine .call ⟨_, ⟨.ok (), nofun, rfl, rfl⟩, rfl⟩ (.note ?_)
  refine .call (a := "12345678") ⟨_, rfl, rfl⟩ ?_
  refine .call ⟨_, .inl ⟨⟨"p", "", "", "10.8.0.2"⟩, Set.notMem_empty _, rfl, rfl⟩, rfl⟩ ?_
  refine .call ⟨_, .inl ⟨rfl, rfl⟩, rfl⟩ (.note ?_)
  refine .call ⟨_, .inl ⟨rfl, rfl⟩, rfl⟩ (.note ?_)
  refine .call (a := Except.ok (1 : Telegram.MessageId)) ⟨_, rfl, rfl⟩ ?_
  refine .start (k := ⟨sub, rfl⟩) trivial ?_
  refine .call ⟨_, .inl ⟨rfl, rfl⟩, rfl⟩ (.here ⟨?_, rfl⟩)
  refine Workload.forall_mem_pair ?_ ?_
  · exact ⟨false, rfl⟩
  · exact ⟨true, rfl⟩

theorem sole_of_succession : ∃ (s : State) (ts : (attempts 1).Threads),
    State.waiting.history = [] ∧ Vacant .waiting 1 ∧
    (attempts 1).Reaches calm.surroundings (0, .waiting) (ts, s) ∧
    (∀ t ∈ ts, ∃ provided, t.rest.result? = some (.ok provided)) ∧ Sole .waiting s 1 := by
  obtain ⟨⟨ts, s⟩, hr, hd, hv⟩ := exists_succession
  have hvacant : Vacant .waiting 1 := ⟨_, rfl, rfl⟩
  exact ⟨s, ts, rfl, hvacant, hr, hd, (sole_iff_vacancies rfl hvacant hr hd).2.2.mpr hv⟩

theorem exists_rivalry : (attempts 1).Can calm.surroundings (0, .waiting) fun x =>
    (∀ t ∈ x.1, ∃ provided, t.rest.result? = some (.ok provided)) ∧
      x.2.created = {(1, "q"), (1, "p")} ∧ x.2.Live (1, "p") ∧ x.2.Live (1, "q") := by
  let sub : Subscription := { id := 1, userId := 10, tariff := "month", expiresAt := .epoch }
  refine .start (k := ⟨sub, rfl⟩) trivial ?_
  refine .call ⟨_, .inl ⟨rfl, rfl⟩, rfl⟩ ?_
  refine .start (k := ⟨sub, rfl⟩) trivial ?_
  refine .call ⟨_, .inl ⟨rfl, rfl⟩, rfl⟩ ?_
  refine .call ⟨_, .inl ⟨rfl, rfl⟩, rfl⟩ ?_
  refine .call ⟨_, ⟨.ok (), nofun, rfl, rfl⟩, rfl⟩ ?_
  refine .call ⟨_, ⟨.ok (), nofun, rfl, rfl⟩, rfl⟩ (.note ?_)
  refine .call (a := "12345678") ⟨_, rfl, rfl⟩ ?_
  refine .call ⟨_, .inl ⟨⟨"p", "", "", "10.8.0.2"⟩, Set.notMem_empty _, rfl, rfl⟩, rfl⟩ ?_
  refine .call ⟨_, .inl ⟨rfl, rfl⟩, rfl⟩ (.note ?_)
  refine .call ⟨_, .inl ⟨rfl, rfl⟩, rfl⟩ (.note ?_)
  refine .call (a := Except.ok (1 : Telegram.MessageId)) ⟨_, rfl, rfl⟩ ?_
  refine .swap ?_
  refine .call ⟨_, .inl ⟨rfl, rfl⟩, rfl⟩ ?_
  refine .call ⟨_, ⟨.ok (), nofun, rfl, rfl⟩, rfl⟩ ?_
  refine .call (a := "87654321") ⟨_, rfl, rfl⟩ ?_
  have hq : ((1 : NodeId), "q") ∉ (State.waiting.addPeer 1 "p").issued := by
    rintro (h | h)
    · exact absurd (Prod.mk.inj h).2 (by decide)
    · exact h
  refine .call ⟨_, .inl ⟨⟨"q", "", "", "10.8.0.3"⟩, hq, rfl, rfl⟩, rfl⟩ ?_
  refine .call ⟨_, .inl ⟨rfl, rfl⟩, rfl⟩ (.note ?_)
  refine .call ⟨_, .inl ⟨rfl, rfl⟩, rfl⟩ (.note ?_)
  refine .call (a := Except.ok (2 : Telegram.MessageId)) ⟨_, rfl, rfl⟩ (.here ⟨?_, rfl, ?_, ?_⟩)
  · refine Workload.forall_mem_pair ?_ ?_
    · exact ⟨true, rfl⟩
    · exact ⟨true, rfl⟩
  · exact ⟨rfl, State.mem_addPeer_iff (x := (1, "p")).mpr
      (.inr (State.mem_addPeer_iff (x := (1, "p")).mpr (.inl rfl)))⟩
  · exact ⟨rfl, State.mem_addPeer_iff (x := (1, "q")).mpr (.inl rfl)⟩

/-- The subscription is bound to one of the two peers and the other one is live as well. -/
theorem exists_not_sole : ∃ (s : State) (ts : (attempts 1).Threads),
    State.waiting.history = [] ∧ Vacant .waiting 1 ∧
    (attempts 1).Reaches calm.surroundings (0, .waiting) (ts, s) ∧
    (∀ t ∈ ts, ∃ provided, t.rest.result? = some (.ok provided)) ∧ ¬ Sole .waiting s 1 := by
  obtain ⟨⟨ts, s⟩, hr, hd, hc, hp, hq⟩ := exists_rivalry
  refine ⟨s, ts, rfl, ⟨_, rfl, rfl⟩, hr, hd, ?_⟩
  rintro ⟨sub, b, -, -, -, hl, -⟩
  have hbp : (1, "p") = b.peer := (hl _ (by simp [hc])).mp hp
  have hbq : (1, "q") = b.peer := (hl _ (by simp [hc])).mp hq
  exact absurd (Prod.mk.inj (hbp.trans hbq.symm)).2 (by decide)

end runs

end PeerFleet.Fleet
