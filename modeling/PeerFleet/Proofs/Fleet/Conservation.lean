import PeerFleet.Proofs.Fleet.Operations
import PeerFleet.Proofs.Fleet.Stages
import PeerFleet.Proofs.Fleet.Turns
import PeerFleet.Proofs.Jobs.Shape

/-! # Conservation under concurrency

Attempts to provision subscriptions and removals take turns at their calls in any order. The
counter of a node and the peers whose counting is still to come are at all times as many as
the live peers, the bindings left behind and the places still to be given back. When nothing
is under way, the counter is the number of live peers.
-/

namespace PeerFleet.Fleet

open Program

/-- The store does not fail. Channels and agents may fail at any time, but an agent denies no
peer that it has, and it never issues an id that was issued in the fleet before. -/
def interruptions : Conditions where
  storeFault _ _ _ := False
  connectFault _ _ _ := True
  agentFault s n c e := ∀ i p, c = .delete i p → e.isNotFound → p ∉ s.agents n
  issues s _ p := ∀ n, (n, p) ∉ s.issued

def State.Uncrowded (s : State) : Prop :=
  ∀ {id n}, s.store.node? id = some n → n.currentPeers.toNat + 1 < UInt32.size

abbrev traffic : Environment Effects State :=
  interruptions.surroundings.within fun s => s.Uncrowded

def Errand.Result : Errand → Type
  | .provision _ => Except FleetError Bool
  | .remove _ => Except FleetError Unit

/-- Nothing is left of a thread but perhaps to tell the owner. -/
def Settled {κ : Type} {ρ : κ → Type} (t : Thread Effects ρ) : Prop :=
  ∀ c, t.rest.next? = some c → ∃ m, c = .message m

/-- An attempt for a subscription begins when all others for it are settled, and a removal
when its subscription is stored. -/
def errands : Workload Effects State Errand where
  Result := Errand.Result
  program
    | .provision sub => (Provisioning.provision sub).run
    | .remove sub => (deleteClient sub).run
  admits ts s
    | .provision sub => ∀ t ∈ ts, ∀ other, t.kind = .provision other → other.id = sub.id → Settled t
    | .remove sub => (s.store.subscription? sub.id).isSome

def Stage.Allows (γ : Stage) : Effect → Prop
  | .store (.increment n) => ∃ p, γ = .created (n, p)
  | .store (.decrement n) => γ = .cleared n
  | .message _ => γ = .ended
  | _ => γ.fresh = 0 ∧ γ.due = 0

def bookkeeping : Discipline errands Stage where
  start _ := .begun
  Final _ γ := γ = .ended
  Guard c _ γ := γ.Allows c
  Inv := Books

section turns

variable {k : Errand} {γ : Stage}

theorem turn {c : Effect} {K : c.Answer → Stage → Prop} (hg : γ.Allows c)
    (h : ∀ o s a u, Books s ((k, γ) ::ₘ o) → interruptions.effect s c a u → u.Uncrowded →
      ∃ γ', Books u ((k, γ') ::ₘ o) ∧ K a γ') : (bookkeeping.turns traffic k).pre c K γ := by
  refine ⟨hg, fun o s a s' hi he => ?_⟩
  obtain ⟨⟨u, hu, rfl⟩, hroom⟩ := he
  obtain ⟨γ', hb, hk⟩ := h o s a u hi hu hroom
  exact ⟨γ', hb.congr rfl rfl rfl, trivial, hk⟩

theorem turn_store {c : StoreCall} {K : c.Answer → Stage → Prop} (hg : γ.Allows (.store c))
    (h : ∀ o s, Books s ((k, γ) ::ₘ o) → (s.setStore (s.store.perform c).2).Uncrowded →
      ∃ γ', Books (s.setStore (s.store.perform c).2) ((k, γ') ::ₘ o) ∧
        K (s.store.perform c).1 γ') : (bookkeeping.turns traffic k).pre (.store c) K γ := by
  refine turn hg fun o s a u hb he hroom => ?_
  obtain ⟨rfl, rfl⟩ | ⟨e, he, -⟩ := he
  · exact h o s hb hroom
  · exact he.elim

theorem turn_suffix {K : String → Stage → Prop} (hg : γ.fresh = 0 ∧ γ.due = 0)
    (h : ∀ a, K a γ) : (bookkeeping.turns traffic k).pre .suffix K γ := by
  refine turn hg fun o s a u hb he _ => ⟨γ, ?_, h a⟩
  obtain rfl : u = s := he
  exact hb

theorem turn_message {c : MessageCall} {K : c.Answer → Stage → Prop} (h : ∀ a, K a .ended) :
    (bookkeeping.turns traffic k).pre (.message c) K .ended := by
  refine turn rfl fun o s a u hb he _ => ⟨.ended, ?_, h a⟩
  obtain rfl : u = s := he
  exact hb

theorem passesPool_bookkeeping (hγ : γ.Calm) : bookkeeping.PassesPool k γ where
  guard _ := ⟨hγ.1, hγ.2.2.1⟩
  moves _ _ := trivial
  inv hb := hb.congr rfl rfl rfl

theorem clientFor_turns {n : Node} {S : Client → Stage → Prop} {F : FleetError → Stage → Prop}
    (hγ : γ.Calm) (hS : ∀ c, c.nodeId = n.id → S c γ) (hF : ∀ e, F e .ended) :
    (clientFor n).run.wp (bookkeeping.turns traffic k) (Outcome S F) γ := by
  refine clientFor_turn_of (fun h => h.1) (passesPool_bookkeeping hγ) hS fun o s e hb _ => ?_
  exact ⟨.ended, hb.giveUp hγ, fun _ _ => trivial, hF _⟩

end turns

section attempt

variable {sub : Subscription}

theorem selectNode_turns {S : Node → Stage → Prop} {F : FleetError → Stage → Prop}
    (hS : ∀ n, S n (.chosen n.id)) (hF : ∀ e, F e .ended) :
    selectNode.run.wp (bookkeeping.turns traffic (.provision sub)) (Outcome S F) .vacant := by
  rw [selectNode]
  refine wp_run_bind_of (wp_fromStore_of (turn_store ⟨rfl, rfl⟩ fun o s hb _ => ?_))
  change ∃ γ', Books s _ ∧ Outcome S F (pickLeastLoaded s.store.listEligible) γ'
  cases hp : pickLeastLoaded s.store.listEligible with
  | error e => exact ⟨.ended, hb.giveUp ⟨rfl, rfl, rfl, rfl⟩, hF e⟩
  | ok n =>
    have hn : (s.store.node? n.id).isSome := by simp [(of_pickLeastLoaded hp).1]
    exact ⟨.chosen n.id, hb.calm ⟨rfl, rfl, rfl, rfl⟩ ⟨rfl, rfl, rfl, rfl⟩ le_rfl
      ⟨hb.fits_cons, hn⟩, hS n⟩

theorem create_turns {n : Node} {c : Client} {i q : String} (hc : c.nodeId = n.id)
    {S : CreatedPeer → Stage → Prop} {F : FleetError → Stage → Prop}
    (hS : ∀ peer, S peer (.created (n.id, peer.peerId))) (hF : ∀ e, F e .ended) :
    (remote n c (.create i q)).run.wp (bookkeeping.turns traffic (.provision sub)) (Outcome S F)
      (.chosen n.id) := by
  rw [wp_remote]
  refine turn ⟨rfl, rfl⟩ fun o s a u hb he _ => ?_
  obtain ⟨peer, hp, rfl, rfl⟩ | ⟨e, -, rfl, rfl⟩ := he
  · rw [hc]
    exact ⟨_, hb.create hp, hS peer⟩
  · exact ⟨.ended, hb.giveUp ⟨rfl, rfl, rfl, rfl⟩, hF _⟩

theorem increment_turns {n : NodeId} {p : String} {Q : Stage → Prop} (hQ : Q (.counted (n, p))) :
    (bookkeeping.turns traffic (.provision sub)).pre (.store (.increment n)) (fun _ => Q)
      (.created (n, p)) := by
  refine turn_store ⟨p, rfl⟩ fun o s hb hroom => ⟨_, hb.increment fun {m} hm => ?_, hQ⟩
  have hm' : (s.store.setPeers n Store.increased).2.node? n =
      some { m with currentPeers := Store.increased m.currentPeers } := by
    rw [Store.setPeers_node?, if_pos rfl, hm]
    rfl
  have hlt : (Store.increased m.currentPeers).toNat + 1 < UInt32.size := hroom hm'
  by_contra hge
  rw [Store.increased, if_neg hge] at hlt
  exact hge hlt

theorem createClient_turns {user : UserId} {S : Binding → Stage → Prop}
    {F : FleetError → Stage → Prop} (hS : ∀ b, S b (.counted b.peer)) (hF : ∀ e, F e .ended) :
    (createClient user).run.wp (bookkeeping.turns traffic (.provision sub)) (Outcome S F)
      .vacant := by
  refine createClient_wp_of (selectNode_turns (fun n => ?_) hF)
  refine clientFor_turns ⟨rfl, rfl, rfl, rfl⟩ (fun c hc => ?_) hF
  refine turn_suffix ⟨rfl, rfl⟩ fun a => create_turns hc (fun peer => ?_) hF
  exact increment_turns (hS ⟨n.id, peer.peerId, _⟩)

theorem save_turns {b : Binding} {S : Unit → Stage → Prop} {F : FleetError → Stage → Prop}
    (hS : S () .ended) :
    (Provisioning.save sub b).run.wp (bookkeeping.turns traffic (.provision sub)) (Outcome S F)
      (.counted b.peer) := by
  rw [Provisioning.wp_save]
  refine turn_store ⟨rfl, rfl⟩ fun o s hb _ => ?_
  obtain ⟨hok, hb⟩ := hb.save
  change ∃ γ', _ ∧ Outcome _ _ (s.store.setBinding sub.id (some b)).1 γ'
  rw [hok]
  exact ⟨.ended, hb, hS⟩

theorem provision_turns :
    (Provisioning.provision sub).run.wp (bookkeeping.turns traffic (.provision sub))
      (fun _ γ => γ = .ended) .begun := by
  rw [← outcome_eta fun _ γ => γ = Stage.ended]
  refine Provisioning.provision_wp (turn_store ⟨rfl, rfl⟩ fun o s hb _ => ?_)
  change ∃ γ', Books s _ ∧
    if (s.store.subscription? sub.id).any Subscription.needsProvisioning then _ else _
  split_ifs with hc
  · obtain ⟨stored, hs, hneeds⟩ := (Option.any_eq_true ..).mp hc
    have hv : stored.binding = none := (Subscription.needsProvisioning_iff.mp hneeds).2
    refine ⟨.vacant, hb.calm ⟨rfl, rfl, rfl, rfl⟩ ⟨rfl, rfl, rfl, rfl⟩ le_rfl ⟨stored, hs, hv⟩, ?_⟩
    exact createClient_turns (fun b => save_turns fun text => turn_message fun _ => rfl)
      fun e => rfl
  · exact ⟨.ended, hb.giveUp ⟨rfl, rfl, rfl, rfl⟩, rfl⟩

end attempt

section removal

variable {sub : Subscription}

theorem bindingOf_turns {S : Binding → Stage → Prop} {F : FleetError → Stage → Prop}
    (hS : ∀ b, S b (.resolved b.peer)) (hF : ∀ e, F e .ended) :
    (bindingOf sub).run.wp (bookkeeping.turns traffic (.remove sub)) (Outcome S F) .begun := by
  rw [wp_bindingOf]
  refine turn_store ⟨rfl, rfl⟩ fun o s hb _ => ?_
  obtain ⟨stored, hs⟩ := Option.isSome_iff_exists.mp hb.fits_cons
  change ∃ γ', Books s _ ∧
    ((s.store.subscription? sub.id).getD sub).binding.elim (_ : Stage → Prop) _ γ'
  rw [hs]
  change ∃ γ', Books s _ ∧ stored.binding.elim (_ : Stage → Prop) _ γ'
  cases hbind : stored.binding with
  | none => exact ⟨.ended, hb.giveUp ⟨rfl, rfl, rfl, rfl⟩, hF _⟩
  | some b =>
    have hm : b.peer ∈ s.store.bound := Store.mem_bound_iff.mpr ⟨_, _, b, hs, hbind, rfl⟩
    obtain ⟨hi, hn⟩ := hb.ledger.placed _ hm
    refine ⟨.resolved b.peer, hb.calm ⟨rfl, rfl, rfl, rfl⟩ ⟨rfl, rfl, rfl, rfl⟩ le_rfl ?_, hS b⟩
    exact ⟨hb.fits_cons, hi, hn, fun _ => ⟨stored, b, hs, hbind, rfl⟩, fun hm' => absurd hm hm'⟩

theorem nodeOf_turns {x : NodeId × String} {S : Node → Stage → Prop} {F : FleetError → Stage → Prop}
    (hS : ∀ n, n.id = x.1 → S n (.resolved x)) :
    (nodeOf x.1).run.wp (bookkeeping.turns traffic (.remove sub)) (Outcome S F) (.resolved x) := by
  rw [wp_nodeOf]
  refine turn_store ⟨rfl, rfl⟩ fun o s hb _ => ⟨_, hb, ?_⟩
  have ht : Traced s sub.id x := hb.fits_cons
  obtain ⟨n, hn⟩ := Option.isSome_iff_exists.mp ht.registered
  change (s.store.node? x.1).elim (_ : Stage → Prop) _ _
  rw [hn]
  exact hS n (Store.node?_id hn)

theorem removePeer_turns {n : Node} {c : Client} {x : NodeId × String} (hn : n.id = x.1)
    (hc : c.nodeId = n.id) {S : Unit → Stage → Prop} {F : FleetError → Stage → Prop}
    (hS : S () (.removed x)) (hF : ∀ e, F e .ended) :
    (removePeer n c x.2).run.wp (bookkeeping.turns traffic (.remove sub)) (Outcome S F)
      (.resolved x) := by
  have habsent {o : Multiset (Errand × Stage)} {s : State}
      (hb : Books s ((.remove sub, .resolved x) ::ₘ o)) (hx : x.2 ∉ s.agents x.1) :
      Books s ((.remove sub, .removed x) ::ₘ o) := by
    have hq := State.removePeer_of_notMem hx
    exact hb.remove.congr hq.store hq.agents hq.issued
  rw [wp_removePeer]
  refine turn ⟨rfl, rfl⟩ fun o s a u hb he _ => ?_
  obtain (⟨-, rfl, rfl⟩ | ⟨hx, ⟨text, rfl⟩, rfl⟩) | ⟨e, he, rfl, rfl⟩ := he
  · rw [hc, hn]
    exact ⟨_, hb.remove, hS⟩
  · rw [hc, hn] at hx
    exact ⟨_, habsent hb hx, hS⟩
  · rw [outcome_error]
    split_ifs with h
    · have hx := he _ _ rfl h
      rw [hc, hn] at hx
      exact ⟨_, habsent hb hx, hS⟩
    · exact ⟨.ended, hb.giveUp ⟨rfl, rfl, rfl, rfl⟩, hF _⟩

theorem clear_turns {x : NodeId × String} {S : Bool → Stage → Prop} {F : StoreError → Stage → Prop}
    (hyes : S true (.cleared x.1)) (hno : S false .ended) :
    (bookkeeping.turns traffic (.remove sub)).pre (.store (.clearBindingIf sub.id x.2))
      (Outcome S F) (.removed x) := by
  refine turn_store ⟨rfl, rfl⟩ fun o s hb _ => ?_
  obtain ⟨cleared, hok, hb⟩ := hb.clear
  change ∃ γ', _ ∧ Outcome _ _ (s.store.clearBindingIf sub.id x.2).1 γ'
  rw [hok]
  refine ⟨_, hb, ?_⟩
  cases cleared
  · exact hno
  · exact hyes

theorem deleteClient_turns :
    (deleteClient sub).run.wp (bookkeeping.turns traffic (.remove sub))
      (fun _ γ => γ = .ended) .begun := by
  rw [← outcome_eta fun _ γ => γ = Stage.ended]
  refine deleteClient_wp_of (bindingOf_turns (fun b => ?_) fun e => rfl)
  refine nodeOf_turns (x := b.peer) fun n hn => ?_
  refine clientFor_turns ⟨rfl, rfl, rfl, rfl⟩ (fun c hc => ?_) fun e => rfl
  refine removePeer_turns (x := b.peer) hn hc ?_ fun e => rfl
  apply clear_turns (x := b.peer)
  · rw [if_pos rfl, hn]
    exact turn_store rfl fun o s hb _ => ⟨_, hb.decrement, rfl⟩
  · rw [if_neg Bool.false_ne_true]

end removal

theorem ended_of_settled {t : Thread Effects Errand.Result} {γ : Stage}
    (h : bookkeeping.Follows (W := errands) traffic t γ) (hs : Settled t) : γ = .ended := by
  cases hn : t.rest.next? with
  | none => exact h.final hn
  | some c =>
    obtain ⟨m, rfl⟩ := hs c hn
    exact h.guard hn

theorem errands_keep : bookkeeping.Keeps traffic where
  begins {M s k} hM ha := by
    have hb : Books s (Discipline.stages M) := hM.inv
    change Books s ((k, .begun) ::ₘ Discipline.stages M)
    refine ⟨?_, hb.unique, ?_, Multiset.forall_mem_cons.mpr ⟨?_, hb.fits⟩⟩
    · simpa [Multiset.cons_bind] using hb.ledger
    · rw [Multiset.cons_bind]
      cases k with
      | remove sub =>
        rw [reserved, zero_add]
        exact hb.exclusive
      | provision sub =>
        have hr : reserved (.provision sub, .begun) = {sub.id} := rfl
        rw [hr, Multiset.singleton_add, Multiset.nodup_cons]
        refine ⟨fun hm => ?_, hb.exclusive⟩
        obtain ⟨y, hy, hid⟩ := Multiset.mem_bind.mp hm
        obtain ⟨⟨t, γ⟩, hx, rfl⟩ := Multiset.mem_map.mp hy
        obtain ⟨k, rest⟩ := t
        cases k with
        | remove other => exact Multiset.notMem_zero _ hid
        | provision other =>
          have hγ : γ ≠ .ended := by
            rintro rfl
            exact Multiset.notMem_zero _ hid
          change sub.id ∈ reserved (.provision other, γ) at hid
          rw [reserved_provision hγ, Multiset.mem_singleton] at hid
          have hs := ha _ (Multiset.mem_map_of_mem Prod.fst hx) other rfl hid.symm
          exact hγ (ended_of_settled (hM.follows _ hx) hs)
    · cases k with
      | remove sub => exact ha
      | provision sub => trivial
  follows k := by
    cases k with
    | remove sub => exact wp_mono (fun _ _ h => ⟨h, trivial⟩) deleteClient_turns
    | provision sub => exact wp_mono (fun _ _ h => ⟨h, trivial⟩) provision_turns

/-- How many threads are about to make a call. -/
def pending (ts : errands.Threads) (c : Effects.Call) : ℕ :=
  ts.countP (·.rest.next? = some c)

/-- A counter is about to be raised for what is fresh, and lowered for what is due. -/
theorem counts_of_follows {t : Thread Effects errands.Result} {γ : Stage}
    (h : bookkeeping.Follows traffic t γ) (id : NodeId) :
    onNode id γ.fresh = (if t.rest.next? = some (.store (.increment id)) then 1 else 0) ∧
      γ.due.count id = if t.rest.next? = some (.store (.decrement id)) then 1 else 0 := by
  have hquiet (hγ : γ.fresh = 0 ∧ γ.due = 0) (hi : t.rest.next? ≠ some (.store (.increment id)))
      (hd : t.rest.next? ≠ some (.store (.decrement id))) :
      onNode id γ.fresh = (if t.rest.next? = some (.store (.increment id)) then 1 else 0) ∧
        γ.due.count id = if t.rest.next? = some (.store (.decrement id)) then 1 else 0 := by
    rw [if_neg hi, if_neg hd, hγ.1, hγ.2]
    exact ⟨rfl, rfl⟩
  cases hn : t.rest.next? with
  | none =>
    obtain rfl : γ = .ended := h.final hn
    exact ⟨rfl, rfl⟩
  | some c =>
    rw [hn] at hquiet
    have hc : γ.Allows c := h.guard hn
    cases c with
    | store c =>
      cases c with
      | increment n =>
        obtain ⟨p, rfl⟩ := hc
        refine ⟨?_, (if_neg (by rintro ⟨⟩)).symm⟩
        rw [Stage.fresh, onNode_singleton]
        exact if_congr ⟨fun hid => by rw [← hid], by rintro ⟨⟩; rfl⟩ rfl rfl
      | decrement n =>
        obtain rfl : γ = .cleared n := hc
        refine ⟨(if_neg (by rintro ⟨⟩)).symm, ?_⟩
        rw [Stage.due, Multiset.count_singleton]
        exact if_congr ⟨fun hid => by rw [hid], by rintro ⟨⟩; rfl⟩ rfl rfl
      | _ => exact hquiet hc (by rintro ⟨⟩) (by rintro ⟨⟩)
    | message m =>
      obtain rfl : γ = .ended := hc
      exact ⟨rfl, rfl⟩
    | _ => exact hquiet hc (by rintro ⟨⟩) (by rintro ⟨⟩)

theorem counts_stages {M : Multiset (Thread Effects errands.Result × Stage)}
    (h : ∀ x ∈ M, bookkeeping.Follows traffic x.1 x.2) (id : NodeId) :
    onNode id ((Discipline.stages M).bind (·.2.fresh)) =
        pending (M.map Prod.fst) (.store (.increment id)) ∧
      ((Discipline.stages M).bind (·.2.due)).count id =
        pending (M.map Prod.fst) (.store (.decrement id)) := by
  induction M using Multiset.induction_on with
  | empty => exact ⟨rfl, rfl⟩
  | cons x M ih =>
    obtain ⟨hx, hM⟩ := Multiset.forall_mem_cons.mp h
    obtain ⟨hfresh, hdue⟩ := ih hM
    obtain ⟨hfresh', hdue'⟩ := counts_of_follows hx id
    have hs : Discipline.stages (x ::ₘ M) = (x.1.kind, x.2) ::ₘ Discipline.stages M :=
      Multiset.map_cons ..
    have hp (c : Effects.Call) : pending ((x ::ₘ M).map Prod.fst) c =
        pending (M.map Prod.fst) c + if x.1.rest.next? = some c then 1 else 0 := by
      rw [Multiset.map_cons]
      exact Multiset.countP_cons ..
    rw [hs, Multiset.cons_bind, Multiset.cons_bind, onNode_add, Multiset.count_add, hfresh, hfresh',
      hdue, hdue', Nat.add_comm, Nat.add_comm (ite ..)]
    exact ⟨(hp _).symm, (hp _).symm⟩

/-- The counter of a node and the peers on it whose counting is still to come are as many as
the live peers, the bindings left behind and the places still to be given back. With nothing
under way, bindings and live peers correspond one to one and every counter is right. -/
theorem conservation {s₀ s : State} {ts : errands.Threads} (h₀ : Tallied s₀)
    (hu : ∀ {n n' p}, (n, p) ∈ s₀.issued → (n', p) ∈ s₀.issued → n = n')
    (hr : errands.Reaches traffic (0, s₀) (ts, s)) :
    (∀ {id n}, s.store.node? id = some n →
      n.currentPeers.toNat + pending ts (.store (.increment id)) =
        s.liveOn id + onNode id s.dangling + pending ts (.store (.decrement id))) ∧
    ((∀ t ∈ ts, Settled t) → Tallied s) := by
  have hstart : bookkeeping.Staged traffic (W := errands) 0 s₀ := by
    refine ⟨⟨tallied_iff_ledger.mp h₀, hu, Multiset.nodup_zero, ?_⟩, ?_⟩
    · exact fun x hx => absurd hx (Multiset.notMem_zero x)
    · exact fun x hx => absurd hx (Multiset.notMem_zero x)
  obtain ⟨M, rfl, hM⟩ := hstart.reaches errands_keep hr
  have hb : Books s (Discipline.stages M) := hM.inv
  constructor
  · intro id n hn
    obtain ⟨hfresh, hdue⟩ := counts_stages hM.follows id
    rw [← hfresh, ← hdue]
    exact hb.ledger.balance hn
  · intro hs
    have hended : ∀ x ∈ Discipline.stages M, x.2 = .ended := by
      intro y hy
      obtain ⟨x, hx, rfl⟩ := Multiset.mem_map.mp hy
      exact ended_of_settled (hM.follows x hx) (hs _ (Multiset.mem_map_of_mem Prod.fst hx))
    have hzero {α : Type} {f : Stage → Multiset α} (hf : f .ended = 0) :
        (Discipline.stages M).bind (fun x => f x.2) = 0 := by
      refine Multiset.eq_zero_of_forall_notMem fun y hy => ?_
      obtain ⟨x, hx, hyx⟩ := Multiset.mem_bind.mp hy
      rw [hended x hx, hf] at hyx
      exact Multiset.notMem_zero y hyx
    have hl := hb.ledger
    rw [hzero rfl, hzero rfl, hzero rfl, hzero rfl] at hl
    exact tallied_iff_ledger.mpr hl

theorem conservation_of_created : ∃ (s : State) (ts : errands.Threads), Tallied .waiting ∧
    (∀ {n n' p}, (n, p) ∈ State.waiting.issued → (n', p) ∈ State.waiting.issued → n = n') ∧
    errands.Reaches traffic (0, .waiting) (ts, s) ∧ pending ts (.store (.increment 1)) = 1 ∧
    ∀ {id n}, s.store.node? id = some n →
      n.currentPeers.toNat + pending ts (.store (.increment id)) =
        s.liveOn id + onNode id s.dangling + pending ts (.store (.decrement id)) := by
  have hroom : State.waiting.Uncrowded := by
    intro id m hm
    obtain rfl := List.mem_singleton.mp (Store.node?_eq_some_iff.mp hm).1
    decide
  have hreach : errands.Can traffic (0, .waiting) fun x =>
      pending x.1 (.store (.increment 1)) = 1 := by
    let sub : Subscription := { id := 1, userId := 10, tariff := "month", expiresAt := .epoch }
    have ha : errands.admits 0 .waiting (.provision sub) := fun t ht =>
      absurd ht (Multiset.notMem_zero t)
    refine .start ha ?_
    refine .call ⟨⟨_, .inl ⟨rfl, rfl⟩, rfl⟩, hroom⟩ ?_
    refine .call ⟨⟨_, .inl ⟨rfl, rfl⟩, rfl⟩, hroom⟩ ?_
    refine .call ⟨⟨_, ⟨.ok (), nofun, rfl, rfl⟩, rfl⟩, hroom⟩ ?_
    refine .call ⟨⟨_, ⟨.ok (), nofun, rfl, rfl⟩, rfl⟩, hroom⟩ (.note ?_)
    refine .call (a := "12345678") ⟨⟨_, rfl, rfl⟩, hroom⟩ ?_
    refine .call ⟨⟨_, .inl ⟨⟨"p", "", "", "10.8.0.2"⟩, fun _ => Set.notMem_empty _, rfl, rfl⟩, rfl⟩,
      hroom⟩ (.here ?_)
    rfl
  obtain ⟨⟨ts, s⟩, hr, hp⟩ := hreach
  have hu : ∀ {n n' p}, (n, p) ∈ State.waiting.issued → (n', p) ∈ State.waiting.issued → n = n' :=
    fun h => absurd h (Set.notMem_empty _)
  exact ⟨s, ts, tallied_waiting, hu, hr, hp, (conservation tallied_waiting hu hr).1⟩

end PeerFleet.Fleet
