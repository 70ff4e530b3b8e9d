import PeerFleet.Proofs.Fleet.Operations
import PeerFleet.Proofs.Fleet.Turns
import PeerFleet.Proofs.Jobs.Lapse
import PeerFleet.Proofs.Jobs.Shape
import PeerFleet.Proofs.Program.Interleaving

/-! # Passes that overlap

An expiration pass and a provisioning pass take turns at their calls. When the first is done,
a subscription is over and still has a working peer exactly if it was listed without a peer
and the second gave it one. The two can meet in this way.
-/

namespace PeerFleet.Fleet

open Program

/-- Nothing fails, but that an agent answers 404 to a call about a peer that it does not have.
An agent never issues an id twice. -/
def calm : Conditions where
  storeFault _ _ _ := False
  connectFault _ _ _ := False
  agentFault _ _ _ _ := False
  issues s n p := (n, p) ∉ s.issued

inductive Round where
  | expiration (now : Instant)
  | provisioning

def Round.Result : Round → Type
  | .expiration _ => Except StoreError ExpirationReport
  | .provisioning => Except StoreError ProvisioningReport

def rounds : Workload Effects State Round where
  Result := Round.Result
  program
    | .expiration now => (Expiration.runAt now).run
    | .provisioning => Provisioning.runOnce.run
  admits _ _ _ := False

def Round.thread (k : Round) : Thread Effects rounds.Result :=
  ⟨k, rounds.program k⟩

inductive Progress where
  | expiring (e : Lapse)
  | providing (p : Supply)

def pairing : Discipline rounds Progress where
  start
    | .expiration _ => .expiring .unlisted
    | .provisioning => .providing .idle
  Final
    | .expiration _, γ => ∃ due, γ = .expiring (.listed due [] false)
    | .provisioning, _ => True
  Guard _ _ _ := True
  Inv s m := ∃ now e p,
    m = {(.expiration now, .expiring e), (.provisioning, .providing p)} ∧ Sound s e p

section turns

theorem eq_of_cons_eq_pair {α : Type} {x y z : α} {o : Multiset α} (h : z ::ₘ o = {x, y})
    (hz : z ≠ y) : z = x ∧ o = {y} := by
  rcases Multiset.cons_eq_cons.mp h with hzx | ⟨-, c, -, hc⟩
  · exact hzx
  · exact absurd ((Multiset.singleton_eq_cons_iff _).mp hc).1.symm hz

variable {k : Round} {γ : Progress} {now : Instant} {e : Lapse} {p : Supply}

theorem expiring_turn {c : Effect} {K : c.Answer → Progress → Prop}
    (h : ∀ p s a u, Sound s e p → calm.effect s c a u →
      ∃ e', Sound (u.record c a) e' p ∧ K a (.expiring e')) :
    (pairing.turns calm.surroundings (.expiration now)).pre c K (.expiring e) := by
  refine ⟨trivial, fun o s a s' hi he => ?_⟩
  obtain ⟨u, hu, rfl⟩ := he
  obtain ⟨now', e₁, p, hm, hs⟩ := hi
  obtain ⟨⟨⟩, rfl⟩ := eq_of_cons_eq_pair hm (by simp)
  obtain ⟨e', hs', hk⟩ := h p s a u hs hu
  exact ⟨_, ⟨now, e', p, rfl, hs'⟩, trivial, hk⟩

theorem expiring_store {c : StoreCall} {K : c.Answer → Progress → Prop}
    (h : ∀ p s, Sound s e p → ∃ e', Sound ((s.setStore (s.store.perform c).2).record (.store c)
      (s.store.perform c).1) e' p ∧ K (s.store.perform c).1 (.expiring e')) :
    (pairing.turns calm.surroundings (.expiration now)).pre (.store c) K (.expiring e) := by
  refine expiring_turn fun p s a u hs he => ?_
  obtain ⟨rfl, rfl⟩ | ⟨_, he, -⟩ := he
  · exact h p s hs
  · exact he.elim

theorem providing_turn {c : Effect} {K : c.Answer → Progress → Prop}
    (hc : ∀ now, c ≠ .store (.listExpired now))
    (h : ∀ e s a u, Sound s e p → calm.effect s c a u →
      ∃ p', Sound u e p' ∧ K a (.providing p')) :
    (pairing.turns calm.surroundings .provisioning).pre c K (.providing p) := by
  refine ⟨trivial, fun o s a s' hi he => ?_⟩
  obtain ⟨u, hu, rfl⟩ := he
  obtain ⟨now, e, p₁, hm, hs⟩ := hi
  rw [Multiset.pair_comm] at hm
  obtain ⟨⟨⟩, rfl⟩ := eq_of_cons_eq_pair hm (by simp)
  obtain ⟨p', hs', hk⟩ := h e s a u hs hu
  exact ⟨_, ⟨now, e, p', Multiset.pair_comm _ _, hs'.record hc⟩, trivial, hk⟩

theorem providing_store {c : StoreCall} {K : c.Answer → Progress → Prop}
    (hc : ∀ now, c ≠ .listExpired now)
    (h : ∀ e s, Sound s e p → ∃ p', Sound (s.setStore (s.store.perform c).2) e p' ∧
      K (s.store.perform c).1 (.providing p')) :
    (pairing.turns calm.surroundings .provisioning).pre (.store c) K (.providing p) := by
  refine providing_turn (fun now => ?_) fun e s a u hs he => ?_
  · simpa using hc now
  · obtain ⟨rfl, rfl⟩ | ⟨_, he, -⟩ := he
    · exact h e s hs
    · exact he.elim

theorem passes_paired {c : Effect} (hc : ∀ now, c ≠ .store (.listExpired now)) :
    pairing.Passes k γ c where
  guard := trivial
  moves _ := trivial
  inv := by
    rintro s m a ⟨now, e, p, hm, hs⟩
    exact ⟨now, e, p, hm, hs.record hc⟩

theorem passesPool_paired : pairing.PassesPool k γ where
  guard _ := trivial
  moves _ _ := trivial
  inv := by
    rintro s m q c a ⟨now, e, p, hm, hs⟩
    have hs' : Sound (s.setPool q) e p := hs.congr rfl (fun _ => rfl) rfl rfl Iff.rfl
    exact ⟨now, e, p, hm, hs'.record (by rintro _ ⟨⟩)⟩

theorem clientFor_paired {n : Node} {S : Client → Progress → Prop}
    {F : FleetError → Progress → Prop} (hS : ∀ c, c.nodeId = n.id → S c γ) :
    (clientFor n).run.wp (pairing.turns calm.surroundings k) (Outcome S F) γ :=
  clientFor_turn_of (fun h => h) passesPool_paired hS fun _ _ _ _ h => h.elim

end turns

section expiration

variable {now : Instant} {due left : List Subscription} {sub : Subscription} {b : Binding}

theorem cut_of_not_working {s : State} {p : Supply} (hb : sub.binding = some b)
    (h : Sound s (.listed due (sub :: left) false) p) (hw : ¬ s.Working b.peer) :
    Sound s (.listed due (sub :: left) true) p := by
  refine h.cutOff hb rfl rfl rfl fun {x} => (and_iff_left_of_imp ?_).symm
  rintro hx rfl
  exact hw hx

theorem resolve_paired (hb : sub.binding = some b) {S : Binding × Node × Client → Progress → Prop}
    {F : FleetError → Progress → Prop}
    (hS : ∀ n c, c.nodeId = b.nodeId → S (b, n, c) (.expiring (.listed due (sub :: left) false)))
    (hF : F (.nodeMissing b.nodeId) (.expiring (.listed due (sub :: left) true))) :
    (resolve sub).run.wp (pairing.turns calm.surroundings (.expiration now)) (Outcome S F)
      (.expiring (.listed due (sub :: left) false)) := by
  rw [resolve]
  refine wp_run_bind_of ?_
  rw [wp_bindingOf]
  refine expiring_store fun p s h => ?_
  refine ⟨.listed due (sub :: left) false, h.record (by rintro _ ⟨⟩), ?_⟩
  change ((s.store.subscription? sub.id).getD sub).binding.elim (_ : Progress → Prop) _ _
  have hsub : sub ∈ due := h.left List.mem_cons_self
  obtain ⟨⟨stored, hs, hsb⟩, -⟩ := h.kept hsub hb
  rw [hs, Option.getD_some, hsb]
  refine wp_run_bind_of ?_
  rw [wp_nodeOf]
  refine expiring_store fun p s h => ?_
  change ∃ e', _ ∧ (s.store.node? b.nodeId).elim (_ : Progress → Prop) _ _
  cases hn : s.store.node? b.nodeId with
  | none =>
    have hw : ¬ s.Working b.peer := fun hw => by simp [State.Working, Binding.peer, hn] at hw
    exact ⟨_, (cut_of_not_working hb h hw).record (by rintro _ ⟨⟩), hF⟩
  | some n =>
    refine ⟨.listed due (sub :: left) false, h.record (by rintro _ ⟨⟩), ?_⟩
    refine wp_run_bind_of (clientFor_paired fun c hc => hS n c ?_)
    rw [hc, Store.node?_id hn]

theorem disable_paired (hb : sub.binding = some b) {n : Node} {c : Client} {i : String}
    (hc : c.nodeId = b.nodeId) {S : Unit → Progress → Prop} {F : FleetError → Progress → Prop}
    (hS : S () (.expiring (.listed due (sub :: left) true)))
    (hF : ∀ e, e.isPeerGone → F e (.expiring (.listed due (sub :: left) true))) :
    (remote n c (.disable i b.peerId)).run.wp (pairing.turns calm.surroundings (.expiration now))
      (Outcome S F) (.expiring (.listed due (sub :: left) false)) := by
  rw [wp_remote]
  refine expiring_turn fun p s a u h he => ⟨.listed due (sub :: left) true, ?_⟩
  obtain (⟨hp, rfl, rfl⟩ | ⟨hp, ⟨text, rfl⟩, rfl⟩) | ⟨_, he, -⟩ := he
  · have hcut : Sound (s.setEnabled c.nodeId b.peerId false)
        (.listed due (sub :: left) true) p := by
      rw [hc]
      exact h.cutOff hb rfl rfl rfl State.working_setEnabled_false_iff
    exact ⟨hcut.record (by rintro _ ⟨⟩), hS⟩
  · rw [hc] at hp
    have hcut := cut_of_not_working hb h (State.not_working_of_notMem hp)
    exact ⟨hcut.record (by rintro _ ⟨⟩), hF _ rfl⟩
  · exact he.elim

theorem disableClient_paired (hb : sub.binding = some b) {S : Unit → Progress → Prop}
    {F : FleetError → Progress → Prop} (hS : S () (.expiring (.listed due (sub :: left) true)))
    (hF : ∀ e, e.isPeerGone → F e (.expiring (.listed due (sub :: left) true))) :
    (disableClient sub).run.wp (pairing.turns calm.surroundings (.expiration now)) (Outcome S F)
      (.expiring (.listed due (sub :: left) false)) := by
  rw [disableClient]
  refine wp_run_bind_of (resolve_paired hb (fun n c hc => ?_) (hF _ rfl))
  exact wp_run_bind_of (disable_paired hb hc hS hF)

theorem expire_paired :
    (Expiration.expire sub).wp (pairing.turns calm.surroundings (.expiration now))
      (fun _ γ => γ = .expiring (.listed due left false))
      (.expiring (.listed due (sub :: left) false)) := by
  rw [← outcome_eta fun _ γ => γ = Progress.expiring (.listed due left false)]
  refine Expiration.expire_wp (U := fun γ => ∃ cut, (sub.binding = none ∨ cut = true) ∧
    γ = .expiring (.listed due (sub :: left) cut)) ?_ ?_
  · cases hb : sub.binding with
    | none => exact ⟨false, .inl rfl, rfl⟩
    | some b =>
      refine disableClient_paired hb ⟨true, .inr rfl, rfl⟩ fun e he => ?_
      rw [if_pos he]
      exact ⟨true, .inr rfl, rfl⟩
  · rintro _ ⟨cut, hcut, rfl⟩
    refine expiring_store fun p s h => ?_
    refine ⟨.listed due left false, (h.expire hcut).record (by rintro _ ⟨⟩), ?_⟩
    change Outcome _ _ (s.store.updateStatus sub.id .expired).1 _
    cases (s.store.updateStatus sub.id .expired).1 <;> rfl

theorem runAt_paired : pairing.Follows calm.surroundings (Round.expiration now).thread
    (.expiring .unlisted) := by
  have hw : (Expiration.runAt now).run.wp (pairing.turns calm.surroundings (.expiration now))
      (fun _ γ => ∃ due, γ = .expiring (.listed due [] false)) (.expiring .unlisted) := by
    rw [← outcome_eta fun _ γ => ∃ due, γ = Progress.expiring (.listed due [] false)]
    refine Expiration.runAt_wp
      (I := fun left γ => ∃ due, γ = Progress.expiring (.listed due left false)) ?_ ?_
    · rintro sub left _ ⟨due, rfl⟩
      exact wp_mono (fun _ γ hγ => ⟨due, hγ⟩) expire_paired
    · exact expiring_store fun p s h => ⟨_, h.list, _, rfl⟩
  exact wp_mono (fun _ _ hγ => ⟨hγ, trivial⟩) hw

end expiration

section provisioning

variable {sub : Subscription} {id : SubscriptionId}

theorem selectNode_paired {S : Node → Progress → Prop} {F : FleetError → Progress → Prop}
    (hS : ∀ n, S n (.providing (.chosen id n.id))) (hF : ∀ e, F e (.providing .idle)) :
    selectNode.run.wp (pairing.turns calm.surroundings .provisioning) (Outcome S F)
      (.providing (.vacant id)) := by
  rw [selectNode]
  refine wp_run_bind_of (wp_fromStore_of (providing_store (by rintro _ ⟨⟩) fun e s h => ?_))
  change ∃ p', Sound s e p' ∧ Outcome S F (pickLeastLoaded s.store.listEligible) (.providing p')
  cases hp : pickLeastLoaded s.store.listEligible with
  | error e => exact ⟨.idle, h.giveUp, hF e⟩
  | ok n =>
    have hn : (s.store.node? n.id).isSome := by simp [(of_pickLeastLoaded hp).1]
    exact ⟨.chosen id n.id, h.choose hn, hS n⟩

theorem create_paired {n : Node} {c : Client} {i q : String} (hc : c.nodeId = n.id)
    {S : CreatedPeer → Progress → Prop} {F : FleetError → Progress → Prop}
    (hS : ∀ peer, S peer (.providing (.created id (n.id, peer.peerId)))) :
    (remote n c (.create i q)).run.wp (pairing.turns calm.surroundings .provisioning) (Outcome S F)
      (.providing (.chosen id n.id)) := by
  rw [wp_remote]
  refine providing_turn (by rintro _ ⟨⟩) fun e s a u h he => ?_
  obtain ⟨peer, hp, rfl, rfl⟩ | ⟨_, he, -⟩ := he
  · rw [hc] at hp ⊢
    exact ⟨_, h.create hp, hS peer⟩
  · exact he.elim

theorem createClient_paired {user : UserId} {S : Binding → Progress → Prop}
    {F : FleetError → Progress → Prop} (hS : ∀ b, S b (.providing (.created id b.peer)))
    (hF : ∀ e, F e (.providing .idle)) :
    (createClient user).run.wp (pairing.turns calm.surroundings .provisioning) (Outcome S F)
      (.providing (.vacant id)) := by
  refine createClient_wp_of (selectNode_paired (fun n => clientFor_paired fun c hc => ?_) hF)
  refine turn_pass_of (passes_paired (by rintro _ ⟨⟩)) (fun _ _ _ h => h) fun suffix => ?_
  refine create_paired hc fun peer => ?_
  refine providing_store (by rintro _ ⟨⟩) fun e s h => ⟨_, ?_, hS ⟨n.id, peer.peerId, _⟩⟩
  exact h.congr Store.setPeers_subscriptions (fun _ => Store.setPeers_isSome) rfl rfl Iff.rfl

theorem save_paired {b : Binding} {S : Unit → Progress → Prop} {F : FleetError → Progress → Prop}
    (hS : S () (.providing .idle)) :
    (Provisioning.save sub b).run.wp (pairing.turns calm.surroundings .provisioning) (Outcome S F)
      (.providing (.created sub.id b.peer)) := by
  rw [Provisioning.wp_save]
  refine providing_store (by rintro _ ⟨⟩) fun e s h => ?_
  obtain ⟨hok, hs⟩ := h.save
  refine ⟨.idle, hs, ?_⟩
  change Outcome _ _ (s.store.setBinding sub.id (some b)).1 _
  rw [hok]
  exact hS

theorem provision_paired :
    (Provisioning.provision sub).run.wp (pairing.turns calm.surroundings .provisioning)
      (fun _ γ => γ = .providing .idle) (.providing .idle) := by
  rw [← outcome_eta fun _ γ => γ = Progress.providing .idle]
  refine Provisioning.provision_wp (providing_store (by rintro _ ⟨⟩) fun e s h => ?_)
  change ∃ p', Sound s e p' ∧
    if (s.store.subscription? sub.id).any Subscription.needsProvisioning then _ else _
  split_ifs with hc
  · obtain ⟨stored, hs, hn⟩ := (Option.any_eq_true ..).mp hc
    refine ⟨.vacant sub.id, h.check hs hn, createClient_paired (fun b => ?_) fun _ => rfl⟩
    refine save_paired fun text => ?_
    exact turn_pass_of (passes_paired (by rintro _ ⟨⟩)) (fun _ _ _ h => h) fun _ => rfl
  · exact ⟨.idle, h, rfl⟩

theorem runOnce_paired : pairing.Follows calm.surroundings Round.provisioning.thread
    (.providing .idle) := by
  have hw : Provisioning.runOnce.run.wp (pairing.turns calm.surroundings .provisioning)
      (Outcome (fun _ γ => ∃ _ : List Subscription, γ = .providing .idle) fun _ _ => True)
      (.providing .idle) := by
    refine Provisioning.runOnce_wp (I := fun _ γ => γ = Progress.providing .idle) ?_ ?_
    · rintro sub subs _ rfl
      exact provision_paired
    · exact providing_store (by rintro _ ⟨⟩) fun e s h => ⟨.idle, h, rfl⟩
  exact wp_mono (fun _ _ _ => ⟨trivial, trivial⟩) hw

end provisioning

theorem rounds_keep : pairing.Keeps calm.surroundings where
  begins _ h := h.elim
  follows k := by
    cases k with
    | expiration now => exact runAt_paired
    | provisioning => exact runOnce_paired

theorem exists_overtaking : rounds.Can calm.surroundings
    ({(Round.expiration .epoch).thread, Round.provisioning.thread}, .waiting)
    fun x => (∀ t ∈ x.1, t.rest.next? = none) ∧ Overdue x.2 1 := by
  refine .call (a := .ok [_]) ⟨_, .inl ⟨rfl, rfl⟩, rfl⟩ ?_
  change rounds.Can _ (_ ::ₘ Round.provisioning.thread ::ₘ 0, _) _
  refine .swap ?_
  refine .call ⟨_, .inl ⟨rfl, rfl⟩, rfl⟩ ?_
  refine .call ⟨_, .inl ⟨rfl, rfl⟩, rfl⟩ ?_
  refine .call ⟨_, .inl ⟨rfl, rfl⟩, rfl⟩ ?_
  refine .call ⟨_, ⟨.ok (), nofun, rfl, rfl⟩, rfl⟩ ?_
  refine .call ⟨_, ⟨.ok (), nofun, rfl, rfl⟩, rfl⟩ (.note ?_)
  refine .call (a := "12345678") ⟨_, rfl, rfl⟩ ?_
  refine .call ⟨_, .inl ⟨⟨"p", "", "", "10.8.0.2"⟩, Set.notMem_empty _, rfl, rfl⟩, rfl⟩ ?_
  refine .call ⟨_, .inl ⟨rfl, rfl⟩, rfl⟩ (.note ?_)
  refine .call ⟨_, .inl ⟨rfl, rfl⟩, rfl⟩ (.note ?_)
  refine .call (a := Except.ok (1 : Telegram.MessageId)) ⟨_, rfl, rfl⟩ ?_
  refine .swap ?_
  refine .call ⟨_, .inl ⟨rfl, rfl⟩, rfl⟩ (.note (.here ⟨?_, ?_⟩))
  · refine Workload.forall_mem_pair ?_ ?_
    · rfl
    · rfl
  · exact ⟨_, _, rfl, rfl, rfl, rfl, rfl⟩

theorem not_overdue_waiting (id : SubscriptionId) : ¬ Overdue .waiting id := by
  rintro ⟨sub, b, hs, -, hb, -⟩
  have hm := (Store.subscription?_eq_some_iff.mp hs).1
  obtain rfl := List.mem_singleton.mp hm
  cases hb

/-- Two passes that begin together, no expired subscription being bound to a working peer.
Once both are done, those that are over and bound to a working peer are exactly those that
slipped through. -/
theorem overdue_iff_slipped {s₀ s : State} {ts : rounds.Threads} {now : Instant}
    (hh : s₀.history = []) (hi : ∀ x ∈ s₀.store.bound, x ∈ s₀.issued) (h₀ : ∀ id, ¬ Overdue s₀ id)
    (hr : rounds.Reaches calm.surroundings
      ({(Round.expiration now).thread, Round.provisioning.thread}, s₀) (ts, s))
    (hd : ∀ t ∈ ts, t.rest.next? = none) (id : SubscriptionId) :
    Overdue s id ↔ Slipped s id := by
  have hstart : pairing.Staged calm.surroundings (W := rounds)
      {((Round.expiration now).thread, .expiring .unlisted),
        (Round.provisioning.thread, .providing .idle)} s₀ := by
    refine ⟨⟨now, .unlisted, .idle, rfl, .start hh hi h₀⟩, ?_⟩
    rintro x hx
    rcases Multiset.mem_cons.mp hx with rfl | hx
    · exact runAt_paired
    · obtain rfl := Multiset.mem_singleton.mp hx
      exact runOnce_paired
  obtain ⟨M, rfl, hM⟩ := hstart.reaches rounds_keep hr
  obtain ⟨now', e, p, hm, hs⟩ := hM.inv
  have hmem : (Round.expiration now', Progress.expiring e) ∈ Discipline.stages M := by
    rw [hm]
    exact Multiset.mem_cons_self _ _
  obtain ⟨⟨⟨k, rest⟩, γ⟩, hx, hk⟩ := Multiset.mem_map.mp hmem
  cases hk
  have hdone : rest.next? = none := hd _ (Multiset.mem_map_of_mem Prod.fst hx)
  obtain ⟨due, hfinal⟩ := (hM.follows _ hx).final hdone
  cases hfinal
  exact hs.overdue_iff

theorem slipped_of_overtaking : ∃ (s : State) (ts : rounds.Threads),
    State.waiting.history = [] ∧ (∀ x ∈ State.waiting.store.bound, x ∈ State.waiting.issued) ∧
    (∀ id, ¬ Overdue .waiting id) ∧
    rounds.Reaches calm.surroundings
      ({(Round.expiration .epoch).thread, Round.provisioning.thread}, .waiting) (ts, s) ∧
    (∀ t ∈ ts, t.rest.next? = none) ∧ Slipped s 1 := by
  obtain ⟨⟨ts, s⟩, hr, hd, ho⟩ := exists_overtaking
  have hi : ∀ x ∈ State.waiting.store.bound, x ∈ State.waiting.issued := nofun
  have hs : Slipped s 1 := (overdue_iff_slipped rfl hi not_overdue_waiting hr hd 1).mp ho
  exact ⟨s, ts, rfl, hi, not_overdue_waiting, hr, hd, hs⟩

/-- Two passes that run together leave an expired subscription with a working peer. -/
theorem exists_overdue : ∃ (s : State) (ts : rounds.Threads),
    State.waiting.history = [] ∧ (∀ x ∈ State.waiting.store.bound, x ∈ State.waiting.issued) ∧
    (∀ id, ¬ Overdue .waiting id) ∧
    rounds.Reaches calm.surroundings
      ({(Round.expiration .epoch).thread, Round.provisioning.thread}, .waiting) (ts, s) ∧
    (∀ t ∈ ts, t.rest.next? = none) ∧ Overdue s 1 := by
  obtain ⟨⟨ts, s⟩, hr, hd, ho⟩ := exists_overtaking
  exact ⟨s, ts, rfl, nofun, not_overdue_waiting, hr, hd, ho⟩

end PeerFleet.Fleet
