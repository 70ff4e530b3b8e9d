import PeerFleet.Proofs.Fleet.Chronicle
import PeerFleet.Proofs.Fleet.Shortfall
import PeerFleet.Proofs.Fleet.Stages
import PeerFleet.Proofs.Jobs.Overlap

/-! # A recount among other calls

A node is recounted while peers are created and removed. Its agent lists its peers at one time,
and the counter is written over at a later one. When all calls are done, the counter is right
exactly if the recount has written what the counter said by then, up to what the counter could
not follow.
-/

namespace PeerFleet.Fleet

open Program

inductive Task where
  | create (user : UserId)
  | delete (sub : Subscription)
  | recount

def Task.Result : Task → Type
  | .create _ => Except FleetError Binding
  | .delete _ => Except FleetError Unit
  | .recount => Except FleetError UInt32

/-- A node is recounted once. Peers are created, and removed if their agents have them. -/
def recounting (node : Node) : Workload Effects State Task where
  Result := Task.Result
  program
    | .create user => (createClient user).run
    | .delete sub => (deleteClient sub).run
    | .recount => (syncPeerCount node).run
  admits _ s
    | .create _ => True
    | .delete sub => ∃ stored b, s.store.subscription? sub.id = some stored ∧
        stored.binding = some b ∧ b.peerId ∈ s.agents b.nodeId
    | .recount => False

def Task.thread (node : Node) (k : Task) : Thread Effects (recounting node).Result :=
  ⟨k, (recounting node).program k⟩

/-- A subscription is bound to a peer, or has lost the binding to it. -/
def Bound (s : State) (cleared : Multiset (NodeId × String)) (id : SubscriptionId)
    (x : NodeId × String) : Prop :=
  ∃ sub, s.store.subscription? id = some sub ∧
    (sub.binding = none ∧ x ∈ cleared ∨ ∃ b, sub.binding = some b ∧ b.peer = x)

def Relies (s : State) (cleared : Multiset (NodeId × String)) : Task → Stage → Prop
  | .delete sub, .begun => ∃ stored, s.store.subscription? sub.id = some stored ∧
      ∀ b, stored.binding = some b → s.Seen b.peer
  | .delete sub, .resolved x => Bound s cleared sub.id x ∧ s.Seen x
  | .delete sub, .removed x => Bound s cleared sub.id x ∧ x ∈ s.departures
  | _, _ => True

def Task.recounts : Task → Bool
  | recount => true
  | _ => false

def recounted? : Task × Stage → Bool
  | (.recount, .ended) => true
  | _ => false

/-- The history agrees with the stages of all calls, on peers that have come, on places that are
due back, and on whether the counter was written over; and bindings have been taken away only
from peers that have gone. -/
structure Recounting (s₀ : State) (id : NodeId) (cleared : Multiset (NodeId × String)) (s : State)
    (m : Multiset (Task × Stage)) : Prop where
  chronicled : Chronicled s₀ s
  arrived : onNode id s.arrivals =
    calls (.store (.increment id)) s.history + onNode id (m.bind (·.2.fresh))
  written : s.history.countP (overwrites id ·.1) = m.countP (recounted? ·)
  once : m.countP (·.1.recounts) = 1
  bound : s₀.store.bound = s.store.bound + cleared
  departed : cleared ⊆ s.departures
  due : onNode id cleared =
    calls (.store (.decrement id)) s.history + (m.bind (·.2.due)).count id
  pending : ∀ x ∈ s.departures, x ∈ cleared ∨ ∃ y ∈ m, y.2 = .removed x
  relies : ∀ x ∈ m, Relies s cleared x.1 x.2

def recountingTurns (s₀ : State) (node : Node) : Discipline (recounting node) Stage where
  start _ := .begun
  Final _ γ := γ = .ended
  Guard _ _ _ := True
  Inv s m := ∃ cleared, Recounting s₀ node.id cleared s m

section steps

variable {s₀ s s' : State} {id : NodeId} {cleared cleared' : Multiset (NodeId × String)} {k : Task}
  {γ γ' : Stage} {o : Multiset (Task × Stage)} {c : Effect} {a : c.Answer} {x : Exchange}

theorem Relies.ensues (h : Relies s cleared k γ) (he : Ensues s x s') (hc : cleared ⊆ cleared')
    (hs : ∀ {i stored}, s.store.subscription? i = some stored →
      ∃ new, s'.store.subscription? i = some new ∧ (new.binding = stored.binding ∨
        new.binding = none ∧ ∀ b, stored.binding = some b → b.peer ∈ cleared')) :
    Relies s' cleared' k γ := by
  have hbound {i : SubscriptionId} {y : NodeId × String} (hb : Bound s cleared i y) :
      Bound s' cleared' i y := by
    obtain ⟨stored, hi, hy⟩ := hb
    obtain ⟨new, hn, hsame | ⟨hnone, hgone⟩⟩ := hs hi
    · refine ⟨new, hn, ?_⟩
      rw [hsame]
      exact hy.imp_left fun hy => ⟨hy.1, hc hy.2⟩
    · refine ⟨new, hn, .inl ⟨hnone, ?_⟩⟩
      rcases hy with ⟨-, hy⟩ | ⟨b, hb, rfl⟩
      · exact hc hy
      · exact hgone b hb
  unfold Relies at h ⊢
  split
  · obtain ⟨stored, hi, hb⟩ := h
    obtain ⟨new, hn, hsame | ⟨hnone, -⟩⟩ := hs hi
    · exact ⟨new, hn, fun b hnb => (hb b (hsame ▸ hnb)).ensues he⟩
    · exact ⟨new, hn, fun b hnb => by simp [hnone] at hnb⟩
  · exact ⟨hbound h.1, h.2.ensues he⟩
  · exact ⟨hbound h.1, he.mem_departures.mpr (.inr h.2)⟩
  · trivial

theorem Recounting.move (h : Recounting s₀ id cleared s ((k, γ) ::ₘ o)) (he : Ensues s ⟨c, a⟩ s')
    (hfresh : (arrival? ⟨c, a⟩).elim 0 (fun y => if y.1 = id then 1 else 0) + onNode id γ.fresh =
      (if c = .store (.increment id) then 1 else 0) + onNode id γ'.fresh)
    (hwritten : (if overwrites id c then 1 else 0) + (if recounted? (k, γ) then 1 else 0) =
      if recounted? (k, γ') then 1 else 0)
    (hbound : s.store.bound + cleared = s'.store.bound + cleared') (hc : cleared ⊆ cleared')
    (hdeparted : cleared' ⊆ s'.departures)
    (hdue : onNode id cleared' + γ.due.count id = onNode id cleared +
      (if c = .store (.decrement id) then 1 else 0) + γ'.due.count id)
    (hpending : ∀ {x}, departure? ⟨c, a⟩ = some x ∨ γ = .removed x → γ' = .removed x ∨ x ∈ cleared')
    (hs : ∀ {i stored}, s.store.subscription? i = some stored →
      ∃ new, s'.store.subscription? i = some new ∧ (new.binding = stored.binding ∨
        new.binding = none ∧ ∀ b, stored.binding = some b → b.peer ∈ cleared'))
    (hr : Relies s' cleared' k γ') : Recounting s₀ id cleared' s' ((k, γ') ::ₘ o) where
  chronicled := h.chronicled.ensues he
  arrived := by
    have := h.arrived
    rw [Multiset.cons_bind, onNode_add] at this ⊢
    rw [he.onNode_arrivals, he.history, calls_cons]
    dsimp only at this ⊢
    omega
  written := by
    have := h.written
    rw [Multiset.countP_cons] at this ⊢
    rw [he.history, List.countP_cons]
    change _ + (if overwrites id c then 1 else 0) = _
    omega
  once := by
    have := h.once
    rwa [Multiset.countP_cons] at this ⊢
  bound := h.bound.trans hbound
  departed := hdeparted
  due := by
    have := h.due
    rw [Multiset.cons_bind, Multiset.count_add] at this ⊢
    rw [he.history, calls_cons]
    dsimp only at this ⊢
    omega
  pending y hy := by
    have hcons (hy : departure? ⟨c, a⟩ = some y ∨ γ = .removed y) :
        y ∈ cleared' ∨ ∃ z ∈ (k, γ') ::ₘ o, z.2 = .removed y :=
      (hpending hy).symm.imp_right fun hγ => ⟨_, Multiset.mem_cons_self _ _, hγ⟩
    rcases he.mem_departures.mp hy with hy | hy
    · exact hcons (.inl hy)
    · rcases h.pending y hy with hy | ⟨z, hz, hzy⟩
      · exact .inl (hc hy)
      · rcases Multiset.mem_cons.mp hz with rfl | hz
        · exact hcons (.inr hzy)
        · exact .inr ⟨z, Multiset.mem_cons_of_mem hz, hzy⟩
  relies := by
    refine Multiset.forall_mem_cons.mpr ⟨hr, fun z hz => ?_⟩
    exact (h.relies z (Multiset.mem_cons_of_mem hz)).ensues he hc hs

theorem keeps_of_subscriptions (h : s'.store.subscriptions = s.store.subscriptions)
    {i : SubscriptionId} {stored : Subscription} (hi : s.store.subscription? i = some stored) :
    ∃ new, s'.store.subscription? i = some new ∧ (new.binding = stored.binding ∨
      new.binding = none ∧ ∀ b, stored.binding = some b → b.peer ∈ cleared) := by
  refine ⟨stored, ?_, .inl rfl⟩
  rwa [Store.subscription?, h]

theorem Recounting.keep (h : Recounting s₀ id cleared s ((k, γ) ::ₘ o)) (he : Ensues s ⟨c, a⟩ s')
    (hfresh : (arrival? ⟨c, a⟩).elim 0 (fun y => if y.1 = id then 1 else 0) + onNode id γ.fresh =
      (if c = .store (.increment id) then 1 else 0) + onNode id γ'.fresh)
    (hwritten : (if overwrites id c then 1 else 0) + (if recounted? (k, γ) then 1 else 0) =
      if recounted? (k, γ') then 1 else 0)
    (hdue : γ.due.count id = (if c = .store (.decrement id) then 1 else 0) + γ'.due.count id)
    (hpending : ∀ {x}, departure? ⟨c, a⟩ = some x ∨ γ = .removed x → γ' = .removed x ∨ x ∈ cleared)
    (hs : s'.store.subscriptions = s.store.subscriptions) (hr : Relies s' cleared k γ') :
    Recounting s₀ id cleared s' ((k, γ') ::ₘ o) := by
  refine h.move he hfresh hwritten ?_ (Multiset.Subset.refl _) ?_ (by omega) hpending
    (keeps_of_subscriptions hs) hr
  · rw [Store.bound_congr hs]
  · exact fun x hx => he.mem_departures.mpr (.inr (h.departed hx))

theorem Recounting.pass (h : Recounting s₀ id cleared s ((k, γ) ::ₘ o)) (he : Ensues s ⟨c, a⟩ s')
    (hi : c ≠ .store (.increment id)) (hd : c ≠ .store (.decrement id))
    (hw : overwrites id c = false) (harr : arrival? ⟨c, a⟩ = none)
    (hdep : departure? ⟨c, a⟩ = none) (hs : s'.store.subscriptions = s.store.subscriptions)
    (hγ : γ.Calm) (hγ' : γ'.fresh = 0 ∧ γ'.due = 0)
    (hrec : recounted? (k, γ') = recounted? (k, γ)) (hr : Relies s' cleared k γ') :
    Recounting s₀ id cleared s' ((k, γ') ::ₘ o) := by
  obtain ⟨hf, -, hdu, hg⟩ := hγ
  refine h.keep he ?_ ?_ ?_ ?_ hs hr
  · rw [harr, if_neg hi, hf, hγ'.1]
    rfl
  · simp [hw, hrec]
  · rw [if_neg hd, hdu, hγ'.2]
    rfl
  · rintro x (hx | rfl)
    · simp [hdep] at hx
    · simp at hg

theorem Recounting.create {user : UserId} {j : Client} {i q : String} {peer : CreatedPeer}
    (h : Recounting s₀ id cleared s ((.create user, .begun) ::ₘ o))
    (he : Ensues s ⟨.agent j (.create i q), .ok peer⟩ s') (hs : s'.store = s.store) :
    Recounting s₀ id cleared s'
      ((.create user, .created (j.nodeId, peer.peerId)) ::ₘ o) := by
  refine h.keep he ?_ rfl rfl nofun (by rw [hs]) trivial
  exact (onNode_singleton id (j.nodeId, peer.peerId)).symm.trans (Nat.zero_add _).symm

theorem Recounting.increment {user : UserId} {x : NodeId × String} {r : Except StoreError Unit}
    (h : Recounting s₀ id cleared s ((.create user, .created x) ::ₘ o))
    (he : Ensues s ⟨.store (.increment x.1), r⟩ s')
    (hs : s'.store.subscriptions = s.store.subscriptions) :
    Recounting s₀ id cleared s' ((.create user, .ended) ::ₘ o) := by
  refine h.keep he ?_ rfl rfl nofun hs trivial
  refine (Nat.zero_add _).trans ((onNode_singleton id x).trans ?_)
  exact if_congr ⟨fun h => by rw [h], by rintro ⟨⟩; rfl⟩ rfl rfl

theorem Recounting.remove {sub : Subscription} {j : Client} {i : String} {x : NodeId × String}
    (h : Recounting s₀ id cleared s ((.delete sub, .resolved x) ::ₘ o))
    (he : Ensues s ⟨.agent j (.delete i x.2), .ok ()⟩ s') (hj : j.nodeId = x.1)
    (hs : s'.store = s.store) :
    Recounting s₀ id cleared s' ((.delete sub, .removed x) ::ₘ o) := by
  have hx : departure? ⟨.agent j (.delete i x.2), .ok ()⟩ = some x := by
    rw [← Prod.mk.eta (p := x), ← hj]
    rfl
  obtain ⟨hb, -⟩ : Relies s cleared (.delete sub) (.resolved x) :=
    h.relies _ (Multiset.mem_cons_self _ _)
  refine h.keep he rfl rfl rfl ?_ (by rw [hs]) ⟨?_, he.mem_departures.mpr (.inl hx)⟩
  · rintro y (hy | hy)
    · exact .inl (congrArg _ (Option.some.inj (hx.symm.trans hy)))
    · cases hy
  · rwa [Bound, hs]

theorem Recounting.write {d : UInt32} {r : Except StoreError Unit}
    (h : Recounting s₀ id cleared s ((.recount, .begun) ::ₘ o))
    (he : Ensues s ⟨.store (.setPeerCount id d), r⟩ s')
    (hs : s'.store.subscriptions = s.store.subscriptions) :
    Recounting s₀ id cleared s' ((.recount, .ended) ::ₘ o) := by
  refine h.keep he rfl ?_ rfl nofun hs trivial
  simp [overwrites, recounted?]

theorem Recounting.decrement {sub : Subscription} {n : NodeId} {r : Except StoreError Unit}
    (h : Recounting s₀ id cleared s ((.delete sub, .cleared n) ::ₘ o))
    (he : Ensues s ⟨.store (.decrement n), r⟩ s')
    (hs : s'.store.subscriptions = s.store.subscriptions) :
    Recounting s₀ id cleared s' ((.delete sub, .ended) ::ₘ o) := by
  refine h.keep he rfl rfl ?_ nofun hs trivial
  refine (Multiset.count_singleton ..).trans ?_
  exact if_congr ⟨fun h => by rw [h], by rintro ⟨⟩; rfl⟩ rfl rfl

theorem Recounting.clear {sub : Subscription} {x : NodeId × String} {r : Except StoreError Bool}
    (h : Recounting s₀ id cleared s ((.delete sub, .removed x) ::ₘ o))
    (he : Ensues s ⟨.store (.clearBindingIf sub.id x.2), r⟩ s')
    (hs : s'.store = (s.store.clearBindingIf sub.id x.2).2) :
    ∃ taken cleared', (s.store.clearBindingIf sub.id x.2).1 = .ok taken ∧
      Recounting s₀ id cleared' s'
        ((.delete sub, if taken then .cleared x.1 else .ended) ::ₘ o) := by
  obtain ⟨⟨stored, hstored, hx⟩, hdep⟩ : Relies s cleared (.delete sub) (.removed x) :=
    h.relies _ (Multiset.mem_cons_self _ _)
  rcases hx with ⟨hnone, hx⟩ | ⟨b, hb, rfl⟩
  · have hc : s.store.clearBindingIf sub.id x.2 = (.ok false, s.store) := by
      simp [Store.clearBindingIf, hstored, hnone]
    rw [hc] at hs ⊢
    refine ⟨false, cleared, rfl, h.keep he rfl rfl rfl ?_ (by rw [hs]) trivial⟩
    rintro y (⟨⟨⟩⟩ | hy)
    cases hy
    exact .inr hx
  · have hc : s.store.clearBindingIf sub.id b.peer.2 = _ := Store.clearBindingIf_of_some hstored hb
    rw [hc] at hs ⊢
    have hbound : s.store.bound = b.peer ::ₘ s'.store.bound := by
      rw [hs]
      exact Store.bound_setBinding_none hstored hb
    refine ⟨true, b.peer ::ₘ cleared, rfl,
      h.move he rfl rfl ?_ (Multiset.subset_cons _ _) ?_ ?_ ?_ ?_ trivial⟩
    · rw [hbound, Multiset.cons_add, Multiset.add_cons]
    · refine Multiset.cons_subset.mpr ⟨he.mem_departures.mpr (.inr hdep), fun y hy => ?_⟩
      exact he.mem_departures.mpr (.inr (h.departed hy))
    · have hcount : ({b.peer.1} : Multiset NodeId).count id = if b.peer.1 = id then 1 else 0 :=
        (Multiset.count_singleton ..).trans (if_congr eq_comm rfl rfl)
      exact (onNode_cons id b.peer cleared).trans (congrArg _ hcount.symm)
    · rintro y (⟨⟨⟩⟩ | hy)
      cases hy
      exact .inr (Multiset.mem_cons_self _ _)
    · intro i old hold
      rw [hs, Store.setBinding_subscription?, hold]
      split_ifs with hi
      · subst hi
        obtain rfl : stored = old := Option.some.inj (hstored.symm.trans hold)
        refine ⟨_, rfl, .inr ⟨rfl, fun b' hb' => ?_⟩⟩
        obtain rfl : b = b' := Option.some.inj (hb.symm.trans hb')
        exact Multiset.mem_cons_self _ _
      · exact ⟨old, rfl, .inl rfl⟩

end steps

section turns

variable {s₀ : State} {node n : Node} {k : Task} {γ : Stage} {sub : Subscription}

theorem recounting_turn {c : Effect} {K : c.Answer → Stage → Prop}
    (h : ∀ cleared o s a u, Recounting s₀ node.id cleared s ((k, γ) ::ₘ o) → calm.effect s c a u →
      Ensues s ⟨c, a⟩ (u.record c a) → ∃ cleared' γ',
        Recounting s₀ node.id cleared' (u.record c a) ((k, γ') ::ₘ o) ∧ K a γ') :
    ((recountingTurns s₀ node).turns calm.surroundings k).pre c K γ := by
  refine turn_of trivial fun o s a u hi he => ?_
  obtain ⟨cleared, hi⟩ := hi
  have hn := ensues_of_effect (fun _ _ _ h => h) (fun h => h) he
  obtain ⟨cleared', γ', hr, hk⟩ := h cleared o s a u hi he hn
  exact ⟨γ', ⟨cleared', hr⟩, trivial, hk⟩

theorem recounting_store {c : StoreCall} {K : c.Answer → Stage → Prop}
    (h : ∀ cleared o s s', Recounting s₀ node.id cleared s ((k, γ) ::ₘ o) →
      s'.store = (s.store.perform c).2 → Ensues s ⟨.store c, (s.store.perform c).1⟩ s' →
      ∃ cleared' γ', Recounting s₀ node.id cleared' s' ((k, γ') ::ₘ o) ∧
        K (s.store.perform c).1 γ') :
    ((recountingTurns s₀ node).turns calm.surroundings k).pre (.store c) K γ := by
  refine recounting_turn fun cleared o s a u hi he hn => ?_
  obtain ⟨rfl, rfl⟩ | ⟨_, he, -⟩ := he
  · exact h cleared o s _ hi rfl hn
  · exact he.elim

theorem passesPool_recounting : (recountingTurns s₀ node).PassesPool k γ where
  guard _ := trivial
  moves _ _ := trivial
  inv := by
    rintro s m q c a ⟨cleared, h⟩
    obtain ⟨⟨k', γ'⟩, hmem, -⟩ := Multiset.countP_pos.mp (h.once ▸ Nat.one_pos)
    obtain ⟨o, rfl⟩ := Multiset.exists_cons_of_mem hmem
    have hr : Relies s cleared k' γ' := h.relies _ hmem
    refine ⟨cleared, h.keep ensues_pool rfl ?_ ?_ ?_ rfl ?_⟩
    · exact Nat.zero_add _
    · exact (Nat.zero_add _).symm
    · rintro x (⟨⟨⟩⟩ | hx)
      exact .inl hx
    · exact hr.ensues ensues_pool (Multiset.Subset.refl _) (keeps_of_subscriptions rfl)

theorem clientFor_recounting {S : Client → Stage → Prop} {F : FleetError → Stage → Prop}
    (hS : ∀ c, c.nodeId = n.id → S c γ) :
    (clientFor n).run.wp ((recountingTurns s₀ node).turns calm.surroundings k) (Outcome S F) γ :=
  clientFor_turn_of (fun h => h) passesPool_recounting hS fun _ _ _ _ h => h.elim

theorem createClient_recounting {user : UserId} :
    (createClient user).run.wp
      ((recountingTurns s₀ node).turns calm.surroundings (.create user))
      (fun _ γ => γ = .ended) .begun := by
  rw [← outcome_eta fun _ γ => γ = Stage.ended]
  refine createClient_wp_of ?_
  rw [selectNode]
  refine wp_run_bind_of (wp_fromStore_of (recounting_store fun cleared o s s' h hs he => ?_))
  have hpass {γ' : Stage} (hγ' : γ'.fresh = 0 ∧ γ'.due = 0) :
      Recounting s₀ node.id cleared s' ((.create user, γ') ::ₘ o) :=
    h.pass he (by simp) (by simp) rfl rfl rfl (by rw [hs]; rfl) ⟨rfl, rfl, rfl, rfl⟩ hγ' rfl trivial
  change ∃ _ γ', _ ∧ Outcome _ _ (pickLeastLoaded s.store.listEligible) γ'
  cases pickLeastLoaded s.store.listEligible with
  | error e => exact ⟨cleared, .ended, hpass ⟨rfl, rfl⟩, rfl⟩
  | ok n =>
    refine ⟨cleared, .begun, hpass ⟨rfl, rfl⟩, clientFor_recounting fun c hc => ?_⟩
    refine recounting_turn fun cleared o s a u h hu he => ⟨cleared, .begun, ?_, ?_⟩
    · obtain rfl : u = s := hu
      exact h.pass he (by simp) (by simp) rfl rfl rfl rfl ⟨rfl, rfl, rfl, rfl⟩ ⟨rfl, rfl⟩ rfl
        trivial
    rw [wp_remote]
    refine recounting_turn fun cleared o s a u h hu he => ?_
    obtain ⟨peer, hp, rfl, rfl⟩ | ⟨_, hu, -⟩ := hu
    · refine ⟨cleared, _, h.create he rfl, ?_⟩
      rw [hc]
      refine recounting_store fun cleared o s s' h hs he => ⟨cleared, .ended, ?_, rfl⟩
      exact h.increment he (by rw [hs]; exact Store.setPeers_subscriptions)
    · exact hu.elim

theorem syncPeerCount_recounting :
    (syncPeerCount node).run.wp ((recountingTurns s₀ node).turns calm.surroundings .recount)
      (fun _ γ => γ = .ended) .begun := by
  rw [← outcome_eta fun _ γ => γ = Stage.ended]
  refine syncPeerCount_wp_of (clientFor_recounting fun c hc => ?_)
  rw [wp_remote]
  refine recounting_turn fun cleared o s a u h hu he => ⟨cleared, .begun, ?_⟩
  obtain ⟨rfl, infos, -, rfl⟩ | ⟨_, hu, -⟩ := hu
  · refine ⟨h.pass he (by simp) (by simp) rfl rfl rfl rfl ⟨rfl, rfl, rfl, rfl⟩ ⟨rfl, rfl⟩ rfl
      trivial, ?_⟩
    refine recounting_store fun cleared o s s' h hs he => ⟨cleared, .ended, ?_, ?_⟩
    · exact h.write he (by rw [hs]; exact Store.setPeers_subscriptions)
    · cases (s.store.perform (.setPeerCount node.id (countOf infos))).1 <;> rfl
  · exact hu.elim

theorem bindingOf_recounting {S : Binding → Stage → Prop} {F : FleetError → Stage → Prop}
    (hS : ∀ b, S b (.resolved b.peer)) (hF : ∀ e, F e .ended) :
    (bindingOf sub).run.wp ((recountingTurns s₀ node).turns calm.surroundings (.delete sub))
      (Outcome S F) .begun := by
  rw [wp_bindingOf]
  refine recounting_store fun cleared o s s' h hs he => ?_
  obtain ⟨stored, hstored, hseen⟩ : Relies s cleared (.delete sub) .begun :=
    h.relies _ (Multiset.mem_cons_self _ _)
  have hs : s'.store = s.store := hs
  change ∃ _ γ', _ ∧
    ((s.store.subscription? sub.id).getD sub).binding.elim (_ : Stage → Prop) _ γ'
  rw [hstored, Option.getD_some]
  cases hb : stored.binding with
  | none =>
    exact ⟨cleared, .ended, h.pass he (by simp) (by simp) rfl rfl rfl (by rw [hs])
      ⟨rfl, rfl, rfl, rfl⟩ ⟨rfl, rfl⟩ rfl trivial, hF _⟩
  | some b =>
    refine ⟨cleared, .resolved b.peer, h.pass he (by simp) (by simp) rfl rfl rfl (by rw [hs])
      ⟨rfl, rfl, rfl, rfl⟩ ⟨rfl, rfl⟩ rfl ⟨⟨stored, ?_, .inr ⟨b, hb, rfl⟩⟩, (hseen b hb).ensues he⟩,
      hS b⟩
    rw [hs, hstored]

theorem nodeOf_recounting {x : NodeId × String} {S : Node → Stage → Prop}
    {F : FleetError → Stage → Prop} (hS : ∀ n, n.id = x.1 → S n (.resolved x))
    (hF : ∀ e, F e .ended) :
    (nodeOf x.1).run.wp ((recountingTurns s₀ node).turns calm.surroundings (.delete sub))
      (Outcome S F) (.resolved x) := by
  rw [wp_nodeOf]
  refine recounting_store fun cleared o s s' h hs he => ?_
  have hr : Relies s cleared (.delete sub) (.resolved x) := h.relies _ (Multiset.mem_cons_self _ _)
  have hs : s'.store = s.store := hs
  have hpass {γ' : Stage} (hγ' : γ'.fresh = 0 ∧ γ'.due = 0)
      (hr : Relies s' cleared (.delete sub) γ') :
      Recounting s₀ node.id cleared s' ((.delete sub, γ') ::ₘ o) :=
    h.pass he (by simp) (by simp) rfl rfl rfl (by rw [hs]) ⟨rfl, rfl, rfl, rfl⟩ hγ' rfl hr
  change ∃ _ γ', _ ∧ (s.store.node? x.1).elim (_ : Stage → Prop) _ γ'
  cases hn : s.store.node? x.1 with
  | none => exact ⟨cleared, .ended, hpass ⟨rfl, rfl⟩ trivial, hF _⟩
  | some n =>
    refine ⟨cleared, .resolved x, hpass ⟨rfl, rfl⟩ ?_, hS n (Store.node?_id hn)⟩
    exact hr.ensues he (Multiset.Subset.refl _) (keeps_of_subscriptions (by rw [hs]))

theorem removePeer_recounting {c : Client} {x : NodeId × String} (hc : c.nodeId = x.1)
    {S : Unit → Stage → Prop} {F : FleetError → Stage → Prop} (hS : S () (.removed x)) :
    (removePeer n c x.2).run.wp
      ((recountingTurns s₀ node).turns calm.surroundings (.delete sub)) (Outcome S F)
      (.resolved x) := by
  rw [wp_removePeer]
  refine recounting_turn fun cleared o s a u h hu he => ⟨cleared, .removed x, ?_⟩
  obtain (⟨hp, rfl, rfl⟩ | ⟨hp, ⟨text, rfl⟩, rfl⟩) | ⟨_, hu, -⟩ := hu
  · exact ⟨h.remove he hc rfl, hS⟩
  · obtain ⟨hb, hseen⟩ : Relies u cleared (.delete sub) (.resolved x) :=
      h.relies _ (Multiset.mem_cons_self _ _)
    rw [hc] at hp
    have hdep : x ∈ u.departures := hseen.resolve_right hp
    exact ⟨h.pass he (by simp) (by simp) rfl rfl rfl rfl ⟨rfl, rfl, rfl, rfl⟩ ⟨rfl, rfl⟩ rfl
      ⟨hb, hdep⟩, hS⟩
  · exact hu.elim

theorem deleteClient_recounting :
    (deleteClient sub).run.wp ((recountingTurns s₀ node).turns calm.surroundings (.delete sub))
      (fun _ γ => γ = .ended) .begun := by
  rw [← outcome_eta fun _ γ => γ = Stage.ended]
  refine deleteClient_wp_of (bindingOf_recounting (fun b => ?_) fun _ => rfl)
  refine nodeOf_recounting (x := b.peer) (fun n hn => ?_) fun _ => rfl
  refine clientFor_recounting fun c hc => removePeer_recounting (x := b.peer) (hc.trans hn) ?_
  refine recounting_store fun cleared o s s' h hs he => ?_
  obtain ⟨taken, cleared', hok, h⟩ := h.clear he hs
  refine ⟨cleared', _, h, ?_⟩
  change Outcome _ _ (s.store.clearBindingIf sub.id b.peer.2).1 _
  rw [hok]
  cases taken with
  | false => rfl
  | true =>
    rw [hn]
    refine recounting_store fun cleared o s s' h hs he => ⟨cleared, .ended, ?_, rfl⟩
    exact h.decrement he (by rw [hs]; exact Store.setPeers_subscriptions)

end turns

section runs

variable {s₀ s : State} {node : Node} {ts : (recounting node).Threads}

theorem recounting_keeps : (recountingTurns s₀ node).Keeps calm.surroundings where
  begins := by
    intro M s k hM ha
    obtain ⟨cleared, h⟩ := hM.inv
    have hk : k.recounts = false ∧ recounted? (k, .begun) = false := by
      cases k with
      | recount => exact ha.elim
      | create | delete => exact ⟨rfl, rfl⟩
    refine ⟨cleared, h.chronicled, ?_, ?_, ?_, h.bound, h.departed, ?_, fun x hx => ?_, ?_⟩
    · simpa [recountingTurns] using h.arrived
    · simpa [recountingTurns, hk.2] using h.written
    · simpa [recountingTurns, hk.1] using h.once
    · simpa [recountingTurns] using h.due
    · exact (h.pending x hx).imp_right <|
        Exists.imp fun _ hy => ⟨Multiset.mem_cons_of_mem hy.1, hy.2⟩
    · refine Multiset.forall_mem_cons.mpr ⟨?_, h.relies⟩
      cases k with
      | create | recount => trivial
      | delete sub =>
        obtain ⟨stored, b, hs, hb, hl⟩ := ha
        refine ⟨stored, hs, fun b' hb' => .inr ?_⟩
        obtain rfl : b = b' := Option.some.inj (hb.symm.trans hb')
        exact hl
  follows k := by
    cases k with
    | create user => exact wp_mono (fun _ _ h => ⟨h, trivial⟩) createClient_recounting
    | delete sub => exact wp_mono (fun _ _ h => ⟨h, trivial⟩) deleteClient_recounting
    | recount => exact wp_mono (fun _ _ h => ⟨h, trivial⟩) syncPeerCount_recounting

theorem exists_split_of_countP {α : Type} {p : α → Bool} {l : List α} (h : l.countP p = 1) :
    ∃ x later earlier, l = later ++ x :: earlier ∧ p x ∧ (∀ y ∈ later, ¬ p y) ∧
      ∀ y ∈ earlier, ¬ p y := by
  obtain ⟨x, hx, hp⟩ := List.countP_pos_iff.mp (h ▸ Nat.one_pos)
  obtain ⟨later, earlier, rfl⟩ := List.append_of_mem hx
  rw [List.countP_append, List.countP_cons_of_pos hp] at h
  exact ⟨x, later, earlier, rfl, hp, List.countP_eq_zero.mp (by omega),
    List.countP_eq_zero.mp (by omega)⟩

theorem recounting_start (hh : s₀.history = []) : (recountingTurns s₀ node).Staged
    calm.surroundings {(Task.recount.thread node, .begun)} s₀ := by
  refine ⟨⟨0, chronicled_of_nil hh, ?_, ?_, rfl, (add_zero _).symm, ?_, ?_, ?_, ?_⟩, ?_⟩
  · simp [State.arrivals, hh, Discipline.stages]
  · rw [hh]
    rfl
  · exact Multiset.zero_subset _
  · simp [hh, Discipline.stages]
  · simp [State.departures, hh]
  · simp [Discipline.stages, Relies, Task.thread]
  · exact fun x hx => by
      obtain rfl := Multiset.mem_singleton.mp hx
      exact recounting_keeps.follows .recount

/-- A counter that was right is right again when all calls are done exactly if what the recount
wrote over it is what it was by then, up to the calls that it could not follow and, where a peer
was bound twice, the places that were freed for no peer. -/
theorem counter_right_iff {c₀ : UInt32} (hc : s₀.counter? node.id = some c₀)
    (hl : c₀.toNat = s₀.liveOn node.id) (hh : s₀.history = [])
    (hr : (recounting node).Reaches calm.surroundings ({Task.recount.thread node}, s₀) (ts, s))
    (hd : ∀ t ∈ ts, t.rest.next? = none) :
    ∃ c d r later earlier, s.counter? node.id = some c ∧
      s.history = later ++ ⟨.store (.setPeerCount node.id d), r⟩ :: earlier ∧
      (c.toNat = s.liveOn node.id ↔
        (counterAfter node.id c₀ earlier).toNat +
            idle node.id c₀ (.store (.increment node.id)) s.history +
            calls (.store (.decrement node.id)) s.history =
          d.toNat + idle node.id c₀ (.store (.decrement node.id)) s.history +
            onNode node.id s.departures) ∧
      (s₀.store.bound.Nodup →
        calls (.store (.decrement node.id)) s.history = onNode node.id s.departures) := by
  obtain ⟨M, rfl, hM⟩ := (recounting_start hh).reaches recounting_keeps hr
  obtain ⟨cleared, h⟩ := hM.inv
  have hended : ∀ x ∈ Discipline.stages M, x.2 = .ended := by
    intro y hy
    obtain ⟨x, hx, rfl⟩ := Multiset.mem_map.mp hy
    exact (hM.follows x hx).final (hd _ (Multiset.mem_map_of_mem Prod.fst hx))
  have hzero {α : Type} {f : Stage → Multiset α} (hf : f .ended = 0) :
      (Discipline.stages M).bind (fun x => f x.2) = 0 := by
    refine Multiset.eq_zero_of_forall_notMem fun y hy => ?_
    obtain ⟨x, hx, hyx⟩ := Multiset.mem_bind.mp hy
    rw [hended x hx, hf] at hyx
    exact Multiset.notMem_zero y hyx
  have hwritten : s.history.countP (overwrites node.id ·.1) = 1 := by
    rw [h.written, ← h.once]
    refine Multiset.countP_congr rfl fun x hx => ?_
    obtain ⟨k, γ⟩ := x
    obtain rfl : γ = .ended := hended _ hx
    cases k <;> rfl
  obtain ⟨⟨e, r⟩, later, earlier, hsplit, he, hlater, hearlier⟩ := exists_split_of_countP hwritten
  obtain ⟨d, rfl⟩ := exists_of_overwrites he
  have hcounter := h.chronicled.counter node.id
  rw [hc] at hcounter
  have harrived := h.arrived
  have hdue := h.due
  rw [hzero rfl] at harrived hdue
  refine ⟨counterAfter node.id c₀ s.history, d, r, later, earlier, hcounter, hsplit, ?_,
    fun hnd => ?_⟩
  · have hlive := h.chronicled.live node.id
    have hb := counterAfter_overwrite c₀ (x := ⟨_, r⟩) (d := d) rfl hlater hearlier
    rw [← hsplit] at hb
    simp only [onNode_zero] at harrived
    omega
  · have hnd' : cleared.Nodup := by
      rw [h.bound] at hnd
      exact (Multiset.nodup_add.mp hnd).2.1
    have heq : cleared = s.departures := by
      refine (Multiset.Nodup.ext hnd' h.chronicled.nodup).mpr fun x => ⟨fun hx => h.departed hx, ?_⟩
      intro hx
      rcases h.pending x hx with hx | ⟨y, hy, hyx⟩
      · exact hx
      · rw [hended y hy] at hyx
        cases hyx
    rw [← heq, hdue]
    rfl

theorem admits_owner : (recounting fullNode).admits {Task.recount.thread fullNode} .full
    (.delete owner) :=
  ⟨_, _, rfl, rfl, mem_full⟩

theorem lists_rest : Lists [{ peerId := "q", enabled := true }]
    ((State.full.removePeer 1 "p").agents 1) :=
  rfl

theorem exists_earlier_removal : (recounting fullNode).Can calm.surroundings
    (Task.recount.thread fullNode ::ₘ 0, .full) fun x => (∀ t ∈ x.1, t.rest.next? = none) ∧
      x.2.counter? 1 = some 1 ∧ x.2.liveOn 1 = 1 := by
  refine .start (k := .delete owner) admits_owner ?_
  refine .call ⟨_, .inl ⟨rfl, rfl⟩, rfl⟩ ?_
  refine .call ⟨_, .inl ⟨rfl, rfl⟩, rfl⟩ ?_
  refine .call ⟨_, ⟨.ok (), nofun, rfl, rfl⟩, rfl⟩ ?_
  refine .call ⟨_, ⟨.ok (), nofun, rfl, rfl⟩, rfl⟩ (.note ?_)
  refine .call (a := .ok ()) ⟨_, .inl (.inl ⟨mem_full, rfl, rfl⟩), rfl⟩ ?_
  refine .call ⟨_, .inl ⟨rfl, rfl⟩, rfl⟩ ?_
  refine .call ⟨_, .inl ⟨rfl, rfl⟩, rfl⟩ (.note (.swap ?_))
  refine .call ⟨_, ⟨.ok (), nofun, rfl, rfl⟩, rfl⟩ ?_
  refine .call ⟨_, .inl ⟨rfl, _, lists_rest, rfl⟩, rfl⟩ (.note ?_)
  refine .call ⟨_, .inl ⟨rfl, rfl⟩, rfl⟩ (.here ⟨?_, ?_, ?_⟩)
  · exact Workload.forall_mem_pair rfl rfl
  · decide
  · rfl

theorem counter_right_of_earlier_removal : ∃ (s : State) (ts : (recounting fullNode).Threads)
    (c₀ : UInt32), State.full.counter? fullNode.id = some c₀ ∧
    c₀.toNat = State.full.liveOn fullNode.id ∧ State.full.history = [] ∧
    (recounting fullNode).Reaches calm.surroundings
      ({Task.recount.thread fullNode}, .full) (ts, s) ∧
    (∀ t ∈ ts, t.rest.next? = none) ∧
    ∃ c d r later earlier, s.counter? fullNode.id = some c ∧ c.toNat = s.liveOn fullNode.id ∧
      s.history = later ++ ⟨.store (.setPeerCount fullNode.id d), r⟩ :: earlier ∧
      (counterAfter fullNode.id c₀ earlier).toNat +
          idle fullNode.id c₀ (.store (.increment fullNode.id)) s.history +
          calls (.store (.decrement fullNode.id)) s.history =
        d.toNat + idle fullNode.id c₀ (.store (.decrement fullNode.id)) s.history +
          onNode fullNode.id s.departures := by
  obtain ⟨⟨ts, s⟩, hr, hd, hc, hl⟩ := exists_earlier_removal
  have hc : s.counter? fullNode.id = some 1 := hc
  have hl : s.liveOn fullNode.id = 1 := hl
  have hfull : State.full.counter? fullNode.id = some 2 := rfl
  obtain ⟨c, d, r, later, earlier, hc', hs, hiff, -⟩ := counter_right_iff hfull rfl rfl hr hd
  obtain rfl : 1 = c := Option.some.inj (hc.symm.trans hc')
  have hright : (1 : UInt32).toNat = s.liveOn fullNode.id := hl.symm
  exact ⟨s, ts, 2, rfl, rfl, rfl, hr, hd, 1, d, r, later, earlier, hc, hright, hs, hiff.mp hright⟩

/-- A peer is removed, the agent lists the one that is left, and the counter is told so. Then the
place of the first is freed, and the counter says that the node is empty. -/
theorem exists_counter_wrong : ∃ s c₀ c, State.full.counter? fullNode.id = some c₀ ∧
    c₀.toNat = State.full.liveOn fullNode.id ∧ State.full.history = [] ∧
    State.full.store.bound.Nodup ∧
    (recounting fullNode).Reaches calm.surroundings ({Task.recount.thread fullNode}, .full)
      ({⟨.delete owner, .done (.ok ())⟩, ⟨.recount, .done (.ok 1)⟩}, s) ∧
    s.counter? fullNode.id = some c ∧ c.toNat ≠ s.liveOn fullNode.id := by
  have hrun : (recounting fullNode).Can calm.surroundings
      (Task.recount.thread fullNode ::ₘ 0, .full) fun x =>
        x.1 = {⟨.delete owner, .done (.ok ())⟩, ⟨.recount, .done (.ok 1)⟩} ∧
          x.2.counter? 1 = some 0 ∧ x.2.liveOn 1 = 1 := by
    refine .start (k := .delete owner) admits_owner ?_
    refine .call ⟨_, .inl ⟨rfl, rfl⟩, rfl⟩ ?_
    refine .call ⟨_, .inl ⟨rfl, rfl⟩, rfl⟩ ?_
    refine .call ⟨_, ⟨.ok (), nofun, rfl, rfl⟩, rfl⟩ ?_
    refine .call ⟨_, ⟨.ok (), nofun, rfl, rfl⟩, rfl⟩ (.note ?_)
    refine .call (a := .ok ()) ⟨_, .inl (.inl ⟨mem_full, rfl, rfl⟩), rfl⟩ (.swap ?_)
    refine .call ⟨_, ⟨.ok (), nofun, rfl, rfl⟩, rfl⟩ ?_
    refine .call ⟨_, .inl ⟨rfl, _, lists_rest, rfl⟩, rfl⟩ (.note ?_)
    refine .call ⟨_, .inl ⟨rfl, rfl⟩, rfl⟩ (.swap ?_)
    refine .call ⟨_, .inl ⟨rfl, rfl⟩, rfl⟩ ?_
    refine .call ⟨_, .inl ⟨rfl, rfl⟩, rfl⟩ (.note (.here ⟨?_, ?_, ?_⟩))
    · have hcount : countOf [{ peerId := "q", enabled := true }] = 1 := by decide
      rw [← hcount]
      rfl
    · decide
    · rfl
  obtain ⟨⟨_, s⟩, hr, rfl, hc, hl⟩ := hrun
  have hl : s.liveOn fullNode.id = 1 := hl
  refine ⟨s, 2, 0, rfl, rfl, rfl, tallied_full.distinct, hr, hc, ?_⟩
  rw [hl]
  decide

end runs

end PeerFleet.Fleet
