import PeerFleet.Proofs.Fleet.Atomicity

/-! # Removals that are tried again

A caller tries again and again to remove the peer of a subscription. An agent may fail and
leave the peer, or remove it and fail to say so. Up to the first attempt that succeeds the
store is as it was; that attempt takes the binding away and frees one place; and all later
attempts find nothing to do.
-/

namespace PeerFleet.Fleet

open Program

def lost (s : State) : (c : Effect) → c.Answer → State → Prop
  | .agent k (.delete _ p), a, s' => p ∈ s.agents k.nodeId ∧
      (∃ cause, a = .error (.transport .deletePeer cause)) ∧ s' = s.removePeer k.nodeId p
  | _, _, _ => False

/-- Agents may fail at any time, and the answer to a removal may be lost. -/
def lossy : Environment Effects State := fun c s a s' =>
  ∃ u, (remoteTroubles.effect s c a u ∨ lost s c a u) ∧ s' = u.record c a

/-- Attempts in a row to remove the peer of a subscription, nothing else happening in between:
the result of each and the state after it. -/
inductive Retries (id : SubscriptionId) : State → List (Except FleetError Unit × State) → Prop
  | nil (s : State) : Retries id s []
  | cons {sub : Subscription} {s s' : State} {r : Except FleetError Unit}
      {log : List (Except FleetError Unit × State)} :
      sub.id = id → Runs lossy (deleteClient sub).run s r s' → Retries id s' log →
      Retries id s ((r, s') :: log)

section attempt

variable {s : State} {sub : Subscription} {id : SubscriptionId} {b : Binding}

theorem pre_store_lossy {c : StoreCall} {K : c.Answer → State → Prop}
    (h : ∀ u, (s.setStore (s.store.perform c).2).Quiet u → K (s.store.perform c).1 u) :
    lossy.logic.pre (.store c) K s := by
  intro a s' he
  obtain ⟨u, (⟨rfl, rfl⟩ | ⟨e, he, -⟩) | he, rfl⟩ := he
  · exact h _ ((State.Quiet.refl _).record _ _)
  · exact he.elim
  · exact he.elim

theorem clientFor_lossy {n : Node} {S : Client → State → Prop} {F : FleetError → State → Prop}
    (hS : ∀ k u, s.Quiet u → S k u) (hF : ∀ e u, s.Quiet u → F e u) :
    (clientFor n).run.wp lossy.logic (Outcome S F) s := by
  refine clientFor_wp_of (C := remoteTroubles) ?_ (fun k u hu _ _ => hS k u hu)
    fun e u _ hu => hF _ u hu
  intro c s a s' he
  obtain ⟨u, he | he, rfl⟩ := he
  · exact ⟨u, he, rfl⟩
  · exact he.elim

theorem removePeer_lossy {n : Node} {k : Client} {p : String} {S : Unit → State → Prop}
    {F : FleetError → State → Prop} (hS : ∀ u, u.store = s.store → S () u)
    (hF : ∀ e u, u.store = s.store → F e u) :
    (removePeer n k p).run.wp lossy.logic (Outcome S F) s := by
  rw [wp_removePeer]
  intro a s' he
  have hs : s'.store = s.store := by
    obtain ⟨u, ((⟨-, -, rfl⟩ | ⟨-, -, rfl⟩) | ⟨e, -, -, rfl⟩) | ⟨-, -, rfl⟩, rfl⟩ := he
    · rfl
    · rfl
    · rfl
    · rfl
  rcases a with e | _
  · rw [outcome_error]
    split_ifs
    · exact hS s' hs
    · exact hF _ s' hs
  · exact hS s' hs

theorem deleteClient_of_placed (hid : sub.id = id) (hp : s.store.Placed id b) :
    (deleteClient sub).run.wp lossy.logic
      (Outcome (fun _ u => u.store = s.store.release id b.nodeId) fun _ u => u.store = s.store)
      s := by
  subst hid
  obtain ⟨stored, hs, hb⟩ := hp.bound
  obtain ⟨n, hn⟩ := Option.isSome_iff_exists.mp hp.registered
  refine deleteClient_wp_of ?_
  rw [wp_bindingOf]
  refine pre_store_lossy fun t ht => ?_
  change ((s.store.subscription? sub.id).getD sub).binding.elim (_ : State → Prop) _ t
  rw [hs, Option.getD_some, hb]
  change (nodeOf b.nodeId).run.wp _ _ t
  rw [wp_nodeOf]
  refine pre_store_lossy fun u hu => ?_
  have htu : u.store = s.store := hu.store.trans ht.store
  change (t.store.node? b.nodeId).elim (_ : State → Prop) _ u
  rw [show t.store = s.store from ht.store, hn]
  refine clientFor_lossy (fun k v hv => ?_) fun e v hv => hv.store.trans htu
  have hv := hv.store.trans htu
  refine removePeer_lossy (fun w hw => ?_) fun e w hw => hw.trans hv
  refine pre_store_lossy fun x hx => ?_
  have hw := hw.trans hv
  have hc := Store.clearBindingIf_of_some hs hb
  change Outcome _ _ (w.store.clearBindingIf sub.id b.peerId).1 x
  have hx : x.store = (w.store.clearBindingIf sub.id b.peerId).2 := hx.store
  rw [hw, hc] at hx ⊢
  rw [outcome_ok, if_pos rfl]
  refine pre_store_lossy fun y hy => ?_
  change y.store = ((s.store.setBinding sub.id none).2.setPeers b.nodeId Store.decreased).2
  rw [← Store.node?_id hn, ← hx]
  exact hy.store

theorem deleteClient_of_vacant (hid : sub.id = id) (hv : Vacant s id) :
    (deleteClient sub).run.wp lossy.logic
      (fun r u => r = .error (.bindingMissing id) ∧ s.Unchanged u) s := by
  subst hid
  obtain ⟨stored, hs, hb⟩ := hv
  rw [← outcome_eta fun r u => r = Except.error (FleetError.bindingMissing sub.id) ∧ s.Unchanged u]
  refine deleteClient_wp_of ?_
  rw [wp_bindingOf]
  refine pre_store_lossy fun u hu => ?_
  change ((s.store.subscription? sub.id).getD sub).binding.elim (_ : State → Prop) _ u
  rw [hs, Option.getD_some, hb]
  exact ⟨rfl, hu.store, hu.agents⟩

end attempt

section attempts

variable {s : State} {id : SubscriptionId} {b : Binding}
  {log : List (Except FleetError Unit × State)}

theorem vacant_of_release {n : NodeId} {t : Store} (hp : t.Placed id b)
    (hs : s.store = t.release id n) : Vacant s id := by
  obtain ⟨sub, hsub, -⟩ := hp.bound
  refine ⟨{ sub with binding := none }, ?_, rfl⟩
  rw [hs, Store.release_subscription?, if_pos rfl, hsub]
  rfl

theorem retries_of_vacant (hr : Retries id s log) (hv : Vacant s id) :
    ∀ x ∈ log, x.1 = .error (.bindingMissing id) ∧ s.Unchanged x.2 := by
  induction hr with
  | nil => exact List.forall_mem_nil _
  | cons hid hrun _ ih =>
    obtain ⟨hr, hu⟩ := hrun.of_wp (deleteClient_of_vacant hid hv)
    rw [List.forall_mem_cons]
    refine ⟨⟨hr, hu⟩, fun x hx => ?_⟩
    obtain ⟨hx, hxu⟩ := ih (by rwa [Vacant, hu.1]) x hx
    exact ⟨hx, hxu.1.trans hu.1, hxu.2.trans hu.2⟩

/-- Either no attempt succeeds and the store stays as it was, or exactly one does. That one
takes the binding away and frees one place, before it the store is as it was, and after it
every attempt finds no binding and changes nothing. -/
theorem retries_release_once (hp : s.store.Placed id b) (hr : Retries id s log) :
    (∀ x ∈ log, x.1 ≠ .ok () ∧ x.2.store = s.store) ∨
    ∃ before t after, log = before ++ (.ok (), t) :: after ∧
      (∀ x ∈ before, x.1 ≠ .ok () ∧ x.2.store = s.store) ∧
      t.store = s.store.release id b.nodeId ∧
      ∀ x ∈ after, x.1 = .error (.bindingMissing id) ∧ t.Unchanged x.2 := by
  induction hr with
  | nil => exact .inl (List.forall_mem_nil _)
  | @cons sub s s' r log hid hrun hrest ih =>
    have hq := hrun.of_wp (deleteClient_of_placed hid hp)
    rcases r with e | _
    · have hs : s'.store = s.store := hq
      rw [← hs] at hp ⊢
      rcases ih hp with hall | ⟨before, t, after, rfl, hbefore, ht, hafter⟩
      · exact .inl (List.forall_mem_cons.mpr ⟨⟨nofun, rfl⟩, hall⟩)
      · refine .inr ⟨(.error e, s') :: before, t, after, rfl, ?_, ht, hafter⟩
        exact List.forall_mem_cons.mpr ⟨⟨nofun, rfl⟩, hbefore⟩
    · have ht : s'.store = s.store.release id b.nodeId := hq
      exact .inr ⟨[], s', log, rfl, List.forall_mem_nil _, ht,
        retries_of_vacant hrest (vacant_of_release hp ht)⟩

theorem exists_retries : ∃ s t u : State, Retries 1 .serving
    [(.error (.remoteCall 1 .deletePeer (.transport .deletePeer "timeout")), s), (.ok (), t),
      (.error (.bindingMissing 1), u)] := by
  let sub : Subscription := { id := 1, userId := 10, tariff := "month", expiresAt := .epoch }
  have hp : "p" ∈ State.serving.agents 1 := State.mem_addPeer_iff (x := (1, "p")).mpr (.inl rfl)
  have hgone : "p" ∉ (State.serving.removePeer 1 "p").agents 1 := fun h =>
    (State.mem_removePeer_iff (x := (1, "p")).mp h).1 rfl
  have hthree : Can lossy (deleteClient sub).run (fun r s =>
      r = .error (.remoteCall 1 .deletePeer (.transport .deletePeer "timeout")) ∧
      Can lossy (deleteClient sub).run (fun r t => r = .ok () ∧
        Can lossy (deleteClient sub).run (fun r _ => r = .error (.bindingMissing 1)) t) s)
      .serving := by
    refine .call ⟨_, .inl (.inl ⟨rfl, rfl⟩), rfl⟩ ?_
    refine .call ⟨_, .inl (.inl ⟨rfl, rfl⟩), rfl⟩ ?_
    refine .call ⟨_, .inl ⟨.ok (), nofun, rfl, rfl⟩, rfl⟩ ?_
    refine .call ⟨_, .inl ⟨.ok (), nofun, rfl, rfl⟩, rfl⟩ (.note ?_)
    refine .call (a := Except.error (AgentError.transport .deletePeer "timeout"))
      ⟨_, .inr ⟨hp, ⟨_, rfl⟩, rfl⟩, rfl⟩ (.done ⟨rfl, ?_⟩)
    refine .call ⟨_, .inl (.inl ⟨rfl, rfl⟩), rfl⟩ ?_
    refine .call ⟨_, .inl (.inl ⟨rfl, rfl⟩), rfl⟩ ?_
    refine .call ⟨_, .inl ⟨.ok (), nofun, rfl, rfl⟩, rfl⟩ ?_
    refine .call (a := Except.error (AgentError.status .deletePeer 404 ""))
      ⟨_, .inl (.inl (.inr ⟨hgone, ⟨_, rfl⟩, rfl⟩)), rfl⟩ (.note ?_)
    refine .call ⟨_, .inl (.inl ⟨rfl, rfl⟩), rfl⟩ ?_
    refine .call ⟨_, .inl (.inl ⟨rfl, rfl⟩), rfl⟩ (.note (.done ⟨rfl, ?_⟩))
    exact .call ⟨_, .inl (.inl ⟨rfl, rfl⟩), rfl⟩ (.done rfl)
  obtain ⟨_, s, hs, rfl, _, t, ht, rfl, _, u, hu, rfl⟩ := hthree
  exact ⟨s, t, u, .cons rfl hs (.cons rfl ht (.cons rfl hu (.nil u)))⟩

theorem release_once_of_retries : ∃ (s t u : State) (b : Binding),
    State.serving.store.Placed 1 b ∧
    Retries 1 .serving
      [(.error (.remoteCall 1 .deletePeer (.transport .deletePeer "timeout")), s), (.ok (), t),
        (.error (.bindingMissing 1), u)] ∧
    s.store = State.serving.store ∧ t.store = State.serving.store.release 1 b.nodeId ∧
    t.Unchanged u := by
  obtain ⟨s, t, u, hr⟩ := exists_retries
  let b : Binding := ⟨1, "p", ⟨"", "", "10.8.0.2"⟩⟩
  have hp : State.serving.store.Placed 1 b := ⟨⟨_, rfl, rfl⟩, rfl⟩
  refine ⟨s, t, u, b, hp, hr, ?_⟩
  rcases retries_release_once hp hr with hall | ⟨before, t', after, hlog, hbefore, ht, hafter⟩
  · exact absurd rfl (hall (.ok (), t) (by simp)).1
  · rcases before with _ | ⟨x, _ | ⟨y, before⟩⟩
    · cases hlog
    · simp only [List.cons_append, List.nil_append, List.cons.injEq, Prod.mk.injEq] at hlog
      obtain ⟨rfl, ⟨-, rfl⟩, rfl⟩ := hlog
      exact ⟨(hbefore _ List.mem_cons_self).2, ht, (hafter _ List.mem_cons_self).2⟩
    · simp only [List.cons_append, List.cons.injEq] at hlog
      obtain ⟨-, rfl, -⟩ := hlog
      exact absurd rfl (hbefore (.ok (), t) (by simp)).1

end attempts

end PeerFleet.Fleet
