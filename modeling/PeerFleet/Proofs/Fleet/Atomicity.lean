import PeerFleet.Proofs.Fleet.Operations

/-! # Operations that fail

An operation of the fleet that fails leaves every counter, every subscription and every peer
as they were, with one exception: the removal of a peer for a subscription that is not stored
removes the peer that the caller's copy names, and only then finds that there is no binding
to take away.
-/

namespace PeerFleet.Fleet

open Program

/-- The store does not fail; channels and agents may fail at any time. -/
def remoteTroubles : Conditions where
  storeFault _ _ _ := False
  connectFault _ _ _ := True
  agentFault _ _ _ _ := True
  issues _ _ _ := True

theorem remoteTroubles_faultsOnSave : remoteTroubles.FaultsOnSave := fun _ _ _ h => h.elim

inductive Request where
  | create (user : UserId)
  | disable (sub : Subscription)
  | enable (sub : Subscription)
  | delete (sub : Subscription)
  | discard (b : Binding)
  | recount (n : Node)

def Request.Result : Request → Type
  | .create _ => Binding
  | .disable _ | .enable _ | .delete _ | .discard _ => Unit
  | .recount _ => UInt32

def Request.program : (r : Request) → Attempt r.Result
  | .create user => createClient user
  | .disable sub => disableClient sub
  | .enable sub => enableClient sub
  | .delete sub => deleteClient sub
  | .discard b => discardBinding b
  | .recount n => syncPeerCount n

/-- The counters, the subscriptions and the peers are as they were. -/
def State.Unchanged (s s' : State) : Prop :=
  s'.store = s.store ∧ s'.agents = s.agents

/-- A removal for a subscription that is not stored, where the caller's copy names a peer that
exists on a registered node. -/
def Lossy : Request → State → Prop
  | .delete sub, s => s.store.subscription? sub.id = none ∧
      ∃ b, sub.binding = some b ∧ s.Live b.peer
  | _, _ => False

variable {s u : State}

theorem State.Quiet.unchanged (h : s.Quiet u) : s.Unchanged u :=
  ⟨h.store, h.agents⟩

abbrev Atomic (s : State) {α : Type} : Except FleetError α → State → Prop :=
  Outcome (fun _ _ => True) fun _ => s.Unchanged

theorem atomic_of_not_lossy {r : Request} (h : ¬ Lossy r s) :
    r.program.run.wp remoteTroubles.logic (Atomic s) s := by
  have hC := remoteTroubles_faultsOnSave
  cases r with
  | create user =>
    exact createClient_wp hC (fun _ _ _ _ _ _ _ _ _ _ _ => trivial) fun _ _ hu => hu.unchanged
  | disable sub => exact disableClient_wp hC (fun _ _ _ _ => trivial) fun _ _ hu => hu.unchanged
  | enable sub => exact enableClient_wp hC (fun _ _ _ _ => trivial) fun _ _ hu => hu.unchanged
  | delete sub =>
    refine deleteClient_wp hC (fun _ _ _ _ _ _ _ _ _ _ => trivial)
      (fun b n t u v hs hb hn ht hu hv => ?_) fun _ _ hu => hu.unchanged
    have hp : b.peerId ∉ s.agents b.nodeId := fun hp =>
      h ⟨hs, b, hb, by simp [Binding.peer, hn], hp⟩
    rw [← ht.agents] at hp
    rcases hu with rfl | ⟨rfl, -⟩
    · have hagents := (State.removePeer_of_notMem hp).agents.symm
      exact ⟨hv.store.trans ht.store, hv.agents.trans (hagents.trans ht.agents)⟩
    · exact (ht.trans hv).unchanged
  | discard b =>
    exact discardBinding_wp hC (fun _ _ _ _ _ _ _ _ => trivial) (fun _ _ hu => hu.unchanged)
      (fun _ _ _ hu => hu.unchanged) fun _ _ _ _ _ ht _ hu => (ht.trans hu).unchanged
  | recount n => exact syncPeerCount_wp hC (fun _ _ _ _ => trivial) fun _ _ hu => hu.unchanged

theorem clientFor_chance {C : Conditions} {n : Node} {S : Client → State → Prop}
    {F : FleetError → State → Prop} (h : ∀ k u, s.Quiet u → k.nodeId = n.id → S k u) :
    (clientFor n).run.wp C.surroundings.chance (Outcome S F) s := by
  rw [wp_clientFor]
  refine ⟨_, _, ⟨_, ⟨.ok (), nofun, rfl, rfl⟩, rfl⟩, ?_⟩
  change (s.pool.client? n.id).elim (_ : State → Prop) _ _
  cases hk : s.pool.client? n.id with
  | some k => exact h k _ ((State.Quiet.refl s).record _ _) (nodeId_of_client? hk)
  | none =>
    have he : (s.pool.establish n (.ok ())).1 = .ok ((s.pool.add n.id).1, true) := by
      simp [Pool.establish, hk]
    refine ⟨_, _, ⟨_, ⟨.ok (), nofun, rfl, rfl⟩, rfl⟩, ?_⟩
    change Outcome _ _ (s.pool.establish n (.ok ())).1 _
    rw [he]
    exact h _ _ quiet_establish rfl

theorem exists_loss {sub : Subscription} {b : Binding} (hs : s.store.subscription? sub.id = none)
    (hb : sub.binding = some b) (hl : s.Live b.peer) :
    Can remoteTroubles.surroundings (deleteClient sub).run
      (Outcome (fun _ _ => False) fun e s' => e = .store (.subscriptionNotFound sub.id) ∧
        s'.store = s.store ∧ s'.agents = (s.removePeer b.nodeId b.peerId).agents) s := by
  obtain ⟨n, hn⟩ := Option.isSome_iff_exists.mp hl.1
  refine .of_wp ?_
  rw [deleteClient]
  refine wp_run_bind_of ?_
  rw [resolve]
  refine wp_run_bind_of ?_
  rw [wp_bindingOf]
  refine ⟨.ok none, _, ⟨_, .inl ⟨congrArg Except.ok hs.symm, rfl⟩, rfl⟩, ?_⟩
  change sub.binding.elim (_ : State → Prop) _ _
  rw [hb]
  refine wp_run_bind_of ?_
  rw [wp_nodeOf]
  refine ⟨.ok (some n), _, ⟨_, .inl ⟨congrArg Except.ok hn.symm, rfl⟩, rfl⟩, ?_⟩
  refine wp_run_bind_of (clientFor_chance fun k u hu hk => ?_)
  refine wp_run_bind_of ?_
  rw [wp_removePeer]
  refine ⟨.ok (), _, ⟨_, .inl (.inl ⟨?_, rfl, rfl⟩), rfl⟩, ?_⟩
  · rw [hk, hu.agents, Store.node?_id hn]
    exact hl.2
  have hnone : u.store.clearBindingIf sub.id b.peerId =
      (.error (.subscriptionNotFound sub.id), u.store) :=
    Store.clearBindingIf_of_none (hu.store ▸ hs)
  refine wp_run_bind_of (wp_fromStore_of ?_)
  refine ⟨_, _, ⟨_, .inl ⟨(congrArg Prod.fst hnone).symm, rfl⟩, rfl⟩, rfl, ?_, ?_⟩
  · exact (congrArg Prod.snd hnone).trans hu.store
  · change (u.removePeer k.nodeId b.peerId).agents = _
    rw [hk, Store.node?_id hn]
    exact hu.removePeer.agents

/-- Failing leaves everything as it was, exactly unless a peer can be lost. -/
theorem unchanged_of_failure_iff (r : Request) (s : State) :
    (∀ e s', Runs remoteTroubles.surroundings r.program.run s (.error e) s' → s.Unchanged s') ↔
      ¬ Lossy r s := by
  constructor
  · intro h hl
    cases r with
    | delete sub =>
      obtain ⟨hs, b, hb, hlive⟩ := hl
      obtain ⟨res, s', hr, hq⟩ := exists_loss hs hb hlive
      rcases res with e | _
      · obtain ⟨-, -, hagents⟩ := hq
        have hp : b.peerId ∈ (s.removePeer b.nodeId b.peerId).agents b.nodeId := by
          rw [← hagents, (h e s' hr).2]
          exact hlive.2
        exact (State.mem_removePeer_iff.mp hp).1 rfl
      · exact hq
    | create => exact hl
    | disable => exact hl
    | enable => exact hl
    | discard => exact hl
    | recount => exact hl
  · intro h e s' hr
    exact hr.of_wp (atomic_of_not_lossy h)

/-- The removal of a peer for a subscription that the store does not know fails after the
peer is gone, and its place stays taken. -/
theorem failure_loses_peer : ∃ s' : State,
    Runs remoteTroubles.surroundings
      (deleteClient { id := 7, userId := 70, tariff := "month", expiresAt := .epoch,
                      binding := some ⟨1, "p", ⟨"", "", "10.8.0.2"⟩⟩ }).run
      ((State.founding { Node.create 1 "node-1" "10.0.0.1:7443" 10 with currentPeers := 1 }).addPeer
        1 "p")
      (.error (.store (.subscriptionNotFound 7))) s' ∧
    "p" ∉ s'.agents 1 ∧ (s'.store.node? 1).map Node.currentPeers = some 1 := by
  let s : State := (State.founding
    { Node.create 1 "node-1" "10.0.0.1:7443" 10 with currentPeers := 1 }).addPeer 1 "p"
  have hl : s.Live (1, "p") := ⟨rfl, State.mem_addPeer_iff.mpr (.inl rfl)⟩
  let sub : Subscription := { id := 7, userId := 70, tariff := "month", expiresAt := .epoch,
                              binding := some ⟨1, "p", ⟨"", "", "10.8.0.2"⟩⟩ }
  have hs : s.store.subscription? sub.id = none := rfl
  obtain ⟨res, s', hr, hq⟩ := exists_loss hs rfl hl
  rcases res with e | _
  · obtain ⟨rfl, hstore, hagents⟩ := hq
    refine ⟨s', hr, ?_, ?_⟩
    · rw [hagents]
      exact fun hp => (State.mem_removePeer_iff (x := (1, "p")).mp hp).1 rfl
    · rw [hstore]
      rfl
  · exact hq.elim

end PeerFleet.Fleet
