import PeerFleet.Proofs.Fleet.Shape
import PeerFleet.Proofs.Fleet.State

/-! # Operations that run alone

What each operation of the fleet may come to when nothing else runs meanwhile. Most calls
leave the store and the agents as they are; what an operation does to them is given as an
explicit state, up to such calls.
-/

namespace PeerFleet.Fleet

open Program

/-- The logic of programs that run alone under the conditions. -/
abbrev Conditions.logic (C : Conditions) : CallLogic Effects State :=
  C.surroundings.logic

namespace State

/-- Nothing has happened but that channels were built. -/
structure Quiet (s u : State) : Prop where
  store : u.store = s.store
  agents : u.agents = s.agents
  issued : u.issued = s.issued
  history : s.history ⊆ u.history
  client : ∀ {id : NodeId} {k : Client},
    s.pool.client? id = some k → u.pool.client? id = some k

variable {s u v : State} {n : NodeId} {p : String}

theorem Quiet.refl (s : State) : s.Quiet s := ⟨rfl, rfl, rfl, List.Subset.refl _, id⟩

theorem Quiet.trans (h : s.Quiet u) (h' : u.Quiet v) : s.Quiet v where
  store := h'.store.trans h.store
  agents := h'.agents.trans h.agents
  issued := h'.issued.trans h.issued
  history := List.Subset.trans h.history h'.history
  client hk := h'.client (h.client hk)

theorem Quiet.working_iff (h : s.Quiet u) {x : NodeId × String} : u.Working x ↔ s.Working x := by
  rw [Working, Working, h.store, h.agents]

theorem Quiet.client?_eq_none (h : s.Quiet u) {id : NodeId} (hu : u.pool.client? id = none) :
    s.pool.client? id = none := by
  by_contra hs
  obtain ⟨k, hk⟩ := Option.ne_none_iff_exists'.mp hs
  rw [h.client hk] at hu
  cases hu

theorem Quiet.record (h : s.Quiet u) (c : Effect) (a : c.Answer) : s.Quiet (u.record c a) :=
  ⟨h.store, h.agents, h.issued, List.subset_cons_of_subset _ h.history, h.client⟩

theorem Quiet.setPool {q : Pool}
    (h : ∀ {id : NodeId} {k : Client}, s.pool.client? id = some k → q.client? id = some k) :
    s.Quiet (s.setPool q) :=
  ⟨rfl, rfl, rfl, List.Subset.refl _, h⟩

theorem Quiet.setStore (h : s.Quiet u) (t : Store) : (s.setStore t).Quiet (u.setStore t) :=
  ⟨rfl, h.agents, h.issued, h.history, h.client⟩

theorem Quiet.addPeer (h : s.Quiet u) : (s.addPeer n p).Quiet (u.addPeer n p) where
  store := h.store
  agents := by simp only [State.addPeer, h.agents]
  issued := by simp only [State.addPeer, h.issued]
  history := h.history
  client := h.client

theorem Quiet.setEnabled (h : s.Quiet u) (enabled : Bool) :
    (s.setEnabled n p enabled).Quiet (u.setEnabled n p enabled) where
  store := h.store
  agents := by simp only [State.setEnabled, h.agents]
  issued := h.issued
  history := h.history
  client := h.client

theorem Quiet.removePeer (h : s.Quiet u) : (s.removePeer n p).Quiet (u.removePeer n p) where
  store := h.store
  agents := by simp only [State.removePeer, h.agents]
  issued := h.issued
  history := h.history
  client := h.client

theorem removePeer_of_notMem (h : p ∉ s.agents n) : (s.removePeer n p).Quiet s where
  store := rfl
  agents := by
    have he : (s.agents n).erase p = s.agents n := by
      refine Finmap.ext_lookup fun q => ?_
      by_cases hq : q = p
      · subst hq
        rw [Finmap.lookup_erase, Finmap.lookup_eq_none.mpr h]
      · rw [Finmap.lookup_erase_ne hq]
    simp only [State.removePeer, he, Function.update_eq_self]
  issued := rfl
  history := List.Subset.refl _
  client := id

end State

theorem nodeId_of_client? {q : Pool} {id : NodeId} {k : Client} (h : q.client? id = some k) :
    k.nodeId = id :=
  Store.toInt_eq_iff.mp (Table.find?_eq_some_iff.mp h).2

theorem client?_add (q : Pool) (id j : NodeId) :
    (q.add id).2.client? j = if id = j then some (q.add id).1 else q.client? j := by
  simp only [Pool.add, Pool.client?, Table.find?_insert]
  exact if_congr Store.toInt_eq_iff rfl rfl

section establish

variable {q : Pool} {n : Node} {connected : Except AgentError Unit} {id : NodeId} {k : Client}

theorem client?_establish (h : q.client? id = some k) :
    (q.establish n connected).2.client? id = some k := by
  unfold Pool.establish
  split
  · exact h
  next hn =>
    cases connected with
    | error e => exact h
    | ok =>
      have hne : n.id ≠ id := by
        rintro rfl
        rw [h] at hn
        cases hn
      exact (client?_add q n.id id).trans (by rw [if_neg hne, h])

theorem client?_of_establish {fresh : Bool}
    (h : (q.establish n connected).1 = .ok (k, fresh)) :
    (q.establish n connected).2.client? n.id = some k := by
  unfold Pool.establish at h ⊢
  split at h
  next hn =>
    cases h
    exact hn
  next hn =>
    cases connected with
    | error e => cases h
    | ok =>
      cases h
      exact (client?_add q n.id n.id).trans (if_pos rfl)

/-- What keeps a channel from being filed is that it cannot be built. The pool stays as it is. -/
theorem error_of_establish {e : AgentError} (h : (q.establish n connected).1 = .error e) :
    connected = .error e ∧ (q.establish n connected).2 = q := by
  unfold Pool.establish at h ⊢
  split at h
  · cases h
  · cases connected with
    | error e' =>
      cases h
      exact ⟨rfl, rfl⟩
    | ok => cases h

end establish

variable {C : Conditions} {s : State}

theorem frame_of_serves {n : NodeId} {c : Agent.Call} {a : c.Answer} {u : State}
    (h : C.serves s n c a u) :
    u.store = s.store ∧ u.health = s.health ∧ u.history = s.history := by
  cases c with
  | create =>
    obtain ⟨-, -, -, rfl⟩ := h
    exact ⟨rfl, rfl, rfl⟩
  | enable | disable | delete =>
    rcases h with ⟨-, -, rfl⟩ | ⟨-, -, rfl⟩ <;> exact ⟨rfl, rfl, rfl⟩
  | get | list =>
    obtain ⟨rfl, -⟩ := h
    exact ⟨rfl, rfl, rfl⟩

theorem store_of_effect {c : Effect} {a : c.Answer} {u : State} (h : C.effect s c a u)
    (hc : ∀ c', c ≠ .store c') : u.store = s.store := by
  cases c with
  | store c => exact absurd rfl (hc c)
  | pool =>
    obtain ⟨-, -, -, rfl⟩ := h
    rfl
  | agent =>
    obtain h | ⟨-, -, -, rfl⟩ := h
    · exact (frame_of_serves h).1
    · rfl
  | health => rw [h.2, State.setHealth]
  | close | message | probe | suffix => exact congrArg State.store h

theorem health_of_effect {c : Effect} {a : c.Answer} {u : State} (h : C.effect s c a u)
    (hc : ∀ c', c ≠ .health c') : u.health = s.health := by
  cases c with
  | store => rcases h with ⟨-, rfl⟩ | ⟨-, -, -, rfl⟩ <;> rfl
  | pool =>
    obtain ⟨-, -, -, rfl⟩ := h
    rfl
  | agent =>
    obtain h | ⟨-, -, -, rfl⟩ := h
    · exact (frame_of_serves h).2.1
    · rfl
  | health c => exact absurd rfl (hc c)
  | close | message | probe | suffix => exact congrArg State.health h

theorem history_of_effect {c : Effect} {a : c.Answer} {u : State} (h : C.effect s c a u) :
    u.history = s.history := by
  cases c with
  | store => rcases h with ⟨-, rfl⟩ | ⟨-, -, -, rfl⟩ <;> rfl
  | pool =>
    obtain ⟨-, -, -, rfl⟩ := h
    rfl
  | agent =>
    obtain h | ⟨-, -, -, rfl⟩ := h
    · exact (frame_of_serves h).2.2
    · rfl
  | health => rw [h.2, State.setHealth]
  | close | message | probe | suffix => exact congrArg State.history h

theorem pre_store {c : StoreCall} {K : c.Answer → State → Prop}
    (hok : K (s.store.perform c).1
      ((s.setStore (s.store.perform c).2).record (.store c) (s.store.perform c).1))
    (hfault : ∀ e, C.storeFault s c e → K (.error e) (s.record (.store c) (.error e))) :
    C.logic.pre (.store c) K s := by
  rintro a _ ⟨u, ⟨rfl, rfl⟩ | ⟨e, he, rfl, rfl⟩, rfl⟩
  · exact hok
  · exact hfault e he

theorem pre_suffix {K : String → State → Prop} (h : ∀ a u, s.Quiet u → K a u) :
    C.logic.pre .suffix K s := by
  rintro a _ ⟨u, hu, rfl⟩
  obtain rfl : u = s := hu
  exact h a _ ((State.Quiet.refl u).record _ _)

theorem pre_message {c : MessageCall} {K : c.Answer → State → Prop}
    (h : ∀ a u, s.Quiet u → K a u) : C.logic.pre (.message c) K s := by
  rintro a _ ⟨u, hu, rfl⟩
  obtain rfl : u = s := hu
  exact h a _ ((State.Quiet.refl u).record _ _)

theorem quiet_establish {n : Node} {connected : Except AgentError Unit} {x : Option Client}
    {a : Except AgentError (Client × Bool)} :
    s.Quiet (((s.record (.pool (.lookup n.id)) x).setPool
      (s.pool.establish n connected).2).record (.pool (.establish n)) a) :=
  (((State.Quiet.refl s).record (.pool (.lookup n.id)) x).trans
    (.setPool client?_establish)).record (.pool (.establish n)) a

/-- A channel is found or built, or there is none and building it fails. Only what happens to
the pool matters. -/
theorem clientFor_wp_of_fault {E : Environment Effects State}
    (hE : ∀ {c s a s'}, E (.pool c) s a s' → C.surroundings (.pool c) s a s') {n : Node}
    {S : Client → State → Prop} {F : FleetError → State → Prop}
    (hS : ∀ k u, s.Quiet u → k.nodeId = n.id → u.pool.client? n.id = some k → S k u)
    (hF : ∀ e t u, s.pool.client? n.id = none → s.Quiet t → C.connectFault t n e → t.Quiet u →
      F (.clientConstruction n.id e) u) :
    (clientFor n).run.wp E.logic (Outcome S F) s := by
  rw [wp_clientFor]
  intro a t he
  obtain ⟨_, ⟨_, -, rfl, rfl⟩, rfl⟩ := hE he
  change (s.pool.client? n.id).elim (_ : State → Prop) _ _
  cases hk : s.pool.client? n.id with
  | some k => exact hS k _ ((State.Quiet.refl s).record _ _) (nodeId_of_client? hk) hk
  | none =>
    intro a s' he
    obtain ⟨_, ⟨connected, hc, rfl, rfl⟩, rfl⟩ := hE he
    change Outcome _ _ (s.pool.establish n connected).1 _
    cases hr : (s.pool.establish n connected).1 with
    | error e =>
      obtain ⟨m, hm, hfault⟩ := hc e (error_of_establish hr).1
      cases hm
      exact hF e _ _ hk ((State.Quiet.refl s).record _ _) hfault
        ((State.Quiet.setPool client?_establish).record _ _)
    | ok c =>
      have hk := client?_of_establish hr
      exact hS c.1 _ quiet_establish (nodeId_of_client? hk) hk

theorem clientFor_wp_of {E : Environment Effects State}
    (hE : ∀ {c s a s'}, E (.pool c) s a s' → C.surroundings (.pool c) s a s') {n : Node}
    {S : Client → State → Prop} {F : FleetError → State → Prop}
    (hS : ∀ k u, s.Quiet u → k.nodeId = n.id → u.pool.client? n.id = some k → S k u)
    (hF : ∀ e u, s.pool.client? n.id = none → s.Quiet u → F (.clientConstruction n.id e) u) :
    (clientFor n).run.wp E.logic (Outcome S F) s :=
  clientFor_wp_of_fault hE hS fun e _ u hk ht _ hu => hF e u hk (ht.trans hu)

theorem clientFor_wp {n : Node} {S : Client → State → Prop} {F : FleetError → State → Prop}
    (hS : ∀ k u, s.Quiet u → k.nodeId = n.id → u.pool.client? n.id = some k → S k u)
    (hF : ∀ e u, s.pool.client? n.id = none → s.Quiet u → F (.clientConstruction n.id e) u) :
    (clientFor n).run.wp C.logic (Outcome S F) s :=
  clientFor_wp_of id hS hF

def Conditions.FaultsOnSave (C : Conditions) : Prop :=
  ∀ ⦃s : State⦄ ⦃c : StoreCall⦄ ⦃e : StoreError⦄, C.storeFault s c e →
    ∃ id b, c = .setBinding id b

/-- The store and the agents answer every call; channels may fail. An agent may give a new peer
any id. -/
def answers : Conditions where
  storeFault _ _ _ := False
  connectFault _ _ _ := True
  agentFault _ _ _ _ := False
  issues _ _ _ := True

theorem answers_faultsOnSave : answers.FaultsOnSave := fun _ _ _ h => h.elim

theorem pre_steady (hC : C.FaultsOnSave) {c : StoreCall} (hc : ∀ id b, c ≠ .setBinding id b)
    {K : c.Answer → State → Prop}
    (h : ∀ u, (s.setStore (s.store.perform c).2).Quiet u → K (s.store.perform c).1 u) :
    C.logic.pre (.store c) K s := by
  refine pre_store (h _ ((State.Quiet.refl _).record _ _)) fun e he => ?_
  obtain ⟨id, b, rfl⟩ := hC he
  exact absurd rfl (hc id b)

theorem askStore_runs (hC : C.FaultsOnSave) {c : StoreCall} (hc : ∀ id b, c ≠ .setBinding id b)
    {a : c.Answer} {u : State} (h : Runs C.surroundings (askStore c) s a u) :
    a = (s.store.perform c).1 ∧ (s.setStore (s.store.perform c).2).Quiet u := by
  apply h.of_wp (Q := fun a u => a = (s.store.perform c).1 ∧
    (s.setStore (s.store.perform c).2).Quiet u)
  exact pre_steady hC hc fun u hu => ⟨rfl, hu⟩

theorem fromStore_wp (hC : C.FaultsOnSave) {c : StoreCall} (hc : ∀ id b, c ≠ .setBinding id b)
    {S : c.Result → State → Prop} {F : FleetError → State → Prop}
    (h : ∀ u, (s.setStore (s.store.perform c).2).Quiet u →
      Outcome S (fun e => F (.store e)) (s.store.perform c).1 u) :
    (fromStore c).run.wp C.logic (Outcome S F) s := by
  rw [wp_fromStore]
  exact pre_steady hC hc h

theorem fromStore_runs (hC : C.FaultsOnSave) {c : StoreCall} (hc : ∀ id b, c ≠ .setBinding id b)
    {r : Except FleetError c.Result} {u : State}
    (h : Runs C.surroundings (fromStore c).run s r u) :
    (s.setStore (s.store.perform c).2).Quiet u ∧
      Outcome (fun a _ => (s.store.perform c).1 = .ok a)
        (fun e _ => ∃ e', e = .store e' ∧ (s.store.perform c).1 = .error e') r u := by
  have hw : (fromStore c).run.wp C.logic (Outcome
      (fun a u => (s.setStore (s.store.perform c).2).Quiet u ∧ (s.store.perform c).1 = .ok a)
      fun e u => (s.setStore (s.store.perform c).2).Quiet u ∧
        ∃ e', e = .store e' ∧ (s.store.perform c).1 = .error e') s := by
    refine fromStore_wp hC hc fun u hu => ?_
    cases hp : (s.store.perform c).1 with
    | ok a => exact ⟨hu, rfl⟩
    | error e => exact ⟨hu, e, rfl, rfl⟩
  have hq := h.of_wp hw
  cases r <;> exact hq

theorem pre_agent {k : Client} {c : Agent.Call} {K : c.Answer → State → Prop}
    (hserve : ∀ a u, C.serves s k.nodeId c a u → K a (u.record (.agent k c) a))
    (hfault : ∀ e u, C.agentFault s k.nodeId c e → s.Quiet u → K (.error e) u) :
    C.logic.pre (.agent k c) K s := by
  rintro a _ ⟨u, h | ⟨e, he, rfl, rfl⟩, rfl⟩
  · exact hserve a u h
  · exact hfault e _ he ((State.Quiet.refl u).record _ _)

variable {n : Node} {k : Client} {p : String}

theorem create_wp {i q : String} {S : CreatedPeer → State → Prop}
    {F : FleetError → State → Prop} (hk : k.nodeId = n.id)
    (hS : ∀ peer u, C.issues s n.id peer.peerId → (s.addPeer n.id peer.peerId).Quiet u → S peer u)
    (hF : ∀ e u, C.agentFault s n.id (.create i q) e → s.Quiet u →
      F (.remoteCall n.id .createPeer e) u) :
    (remote n k (.create i q)).run.wp C.logic (Outcome S F) s := by
  rw [wp_remote]
  refine pre_agent ?_ fun e u he hu => hF e u (hk ▸ he) hu
  rintro _ _ ⟨peer, hi, rfl, rfl⟩
  rw [hk] at hi ⊢
  exact hS peer _ hi ((State.Quiet.refl _).record _ _)

section change

variable {S : Unit → State → Prop} {F : FleetError → State → Prop}

theorem enable_wp {i : String} (hk : k.nodeId = n.id)
    (hS : ∀ u, p ∈ s.agents n.id → (s.setEnabled n.id p true).Quiet u → S () u)
    (hF : ∀ e u, s.Quiet u → F e u) :
    (remote n k (.enable i p)).run.wp C.logic (Outcome S F) s := by
  rw [wp_remote]
  refine pre_agent ?_ fun e u _ hu => hF _ u hu
  rintro _ _ (⟨hp, rfl, rfl⟩ | ⟨-, ⟨text, rfl⟩, rfl⟩)
  · rw [hk] at hp ⊢
    exact hS _ hp ((State.Quiet.refl _).record _ _)
  · exact hF _ _ ((State.Quiet.refl _).record _ _)

def Conditions.Refuses (C : Conditions) (s : State) (n : NodeId) (p : String) (e : AgentError) :
    Prop :=
  p ∉ s.agents n ∧ e.isNotFound = true ∨ ∃ i, C.agentFault s n (.disable i p) e

theorem disable_wp_of_fault {i : String} (hk : k.nodeId = n.id)
    (hS : ∀ u, p ∈ s.agents n.id → (s.setEnabled n.id p false).Quiet u → S () u)
    (hF : ∀ e u, C.Refuses s n.id p e → s.Quiet u → F (.remoteCall n.id .disablePeer e) u) :
    (remote n k (.disable i p)).run.wp C.logic (Outcome S F) s := by
  rw [wp_remote]
  refine pre_agent ?_ fun e u he hu => hF e u (.inr ⟨i, hk ▸ he⟩) hu
  rintro _ _ (⟨hp, rfl, rfl⟩ | ⟨hp, ⟨text, rfl⟩, rfl⟩)
  · rw [hk] at hp ⊢
    exact hS _ hp ((State.Quiet.refl _).record _ _)
  · rw [hk] at hp
    exact hF _ _ (.inl ⟨hp, rfl⟩) ((State.Quiet.refl _).record _ _)

def Conditions.Removed (C : Conditions) (s : State) (n : NodeId) (p : String) (t : State) : Prop :=
  t = s.removePeer n p ∨
    t = s ∧ ∃ i e, C.agentFault s n (.delete i p) e ∧ e.isNotFound = true

theorem Conditions.Removed.store {id : NodeId} {t : State} (h : C.Removed s id p t) :
    t.store = s.store := by
  rcases h with rfl | ⟨rfl, _⟩ <;> rfl

theorem removePeer_wp (hk : k.nodeId = n.id)
    (hS : ∀ t u, C.Removed s n.id p t → t.Quiet u → S () u)
    (hF : ∀ e u, C.agentFault s n.id (.delete n.interface p) e → s.Quiet u →
      F (.remoteCall n.id .deletePeer e) u) :
    (removePeer n k p).run.wp C.logic (Outcome S F) s := by
  rw [wp_removePeer]
  refine pre_agent ?_ fun e u he hu => ?_
  · rintro _ _ (⟨-, rfl, rfl⟩ | ⟨hp, ⟨text, rfl⟩, rfl⟩)
    · rw [hk]
      exact hS _ _ (.inl rfl) ((State.Quiet.refl _).record _ _)
    · rw [hk] at hp
      exact hS _ _ (.inl rfl) ((State.removePeer_of_notMem hp).record _ _)
  · rw [hk] at he
    rw [outcome_error]
    split_ifs with h
    · exact hS s u (.inr ⟨rfl, _, e, he, h⟩) hu
    · exact hF e u he hu

end change

theorem list_wp {i : String} {S : List PeerInfo → State → Prop} {F : FleetError → State → Prop}
    (hk : k.nodeId = n.id) (hS : ∀ infos u, Lists infos (s.agents n.id) → s.Quiet u → S infos u)
    (hF : ∀ e u, s.Quiet u → F e u) :
    (remote n k (.list i)).run.wp C.logic (Outcome S F) s := by
  rw [wp_remote]
  refine pre_agent ?_ fun e u _ hu => hF _ u hu
  rintro _ _ ⟨rfl, infos, hi, rfl⟩
  rw [hk] at hi
  exact hS _ _ hi ((State.Quiet.refl _).record _ _)

end PeerFleet.Fleet
