import Mathlib.Data.Finmap
import PeerFleet.Fleet.Effect
import PeerFleet.Proofs.Program.Run
import PeerFleet.Proofs.Store.Records

/-! # The fleet and its agents

The state that the programs of the fleet act on: the store in memory, the pool of channels,
and the agents, each of them a finite map of peers. What may fail, and which ids an agent
may issue, are conditions that a statement chooses; a call that fails changes nothing.
-/

namespace PeerFleet

instance : DecidableEq Effects.Call := inferInstanceAs (DecidableEq Effect)

namespace Fleet

abbrev Peers := Finmap fun _ : String => Bool

theorem dlookup_kreplace (p q : String) (b : Bool) (l : List (Sigma fun _ : String => Bool)) :
    (l.kreplace p b).dlookup q =
      if q = p then (l.dlookup q).map fun _ => b else l.dlookup q := by
  induction l with
  | nil => simp [List.kreplace]
  | cons x l ih =>
    obtain ⟨k, v⟩ := x
    unfold List.kreplace at ih ⊢
    by_cases hk : p = k
    · subst hk
      rw [List.lookmap_cons_some _ _ (by simp; rfl)]
      by_cases hq : q = p
      · subst hq
        simp
      · simp [hq]
    · rw [List.lookmap_cons_none _ _ (by simp [hk])]
      by_cases hq : q = k
      · subst hq
        simp [Ne.symm hk]
      · rw [List.dlookup_cons_ne _ _ hq, List.dlookup_cons_ne _ _ hq, ih]

theorem lookup_replace (ps : Peers) (p q : String) (b : Bool) :
    (ps.replace p b).lookup q = if q = p then (ps.lookup q).map fun _ => b else ps.lookup q := by
  induction ps using Finmap.induction_on with
  | H l =>
    rw [Finmap.replace_toFinmap, Finmap.lookup_toFinmap, Finmap.lookup_toFinmap]
    exact dlookup_kreplace p q b l.entries

def Lists (infos : List PeerInfo) (ps : Peers) : Prop :=
  (infos.map fun i => (⟨i.peerId, i.enabled⟩ : Sigma fun _ : String => Bool) : Multiset _) =
    ps.entries

abbrev Exchange := Sigma Effect.Answer

structure State where
  store : Store
  pool : Pool := {}
  health : HealthRecords := .empty
  /-- The agent of each node, whether or not the node is registered. -/
  agents : NodeId → Peers
  /-- The ids that have been issued for peers, with the nodes that issued them. -/
  issued : Set (NodeId × String)
  history : List Exchange := []
  issued_of_mem : ∀ {n : NodeId} {p : String}, p ∈ agents n → (n, p) ∈ issued

def Vacant (s : State) (id : SubscriptionId) : Prop :=
  ∃ stored, s.store.subscription? id = some stored ∧ stored.binding = none

namespace State

def setStore (s : State) (store : Store) : State :=
  { s with store }

def setPool (s : State) (pool : Pool) : State :=
  { s with pool }

def setHealth (s : State) (health : HealthRecords) : State :=
  { s with health }

def founding (n : Node) : State where
  store := .ofNodes [n]
  agents _ := ∅
  issued := ∅
  issued_of_mem h := absurd h Finmap.notMem_empty

def waiting : State :=
  let s := founding (.create 1 "node-1" "10.0.0.1:7443" 10)
  s.setStore <| s.store.upsertSubscription
    { id := 1, userId := 10, tariff := "month", expiresAt := .epoch }

/-- A peer that exists on the agent of a registered node. -/
def Live (s : State) (x : NodeId × String) : Prop :=
  (s.store.node? x.1).isSome ∧ x.2 ∈ s.agents x.1

/-- A live peer that is enabled. -/
def Working (s : State) (x : NodeId × String) : Prop :=
  (s.store.node? x.1).isSome ∧ (s.agents x.1).lookup x.2 = some true

def record (s : State) (c : Effect) (a : c.Answer) : State :=
  { s with history := ⟨c, a⟩ :: s.history }

def addPeer (s : State) (n : NodeId) (p : String) : State where
  __ := s
  agents := Function.update s.agents n ((s.agents n).insert p true)
  issued := insert (n, p) s.issued
  issued_of_mem {m q} h := by
    by_cases hm : m = n
    · subst hm
      rw [Function.update_self, Finmap.mem_insert] at h
      rcases h with rfl | h
      · exact .inl rfl
      · exact .inr (s.issued_of_mem h)
    · rw [Function.update_of_ne hm] at h
      exact .inr (s.issued_of_mem h)

def setEnabled (s : State) (n : NodeId) (p : String) (enabled : Bool) : State where
  __ := s
  agents := Function.update s.agents n ((s.agents n).replace p enabled)
  issued_of_mem {m q} h := by
    by_cases hm : m = n
    · subst hm
      rw [Function.update_self, Finmap.mem_replace] at h
      exact s.issued_of_mem h
    · rw [Function.update_of_ne hm] at h
      exact s.issued_of_mem h

def removePeer (s : State) (n : NodeId) (p : String) : State where
  __ := s
  agents := Function.update s.agents n ((s.agents n).erase p)
  issued_of_mem {m q} h := by
    by_cases hm : m = n
    · subst hm
      rw [Function.update_self, Finmap.mem_erase] at h
      exact s.issued_of_mem h.2
    · rw [Function.update_of_ne hm] at h
      exact s.issued_of_mem h

def serving : State :=
  let s := (founding { Node.create 1 "node-1" "10.0.0.1:7443" 10 with currentPeers := 1 }).addPeer
    1 "p"
  s.setStore <| s.store.upsertSubscription
    { id := 1, userId := 10, tariff := "month", expiresAt := .epoch,
      binding := some ⟨1, "p", ⟨"", "", "10.8.0.2"⟩⟩ }

section agents

variable {s : State} {n : NodeId} {p : String} {x : NodeId × String}

theorem mem_addPeer_iff :
    x.2 ∈ (s.addPeer n p).agents x.1 ↔ x = (n, p) ∨ x.2 ∈ s.agents x.1 := by
  obtain ⟨m, q⟩ := x
  change q ∈ Function.update s.agents n _ m ↔ _
  by_cases hm : m = n
  · subst hm
    simp [Finmap.mem_insert]
  · simp [hm]

theorem mem_setEnabled_iff {enabled : Bool} :
    x.2 ∈ (s.setEnabled n p enabled).agents x.1 ↔ x.2 ∈ s.agents x.1 := by
  obtain ⟨m, q⟩ := x
  change q ∈ Function.update s.agents n _ m ↔ _
  by_cases hm : m = n
  · subst hm
    simp [Finmap.mem_replace]
  · simp [hm]

theorem lookup_setEnabled {enabled : Bool} :
    ((s.setEnabled n p enabled).agents x.1).lookup x.2 =
      if x = (n, p) then ((s.agents x.1).lookup x.2).map fun _ => enabled
      else (s.agents x.1).lookup x.2 := by
  obtain ⟨m, q⟩ := x
  change (Function.update s.agents n _ m).lookup q = _
  by_cases hm : m = n
  · subst hm
    rw [Function.update_self, lookup_replace]
    simp
  · simp [hm]

theorem mem_removePeer_iff :
    x.2 ∈ (s.removePeer n p).agents x.1 ↔ x ≠ (n, p) ∧ x.2 ∈ s.agents x.1 := by
  obtain ⟨m, q⟩ := x
  change q ∈ Function.update s.agents n _ m ↔ _
  by_cases hm : m = n
  · subst hm
    simp [Finmap.mem_erase]
  · simp [hm]

theorem agents_removePeer_addPeer (h : p ∉ s.agents n) :
    ((s.addPeer n p).removePeer n p).agents = s.agents := by
  funext m
  change Function.update (Function.update s.agents n _) n _ m = _
  by_cases hm : m = n
  · subst hm
    rw [Function.update_self]
    change ((Function.update s.agents m _ m).erase p) = _
    rw [Function.update_self]
    apply Finmap.ext_lookup
    intro q
    by_cases hq : q = p
    · subst hq
      rw [Finmap.lookup_erase, Finmap.lookup_eq_none.mpr h]
    · rw [Finmap.lookup_erase_ne hq, Finmap.lookup_insert_of_ne _ hq]
  · rw [Function.update_of_ne hm, Function.update_of_ne hm]

end agents

section working

variable {s : State} {n : NodeId} {p : String} {x : NodeId × String}

theorem working_setStore_iff {t : Store}
    (h : ∀ id, (t.node? id).isSome = (s.store.node? id).isSome) :
    (s.setStore t).Working x ↔ s.Working x := by
  refine and_congr_left fun _ => ?_
  change (t.node? x.1).isSome = true ↔ _
  rw [h]

theorem working_addPeer_iff :
    (s.addPeer n p).Working x ↔ (x = (n, p) ∧ (s.store.node? n).isSome) ∨ s.Working x := by
  obtain ⟨m, q⟩ := x
  change (s.store.node? m).isSome = true ∧ (Function.update s.agents n _ m).lookup q = _ ↔ _
  by_cases hm : m = n
  · subst hm
    by_cases hq : q = p
    · subst hq
      simp +contextual [Working]
    · simp [Working, hq, Finmap.lookup_insert_of_ne]
  · simp [Working, hm]

theorem working_setEnabled_false_iff :
    (s.setEnabled n p false).Working x ↔ s.Working x ∧ x ≠ (n, p) := by
  rw [Working, lookup_setEnabled]
  by_cases hx : x = (n, p)
  · simp [hx]
  · simp [Working, setEnabled, hx]

theorem not_working_iff : ¬ s.Working (n, p) ↔
    s.store.node? n = none ∨ p ∉ s.agents n ∨ (s.agents n).lookup p = some false := by
  have hm : p ∉ s.agents n ↔ (s.agents n).lookup p = none := Finmap.lookup_eq_none.symm
  simp only [Working, hm, not_and_or, Option.not_isSome_iff_eq_none]
  rcases (s.agents n).lookup p with _ | _ | _ <;> simp

theorem not_working_of_notMem (h : p ∉ s.agents n) : ¬ s.Working (n, p) := by
  rintro ⟨-, hl⟩
  rw [Finmap.lookup_eq_none.mpr h] at hl
  cases hl

end working

section live

variable {s : State} {x : NodeId × String}

theorem live_setPeers_iff {id : NodeId} {f : UInt32 → UInt32} :
    (s.setStore (s.store.setPeers id f).2).Live x ↔ s.Live x := by
  refine and_congr_left fun _ => ?_
  change ((s.store.setPeers id f).2.node? x.1).isSome = true ↔ _
  rw [Store.setPeers_isSome]

theorem live_setBinding_iff {id : SubscriptionId} {b : Option Binding} :
    (s.setStore (s.store.setBinding id b).2).Live x ↔ s.Live x := by
  refine and_congr_left fun _ => ?_
  change ((s.store.setBinding id b).2.node? x.1).isSome = true ↔ _
  rw [Store.setBinding_node?]

end live

end State

/-- What may fail, and which ids an agent may give to a new peer. -/
structure Conditions where
  storeFault : State → StoreCall → StoreError → Prop
  connectFault : State → Node → AgentError → Prop
  agentFault : State → NodeId → Agent.Call → AgentError → Prop
  issues : State → NodeId → String → Prop

namespace Conditions

variable (C : Conditions)

/-- The change of a peer, which an agent answers with 404 if it does not know the peer. -/
def changes (s : State) (n : NodeId) (p : String) (operation : Operation) (changed : State)
    (a : Except AgentError Unit) (s' : State) : Prop :=
  (p ∈ s.agents n ∧ a = .ok () ∧ s' = changed) ∨
    (p ∉ s.agents n ∧ (∃ text, a = .error (.status operation 404 text)) ∧ s' = s)

/-- What an agent that does not fail makes of a call. -/
def serves (s : State) (n : NodeId) : (c : Agent.Call) → c.Answer → State → Prop
  | .create _ _, a, s' => ∃ peer : CreatedPeer, C.issues s n peer.peerId ∧ a = .ok peer ∧
      s' = s.addPeer n peer.peerId
  | .enable _ p, a, s' => changes s n p .enablePeer (s.setEnabled n p true) a s'
  | .disable _ p, a, s' => changes s n p .disablePeer (s.setEnabled n p false) a s'
  | .delete _ p, a, s' => changes s n p .deletePeer (s.removePeer n p) a s'
  | .get _ p, a, s' => s' = s ∧
      ((∃ i : PeerInfo, i.peerId = p ∧ (s.agents n).lookup p = some i.enabled ∧ a = .ok i) ∨
        (p ∉ s.agents n ∧ ∃ text, a = .error (.status .getPeer 404 text)))
  | .list _, a, s' => s' = s ∧ ∃ infos, Lists infos (s.agents n) ∧ a = .ok infos

/-- What may come of a call, apart from its being written down. -/
def effect (s : State) : (c : Effect) → c.Answer → State → Prop
  | .store c, a, s' =>
      (a = (s.store.perform c).1 ∧ s' = s.setStore (s.store.perform c).2) ∨
        ∃ e, C.storeFault s c e ∧ a = .error e ∧ s' = s
  | .pool c, a, s' => ∃ connected : Except AgentError Unit,
      (∀ e, connected = .error e → ∃ n, c = .establish n ∧ C.connectFault s n e) ∧
        a = (s.pool.perform connected c).1 ∧ s' = s.setPool (s.pool.perform connected c).2
  | .agent k c, a, s' => C.serves s k.nodeId c a s' ∨
      ∃ e, C.agentFault s k.nodeId c e ∧ a = .error e ∧ s' = s
  | .close _, _, s' => s' = s
  | .message _, _, s' => s' = s
  | .probe _, _, s' => s' = s
  | .health c, a, s' =>
      a = (HealthRecords.perform s.health c).1 ∧
        s' = s.setHealth (HealthRecords.perform s.health c).2
  | .suffix, _, s' => s' = s

/-- The surroundings of the fleet under the conditions. -/
def surroundings : Environment Effects State :=
  fun c s a s' => ∃ u, C.effect s c a u ∧ s' = u.record c a

section total

variable {C}

theorem exists_changes (s changed : State) (n : NodeId) (p : String) (operation : Operation) :
    ∃ a s', changes s n p operation changed a s' := by
  by_cases hp : p ∈ s.agents n
  · exact ⟨.ok (), changed, .inl ⟨hp, rfl, rfl⟩⟩
  · exact ⟨.error (.status operation 404 ""), s, .inr ⟨hp, ⟨"", rfl⟩, rfl⟩⟩

theorem exists_serves (hC : ∀ s n, ∃ p, C.issues s n p) (s : State) (n : NodeId)
    (c : Agent.Call) : ∃ a s', C.serves s n c a s' := by
  cases c with
  | create i q =>
    obtain ⟨p, hp⟩ := hC s n
    exact ⟨.ok ⟨p, "", "", ""⟩, _, ⟨p, "", "", ""⟩, hp, rfl, rfl⟩
  | enable i p => exact exists_changes ..
  | disable i p => exact exists_changes ..
  | delete i p => exact exists_changes ..
  | get i p =>
    cases hl : (s.agents n).lookup p with
    | none =>
      have hp : p ∉ s.agents n := Finmap.lookup_eq_none.mp hl
      exact ⟨.error (.status .getPeer 404 ""), s, rfl, .inr ⟨hp, "", rfl⟩⟩
    | some enabled =>
      exact ⟨.ok { peerId := p, enabled }, s, rfl, .inl ⟨{ peerId := p, enabled }, rfl, hl, rfl⟩⟩
  | list i =>
    let infos : List PeerInfo :=
      (s.agents n).entries.toList.map fun x => { peerId := x.1, enabled := x.2 }
    have hi : Lists infos (s.agents n) := by
      simp [Lists, infos, List.map_map, Function.comp_def]
    exact ⟨.ok infos, s, rfl, infos, hi, rfl⟩

/-- Whatever is called is answered, if an agent always has an id for a new peer. -/
theorem total (hC : ∀ s n, ∃ p, C.issues s n p) : C.surroundings.Total := by
  intro c s
  suffices h : ∃ a u, C.effect s c a u by
    obtain ⟨a, u, hu⟩ := h
    exact ⟨a, _, u, hu, rfl⟩
  cases c with
  | store c => exact ⟨_, _, .inl ⟨rfl, rfl⟩⟩
  | pool c => exact ⟨_, _, .ok (), nofun, rfl, rfl⟩
  | agent k c =>
    obtain ⟨a, u, hu⟩ := exists_serves hC s k.nodeId c
    exact ⟨a, u, .inl hu⟩
  | close k => exact ⟨.ok (), s, rfl⟩
  | message c => exact ⟨.error default, s, rfl⟩
  | probe url => exact ⟨(default : ProbeResult), s, rfl⟩
  | health c => exact ⟨_, _, rfl, rfl⟩
  | suffix => exact ⟨"", s, rfl⟩

end total

end Conditions

end Fleet

end PeerFleet
