import Mathlib.Data.Multiset.Bind
import PeerFleet.Proofs.Fleet.Atomicity
import PeerFleet.Proofs.Fleet.Turns

/-! # Removals of one peer

Any number of calls remove the peer of one subscription at the same time. Together they go
through four phases: the peer is there, it is gone, the binding is gone too, and the place is
free again. Whichever call takes a phase further, each phase is entered once, and a call that
comes late finds nothing left to do.
-/

namespace PeerFleet.Fleet

open Program

/-- The peer that an agent was asked to remove, with its answer. -/
def removal? : Exchange → Option ((NodeId × String) × Except AgentError Unit)
  | ⟨.agent k (.delete _ p), a⟩ => some ((k.nodeId, p), a)
  | _ => none

def State.removals (s : State) : Multiset ((NodeId × String) × Except AgentError Unit) :=
  (s.history : Multiset Exchange).filterMap removal?

def State.Took (s : State) : Prop :=
  ∃ x, (x, .ok ()) ∈ s.removals

/-- The failure of a removal that did not take effect, if the peer was there. -/
def refusal : Except AgentError Unit → Multiset AgentError
  | .ok _ => 0
  | .error e => if e.isNotFound then 0 else {e}

def reported : Except FleetError Unit → Multiset AgentError
  | .error (.remoteCall _ _ e) => {e}
  | _ => 0

section removals

variable {s s' : State} {x : NodeId × String} {a : Except AgentError Unit}

theorem removals_record {k : Client} {i p : String} :
    (s.record (.agent k (.delete i p)) a).removals = ((k.nodeId, p), a) ::ₘ s.removals :=
  Multiset.filterMap_cons_some removal? ⟨.agent k (.delete i p), a⟩ s.history rfl

theorem took_iff_of_removals (h : s'.removals = (x, a) ::ₘ s.removals) :
    s'.Took ↔ a = .ok () ∨ s.Took := by
  unfold State.Took
  rw [h]
  constructor
  · rintro ⟨y, hy⟩
    rcases Multiset.mem_cons.mp hy with hy | hy
    · exact .inl (Prod.mk.inj hy).2.symm
    · exact .inr ⟨y, hy⟩
  · rintro (rfl | ⟨y, hy⟩)
    · exact ⟨x, Multiset.mem_cons_self _ _⟩
    · exact ⟨y, Multiset.mem_cons_of_mem hy⟩

end removals

/-- Nothing fails but the removals that agents are asked for, and then the peer stays. An agent
denies no peer that it has. -/
def refusals : Conditions where
  storeFault _ _ _ := False
  connectFault _ _ _ := False
  agentFault s n c e := ∃ i p, c = .delete i p ∧ (e.isNotFound → p ∉ s.agents n)
  issues _ _ _ := False

/-- Removals of the peer of one subscription, each with the copy that its caller has. -/
def deletions (id : SubscriptionId) :
    Workload Effects State {sub : Subscription // sub.id = id} where
  Result _ := Except FleetError Unit
  program sub := (deleteClient sub).run
  admits _ _ _ := True

/-- How far a call is. -/
inductive Removal where
  | begun
  | resolved
  | removed
  | cleared
  | ended (r : Except FleetError Unit)

namespace Removal

@[simp] def due : Removal → ℕ
  | cleared => 1
  | _ => 0

@[simp] def reports : Removal → Multiset AgentError
  | ended r => reported r
  | _ => 0

end Removal

/-- How far all calls together are. -/
inductive Phase where
  | whole
  | removed
  | unbound
  | released
  deriving DecidableEq

namespace Phase

variable (t : Store) (s : State) (id : SubscriptionId) (b : Binding)

@[simp] def store : Phase → Store
  | whole | removed => t
  | unbound => (t.setBinding id none).2
  | released => t.release id b.nodeId

@[simp] def agents : Phase → NodeId → Peers
  | whole => s.agents
  | removed | unbound | released => (s.removePeer b.nodeId b.peerId).agents

@[simp] def binding : Phase → Option Binding
  | whole | removed => some b
  | unbound | released => none

@[simp] def due : Phase → ℕ
  | unbound => 1
  | _ => 0

variable {t s id b}

theorem subscription?_store (h : t.Placed id b) (ph : Phase) :
    ∃ sub, (ph.store t id b).subscription? id = some sub ∧ sub.binding = ph.binding b := by
  obtain ⟨sub, hs, hb⟩ := h.bound
  cases ph with
  | whole | removed => exact ⟨sub, hs, hb⟩
  | unbound =>
    refine ⟨{ sub with binding := none }, ?_, rfl⟩
    simp [Store.setBinding_subscription?, hs]
  | released =>
    refine ⟨{ sub with binding := none }, ?_, rfl⟩
    simp [Store.release_subscription?, hs]

theorem node?_store (h : t.Placed id b) (ph : Phase) :
    ((ph.store t id b).node? b.nodeId).isSome := by
  cases ph with
  | whole | removed => exact h.registered
  | unbound => simpa [Store.setBinding_node?] using h.registered
  | released => simpa [Store.release_node?] using h.registered

theorem mem_agents_iff (h : b.peerId ∈ s.agents b.nodeId) (ph : Phase) :
    b.peerId ∈ ph.agents s b b.nodeId ↔ ph = .whole := by
  have hgone : b.peerId ∉ (s.removePeer b.nodeId b.peerId).agents b.nodeId := fun hp =>
    (State.mem_removePeer_iff (x := b.peer).mp hp).1 rfl
  cases ph with
  | whole => simpa using h
  | removed | unbound | released => simpa using hgone

end Phase

/-- What a removal may come to. -/
inductive Settles (id : SubscriptionId) (b : Binding) : Except FleetError Unit → Prop
  | ok : Settles id b (.ok ())
  | missing : Settles id b (.error (.bindingMissing id))
  | refused (e : AgentError) : Settles id b (.error (.remoteCall b.nodeId .deletePeer e))

/-- The phase that the calls have come to, with the stage of each. -/
structure Releasing (s₀ : State) (id : SubscriptionId) (b : Binding) (ph : Phase) (s : State)
    (m : Multiset ({sub : Subscription // sub.id = id} × Removal)) : Prop where
  store : s.store = ph.store s₀.store id b
  agents : s.agents = ph.agents s₀ b
  took : s.Took ↔ ph ≠ .whole
  removed : ∀ x ∈ m, x.2 = .removed → ph ≠ .whole
  /-- As long as the binding outlives the peer, some call is about to take it away. -/
  pending : ph = .removed → ∃ x ∈ m, x.2 = .removed
  due : (m.map (·.2.due)).sum = ph.due
  reports : m.bind (·.2.reports) = s.removals.bind (refusal ·.2)

def releasing (s₀ : State) (id : SubscriptionId) (b : Binding) :
    Discipline (deletions id) Removal where
  start _ := .begun
  Final _ _ := True
  Yields _ r γ := γ = .ended r ∧ Settles id b r
  Guard _ _ _ := True
  Inv s m := ∃ ph, Releasing s₀ id b ph s m

namespace Releasing

variable {s₀ s s' : State} {id : SubscriptionId} {b : Binding} {ph ph' : Phase}
  {k : {sub : Subscription // sub.id = id}} {γ γ' : Removal}
  {m o : Multiset ({sub : Subscription // sub.id = id} × Removal)}

theorem move (h : Releasing s₀ id b ph s ((k, γ) ::ₘ o)) (hγ : γ.reports = 0)
    (hstore : s'.store = ph'.store s₀.store id b) (hagents : s'.agents = ph'.agents s₀ b)
    (htook : s'.Took ↔ ph' ≠ .whole) (hwhole : ph' = .whole → ph = .whole)
    (hremoved : γ' = .removed → ph' ≠ .whole)
    (hpending : ph' = .removed → γ' = .removed ∨ ph = .removed ∧ γ ≠ .removed)
    (hdue : ph.due + γ'.due = ph'.due + γ.due)
    (hreports : s'.removals.bind (refusal ·.2) = γ'.reports + s.removals.bind (refusal ·.2)) :
    Releasing s₀ id b ph' s' ((k, γ') ::ₘ o) where
  store := hstore
  agents := hagents
  took := htook
  removed := by
    refine Multiset.forall_mem_cons.mpr ⟨hremoved, fun x hx hr hw => ?_⟩
    exact h.removed x (Multiset.mem_cons_of_mem hx) hr (hwhole hw)
  pending hph := by
    rcases hpending hph with hr | ⟨hr, hne⟩
    · exact ⟨_, Multiset.mem_cons_self _ _, hr⟩
    · obtain ⟨x, hx, hxr⟩ := h.pending hr
      rcases Multiset.mem_cons.mp hx with rfl | hx
      · exact absurd hxr hne
      · exact ⟨x, Multiset.mem_cons_of_mem hx, hxr⟩
  due := by
    have hd : γ.due + (o.map (·.2.due)).sum = ph.due := by simpa using h.due
    simp only [Multiset.map_cons, Multiset.sum_cons]
    omega
  reports := by
    have hr := h.reports
    rw [Multiset.cons_bind, hγ, zero_add] at hr
    rw [Multiset.cons_bind, hreports, hr]

theorem congr (h : Releasing s₀ id b ph s m) (hstore : s'.store = s.store)
    (hagents : s'.agents = s.agents) (hremovals : s'.removals = s.removals) :
    Releasing s₀ id b ph s' m where
  store := hstore.trans h.store
  agents := hagents.trans h.agents
  took := by
    rw [State.Took, hremovals]
    exact h.took
  removed := h.removed
  pending := h.pending
  due := h.due
  reports := by
    rw [hremovals]
    exact h.reports

theorem pass (h : Releasing s₀ id b ph s ((k, γ) ::ₘ o)) (hstore : s'.store = s.store)
    (hagents : s'.agents = s.agents) (hremovals : s'.removals = s.removals)
    (hγ : γ.reports = 0) (hγ' : γ'.reports = 0) (hdue : γ'.due = γ.due) (hne : γ' ≠ .removed)
    (hr : γ = .removed → ph ≠ .removed) : Releasing s₀ id b ph s' ((k, γ') ::ₘ o) := by
  have h' := h.congr hstore hagents hremovals
  exact h'.move hγ h'.store h'.agents h'.took (fun hw => hw) (fun hrem => absurd hrem hne)
    (fun hph => .inr ⟨hph, fun hrem => hr hrem hph⟩) (by rw [hdue]) (by rw [hγ', zero_add])

theorem subscription? (h : Releasing s₀ id b ph s ((k, γ) ::ₘ o)) (hp : s₀.store.Placed id b) :
    ∃ sub, s.store.subscription? id = some sub ∧ sub.binding = ph.binding b := by
  rw [h.store]
  exact ph.subscription?_store hp

theorem mem_agents_iff (h : Releasing s₀ id b ph s ((k, γ) ::ₘ o))
    (hl : b.peerId ∈ s₀.agents b.nodeId) : b.peerId ∈ s.agents b.nodeId ↔ ph = .whole := by
  rw [h.agents]
  exact ph.mem_agents_iff hl

section removal

variable {x : NodeId × String} {e : AgentError}

theorem remove (h : Releasing s₀ id b ph s ((k, .resolved) ::ₘ o))
    (hl : b.peerId ∈ s₀.agents b.nodeId) (hp : b.peerId ∈ s.agents b.nodeId)
    (hstore : s'.store = s.store) (hagents : s'.agents = (s.removePeer b.nodeId b.peerId).agents)
    (hr : s'.removals = (x, .ok ()) ::ₘ s.removals) :
    Releasing s₀ id b .removed s' ((k, .removed) ::ₘ o) := by
  obtain rfl := (h.mem_agents_iff hl).mp hp
  refine h.move rfl (hstore.trans h.store) ?_ ?_ nofun (fun _ => nofun) (fun _ => .inl rfl) rfl ?_
  · simp [hagents, State.removePeer, h.agents]
  · simp [took_iff_of_removals hr]
  · simp [hr, refusal]

/-- An agent that does not have the peer, or says so, leaves the call to go on. -/
theorem absent (h : Releasing s₀ id b ph s ((k, .resolved) ::ₘ o))
    (hl : b.peerId ∈ s₀.agents b.nodeId) (hp : b.peerId ∉ s.agents b.nodeId) (he : e.isNotFound)
    (hstore : s'.store = s.store) (hagents : s'.agents = s.agents)
    (hr : s'.removals = (x, .error e) ::ₘ s.removals) :
    Releasing s₀ id b ph s' ((k, .removed) ::ₘ o) := by
  have hph : ph ≠ .whole := mt (h.mem_agents_iff hl).mpr hp
  refine h.move rfl (hstore.trans h.store) (hagents.trans h.agents) ?_ (fun hw => hw)
    (fun _ => hph) (fun _ => .inl rfl) rfl ?_
  · simpa [took_iff_of_removals hr] using h.took
  · simp [hr, refusal, he]

theorem refuse (h : Releasing s₀ id b ph s ((k, .resolved) ::ₘ o)) (he : ¬ e.isNotFound)
    (hstore : s'.store = s.store) (hagents : s'.agents = s.agents)
    (hr : s'.removals = (x, .error e) ::ₘ s.removals) :
    Releasing s₀ id b ph s'
      ((k, .ended (.error (.remoteCall b.nodeId .deletePeer e))) ::ₘ o) := by
  refine h.move rfl (hstore.trans h.store) (hagents.trans h.agents) ?_ (fun hw => hw) nofun
    (fun hph => .inr ⟨hph, nofun⟩) rfl ?_
  · simpa [took_iff_of_removals hr] using h.took
  · simp [hr, refusal, reported, he]

end removal

/-- The first of the calls that come so far takes the binding away, and the others find that it
is gone. -/
theorem clear (h : Releasing s₀ id b ph s ((k, .removed) ::ₘ o)) (hp : s₀.store.Placed id b) :
    ∃ ph' cleared, (s.store.clearBindingIf id b.peerId).1 = .ok cleared ∧
      Releasing s₀ id b ph' (s.setStore (s.store.clearBindingIf id b.peerId).2)
        ((k, if cleared then .cleared else .ended (.ok ())) ::ₘ o) := by
  obtain ⟨sub, hs, hb⟩ := h.subscription? hp
  have hw : ph ≠ .whole := h.removed _ (Multiset.mem_cons_self _ _) rfl
  have hlate (hb : sub.binding = none) (hne : ph ≠ .removed) :
      ∃ ph' cleared, (s.store.clearBindingIf id b.peerId).1 = .ok cleared ∧
        Releasing s₀ id b ph' (s.setStore (s.store.clearBindingIf id b.peerId).2)
          ((k, if cleared then .cleared else .ended (.ok ())) ::ₘ o) := by
    have hc : s.store.clearBindingIf id b.peerId = (.ok false, s.store) := by
      simp [Store.clearBindingIf, hs, hb]
    rw [hc]
    refine ⟨ph, false, rfl, h.pass rfl rfl rfl rfl rfl rfl ?_ fun _ => hne⟩
    rintro ⟨⟩
  cases ph with
  | whole => exact absurd rfl hw
  | removed =>
    have hc := Store.clearBindingIf_of_some hs hb
    rw [hc]
    refine ⟨.unbound, true, rfl, ?_⟩
    refine h.move rfl ?_ h.agents ?_ ?_ ?_ ?_ rfl (zero_add _).symm
    · change (s.store.setBinding id none).2 = (s₀.store.setBinding id none).2
      rw [h.store]
      rfl
    · exact h.took.trans (by simp)
    · rintro ⟨⟩
    · rintro ⟨⟩
    · rintro ⟨⟩
  | unbound | released => exact hlate hb (by rintro ⟨⟩)

theorem decrement (h : Releasing s₀ id b ph s ((k, .cleared) ::ₘ o)) :
    Releasing s₀ id b .released (s.setStore (s.store.setPeers b.nodeId Store.decreased).2)
      ((k, .ended (.ok ())) ::ₘ o) := by
  have hd : 1 + (o.map (·.2.due)).sum = ph.due := by simpa using h.due
  obtain rfl : ph = .unbound := by
    cases ph with
    | unbound => rfl
    | whole | removed | released =>
      simp only [Phase.due] at hd
      omega
  refine h.move rfl ?_ h.agents (h.took.trans (by simp)) nofun nofun nofun rfl (zero_add _).symm
  change (s.store.setPeers b.nodeId Store.decreased).2 = s₀.store.release id b.nodeId
  rw [h.store]
  rfl

end Releasing

section turns

variable {s₀ : State} {id : SubscriptionId} {b : Binding}
  {k : {sub : Subscription // sub.id = id}} {sub : Subscription} {F : FleetError → Removal → Prop}

theorem bindingOf_release (hp : s₀.store.Placed id b) (hid : sub.id = id)
    {S : Binding → Removal → Prop} (hS : S b .resolved)
    (hF : F (.bindingMissing id) (.ended (.error (.bindingMissing id)))) :
    (bindingOf sub).run.wp ((releasing s₀ id b).turns refusals.surroundings k) (Outcome S F)
      .begun := by
  subst hid
  rw [wp_bindingOf]
  refine turn_store_of (fun _ _ _ h => h) trivial fun o s hi => ?_
  obtain ⟨ph, h⟩ := hi
  obtain ⟨stored, hs, hb⟩ := h.subscription? hp
  change ∃ γ', _ ∧ _ ∧
    ((s.store.subscription? sub.id).getD sub).binding.elim (_ : Removal → Prop) _ γ'
  rw [hs, Option.getD_some, hb]
  cases ph with
  | whole | removed =>
    exact ⟨.resolved, ⟨_, h.pass rfl rfl rfl rfl rfl rfl nofun nofun⟩, trivial, hS⟩
  | unbound =>
    exact ⟨.ended (.error (.bindingMissing sub.id)),
      ⟨.unbound, h.pass rfl rfl rfl rfl rfl rfl nofun nofun⟩, trivial, hF⟩
  | released =>
    exact ⟨.ended (.error (.bindingMissing sub.id)),
      ⟨.released, h.pass rfl rfl rfl rfl rfl rfl nofun nofun⟩, trivial, hF⟩

theorem nodeOf_release (hp : s₀.store.Placed id b) {S : Node → Removal → Prop}
    (hS : ∀ n, n.id = b.nodeId → S n .resolved) :
    (nodeOf b.nodeId).run.wp ((releasing s₀ id b).turns refusals.surroundings k) (Outcome S F)
      .resolved := by
  rw [wp_nodeOf]
  refine turn_store_of (fun _ _ _ h => h) trivial fun o s hi => ?_
  obtain ⟨ph, h⟩ := hi
  refine ⟨.resolved, ⟨ph, h.pass rfl rfl rfl rfl rfl rfl nofun nofun⟩, trivial, ?_⟩
  obtain ⟨n, hn⟩ := Option.isSome_iff_exists.mp (ph.node?_store hp)
  rw [← h.store] at hn
  change (s.store.node? b.nodeId).elim (_ : Removal → Prop) _ _
  rw [hn]
  exact hS n (Store.node?_id hn)

theorem passesPool_release : (releasing s₀ id b).PassesPool k .resolved where
  guard _ := trivial
  moves _ _ := trivial
  inv := by
    intro s m q c a h
    obtain ⟨ph, h⟩ := h
    exact ⟨ph, h.congr rfl rfl rfl⟩

theorem removePeer_release (hl : b.peerId ∈ s₀.agents b.nodeId) {n : Node} {c : Client}
    (hn : n.id = b.nodeId) (hc : c.nodeId = n.id) {S : Unit → Removal → Prop}
    (hS : S () .removed)
    (hF : ∀ e, F (.remoteCall b.nodeId .deletePeer e)
      (.ended (.error (.remoteCall b.nodeId .deletePeer e)))) :
    (removePeer n c b.peerId).run.wp ((releasing s₀ id b).turns refusals.surroundings k)
      (Outcome S F) .resolved := by
  rw [wp_removePeer]
  refine turn_of trivial fun o s a u hi he => ?_
  obtain ⟨ph, h⟩ := hi
  have hid : c.nodeId = b.nodeId := hc.trans hn
  rcases he with (⟨hp, rfl, rfl⟩ | ⟨hp, ⟨text, rfl⟩, rfl⟩) | ⟨e, ⟨_, _, ⟨⟩, he⟩, rfl, rfl⟩
  · rw [hid] at hp ⊢
    exact ⟨.removed, ⟨_, h.remove hl hp rfl rfl removals_record⟩, trivial, hS⟩
  · rw [hid] at hp
    exact ⟨.removed, ⟨ph, h.absent hl hp rfl rfl rfl removals_record⟩, trivial, hS⟩
  · rw [outcome_error]
    split_ifs with hnf
    · rw [hid] at he
      exact ⟨.removed, ⟨ph, h.absent hl (he hnf) hnf rfl rfl removals_record⟩, trivial, hS⟩
    · rw [hn]
      exact ⟨_, ⟨ph, h.refuse hnf rfl rfl removals_record⟩, trivial, hF e⟩

theorem clear_release (hp : s₀.store.Placed id b) (hid : sub.id = id)
    {S : Bool → Removal → Prop} {F : StoreError → Removal → Prop} (hyes : S true .cleared)
    (hno : S false (.ended (.ok ()))) :
    ((releasing s₀ id b).turns refusals.surroundings k).pre
      (.store (.clearBindingIf sub.id b.peerId)) (Outcome S F) .removed := by
  subst hid
  refine turn_store_of (fun _ _ _ h => h) trivial fun o s hi => ?_
  obtain ⟨ph, h⟩ := hi
  obtain ⟨ph', cleared, hok, h⟩ := h.clear hp
  refine ⟨_, ⟨ph', h.congr rfl rfl rfl⟩, trivial, ?_⟩
  change Outcome _ _ (s.store.clearBindingIf sub.id b.peerId).1 _
  rw [hok]
  cases cleared with
  | false => exact hno
  | true => exact hyes

theorem deleteClient_release (hp : s₀.store.Placed id b) (hl : b.peerId ∈ s₀.agents b.nodeId)
    (hid : sub.id = id) :
    (deleteClient sub).run.wp ((releasing s₀ id b).turns refusals.surroundings k)
      (fun r γ => γ = .ended r ∧ Settles id b r) .begun := by
  rw [← outcome_eta fun r γ => γ = Removal.ended r ∧ Settles id b r]
  refine deleteClient_wp_of (bindingOf_release hp hid ?_ ⟨rfl, .missing⟩)
  refine nodeOf_release hp fun n hn => ?_
  refine clientFor_turn_of (fun h => h) passesPool_release (fun c hc => ?_) fun _ _ _ _ h => h.elim
  refine removePeer_release hl hn hc ?_ fun e => ⟨rfl, .refused e⟩
  apply clear_release hp hid
  · rw [if_pos rfl, hn]
    refine turn_store_of (fun _ _ _ h => h) trivial fun o s hi => ?_
    obtain ⟨ph, h⟩ := hi
    exact ⟨.ended (.ok ()), ⟨.released, h.decrement.congr rfl rfl rfl⟩, trivial, rfl, .ok⟩
  · rw [if_neg Bool.false_ne_true]
    exact ⟨rfl, .ok⟩

end turns

section runs

variable {s₀ s : State} {id : SubscriptionId} {b : Binding} {ts : (deletions id).Threads}

theorem deletions_keep (hp : s₀.store.Placed id b) (hl : b.peerId ∈ s₀.agents b.nodeId) :
    (releasing s₀ id b).Keeps refusals.surroundings where
  begins := by
    intro M s k hM _
    obtain ⟨ph, h⟩ := hM.inv
    refine ⟨ph, h.store, h.agents, h.took, ?_, fun hph => ?_, ?_, ?_⟩
    · exact Multiset.forall_mem_cons.mpr ⟨nofun, h.removed⟩
    · obtain ⟨x, hx, hr⟩ := h.pending hph
      exact ⟨x, Multiset.mem_cons_of_mem hx, hr⟩
    · simpa [releasing] using h.due
    · simpa [releasing, Multiset.cons_bind] using h.reports
  follows k := wp_mono (fun _ _ h => ⟨trivial, h⟩) (deleteClient_release hp hl k.2)

def reports (ts : (deletions id).Threads) : Multiset AgentError :=
  ts.bind fun t => t.rest.result?.elim 0 reported

theorem reports_of_follows {M : Multiset (Thread Effects (deletions id).Result × Removal)}
    (hM : ∀ x ∈ M, (releasing s₀ id b).Follows refusals.surroundings x.1 x.2)
    (hd : ∀ x ∈ M, x.1.rest.next? = none) :
    reports (M.map Prod.fst) = (Discipline.stages M).bind (·.2.reports) := by
  unfold reports Discipline.stages
  rw [Multiset.bind_map, Multiset.bind_map]
  refine Multiset.bind_congr fun x hx => ?_
  obtain ⟨r, hr, hγ, -⟩ := (hM x hx).yields (hd x hx)
  rw [hr, hγ]
  rfl

/-- Any number of calls remove the peer of one subscription in any order of their turns. If an
agent removed it, the binding is gone and one place is free again, and otherwise nothing has
changed. A call that failed found no binding, or its own request to the agent failed. -/
theorem deletions_release_once (hp : s₀.store.Placed id b) (hl : b.peerId ∈ s₀.agents b.nodeId)
    (hh : s₀.removals = 0)
    (hr : (deletions id).Reaches refusals.surroundings (0, s₀) (ts, s))
    (hd : ∀ t ∈ ts, t.rest.next? = none) :
    (s.Took → s.store = s₀.store.release id b.nodeId ∧
      s.agents = (s₀.removePeer b.nodeId b.peerId).agents) ∧
    (¬ s.Took → s₀.Unchanged s) ∧
    (∀ t ∈ ts, ∃ r, t.rest.result? = some r ∧ Settles id b r) ∧
    reports ts = s.removals.bind (refusal ·.2) := by
  have hstart : (releasing s₀ id b).Staged refusals.surroundings (W := deletions id) 0 s₀ := by
    refine ⟨⟨.whole, rfl, rfl, ?_, ?_, nofun, rfl, ?_⟩, ?_⟩
    · simp [State.Took, hh]
    · exact fun x hx => absurd hx (Multiset.notMem_zero x)
    · rw [hh]
      rfl
    · exact fun x hx => absurd hx (Multiset.notMem_zero x)
  obtain ⟨M, rfl, hM⟩ := hstart.reaches (deletions_keep hp hl) hr
  obtain ⟨ph, h⟩ := hM.inv
  have hdone : ∀ x ∈ M, x.1.rest.next? = none := fun x hx => hd _ (Multiset.mem_map_of_mem _ hx)
  have hended : ∀ x ∈ Discipline.stages M, ∃ r, x.2 = .ended r := by
    intro y hy
    obtain ⟨x, hx, rfl⟩ := Multiset.mem_map.mp hy
    obtain ⟨r, -, hγ, -⟩ := (hM.follows x hx).yields (hdone x hx)
    exact ⟨r, hγ⟩
  have hend : ph = .whole ∨ ph = .released := by
    cases ph with
    | whole => exact .inl rfl
    | released => exact .inr rfl
    | removed =>
      obtain ⟨x, hx, hrem⟩ := h.pending rfl
      obtain ⟨r, hγ⟩ := hended x hx
      rw [hrem] at hγ
      cases hγ
    | unbound =>
      have hzero : ((Discipline.stages M).map (·.2.due)).sum = 0 := by
        refine Multiset.sum_eq_zero fun y hy => ?_
        obtain ⟨x, hx, rfl⟩ := Multiset.mem_map.mp hy
        obtain ⟨r, hγ⟩ := hended x hx
        rw [hγ]
        rfl
      rw [h.due] at hzero
      cases hzero
  refine ⟨fun ht => ?_, fun ht => ?_, fun t ht => ?_, ?_⟩
  · rcases hend with rfl | rfl
    · exact absurd rfl (h.took.mp ht)
    · exact ⟨h.store, h.agents⟩
  · obtain rfl : ph = .whole := by
      by_contra hne
      exact ht (h.took.mpr hne)
    exact ⟨h.store, h.agents⟩
  · obtain ⟨x, hx, rfl⟩ := Multiset.mem_map.mp ht
    obtain ⟨r, hr, -, hset⟩ := (hM.follows x hx).yields (hdone x hx)
    exact ⟨r, hr, hset⟩
  · rw [reports_of_follows hM.follows hdone]
    exact h.reports

theorem exists_overlap : (deletions 1).Can refusals.surroundings (0, .serving) fun x =>
    (∀ t ∈ x.1, t.rest.next? = none) ∧ x.2.Took := by
  let sub : Subscription := { id := 1, userId := 10, tariff := "month", expiresAt := .epoch }
  refine .start (k := ⟨sub, rfl⟩) trivial ?_
  refine .call ⟨_, .inl ⟨rfl, rfl⟩, rfl⟩ ?_
  refine .start (k := ⟨sub, rfl⟩) trivial ?_
  refine .call ⟨_, .inl ⟨rfl, rfl⟩, rfl⟩ ?_
  refine .call ⟨_, .inl ⟨rfl, rfl⟩, rfl⟩ ?_
  refine .call ⟨_, ⟨.ok (), nofun, rfl, rfl⟩, rfl⟩ ?_
  refine .call ⟨_, ⟨.ok (), nofun, rfl, rfl⟩, rfl⟩ (.note ?_)
  have hp : "p" ∈ State.serving.agents 1 := State.mem_addPeer_iff (x := (1, "p")).mpr (.inl rfl)
  refine .call (a := .ok ()) ⟨_, .inl (.inl ⟨hp, rfl, rfl⟩), rfl⟩ ?_
  refine .swap ?_
  refine .call ⟨_, .inl ⟨rfl, rfl⟩, rfl⟩ ?_
  refine .call ⟨_, ⟨.ok (), nofun, rfl, rfl⟩, rfl⟩ ?_
  have hgone : "p" ∉ (State.serving.removePeer 1 "p").agents 1 := fun h =>
    (State.mem_removePeer_iff (x := (1, "p")).mp h).1 rfl
  refine .call (a := .error (.status .deletePeer 404 ""))
    ⟨_, .inl (.inr ⟨hgone, ⟨_, rfl⟩, rfl⟩), rfl⟩ (.note ?_)
  refine .call ⟨_, .inl ⟨rfl, rfl⟩, rfl⟩ ?_
  refine .swap ?_
  refine .call ⟨_, .inl ⟨rfl, rfl⟩, rfl⟩ ?_
  refine .swap ?_
  refine .call ⟨_, .inl ⟨rfl, rfl⟩, rfl⟩ (.note (.here ⟨?_, ?_⟩))
  · refine Workload.forall_mem_pair ?_ ?_
    · rfl
    · rfl
  · refine ⟨(1, "p"), (Multiset.mem_filterMap removal? _).mpr
      ⟨⟨.agent ⟨1, 0⟩ (.delete "wg0" "p"), .ok ()⟩, ?_, rfl⟩⟩
    exact .tail _ (.tail _ (.tail _ (.tail _ (.tail _ (.tail _ (.head _))))))

theorem release_once_of_overlap : ∃ (s : State) (ts : (deletions 1).Threads) (b : Binding),
    State.serving.store.Placed 1 b ∧ b.peerId ∈ State.serving.agents b.nodeId ∧
    State.serving.removals = 0 ∧
    (deletions 1).Reaches refusals.surroundings (0, .serving) (ts, s) ∧
    (∀ t ∈ ts, t.rest.next? = none) ∧ s.Took ∧
    s.store = State.serving.store.release 1 b.nodeId ∧
    s.agents = (State.serving.removePeer b.nodeId b.peerId).agents := by
  obtain ⟨⟨ts, s⟩, hr, hd, ht⟩ := exists_overlap
  let b : Binding := ⟨1, "p", ⟨"", "", "10.8.0.2"⟩⟩
  have hp : State.serving.store.Placed 1 b := ⟨⟨_, rfl, rfl⟩, rfl⟩
  have hl : b.peerId ∈ State.serving.agents b.nodeId :=
    State.mem_addPeer_iff (x := b.peer).mpr (.inl rfl)
  exact ⟨s, ts, b, hp, hl, rfl, hr, hd, ht, (deletions_release_once hp hl rfl hr hd).1 ht⟩

end runs

end PeerFleet.Fleet
