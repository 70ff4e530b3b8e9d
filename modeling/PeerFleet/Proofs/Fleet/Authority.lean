import PeerFleet.Proofs.Fleet.Omission
import PeerFleet.Proofs.Fleet.Operations

/-! # The stored record and the caller's copy

A caller hands over a copy of a subscription, which may be stale. If the subscription is stored,
an operation on its peer uses nothing of the copy but the id, so that every other copy leads to
the same runs. Suspending and resuming peers then changes nothing but whether they are enabled,
and a peer is enabled or not as the last successful call for it said.
-/

namespace PeerFleet.Fleet

open Program

section copies

variable {C : Conditions} {s s' : State} {a b : Subscription}

theorem bindingOf_wp_of_copy {Q : Except FleetError Binding → State → Prop} (hid : a.id = b.id)
    (hs : (s.store.subscription? a.id).isSome) (h : (bindingOf a).run.wp C.logic Q s) :
    (bindingOf b).run.wp C.logic Q s := by
  obtain ⟨stored, hstored⟩ := Option.isSome_iff_exists.mp hs
  rw [wp_bindingOf] at h ⊢
  rw [← hid]
  refine pre_store ?_ fun e he => h _ _ ⟨_, .inr ⟨e, he, rfl, rfl⟩, rfl⟩
  have hfound := h _ _ ⟨_, .inl ⟨rfl, rfl⟩, rfl⟩
  change ((s.store.subscription? a.id).getD a).binding.elim (_ : State → Prop) _ _ at hfound
  change ((s.store.subscription? a.id).getD b).binding.elim (_ : State → Prop) _ _
  rw [hstored] at hfound ⊢
  exact hfound

def peerOperations : List (Subscription → Attempt Unit) :=
  [disableClient, enableClient, deleteClient]

/-- An operation looks its subscription up, and from then on only the id is used. -/
theorem exists_eq_resolve_bind {op : Subscription → Attempt Unit} (hop : op ∈ peerOperations)
    (hid : a.id = b.id) : ∃ g, op a = resolve a >>= g ∧ op b = resolve b >>= g := by
  simp only [peerOperations, List.mem_cons, List.not_mem_nil, or_false] at hop
  rcases hop with rfl | rfl | rfl
  all_goals
    refine ⟨_, rfl, ?_⟩
    rw [hid]
    rfl

theorem runs_of_copy {op : Subscription → Attempt Unit} {r : Except FleetError Unit}
    (hop : op ∈ peerOperations) (hid : a.id = b.id) (hs : (s.store.subscription? a.id).isSome)
    (hr : Runs C.surroundings (op a).run s r s') : Runs C.surroundings (op b).run s r s' := by
  obtain ⟨g, ha, hb⟩ := exists_eq_resolve_bind hop hid
  rw [ha] at hr
  rw [hb]
  refine hr.of_forall_wp fun Q h => ?_
  rw [resolve, wp_run_bind, wp_run_bind] at h ⊢
  exact bindingOf_wp_of_copy hid.symm (hid ▸ hs) h

end copies

section ends

/-- The peers that an agent was asked to create. -/
def creation? : Exchange → Option String
  | ⟨.agent _ (.create _ name), _⟩ => some name
  | _ => none

theorem exists_answer {C : Conditions} (c : Effect) (s : State)
    (hc : ∀ a, creation? ⟨c, a⟩ = none) : ∃ a s', C.surroundings c s a s' := by
  obtain ⟨a, s', u, hu, hs'⟩ := Conditions.total (C := { C with issues := fun _ _ _ => True })
    (fun _ _ => ⟨"", trivial⟩) c s
  cases c with
  | agent k c =>
    cases c with
    | create i q => cases hc a
    | enable | disable | delete | get | list => exact ⟨a, s', u, hu, hs'⟩
  | store | pool | close | message | probe | health | suffix => exact ⟨a, s', u, hu, hs'⟩

theorem exists_runs_of_ignores {C : Conditions} {α : Type} {p : FleetProgram α}
    (hp : Ignores creation? p) (s : State) : ∃ a s', Runs C.surroundings p s a s' := by
  induction p generalizing s with
  | done a => exact ⟨a, s, .done a s⟩
  | note _ rest ih =>
    obtain ⟨a, s', hr⟩ := ih hp s
    exact ⟨a, s', .note hr⟩
  | call c rest ih =>
    obtain ⟨a, s', he⟩ := exists_answer c s fun a => (hp a).1
    obtain ⟨b, s'', hr⟩ := ih a (hp a).2 s'
    exact ⟨b, s'', .call he hr⟩

theorem ignores_creation_of_mem {op : Subscription → Attempt Unit} (hop : op ∈ peerOperations)
    (sub : Subscription) : Ignores creation? (op sub).run := by
  have hresolve : Ignores creation? (resolve sub).run := by
    apply ignores_run_bind
    · apply ignores_run_bind (ignores_fromStore fun _ => rfl)
      intro stored
      cases (stored.getD sub).binding <;> trivial
    intro b
    apply ignores_run_bind (ignores_nodeOf fun _ => rfl)
    intro n
    exact ignores_run_bind (ignores_clientFor fun _ _ => rfl) fun _ => trivial
  simp only [peerOperations, List.mem_cons, List.not_mem_nil, or_false] at hop
  rcases hop with rfl | rfl | rfl
  · exact ignores_run_bind hresolve fun _ => ignores_run_bind (ignores_remote fun _ => rfl)
      fun _ => trivial
  · exact ignores_run_bind hresolve fun _ => ignores_run_bind (ignores_remote fun _ => rfl)
      fun _ => trivial
  · refine ignores_run_bind hresolve fun _ => ?_
    refine ignores_run_bind (ignores_removePeer fun _ => rfl) fun _ => ?_
    refine ignores_run_bind (ignores_fromStore fun _ => rfl) fun cleared => ?_
    cases cleared with
    | false => trivial
    | true =>
      exact ignores_run_bind (ignores_run_lift (ignores_count fun _ => rfl)) fun _ => trivial

end ends

def switchClient (enabled : Bool) : Subscription → Attempt Unit :=
  if enabled then enableClient else disableClient

/-- A call for a subscription may fail if its peer is not on a registered node, or for want of a
channel. -/
def State.Excuses (s : State) (id : SubscriptionId) (e : FleetError) : Prop :=
  ∀ x, s.store.boundTo id = some x → s.Live x → ∃ n e', e = .clientConstruction n e'

/-- What a call for a stored subscription comes to. -/
def Switched (enabled : Bool) (id : SubscriptionId) (s : State) :
    Except FleetError Unit → State → Prop :=
  Outcome
    (fun _ u => ∃ x, s.store.boundTo id = some x ∧ s.Live x ∧
      (s.setEnabled x.1 x.2 enabled).Quiet u)
    fun e u => s.Quiet u ∧ s.Excuses id e

section switch

variable {enabled : Bool} {sub : Subscription} {s t u : State}

theorem boundTo_eq (hs : (s.store.subscription? sub.id).isSome) : s.store.boundTo sub.id =
    ((s.store.subscription? sub.id).getD sub).binding.map Binding.peer := by
  obtain ⟨stored, hstored⟩ := Option.isSome_iff_exists.mp hs
  rw [Store.boundTo, hstored]
  rfl

theorem switched_of_hinders (enabled : Bool) {e : FleetError}
    (hs : (s.store.subscription? sub.id).isSome) (he : answers.Hinders sub s e)
    (hu : s.Quiet u) : Switched enabled sub.id s (.error e) u := by
  refine ⟨hu, fun x hx hl => ?_⟩
  rw [boundTo_eq hs] at hx
  cases he with
  | unbound hb =>
    rw [hb] at hx
    cases hx
  | unregistered b hb hn =>
    rw [hb] at hx
    obtain rfl := Option.some.inj hx
    exact absurd hl.1 (by simp [Binding.peer, hn])
  | unconnected id e => exact ⟨id, e, rfl⟩
  | refused b t e hb ht he =>
    rw [hb] at hx
    obtain rfl := Option.some.inj hx
    rcases he with ⟨hm, -⟩ | ⟨_, he⟩
    · exact absurd hl.2 (ht.agents ▸ hm)
    · exact he.elim

theorem switched_of_changes {n : NodeId} {p : String} {operation : Operation}
    {a : Except AgentError Unit} (ht : s.Quiet t) (hp : s.store.boundTo sub.id = some (n, p))
    (hn : (s.store.node? n).isSome)
    (h : Conditions.changes t n p operation (t.setEnabled n p enabled) a u) (c : Effect)
    (b : c.Answer) :
    Outcome (fun _ => Switched enabled sub.id s (.ok ()))
      (fun e => Switched enabled sub.id s (.error (.remoteCall n operation e))) a
      (u.record c b) := by
  rcases h with ⟨hm, rfl, rfl⟩ | ⟨hm, ⟨text, rfl⟩, rfl⟩
  · rw [ht.agents] at hm
    exact ⟨(n, p), hp, ⟨hn, hm⟩, (ht.setEnabled enabled).record _ _⟩
  · refine ⟨ht.record _ _, fun x hx hl => ?_⟩
    obtain rfl := Option.some.inj (hp.symm.trans hx)
    rw [ht.agents] at hm
    exact absurd hl.2 hm

theorem resolve_bind_switched {g : Binding × Node × Client → Attempt Unit}
    (hs : (s.store.subscription? sub.id).isSome)
    (hg : ∀ b n k t, s.Quiet t → s.store.boundTo sub.id = some (n.id, b.peerId) →
      (s.store.node? n.id).isSome → k.nodeId = n.id →
      (g (b, n, k)).run.wp answers.logic (Switched enabled sub.id s) t) :
    (resolve sub >>= g).run.wp answers.logic (Switched enabled sub.id s) s := by
  refine wp_run_bind_of (resolve_wp_of_fault answers_faultsOnSave (fun b n k t ht hb hn hk => ?_)
    fun e u he hu => switched_of_hinders enabled hs he hu)
  have hid := Store.node?_id hn
  refine hg b n k t ht ?_ ?_ hk
  · rw [boundTo_eq hs, hb, hid]
    rfl
  · rw [hid, hn]
    rfl

theorem switchClient_wp (hs : (s.store.subscription? sub.id).isSome) :
    (switchClient enabled sub).run.wp answers.logic (Switched enabled sub.id s) s := by
  cases enabled
  all_goals
    refine resolve_bind_switched hs fun b n k t ht hp hn hk => ?_
    refine wp_run_bind_of (wp_remote_of (pre_agent (fun a u h => ?_) fun e u he => he.elim))
    rw [hk] at h
    exact switched_of_changes ht hp hn h _ _

end switch

/-- A call that resumes or suspends a peer, with its result. -/
structure Switch where
  enabled : Bool
  sub : Subscription
  result : Except FleetError Unit

def Switch.sets (t : Store) (x : NodeId × String) (c : Switch) : Bool :=
  c.result.isOk && t.boundTo c.sub.id == some x

/-- What the last successful call for a peer set it to. -/
def lastSet? (t : Store) (x : NodeId × String) (log : List Switch) : Option Bool :=
  (log.reverse.find? (Switch.sets t x)).map Switch.enabled

/-- Calls for stored subscriptions, one after another, from one state to another. -/
inductive Switches : State → List Switch → State → Prop
  | nil (s : State) : Switches s [] s
  | cons {c : Switch} {log : List Switch} {s s' u : State} :
      (s.store.subscription? c.sub.id).isSome →
      Runs answers.surroundings (switchClient c.enabled c.sub).run s c.result s' →
      Switches s' log u → Switches s (c :: log) u

/-- A call succeeded and its peer is on a registered node, or it failed and had cause to. -/
def Switch.Rightful (s : State) (c : Switch) : Prop :=
  match c.result with
  | .ok () => ∃ x, s.store.boundTo c.sub.id = some x ∧ s.Live x
  | .error e => s.Excuses c.sub.id e

section switches

variable {s s' u : State} {c c' : Switch} {log : List Switch} {x : NodeId × String} {t : Store}

theorem lastSet?_cons : lastSet? t x (c :: log) =
    (lastSet? t x log).or (if c.sets t x then some c.enabled else none) := by
  rw [lastSet?, List.reverse_cons, List.find?_append, Option.map_or, lastSet?]
  cases hc : c.sets t x <;> simp [hc]

theorem of_switched (h : Switched c.enabled c.sub.id s c.result s') :
    s'.store = s.store ∧ c.Rightful s ∧ ∀ x, (s'.agents x.1).lookup x.2 =
      ((s.agents x.1).lookup x.2).map fun flag =>
        if c.sets s.store x then c.enabled else flag := by
  obtain ⟨enabled, sub, result⟩ := c
  cases result with
  | ok a =>
    obtain ⟨y, hy, hl, hq⟩ := h
    refine ⟨hq.store, ⟨y, hy, hl⟩, fun x => ?_⟩
    have hsets : Switch.sets s.store x ⟨enabled, sub, .ok a⟩ = true ↔ y = x := by
      simp [Switch.sets, hy, Except.isOk, Except.toBool]
    rw [hq.agents, State.lookup_setEnabled]
    simp only [hsets, eq_comm (a := x)]
    by_cases hx : y = x <;> simp [hx]
  | error e =>
    obtain ⟨hq, he⟩ := h
    refine ⟨hq.store, he, fun x => ?_⟩
    rw [hq.agents]
    simp [Switch.sets, Except.isOk, Except.toBool]

theorem live_iff_of_switched (h : Switched c.enabled c.sub.id s c.result s') :
    s'.Live x ↔ s.Live x := by
  obtain ⟨hstore, -, hflags⟩ := of_switched h
  have hm : x.2 ∈ s'.agents x.1 ↔ x.2 ∈ s.agents x.1 := by
    rw [← Finmap.lookup_isSome, ← Finmap.lookup_isSome, hflags, Option.isSome_map]
  rw [State.Live, State.Live, hstore, hm]

theorem rightful_iff_of_switched (h : Switched c.enabled c.sub.id s c.result s') :
    c'.Rightful s' ↔ c'.Rightful s := by
  unfold Switch.Rightful State.Excuses
  simp only [(of_switched h).1, live_iff_of_switched h]

/-- However often peers are suspended and resumed, nothing changes but their flags, and a flag
is as the last successful call for its peer set it. -/
theorem Switches.flags (h : Switches s log u) :
    u.store = s.store ∧ (∀ c ∈ log, c.Rightful s) ∧
    ∀ x, (u.agents x.1).lookup x.2 =
      ((s.agents x.1).lookup x.2).map (lastSet? s.store x log).getD := by
  induction h with
  | nil s => exact ⟨rfl, List.forall_mem_nil _, fun x => (congrFun Option.map_id _).symm⟩
  | @cons c log s s' u hs hr hrest ih =>
    have hc := hr.of_wp (switchClient_wp hs)
    obtain ⟨hstore, hright, hflags⟩ := of_switched hc
    obtain ⟨hu, hlog, hlast⟩ := ih
    refine ⟨hu.trans hstore, ?_, fun x => ?_⟩
    · refine List.forall_mem_cons.mpr ⟨hright, fun c' hc' => ?_⟩
      exact (rightful_iff_of_switched hc).mp (hlog c' hc')
    · rw [hlast, hflags, hstore, lastSet?_cons, Option.map_map]
      refine congrArg (Option.map · _) (funext fun flag => ?_)
      rw [Function.comp_apply, Option.getD_or]
      split_ifs <;> rfl

end switches

/-- The stored record counts and not the caller's copy. Whatever fails, two copies of a stored
subscription let each operation on its peer do the same. However often peers are suspended and
resumed, counters, bindings and statuses stay as they are, and a peer is enabled or not as the
last successful call for it said. -/
theorem stored_record_counts (s : State) :
    (∀ (C : Conditions) (a b : Subscription), a.id = b.id →
      (s.store.subscription? a.id).isSome → ∀ op ∈ peerOperations,
        (∃ r u, Runs C.surroundings (op a).run s r u) ∧
        ∀ r u, Runs C.surroundings (op a).run s r u ↔ Runs C.surroundings (op b).run s r u) ∧
    ∀ log u, Switches s log u →
      u.store = s.store ∧ (∀ c ∈ log, c.Rightful s) ∧
      ∀ x, (u.agents x.1).lookup x.2 =
        ((s.agents x.1).lookup x.2).map (lastSet? s.store x log).getD := by
  refine ⟨fun C a b hid hs op hop => ⟨?_, fun r u => ⟨?_, ?_⟩⟩, fun log u h => h.flags⟩
  · exact exists_runs_of_ignores (ignores_creation_of_mem hop a) s
  · exact runs_of_copy hop hid hs
  · exact runs_of_copy hop hid.symm (hid ▸ hs)

/-- A copy of the subscription that is served, with a peer that it has no more. -/
def stale : Subscription :=
  { id := 1, userId := 7, tariff := "year", expiresAt := .epoch, status := .expired,
    binding := some ⟨2, "q", ⟨"", "", "10.8.0.9"⟩⟩ }

theorem exists_switches : ∃ u, Switches .serving
    [⟨true, stale, .ok ()⟩, ⟨false, stale, .ok ()⟩] u := by
  have hp : "p" ∈ State.serving.agents 1 := State.mem_addPeer_iff (x := (1, "p")).mpr (.inl rfl)
  have hon : "p" ∈ (State.serving.setEnabled 1 "p" true).agents 1 :=
    (State.mem_setEnabled_iff (x := (1, "p"))).mpr hp
  have htwo : Can answers.surroundings (switchClient true stale).run (fun r s => r = .ok () ∧
      (s.store.subscription? stale.id).isSome ∧
      Can answers.surroundings (switchClient false stale).run (fun r _ => r = .ok ()) s)
      .serving := by
    refine .call ⟨_, .inl ⟨rfl, rfl⟩, rfl⟩ ?_
    refine .call ⟨_, .inl ⟨rfl, rfl⟩, rfl⟩ ?_
    refine .call ⟨_, ⟨.ok (), nofun, rfl, rfl⟩, rfl⟩ ?_
    refine .call ⟨_, ⟨.ok (), nofun, rfl, rfl⟩, rfl⟩ (.note ?_)
    refine .call ⟨_, .inl (.inl ⟨hp, rfl, rfl⟩), rfl⟩ (.note (.done ⟨rfl, rfl, ?_⟩))
    refine .call ⟨_, .inl ⟨rfl, rfl⟩, rfl⟩ ?_
    refine .call ⟨_, .inl ⟨rfl, rfl⟩, rfl⟩ ?_
    refine .call ⟨_, ⟨.ok (), nofun, rfl, rfl⟩, rfl⟩ ?_
    exact .call ⟨_, .inl (.inl ⟨hon, rfl, rfl⟩), rfl⟩ (.note (.done rfl))
  obtain ⟨_, s, hs, rfl, hstored, _, u, hu, rfl⟩ := htwo
  exact ⟨u, .cons rfl hs (.cons hstored hu (.nil u))⟩

theorem stale_copy_counts_for_stored : ∃ u : State,
    (∀ r t, Runs answers.surroundings (deleteClient stale).run .serving r t ↔
      Runs answers.surroundings (deleteClient { stale with binding := none }).run .serving r t) ∧
    Switches .serving [⟨true, stale, .ok ()⟩, ⟨false, stale, .ok ()⟩] u ∧
    u.store = State.serving.store ∧ (u.agents 1).lookup "p" = some false := by
  obtain ⟨u, hu⟩ := exists_switches
  obtain ⟨hcopies, hruns⟩ := stored_record_counts .serving
  obtain ⟨hstore, -, hflags⟩ := hruns _ u hu
  refine ⟨u, ?_, hu, hstore, (hflags (1, "p")).trans rfl⟩
  exact (hcopies answers stale { stale with binding := none } rfl rfl deleteClient
    (by simp [peerOperations])).2

end PeerFleet.Fleet
