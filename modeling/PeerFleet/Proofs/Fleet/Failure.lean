import PeerFleet.Proofs.Fleet.Atomicity

/-! # What a failure tells its caller

A caller waits where a failure may clear up and gives up where the peer is gone. A full fleet is
always worth waiting for. One kind of failure tells the caller both: that an agent was called and
does not know the peer. No removal ends with it, but the suspension of a peer that its agent has
lost does.
-/

namespace PeerFleet

theorem AgentError.isNotFound_iff {e : AgentError} :
    e.isNotFound = true ↔ ∃ operation text, e = .status operation 404 text := by
  constructor
  · intro h
    unfold isNotFound at h
    split at h
    · exact ⟨_, _, rfl⟩
    · cases h
  · rintro ⟨operation, text, rfl⟩
    rfl

namespace FleetError

variable {e : FleetError}

/-- An agent was called and answered that it does not know what it was asked for. -/
def Unknown (e : FleetError) : Prop :=
  ∃ node operation refused text, e = .remoteCall node operation (.status refused 404 text)

theorem unknown_remoteCall_iff {node : NodeId} {operation : Operation} {source : AgentError} :
    (remoteCall node operation source).Unknown ↔ source.isNotFound = true := by
  rw [AgentError.isNotFound_iff]
  constructor
  · rintro ⟨_, _, refused, text, ⟨⟩⟩
    exact ⟨refused, text, rfl⟩
  · rintro ⟨refused, text, rfl⟩
    exact ⟨node, operation, refused, text, rfl⟩

theorem isPeerGone_iff : e.isPeerGone = true ↔
    (∃ id, e = .bindingMissing id) ∨ (∃ id, e = .nodeMissing id) ∨ e.Unknown := by
  constructor
  · intro h
    cases e with
    | bindingMissing id => exact .inl ⟨id, rfl⟩
    | nodeMissing id => exact .inr (.inl ⟨id, rfl⟩)
    | remoteCall => exact .inr (.inr (unknown_remoteCall_iff.mpr h))
    | _ => cases h
  · rintro (⟨id, rfl⟩ | ⟨id, rfl⟩ | ⟨_, _, _, _, rfl⟩) <;> rfl

theorem isRetryable_iff : e.isRetryable = true ↔
    e.isCapacity = true ∨ (∃ node operation source, e = .remoteCall node operation source) ∨
      ∃ source, e = .store source := by
  constructor
  · intro h
    cases e with
    | remoteCall node operation source => exact .inr (.inl ⟨node, operation, source, rfl⟩)
    | store source => exact .inr (.inr ⟨source, rfl⟩)
    | _ => exact .inl h
  · rintro (h | ⟨node, operation, source, rfl⟩ | ⟨source, rfl⟩)
    · cases e with
      | noNodesAvailable | atCapacity => rfl
      | _ => cases h
    · rfl
    · rfl

theorem gone_and_retryable_iff :
    e.isPeerGone = true ∧ e.isRetryable = true ↔ e.Unknown := by
  constructor
  · rintro ⟨hg, hr⟩
    obtain ⟨id, rfl⟩ | ⟨id, rfl⟩ | hu := isPeerGone_iff.mp hg
    · cases hr
    · cases hr
    · exact hu
  · intro hu
    refine ⟨isPeerGone_iff.mpr (.inr (.inr hu)), isRetryable_iff.mpr (.inr (.inl ?_))⟩
    obtain ⟨node, operation, _, _, rfl⟩ := hu
    exact ⟨node, operation, _, rfl⟩

/-- No failure is both for good and worth another try, exactly unless an agent does not know the
peer. A full fleet is worth another try and never means that a peer is gone. -/
theorem gone_not_retryable_iff (e : FleetError) :
    ((e.isPeerGone = true → e.isRetryable = false) ↔ ¬ e.Unknown) ∧
      (e.isCapacity = true → e.isRetryable = true ∧ e.isPeerGone = false) := by
  constructor
  · rw [← gone_and_retryable_iff, not_and, Bool.not_eq_true]
  · intro hc
    refine ⟨isRetryable_iff.mpr (.inl hc), ?_⟩
    cases e with
    | noNodesAvailable | atCapacity => rfl
    | _ => cases hc

end FleetError

namespace Fleet

open Program

def Request.Removes : Request → Prop
  | .delete _ | .discard _ => True
  | _ => False

section removal

variable {σ : Type*} {E : Environment Effects σ} {s s' : σ} {α β : Type}

variable (E) in
/-- Whatever is answered, a program does not fail because of an unknown peer. -/
abbrev Informed (p : Attempt α) : Prop :=
  ∀ s, p.run.wp E.logic (Outcome (fun _ _ => True) fun e _ => ¬ e.Unknown) s

theorem informed_bind {p : Attempt α} {f : α → Attempt β} (hp : Informed E p)
    (hf : ∀ a, Informed E (f a)) : Informed E (p >>= f) := fun s =>
  wp_run_bind_of (wp_mono (fun _ _ h => h.mono (fun a u _ => hf a u) fun _ _ he => he) (hp s))

theorem informed_lift (p : FleetProgram α) : Informed E (liftM p : Attempt α) := by
  intro s
  rw [wp_run_lift]
  exact wp_of_runs fun _ _ _ => trivial

theorem informed_fromStore (c : StoreCall) : Informed E (fromStore c) := by
  intro s
  rw [wp_fromStore]
  rintro (e | r) _ -
  · exact nofun
  · trivial

theorem informed_clientFor (n : Node) : Informed E (clientFor n) := by
  intro s
  rw [wp_clientFor]
  intro filed t _
  cases filed with
  | some k => trivial
  | none =>
    rintro (e | r) _ -
    · exact nofun
    · trivial

theorem informed_nodeOf (id : NodeId) : Informed E (nodeOf id) := by
  refine informed_bind (informed_fromStore _) ?_
  rintro (_ | n) s
  · exact nofun
  · trivial

theorem informed_bindingOf (sub : Subscription) : Informed E (bindingOf sub) := by
  refine informed_bind (informed_fromStore _) fun stored s => ?_
  change Option Subscription at stored
  cases (stored.getD sub).binding with
  | none => exact nofun
  | some b => trivial

theorem informed_removePeer (n : Node) (k : Client) (p : String) :
    Informed E (removePeer n k p) := by
  intro s
  rw [wp_removePeer]
  rintro (e | r) _ -
  · rw [outcome_error]
    split_ifs with h
    · trivial
    · exact mt FleetError.unknown_remoteCall_iff.mp h
  · trivial

theorem not_unknown_of_removal {r : Request} {e : FleetError} (hr : r.Removes)
    (h : Runs E r.program.run s (.error e) s') : ¬ e.Unknown := by
  have hi : Informed E r.program := by
    cases r with
    | delete sub =>
      refine informed_bind (informed_bind (informed_bindingOf sub) fun b =>
        informed_bind (informed_nodeOf b.nodeId) fun n =>
          informed_bind (informed_clientFor n) fun k s => trivial) fun (b, n, k) => ?_
      refine informed_bind (informed_removePeer n k b.peerId) fun _ => ?_
      refine informed_bind (informed_fromStore _) fun cleared => ?_
      cases cleared with
      | false => exact fun s => trivial
      | true => exact informed_bind (informed_lift _) fun _ => informed_lift _
    | discard b =>
      refine informed_bind (informed_nodeOf b.nodeId) fun n =>
        informed_bind (informed_clientFor n) fun k => ?_
      refine informed_bind (informed_removePeer n k b.peerId) fun _ => ?_
      exact informed_bind (informed_lift _) fun _ => informed_lift _
    | create | disable | enable | recount => exact hr.elim
  exact h.of_wp (hi s)

end removal

theorem exists_unknown {C : Conditions} {s : State} {sub : Subscription} {b : Binding} {n : Node}
    (hb : ((s.store.subscription? sub.id).getD sub).binding = some b)
    (hn : s.store.node? b.nodeId = some n) (hp : b.peerId ∉ s.agents b.nodeId) :
    Can C.surroundings (disableClient sub).run
      (Outcome (fun _ _ => False) fun e s' => e.Unknown ∧ s.Unchanged s') s := by
  refine .of_wp (disableClient_wp_of ?_)
  rw [wp_bindingOf]
  refine ⟨.ok (s.store.subscription? sub.id), _, ⟨_, .inl ⟨rfl, rfl⟩, rfl⟩, ?_⟩
  change ((s.store.subscription? sub.id).getD sub).binding.elim (_ : State → Prop) _ _
  rw [hb]
  change (nodeOf b.nodeId).run.wp _ _ _
  rw [wp_nodeOf]
  refine ⟨.ok (some n), _, ⟨_, .inl ⟨congrArg Except.ok hn.symm, rfl⟩, rfl⟩, ?_⟩
  refine clientFor_chance fun k u hu hk => ?_
  rw [wp_remote]
  refine ⟨.error (.status .disablePeer 404 ""), _, ⟨u, .inl (.inr ⟨?_, ⟨"", rfl⟩, rfl⟩), rfl⟩, ?_⟩
  · rw [hk, hu.agents, Store.node?_id hn]
    exact hp
  · exact ⟨FleetError.unknown_remoteCall_iff.mpr rfl, hu.unchanged⟩

/-- A subscription is bound to a peer that its agent has lost. Its suspension fails, and the
failure tells the caller that the peer is gone and that it may clear up. -/
theorem failure_gone_and_retryable : ∃ e s',
    Runs remoteTroubles.surroundings
      (disableClient { id := 1, userId := 10, tariff := "month", expiresAt := .epoch }).run
      (State.serving.removePeer 1 "p") (.error e) s' ∧
    e.isPeerGone = true ∧ e.isRetryable = true := by
  let s : State := State.serving.removePeer 1 "p"
  let sub : Subscription := { id := 1, userId := 10, tariff := "month", expiresAt := .epoch }
  let b : Binding := ⟨1, "p", ⟨"", "", "10.8.0.2"⟩⟩
  have hb : ((s.store.subscription? sub.id).getD sub).binding = some b := rfl
  have hp : "p" ∉ s.agents 1 := fun hp => (State.mem_removePeer_iff (x := (1, "p")).mp hp).1 rfl
  obtain ⟨res, s', hr, hq⟩ := exists_unknown (C := remoteTroubles) hb rfl hp
  rcases res with e | _
  · obtain ⟨hu, -⟩ := hq
    exact ⟨e, s', hr, FleetError.gone_and_retryable_iff.mpr hu⟩
  · exact hq.elim

end Fleet

end PeerFleet
