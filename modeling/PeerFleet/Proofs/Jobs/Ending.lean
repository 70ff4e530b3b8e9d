import PeerFleet.Proofs.Fleet.Operations
import PeerFleet.Proofs.Jobs.Shape
import PeerFleet.Proofs.Program.Parts

/-! # What an expiration pass ends

A pass that runs alone while channels and agents fail as they like. Each subscription whose
time is up is over afterwards, and then no peer works for it, or it is as it was, and then its
peer could not be suspended. The pass leaves everything else alone.
-/

namespace PeerFleet

def Agent.Call.peer? : Agent.Call → Option String
  | .enable _ p | .disable _ p | .delete _ p | .get _ p => some p
  | .create _ _ | .list _ => none

namespace Expiration

open Fleet Program

/-- Channels and agents may fail at any time, but no agent says that it does not know a peer
that it has. The store does not fail. -/
def outages : Conditions where
  storeFault _ _ _ := False
  connectFault _ _ _ := True
  agentFault s n c e := e.isNotFound = true → ∀ p, c.peer? = some p → p ∉ s.agents n
  issues _ _ _ := True

theorem outages_faultsOnSave : outages.FaultsOnSave := fun _ _ _ h => h.elim

theorem outages_total : outages.surroundings.Total :=
  Conditions.total fun _ _ => ⟨"", trivial⟩

/-- What ending some subscriptions leaves as it was. -/
structure Spares (subs : List Subscription) (s s' : State) : Prop where
  nodes : s'.store.nodes = s.store.nodes
  others : ∀ id ∉ subs.map Subscription.id,
    s'.store.subscription? id = s.store.subscription? id
  peers : ∀ n p, (∀ sub ∈ subs, sub.peer? ≠ some (n, p)) →
    (s'.agents n).lookup p = (s.agents n).lookup p
  working : ∀ x, s'.Working x → s.Working x

section spares

variable {s t u : State} {sub : Subscription} {subs l : List Subscription} {b : Binding}

theorem Spares.mono (h : Spares subs s t) (hl : subs ⊆ l) : Spares l s t where
  nodes := h.nodes
  others id hid := h.others id fun hm => hid (List.map_subset _ hl hm)
  peers n p hp := h.peers n p fun sub hm => hp sub (hl hm)
  working := h.working

theorem Spares.trans (h : Spares subs s t) (h' : Spares subs t u) : Spares subs s u where
  nodes := h'.nodes.trans h.nodes
  others id hid := (h'.others id hid).trans (h.others id hid)
  peers n p hp := (h'.peers n p hp).trans (h.peers n p hp)
  working x hx := h.working x (h'.working x hx)

theorem Spares.cons (h : Spares [sub] s t) (h' : Spares subs t u) : Spares (sub :: subs) s u :=
  (h.mono (by simp)).trans (h'.mono (by simp))

theorem spares_of_quiet (h : s.Quiet u) : Spares subs s u where
  nodes := by rw [h.store]
  others _ _ := by rw [h.store]
  peers _ _ _ := by rw [h.agents]
  working _ := h.working_iff.mp

theorem spares_setEnabled (hb : sub.binding = some b) :
    Spares [sub] s (s.setEnabled b.nodeId b.peerId false) where
  nodes := rfl
  others _ _ := rfl
  peers n p hp := by
    have hne : (n, p) ≠ (b.nodeId, b.peerId) := by
      rintro ⟨⟩
      exact hp sub List.mem_cons_self (by rw [Subscription.peer?, hb]; rfl)
    exact (State.lookup_setEnabled (x := (n, p))).trans (if_neg hne)
  working _ hx := (State.working_setEnabled_false_iff.mp hx).1

theorem spares_updateStatus {status : SubscriptionStatus} :
    Spares [sub] s (s.setStore (s.store.updateStatus sub.id status).2) where
  nodes := Store.modifySubscription_nodes
  others id hid := by
    have hne : id ≠ sub.id := by simpa using hid
    exact Store.modifySubscription_subscription?.trans (if_neg hne)
  peers _ _ _ := rfl
  working _ := by
    apply Iff.mp
    apply State.working_setStore_iff
    intro id
    exact congrArg Option.isSome Store.modifySubscription_node?

end spares

/-- A subscription is over. It has no peer, or the peer's node is not registered, or its agent
does not have the peer, or the peer is disabled. -/
structure Ended (s' : State) (sub : Subscription) : Prop where
  stored : s'.store.subscription? sub.id = some { sub with status := .expired }
  idle : ∀ b, sub.binding = some b → s'.store.node? b.nodeId = none ∨
    b.peerId ∉ s'.agents b.nodeId ∨ (s'.agents b.nodeId).lookup b.peerId = some false

/-- In a run of a program the peer of a subscription could not be suspended, and it is not gone. -/
def Resists {α : Type} (p : FleetProgram α) (s : State) (a : α) (s' : State)
    (sub : Subscription) : Prop :=
  ∃ t e t', Contains outages.surroundings p s a s' (disableClient sub).run t (.error e) t' ∧
    e.isPeerGone = false

section single

variable {s s' t u : State} {sub : Subscription} {subs : List Subscription} {b : Binding}

theorem not_working_of_gone {e : FleetError} (hs : s.store.subscription? sub.id = some sub)
    (hb : sub.binding = some b) (he : outages.Hinders sub s e) (hg : e.isPeerGone = true) :
    ¬ s.Working b.peer := by
  have hbound : ((s.store.subscription? sub.id).getD sub).binding = some b := by rw [hs]; exact hb
  rw [Binding.peer, State.not_working_iff]
  cases he with
  | unbound hn =>
    rw [hbound] at hn
    cases hn
  | unregistered c hc hn =>
    rw [hbound] at hc
    cases hc
    exact .inl hn
  | unconnected => cases hg
  | refused c t e hc ht he =>
    rw [hbound] at hc
    cases hc
    right
    left
    rw [← ht.agents]
    rcases he with ⟨hp, -⟩ | ⟨i, hf⟩
    · exact hp
    · exact hf hg b.peerId rfl

theorem disable_runs {r : Except FleetError Unit} (hs : s.store.subscription? sub.id = some sub)
    (hb : sub.binding = some b)
    (h : Runs outages.surroundings (disableClient sub).run s r u) :
    u.store = s.store ∧ Spares [sub] s u ∧
      ((∀ e, r = .error e → e.isPeerGone = true) → ¬ u.Working b.peer) := by
  have hbound : ((s.store.subscription? sub.id).getD sub).binding = some b := by rw [hs]; exact hb
  have hw : (disableClient sub).run.wp outages.logic
      (Outcome (fun _ u => (s.setEnabled b.nodeId b.peerId false).Quiet u)
        fun e u => outages.Hinders sub s e ∧ s.Quiet u) s := by
    refine disableClient_wp_of_fault outages_faultsOnSave (fun c u hc hu => ?_)
      fun e u he hu => ⟨he, hu⟩
    rw [hbound] at hc
    cases hc
    exact hu
  have hq := h.of_wp hw
  cases r with
  | ok =>
    refine ⟨hq.store, (spares_setEnabled hb).trans (spares_of_quiet hq), fun _ hx => ?_⟩
    exact (State.working_setEnabled_false_iff.mp (hq.working_iff.mp hx)).2 rfl
  | error e =>
    obtain ⟨he, hu⟩ := hq
    refine ⟨hu.store, spares_of_quiet hu, fun hg hx => ?_⟩
    exact not_working_of_gone hs hb he (hg e rfl) (hu.working_iff.mp hx)

theorem suspend_runs {r : Except String Unit} (hs : s.store.subscription? sub.id = some sub)
    (h : Runs outages.surroundings (suspend sub) s r u) :
    u.store = s.store ∧ Spares [sub] s u ∧
      Outcome (fun _ u => ∀ b, sub.binding = some b → ¬ u.Working b.peer)
        (fun _ u => Resists (suspend sub) s r u sub) r u := by
  rw [suspend] at h ⊢
  split_ifs at h ⊢ with hn
  · obtain ⟨rfl, rfl⟩ := runs_pure_iff.mp h
    refine ⟨rfl, spares_of_quiet (.refl u), fun b hb => ?_⟩
    rw [hb] at hn
    cases hn
  · obtain ⟨b, hb⟩ : ∃ b, sub.binding = some b := by
      simpa [Option.ne_none_iff_exists'] using hn
    obtain ⟨a, t, hd, hr⟩ := runs_bind_iff.mp h
    obtain ⟨hstore, hspares, hidle⟩ := disable_runs hs hb hd
    have hover (hg : ∀ e, a = .error e → e.isPeerGone = true) :
        ∀ c, sub.binding = some c → ¬ t.Working c.peer := by
      intro c hc
      rw [hb] at hc
      cases hc
      exact hidle hg
    cases a with
    | ok =>
      obtain ⟨rfl, rfl⟩ := runs_pure_iff.mp hr
      refine ⟨hstore, hspares, hover fun e he => ?_⟩
      cases he
    | error e =>
      have hall := hr
      dsimp only at hr
      split_ifs at hr with hg
      · obtain ⟨rfl, rfl⟩ := runs_pure_iff.mp (runs_note_iff.mp hr)
        exact ⟨hstore, hspares, hover fun _ he => (Except.error.inj he) ▸ hg⟩
      · obtain ⟨rfl, rfl⟩ := runs_pure_iff.mp hr
        refine ⟨hstore, hspares, s, e, u, ?_, Bool.eq_false_of_not_eq_true hg⟩
        exact hd.contains_self.bind hall

/-- A subscription whose time is up is over, or it is as it was because its peer resists. -/
theorem expire_runs {r : Except String Unit} (hs : s.store.subscription? sub.id = some sub)
    (h : Runs outages.surroundings (expire sub) s r u) :
    Spares [sub] s u ∧ Outcome (fun _ u => Ended u sub)
      (fun _ u => u.store = s.store ∧ Resists (expire sub) s r u sub) r u := by
  obtain ⟨a, t, ht, hr⟩ := runs_bind_iff.mp h
  obtain ⟨hstore, hspares, hout⟩ := suspend_runs hs ht
  cases a with
  | error reason =>
    obtain ⟨q, e, q', hc, hg⟩ := hout
    have hall := hr
    obtain ⟨rfl, rfl⟩ := runs_pure_iff.mp hr
    exact ⟨hspares, hstore, q, e, q', hc.bind hall, hg⟩
  | ok =>
    have hst : t.store.subscription? sub.id = some sub := hstore ▸ hs
    have hfst : (t.store.updateStatus sub.id .expired).1 = .ok () :=
      Store.modifySubscription_fst hst
    obtain ⟨a, v, ha, hr⟩ := runs_bind_iff.mp hr
    obtain ⟨rfl, hv⟩ := askStore_runs outages_faultsOnSave (by simp) ha
    have hperform : (t.store.perform (.updateStatus sub.id .expired)).1 = .ok () := hfst
    rw [hperform] at hr
    obtain ⟨rfl, rfl⟩ := runs_pure_iff.mp (runs_note_iff.mp hr)
    refine ⟨hspares.trans (spares_updateStatus.trans (spares_of_quiet hv)), ?_, fun b hb => ?_⟩
    · rw [hv.store]
      refine Store.modifySubscription_subscription?.trans ?_
      rw [if_pos rfl, hst]
      rfl
    · apply State.not_working_iff.mp
      intro hx
      exact hout b hb (spares_updateStatus.working _ (hv.working_iff.mp hx))

theorem Ended.spared (h : Ended s sub) (hu : Spares subs s u)
    (hd : sub.id ∉ subs.map Subscription.id) : Ended u sub where
  stored := (hu.others sub.id hd).trans h.stored
  idle b hb := by
    apply State.not_working_iff.mp
    intro hx
    exact State.not_working_iff.mpr (h.idle b hb) (hu.working _ hx)

end single

/-- The record of a subscription says that it is over, and is otherwise as it was. -/
def isOver (s' : State) (sub : Subscription) : Bool :=
  s'.store.subscription? sub.id = some { sub with status := .expired }

/-- What became of the subscriptions whose time was up. -/
structure Settles {α : Type} (p : FleetProgram α) (s : State) (a : α) (s' : State)
    (due : List Subscription) : Prop where
  spares : Spares due s s'
  either : ∀ sub ∈ due, Ended s' sub ∨
    s'.store.subscription? sub.id = some sub ∧ Resists p s a s' sub

section pass

variable {s s' t u : State} {sub : Subscription} {subs : List Subscription}
  {report report' : ExpirationReport}

theorem Settles.nil {α : Type} {p : FleetProgram α} {a : α} : Settles p s a s [] :=
  ⟨spares_of_quiet (.refl s), by simp⟩

theorem Settles.note {α : Type} {p : FleetProgram α} {a : α} {line : LogLine}
    (h : Settles p s a s' subs) : Settles (.note line p) s a s' subs where
  spares := h.spares
  either sub hm := by
    rcases h.either sub hm with he | ⟨hk, q, e, q', hc, hg⟩
    · exact .inl he
    · exact .inr ⟨hk, q, e, q', hc.note, hg⟩

theorem Settles.cons {α : Type} {f : Except String Unit → FleetProgram α}
    {r : Except String Unit} {a : α} (hr : Runs outages.surroundings (expire sub) s r t)
    (hs : s.store.subscription? sub.id = some sub) (h : Settles (f r) t a s' subs)
    (hf : Runs outages.surroundings (f r) t a s') (hd : sub.id ∉ subs.map Subscription.id) :
    Settles (expire sub >>= f) s a s' (sub :: subs) := by
  obtain ⟨hspares, hout⟩ := expire_runs hs hr
  refine ⟨hspares.cons h.spares, fun x hx => ?_⟩
  rcases List.mem_cons.mp hx with rfl | hx
  · cases r with
    | ok => exact .inl (Ended.spared hout h.spares hd)
    | error =>
      obtain ⟨hstore, q, e, q', hc, hg⟩ := hout
      refine .inr ⟨?_, q, e, q', hc.bind hf, hg⟩
      rw [h.spares.others x.id hd, hstore, hs]
  · rcases h.either x hx with he | ⟨hk, q, e, q', hc, hg⟩
    · exact .inl he
    · exact .inr ⟨hk, q, e, q', hc.after hr, hg⟩

theorem isOver_iff : isOver s sub = true ↔
    s.store.subscription? sub.id = some { sub with status := .expired } :=
  decide_eq_true_iff

theorem isOver_eq_false (h : s.store.subscription? sub.id = some sub) (ha : sub.isActive = true) :
    isOver s sub = false := by
  have hne : sub ≠ { sub with status := .expired } := by
    intro he
    rw [he] at ha
    cases ha
  simp [isOver, h, hne]

theorem expireAll_runs (hs : ∀ sub ∈ subs, s.store.subscription? sub.id = some sub)
    (ha : ∀ sub ∈ subs, sub.isActive = true) (hd : (subs.map Subscription.id).Nodup)
    (h : Runs outages.surroundings (expireAll report subs) s report' s') :
    Settles (expireAll report subs) s report' s' subs ∧
      report'.expired = report.expired + subs.countP (isOver s') ∧
      report'.expired + report'.failed = report.expired + report.failed + subs.length := by
  induction subs generalizing s report with
  | nil =>
    obtain ⟨rfl, rfl⟩ := runs_pure_iff.mp h
    exact ⟨.nil, by simp, by simp⟩
  | cons sub subs ih =>
    obtain ⟨hsub, hs⟩ := List.forall_mem_cons.mp hs
    obtain ⟨hact, ha⟩ := List.forall_mem_cons.mp ha
    obtain ⟨hnot, hd⟩ := List.nodup_cons.mp hd
    obtain ⟨r, t, hr, hrest⟩ := runs_bind_iff.mp h
    obtain ⟨hspares, hout⟩ := expire_runs hsub hr
    have hleft : ∀ x ∈ subs, t.store.subscription? x.id = some x := by
      intro x hx
      rw [hspares.others x.id, hs x hx]
      rw [List.map_singleton, List.mem_singleton]
      intro he
      exact hnot (he ▸ List.mem_map_of_mem hx)
    cases r with
    | ok =>
      obtain ⟨hset, hexp, hsum⟩ := ih hleft ha hd hrest
      have hover : isOver s' sub = true :=
        isOver_iff.mpr (Ended.spared hout hset.spares hnot).stored
      refine ⟨.cons hr hsub hset hrest hnot, ?_, ?_⟩
      · rw [hexp, List.countP_cons_of_pos hover]
        dsimp only
        omega
      · rw [hsum, List.length_cons]
        dsimp only
        omega
    | error reason =>
      obtain ⟨hset, hexp, hsum⟩ := ih hleft ha hd (runs_note_iff.mp hrest)
      have hover : isOver s' sub = false := by
        refine isOver_eq_false ?_ hact
        rw [hset.spares.others sub.id hnot, hout.1, hsub]
      refine ⟨.cons hr hsub hset.note hrest hnot, ?_, ?_⟩
      · rw [hexp, List.countP_cons_of_neg (by simp [hover])]
      · rw [hsum, List.length_cons]
        dsimp only
        omega

theorem mem_listExpired_iff {now : Instant} : sub ∈ s.store.listExpired now ↔
    s.store.subscription? sub.id = some sub ∧ sub.status = .active ∧ sub.expiresAt ≤ now := by
  simp [Store.listExpired, Store.mem_listSubscriptions, Subscription.isActive,
    Subscription.expiredAt]

def listed (s : State) (now : Instant) : State :=
  s.record (.store (.listExpired now)) (.ok (s.store.listExpired now))

theorem runAt_runs {now : Instant} {r : Except StoreError ExpirationReport}
    (h : Runs outages.surroundings (runAt now).run s r s') :
    ∃ report, r = .ok report ∧
      Runs outages.surroundings (expireAll {} (s.store.listExpired now)) (listed s now) report s' ∧
      Runs outages.surroundings (listFrom (.listExpired now)).run s
        (.ok (s.store.listExpired now)) (listed s now) := by
  have hlist {a : Except StoreError (List Subscription)} {t : State}
      (hl : Runs outages.surroundings (listFrom (.listExpired now)).run s a t) :
      a = .ok (s.store.listExpired now) ∧ t = listed s now := by
    obtain _ | _ | ⟨⟨u, ⟨rfl, rfl⟩ | ⟨_, hf, _⟩, rfl⟩, hd⟩ := hl
    · obtain ⟨rfl, rfl⟩ := runs_pure_iff.mp hd
      exact ⟨rfl, rfl⟩
    · exact hf.elim
  rcases runs_run_bind_iff.mp h with ⟨due, t, hl, hr⟩ | ⟨e, hl, -⟩
  · obtain ⟨hdue, rfl⟩ := hlist hl
    cases hdue
    obtain ⟨report, hall, rfl⟩ := runs_run_lift_iff.mp hr
    exact ⟨report, rfl, hall, hl⟩
  · cases (hlist hl).1

theorem runAt_runs_of_empty {now : Instant} {r : Except StoreError ExpirationReport}
    (he : s.store.listExpired now = [])
    (h : Runs outages.surroundings (runAt now).run s r s') : r = .ok {} ∧ s' = listed s now := by
  obtain ⟨report, rfl, hr, -⟩ := runAt_runs h
  rw [he] at hr
  obtain ⟨rfl, rfl⟩ := runs_pure_iff.mp hr
  exact ⟨rfl, rfl⟩

theorem listExpired_eq_nil {now : Instant} (hs : Spares (s.store.listExpired now) s s')
    (ho : ∀ sub ∈ s.store.listExpired now, isOver s' sub = true) :
    s'.store.listExpired now = [] := by
  apply List.eq_nil_iff_forall_not_mem.mpr
  intro sub hm
  obtain ⟨hstored, hact, hdue⟩ := mem_listExpired_iff.mp hm
  by_cases hid : sub.id ∈ (s.store.listExpired now).map Subscription.id
  · obtain ⟨old, hold, hid⟩ := List.mem_map.mp hid
    have hover := isOver_iff.mp (ho old hold)
    rw [hid, hstored] at hover
    rw [Option.some.inj hover] at hact
    cases hact
  · rw [hs.others sub.id hid] at hstored
    exact hid (List.mem_map_of_mem (mem_listExpired_iff.mpr ⟨hstored, hact, hdue⟩))

/-- Where channels and agents fail as they like and nothing else runs, a pass comes to an end,
and it settles everything that is due: what it ended has no working peer, and what it did not
end resists. If nothing resists, there is nothing left to do. -/
theorem runAt_settles (s : State) (now : Instant) :
    (∃ r s', Runs outages.surroundings (runAt now).run s r s') ∧
    ∀ r s', Runs outages.surroundings (runAt now).run s r s' →
      let due := s.store.listExpired now
      ∃ report, r = .ok report ∧ (due.map Subscription.id).Nodup ∧
        (∀ sub, sub ∈ due ↔ s.store.subscription? sub.id = some sub ∧ sub.status = .active ∧
          sub.expiresAt ≤ now) ∧
        Settles (runAt now).run s r s' due ∧
        report.expired + report.failed = due.length ∧ report.expired = due.countP (isOver s') ∧
        (report.failed = 0 → ∀ r' s'', Runs outages.surroundings (runAt now).run s' r' s'' →
          r' = .ok {} ∧ s'' = listed s' now) := by
  refine ⟨exists_runs outages_total _ s, fun r s' hr => ?_⟩
  obtain ⟨report, rfl, hall, hl⟩ := runAt_runs hr
  have hnodup : ((s.store.listExpired now).map Subscription.id).Nodup :=
    s.store.nodup_listSubscriptions _
  obtain ⟨hset, hexp, hsum⟩ := expireAll_runs (s := listed s now)
    (fun sub hm => (mem_listExpired_iff.mp hm).1)
    (fun sub hm => by simp [Subscription.isActive, (mem_listExpired_iff.mp hm).2.1]) hnodup hall
  have hspares : Spares (s.store.listExpired now) s s' :=
    ⟨hset.spares.nodes, hset.spares.others, hset.spares.peers, hset.spares.working⟩
  have hsum : report.expired + report.failed = (s.store.listExpired now).length :=
    hsum.trans (Nat.zero_add _)
  have hexp : report.expired = (s.store.listExpired now).countP (isOver s') :=
    hexp.trans (Nat.zero_add _)
  refine ⟨report, rfl, hnodup, fun _ => mem_listExpired_iff,
    ⟨hspares, fun sub hm => ?_⟩, hsum, hexp, fun hf r' s'' hr' => ?_⟩
  · refine (hset.either sub hm).imp_right ?_
    rintro ⟨hk, q, e, q', hc, hg⟩
    exact ⟨hk, q, e, q', .run_after hl hc.run_lift, hg⟩
  · refine runAt_runs_of_empty (listExpired_eq_nil hspares ?_) hr'
    apply List.countP_eq_length.mp
    omega

theorem runAt_serving : ∃ report s',
    Runs outages.surroundings (runAt .epoch).run .serving (.ok report) s' ∧
    report.expired + report.failed = 1 ∧ s'.store.nodes = State.serving.store.nodes := by
  obtain ⟨⟨r, s', hr⟩, h⟩ := runAt_settles .serving .epoch
  obtain ⟨report, rfl, -, -, hset, hsum, -⟩ := h r s' hr
  exact ⟨report, s', hr, hsum, hset.spares.nodes⟩

end pass

end Expiration

end PeerFleet
