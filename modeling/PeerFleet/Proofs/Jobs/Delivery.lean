import Mathlib.Data.Fintype.EquivFin
import PeerFleet.Proofs.Fleet.Omission
import PeerFleet.Proofs.Fleet.Operations
import PeerFleet.Proofs.Jobs.Reminder
import PeerFleet.Proofs.Jobs.Shape
import PeerFleet.Proofs.Program.Parts

/-! # What a provisioning pass delivers

A pass that runs alone while agents fail, bindings are not saved and messages are lost. Whoever
was given a peer is sent one message with it, and nobody else is sent any. A subscription that
was not given one is as it was, and so are the agents and the counters after the attempt.
-/

namespace PeerFleet

namespace Provisioning

open Fleet Program
open Health (told)
open Reminder (message?)

/-- Channels and agents may fail at any time, and a binding may not be saved; but a peer that is
given up is removed, and a new peer is one that its agent did not have. -/
def mishaps : Conditions where
  storeFault _ c _ := ∃ id b, c = .setBinding id b
  connectFault _ _ _ := True
  agentFault _ _ c _ := ∀ i p, c ≠ .delete i p
  issues s n p := p ∉ s.agents n

theorem mishaps_faultsOnSave : mishaps.FaultsOnSave := fun _ _ _ h => h

theorem mishaps_total : mishaps.surroundings.Total := by
  apply Conditions.total
  intro s n
  exact Infinite.exists_notMem_finset (s.agents n).keys

theorem ignores_createClient {user : UserId} : Ignores message? (createClient user).run := by
  rw [createClient, selectNode]
  apply ignores_run_bind
  · exact ignores_run_bind (ignores_fromStore fun _ => rfl) fun _ => trivial
  intro n
  apply ignores_run_bind (ignores_clientFor fun _ _ => rfl)
  intro k
  apply ignores_run_bind (ignores_run_lift (p := nameSuffix) fun _ => ⟨rfl, trivial⟩)
  intro suffix
  apply ignores_run_bind (ignores_remote fun _ => rfl)
  intro peer
  exact ignores_run_bind (ignores_run_lift (ignores_count fun _ => rfl)) fun _ => trivial

theorem ignores_discardBinding {b : Binding} : Ignores message? (discardBinding b).run := by
  rw [discardBinding]
  apply ignores_run_bind (ignores_nodeOf fun _ => rfl)
  intro n
  apply ignores_run_bind (ignores_clientFor fun _ _ => rfl)
  intro k
  apply ignores_run_bind (ignores_removePeer fun _ => rfl)
  intro _
  exact ignores_run_bind (ignores_run_lift (ignores_count fun _ => rfl)) fun _ => trivial

theorem ignores_save {sub : Subscription} {b : Binding} : Ignores message? (save sub b).run := by
  rw [Ignores, wp_save]
  refine fun r => ⟨rfl, ?_⟩
  cases r with
  | ok => trivial
  | error => exact ignores_discardBinding

/-- Some subscriptions were given their peers, and each owner was sent the message with it. Every
other subscription is as it was, and no other message was sent. -/
structure Served (s s' : State) (given : List (Subscription × Binding)) : Prop where
  bound : ∀ x ∈ given, s'.store.subscription? x.1.id = some { x.1 with binding := some x.2 }
  kept : ∀ id ∉ given.map fun x => x.1.id, s'.store.subscription? id = s.store.subscription? id
  letters : told message? s' = told message? s ++ given.map fun x => letter x.1 x.2

/-- The peers of all agents and the counters of all nodes are as they were. -/
structure Restored (s s' : State) : Prop where
  agents : s'.agents = s.agents
  nodes : ∀ id, s'.store.node? id = s.store.node? id

section single

variable {s s' t u v : State} {sub : Subscription} {b : Binding}
  {given : List (Subscription × Binding)} {x : Subscription × Binding}

theorem Served.nil (hs : ∀ id, s'.store.subscription? id = s.store.subscription? id)
    (ht : told message? s' = told message? s) : Served s s' [] where
  bound := by simp
  kept id _ := hs id
  letters := by simp [ht]

theorem Served.cons (h : Served s t [x]) (h' : Served t u given)
    (hd : x.1.id ∉ given.map fun x => x.1.id) : Served s u (x :: given) where
  bound y hy := by
    rcases List.mem_cons.mp hy with rfl | hy
    · rw [h'.kept y.1.id hd]
      exact h.bound y (by simp)
    · exact h'.bound y hy
  kept id hid := by
    obtain ⟨h₁, h₂⟩ := not_or.mp (mt List.mem_cons.mpr hid)
    exact (h'.kept id h₂).trans (h.kept id (by simpa using h₁))
  letters := by
    rw [h'.letters, h.letters]
    simp

/-- A peer was created for a subscription and is not bound to it yet. -/
structure Created (s u : State) (b : Binding) : Prop where
  fresh : b.peerId ∉ s.agents b.nodeId
  room : ∃ n, s.store.node? b.nodeId = some n ∧ n.currentPeers.toNat + 1 < UInt32.size
  quiet : (s.create b.nodeId b.peerId).Quiet u
  filed : (u.pool.client? b.nodeId).isSome

theorem createClient_mishaps {user : UserId} : (createClient user).run.wp mishaps.logic
    (Outcome (fun b u => Created s u b) fun _ u => s.Quiet u) s := by
  refine createClient_wp mishaps_faultsOnSave (fun n b t k u ht hp hb hi hu hk => ?_)
    fun _ _ hu => hu
  obtain ⟨hn, hc⟩ := of_pickLeastLoaded hp
  have hfresh : b.peerId ∉ s.agents n.id := ht.agents ▸ hi
  rw [← hb] at hn hfresh hu hk
  exact ⟨hfresh, ⟨n, hn, toNat_lt_of_hasCapacity hc⟩, hu, by simp [hk]⟩

theorem Created.subscription? (h : Created s u b) (id : SubscriptionId) :
    u.store.subscription? id = s.store.subscription? id := by
  rw [h.quiet.store]
  exact Store.setPeers_subscription?

theorem discardBinding_mishaps (h : Created s u b) (hv : u.Quiet v) :
    (discardBinding b).run.wp mishaps.logic
      (fun _ w => Restored s w ∧
        ∀ id, w.store.subscription? id = s.store.subscription? id) v := by
  obtain ⟨n, hn, hroom⟩ := h.room
  have hcreated := h.quiet.trans hv
  rw [← outcome_eta fun _ w => Restored s w ∧ ∀ id, w.store.subscription? id = _]
  refine discardBinding_wp mishaps_faultsOnSave (fun m w x y _ hw hx hy => ?_) (fun _ hm => ?_)
    (fun _ _ hk => ?_) fun m w e y _ _ he _ => (he _ _ rfl).elim
  · have hstore : y.store =
        ((s.store.setPeers b.nodeId Store.increased).2.setPeers b.nodeId Store.decreased).2 := by
      rw [hy.store, ← show v.store = (s.store.setPeers b.nodeId Store.increased).2 from
        hcreated.store]
      rfl
    obtain rfl | ⟨-, i, e, he, -⟩ := hx
    · refine ⟨⟨?_, fun id => ?_⟩, fun id => ?_⟩
      · rw [hy.agents]
        exact (hcreated.trans hw).removePeer.agents.trans (State.agents_removePeer_addPeer h.fresh)
      · rw [hstore, Store.setPeers_decreased_increased hn hroom]
      · rw [hstore, Store.setPeers_subscription?, Store.setPeers_subscription?]
    · exact (he _ _ rfl).elim
  · rw [hcreated.store] at hm
    change (s.store.setPeers b.nodeId _).2.node? b.nodeId = none at hm
    rw [Store.setPeers_node?, if_pos rfl, hn] at hm
    cases hm
  · obtain ⟨k, hk'⟩ := Option.isSome_iff_exists.mp h.filed
    rw [hv.client hk'] at hk
    cases hk

theorem save_mishaps (h : Created s u b) (hs : s.store.subscription? sub.id = some sub) :
    (save sub b).run.wp mishaps.logic (Outcome
      (fun _ v => v.store.subscription? sub.id = some { sub with binding := some b } ∧
        ∀ id ≠ sub.id, v.store.subscription? id = s.store.subscription? id)
      fun _ v => Restored s v ∧
        ∀ id, v.store.subscription? id = s.store.subscription? id) u := by
  have hu : u.store.subscription? sub.id = some sub := (h.subscription? sub.id).trans hs
  rw [wp_save]
  refine pre_store ?_ fun e _ => ?_
  · change Outcome _ _ (u.store.setBinding sub.id (some b)).1 _
    rw [Store.setBinding, Store.modifySubscription_fst hu]
    refine ⟨?_, fun id hid => ?_⟩
    · refine Store.setBinding_subscription?.trans ?_
      rw [if_pos rfl, hu]
      rfl
    · refine Store.setBinding_subscription?.trans ?_
      rw [if_neg hid, h.subscription?]
  · exact discardBinding_mishaps h ((State.Quiet.refl u).record _ _)

theorem deliver_runs (h : Runs mishaps.surroundings (deliver sub b) s () u) :
    u.store = s.store ∧ told message? u = told message? s ++ [letter sub b] := by
  apply h.of_wp (Q := fun _ u => u.store = s.store ∧
    told message? u = told message? s ++ [letter sub b])
  rw [wp_deliver]
  rintro a _ ⟨t, ht, rfl⟩
  have hstore : t.store = s.store := congrArg State.store (show t = s from ht)
  exact ⟨hstore, told_record_of_effect ht⟩

theorem restored_of_quiet (h : s.Quiet u) : Restored s u where
  agents := h.agents
  nodes _ := by rw [h.store]

/-- A subscription that waits is given a peer and its message, or the attempt leaves
everything as it was. -/
theorem provision_runs {r : Except FleetError Bool} (hs : s.store.subscription? sub.id = some sub)
    (hn : sub.needsProvisioning) (h : Runs mishaps.surroundings (provision sub).run s r s') :
    Outcome (fun served s' => served = true ∧ ∃ b, Served s s' [(sub, b)])
      (fun _ s' => Served s s' [] ∧ Restored s s') r s' := by
  rw [provision] at h
  rcases runs_run_bind_iff.mp h with ⟨current, t, hget, h⟩ | ⟨e, hget, rfl⟩
  · obtain ⟨ht, hcurrent⟩ := fromStore_runs mishaps_faultsOnSave (by simp) hget
    have ht : s.Quiet t := ht
    cases hcurrent
    change Runs _ (ExceptT.run (if (s.store.subscription? sub.id).any _ = true then _ else _))
      t r s' at h
    rw [hs, Option.any_some, if_pos hn] at h
    have htold : told message? t = told message? s :=
      told_eq_of_ignores (ignores_fromStore fun _ => rfl) hget
    have hst : t.store.subscription? sub.id = some sub := ht.store ▸ hs
    have hsubs (id : SubscriptionId) : t.store.subscription? id = s.store.subscription? id := by
      rw [ht.store]
    rcases runs_run_bind_iff.mp h with ⟨b, u, hcreate, h⟩ | ⟨e, hcreate, rfl⟩
    · have hc : Created t u b := hcreate.of_wp createClient_mishaps
      have htold := (told_eq_of_ignores ignores_createClient hcreate).trans htold
      rcases runs_run_bind_iff.mp h with ⟨⟨⟩, v, hsave, h⟩ | ⟨e, hsave, rfl⟩
      · obtain ⟨hbound, hkept⟩ := hsave.of_wp (save_mishaps hc hst)
        have htold := (told_eq_of_ignores ignores_save hsave).trans htold
        obtain ⟨_, w, hinfo, hrest⟩ := runs_run_lift_bind_iff.mp h
        obtain ⟨-, rfl⟩ := runs_pure_iff.mp (runs_note_iff.mp hinfo)
        obtain ⟨_, w', hd, hr⟩ := runs_run_lift_bind_iff.mp hrest
        obtain ⟨rfl, rfl⟩ := runs_pure_iff.mp hr
        obtain ⟨hstore, hletter⟩ := deliver_runs hd
        refine ⟨rfl, b, fun x hx => ?_, fun id hid => ?_, ?_⟩
        · obtain rfl := List.mem_singleton.mp hx
          rw [hstore]
          exact hbound
        · rw [hstore, hkept id (by simpa using hid), hsubs]
        · rw [hletter, htold]
          rfl
      · obtain ⟨hrestored, hkept⟩ := hsave.of_wp (save_mishaps hc hst)
        have htold := (told_eq_of_ignores ignores_save hsave).trans htold
        refine ⟨.nil (fun id => (hkept id).trans (hsubs id)) htold, ?_, fun id => ?_⟩
        · rw [hrestored.agents, ht.agents]
        · rw [hrestored.nodes, ht.store]
    · have hu : t.Quiet s' := hcreate.of_wp createClient_mishaps
      have htold := (told_eq_of_ignores ignores_createClient hcreate).trans htold
      have hs' := ht.trans hu
      exact ⟨.nil (fun id => by rw [hs'.store]) htold, restored_of_quiet hs'⟩
  · obtain ⟨-, e', -, he⟩ := fromStore_runs mishaps_faultsOnSave (by simp) hget
    cases he

end single

def isBound (s' : State) (sub : Subscription) : Bool :=
  (s'.store.subscription? sub.id).any (·.binding.isSome)

def Fails {α : Type} (p : FleetProgram α) (s : State) (a : α) (s' : State) (sub : Subscription)
    (full : Bool) : Prop :=
  ∃ t e t', Contains mishaps.surroundings p s a s' (provision sub).run t (.error e) t' ∧
    e.isCapacity = full ∧ Restored t t'

/-- What became of the subscriptions that a pass came to, and of those that it put off. -/
structure Deals {α : Type} (p : FleetProgram α) (s : State) (a : α) (s' : State)
    (processed deferred : List Subscription) (given : List (Subscription × Binding)) : Prop where
  served : Served s s' given
  gained : given.map Prod.fst = processed.filter (isBound s')
  undone : ∀ sub ∈ processed, isBound s' sub = false → Fails p s a s' sub false
  stopped : ∀ sub ∈ deferred.head?, Fails p s a s' sub true

section pass

variable {s s' t : State} {sub x : Subscription} {b : Binding} {e : FleetError}
  {subs processed deferred : List Subscription} {given : List (Subscription × Binding)}
  {report report' : ProvisioningReport} {α : Type} {p : FleetProgram α} {a : α} {full : Bool}
  {f : Except FleetError Bool → FleetProgram α} {r : Except FleetError Bool}

theorem Fails.note {line : LogLine} (h : Fails p s a s' sub full) :
    Fails (.note line p) s a s' sub full := by
  obtain ⟨q, e, q', hc, he⟩ := h
  exact ⟨q, e, q', hc.note, he⟩

theorem Fails.after (hr : Runs mishaps.surroundings (provision x).run s r t)
    (h : Fails (f r) t a s' sub full) : Fails ((provision x).run >>= f) s a s' sub full := by
  obtain ⟨q, e, q', hc, he⟩ := h
  exact ⟨q, e, q', hc.after hr, he⟩

theorem Fails.first (hr : Runs mishaps.surroundings (provision sub).run s (.error e) t)
    (hs : Restored s t) (hf : Runs mishaps.surroundings (f (.error e)) t a s') :
    Fails ((provision sub).run >>= f) s a s' sub e.isCapacity :=
  ⟨s, e, t, hr.contains_self.bind hf, rfl, hs⟩

theorem Deals.note {line : LogLine} (h : Deals p s a s' processed deferred given) :
    Deals (.note line p) s a s' processed deferred given where
  served := h.served
  gained := h.gained
  undone x hx hb := (h.undone x hx hb).note
  stopped x hx := (h.stopped x hx).note

theorem Deals.mem_ids (h : Deals p s a s' processed deferred given) {id : SubscriptionId}
    (hid : id ∈ given.map fun x => x.1.id) : id ∈ processed.map Subscription.id := by
  have hm : id ∈ (given.map Prod.fst).map Subscription.id := by simpa using hid
  rw [h.gained] at hm
  exact List.map_subset _ (List.filter_subset_self _) hm

theorem isBound_eq_false (h : s.store.subscription? sub.id = some sub)
    (hn : sub.needsProvisioning) : isBound s sub = false := by
  simp [isBound, h, (Subscription.needsProvisioning_iff.mp hn).2]

theorem Deals.serve (hr : Runs mishaps.surroundings (provision sub).run s r t)
    (hs : Served s t [(sub, b)]) (h : Deals (f r) t a s' processed deferred given)
    (hd : sub.id ∉ processed.map Subscription.id) :
    Deals ((provision sub).run >>= f) s a s' (sub :: processed) deferred ((sub, b) :: given) := by
  have hserved := hs.cons h.served (mt h.mem_ids hd)
  have hbound : isBound s' sub = true := by
    simp [isBound, hserved.bound (sub, b) (by simp)]
  refine ⟨hserved, ?_, fun x hx hb => ?_, fun x hx => (h.stopped x hx).after hr⟩
  · rw [List.map_cons, h.gained, List.filter_cons_of_pos hbound]
  · rcases List.mem_cons.mp hx with rfl | hx
    · rw [hbound] at hb
      cases hb
    · exact (h.undone x hx hb).after hr

theorem Deals.lose (hr : Runs mishaps.surroundings (provision sub).run s (.error e) t)
    (he : e.isCapacity = false) (hs : Served s t []) (hrestored : Restored s t)
    (hf : Runs mishaps.surroundings (f (.error e)) t a s')
    (h : Deals (f (.error e)) t a s' processed deferred given) (hb : isBound s' sub = false) :
    Deals ((provision sub).run >>= f) s a s' (sub :: processed) deferred given := by
  refine ⟨⟨h.served.bound, fun id hid => ?_, ?_⟩, ?_, fun x hx hx' => ?_,
    fun x hx => (h.stopped x hx).after hr⟩
  · rw [h.served.kept id hid, hs.kept id (by simp)]
  · rw [h.served.letters, hs.letters]
    simp
  · rw [h.gained, List.filter_cons_of_neg (by simp [hb])]
  · rcases List.mem_cons.mp hx with rfl | hx
    · exact he ▸ .first hr hrestored hf
    · exact (h.undone x hx hx').after hr

/-- A report before and after subscriptions were dealt with. -/
structure Counts (report report' : ProvisioningReport) (s' : State)
    (processed deferred : List Subscription) (given : List (Subscription × Binding)) : Prop where
  provisioned : report'.provisioned = report.provisioned + given.length
  failed : report'.failed = report.failed + processed.countP fun sub => !isBound s' sub
  full : report'.full = (report.full || !deferred.isEmpty)

theorem Counts.serve (h : Counts { report with provisioned := report.provisioned + 1 } report' s'
    processed deferred given) (hb : isBound s' sub = true) :
    Counts report report' s' (sub :: processed) deferred ((sub, b) :: given) where
  provisioned := by
    rw [h.provisioned, List.length_cons]
    dsimp only
    omega
  failed := by rw [h.failed, List.countP_cons_of_neg (by simp [hb])]
  full := h.full

theorem Counts.lose (h : Counts { report with failed := report.failed + 1 } report' s'
    processed deferred given) (hb : isBound s' sub = false) :
    Counts report report' s' (sub :: processed) deferred given where
  provisioned := h.provisioned
  failed := by
    rw [h.failed, List.countP_cons_of_pos (by simp [hb])]
    dsimp only
    omega
  full := h.full

theorem Served.listed (h : Served s t given) (hg : ∀ x ∈ given, x.1 = sub)
    (hs : ∀ x ∈ subs, s.store.subscription? x.id = some x)
    (hd : sub.id ∉ subs.map Subscription.id) :
    ∀ x ∈ subs, t.store.subscription? x.id = some x := by
  intro x hx
  rw [h.kept x.id, hs x hx]
  intro hm
  obtain ⟨y, hy, hid⟩ := List.mem_map.mp hm
  rw [hg y hy] at hid
  exact hd (hid ▸ List.mem_map_of_mem hx)

theorem provisionAll_runs (hs : ∀ sub ∈ subs, s.store.subscription? sub.id = some sub)
    (hn : ∀ sub ∈ subs, sub.needsProvisioning) (hd : (subs.map Subscription.id).Nodup)
    (h : Runs mishaps.surroundings (provisionAll report subs) s report' s') :
    ∃ processed deferred given, subs = processed ++ deferred ∧
      Deals (provisionAll report subs) s report' s' processed deferred given ∧
      Counts report report' s' processed deferred given := by
  induction subs generalizing s report with
  | nil =>
    obtain ⟨rfl, rfl⟩ := runs_pure_iff.mp h
    refine ⟨[], [], [], rfl, ⟨.nil (fun _ => rfl) rfl, rfl, by simp, by simp⟩, ?_⟩
    constructor <;> simp
  | cons sub subs ih =>
    obtain ⟨hsub, hs⟩ := List.forall_mem_cons.mp hs
    obtain ⟨hneed, hn⟩ := List.forall_mem_cons.mp hn
    obtain ⟨hnot, hd⟩ := List.nodup_cons.mp hd
    obtain ⟨r, t, hr, hrest⟩ := runs_bind_iff.mp h
    have hout := provision_runs hsub hneed hr
    have hproc {processed deferred : List Subscription} (h : subs = processed ++ deferred) :
        sub.id ∉ processed.map Subscription.id := by
      rw [h, List.map_append, List.mem_append] at hnot
      exact fun hm => hnot (.inl hm)
    cases r with
    | ok served =>
      obtain ⟨rfl, b, hserved⟩ := hout
      obtain ⟨processed, deferred, given, rfl, hdeals, hcounts⟩ :=
        ih (hserved.listed (by simp) hs hnot) hn hd hrest
      have hall : Deals (provisionAll report (sub :: (processed ++ deferred))) s report' s'
          (sub :: processed) deferred ((sub, b) :: given) := .serve hr hserved hdeals (hproc rfl)
      have hbound : isBound s' sub = true := by
        simp [isBound, hall.served.bound (sub, b) (by simp)]
      exact ⟨sub :: processed, deferred, (sub, b) :: given, rfl, hall, hcounts.serve hbound⟩
    | error e =>
      obtain ⟨hserved, hrestored⟩ := hout
      have hall := hrest
      dsimp only at hrest
      split_ifs at hrest with hcap
      · obtain ⟨rfl, rfl⟩ := runs_pure_iff.mp (runs_note_iff.mp hrest)
        refine ⟨[], sub :: subs, [], rfl, ⟨hserved, rfl, by simp, ?_⟩, ?_⟩
        · rintro x ⟨⟩
          exact ⟨s, e, s', hr.contains_self.bind hall, hcap, hrestored⟩
        · constructor <;> simp
      · have hcap := Bool.eq_false_of_not_eq_true hcap
        obtain ⟨processed, deferred, given, rfl, hdeals, hcounts⟩ :=
          ih (hserved.listed (by simp) hs hnot) hn hd (runs_note_iff.mp hrest)
        have hbound : isBound s' sub = false := by
          refine isBound_eq_false ?_ hneed
          rw [hdeals.served.kept _ (mt hdeals.mem_ids (hproc rfl)), hserved.kept _ (by simp), hsub]
        refine ⟨sub :: processed, deferred, given, rfl,
          .lose hr hcap hserved hrestored hall ?_ hbound, hcounts.lose hbound⟩
        dsimp only
        rw [if_neg (by simp [hcap])]
        exact hdeals.note

theorem Served.of_quiet (h : Served t s' given) (hs : s.Quiet t)
    (ht : told message? t = told message? s) : Served s s' given where
  bound := h.bound
  kept id hid := by rw [h.kept id hid, hs.store]
  letters := by rw [h.letters, ht]

def gains (s s' : State) : List Subscription :=
  s.store.listSubscriptions fun sub => sub.binding.isNone && isBound s' sub

theorem mem_listUnprovisioned_iff : sub ∈ s.store.listUnprovisioned ↔
    s.store.subscription? sub.id = some sub ∧ sub.needsProvisioning = true :=
  Store.mem_listSubscriptions

theorem waited (hg : given.map Prod.fst = processed.filter (isBound s'))
    (hsplit : s.store.listUnprovisioned = processed ++ deferred)
    (hs : s.store.subscription? sub.id = some sub) (hm : sub.id ∈ given.map fun x => x.1.id) :
    sub.needsProvisioning = true := by
  obtain ⟨y, hy, hid⟩ := List.mem_map.mp hm
  have hfst : y.1 ∈ processed.filter (isBound s') := hg ▸ List.mem_map_of_mem hy
  have hwait : y.1 ∈ s.store.listUnprovisioned := by
    rw [hsplit]
    exact List.mem_append_left _ (List.mem_filter.mp hfst).1
  obtain ⟨hstored, hneed⟩ := mem_listUnprovisioned_iff.mp hwait
  rw [hid, hs] at hstored
  exact Option.some.inj hstored ▸ hneed

theorem gains_eq (h : Served s s' given) (hg : given.map Prod.fst = processed.filter (isBound s'))
    (hsplit : s.store.listUnprovisioned = processed ++ deferred)
    (hd : ∀ sub ∈ deferred, isBound s' sub = false) : given.map Prod.fst = gains s s' := by
  have hnil : deferred.filter (isBound s') = [] := List.filter_eq_nil_iff.mpr (by simpa using hd)
  have hw : given.map Prod.fst = s.store.listUnprovisioned.filter (isBound s') := by
    rw [hsplit, List.filter_append, hg, hnil, List.append_nil]
  rw [hw, gains, Store.listUnprovisioned, Store.listSubscriptions, Store.listSubscriptions,
    List.filter_filter]
  apply List.filter_congr
  intro x hx
  have hstored : s.store.subscription? x.id = some x :=
    Store.subscription?_eq_some_iff.mpr ⟨hx, rfl⟩
  rw [Bool.eq_iff_iff, Bool.and_eq_true, Bool.and_eq_true, Subscription.needsProvisioning,
    Bool.and_eq_true]
  constructor
  · rintro ⟨hb, -, hn⟩
    exact ⟨hn, hb⟩
  · rintro ⟨hn, hb⟩
    have hmem : x.id ∈ given.map fun x => x.1.id := by
      by_contra hnot
      rw [isBound, h.kept x.id hnot, hstored, Option.any_some, Option.isSome_iff_ne_none] at hb
      exact hb (Option.isNone_iff_eq_none.mp hn)
    have hneed := waited hg hsplit hstored hmem
    rw [Subscription.needsProvisioning, Bool.and_eq_true] at hneed
    exact ⟨hb, hneed⟩

theorem untouched_of_deferred (h : Served s s' given)
    (hg : given.map Prod.fst = processed.filter (isBound s'))
    (hsplit : s.store.listUnprovisioned = processed ++ deferred) (hm : sub ∈ deferred) :
    s'.store.subscription? sub.id = some sub := by
  have hwait : sub ∈ s.store.listUnprovisioned := by
    rw [hsplit]
    exact List.mem_append_right _ hm
  rw [h.kept sub.id, (mem_listUnprovisioned_iff.mp hwait).1]
  intro hid
  obtain ⟨y, hy, hyid⟩ := List.mem_map.mp hid
  have hfst : y.1 ∈ processed.filter (isBound s') := hg ▸ List.mem_map_of_mem hy
  have hnodup : (s.store.listUnprovisioned.map Subscription.id).Nodup :=
    s.store.nodup_listSubscriptions _
  rw [hsplit, List.map_append, List.nodup_append] at hnodup
  exact hnodup.2.2 _ (List.mem_map_of_mem (List.mem_filter.mp hfst).1) _
    (List.mem_map_of_mem hm) hyid

theorem listUnprovisioned_runs {r : Except StoreError (List Subscription)}
    (h : Runs mishaps.surroundings (listFrom .listUnprovisioned).run s r t) :
    r = .ok s.store.listUnprovisioned ∧ s.Quiet t ∧ told message? t = told message? s := by
  obtain ⟨hr, ht⟩ := askStore_runs mishaps_faultsOnSave (by simp) h
  exact ⟨hr, ht, told_eq_of_ignores (p := askStore .listUnprovisioned)
    (fun _ => ⟨rfl, trivial⟩) h⟩

/-- The pass deals with all that waited, in their order. -/
theorem runOnce_runs {r : Except StoreError ProvisioningReport}
    (hr : Runs mishaps.surroundings runOnce.run s r s') :
    ∃ report processed deferred given, r = .ok report ∧
      s.store.listUnprovisioned = processed ++ deferred ∧
      Deals runOnce.run s r s' processed deferred given ∧
      Counts {} report s' processed deferred given := by
  rcases runs_run_bind_iff.mp hr with ⟨waiting, t, hl, hrest⟩ | ⟨e, hl, -⟩
  · obtain ⟨⟨⟩, ht, htold⟩ := listUnprovisioned_runs hl
    obtain ⟨report, hall, rfl⟩ := runs_run_lift_iff.mp hrest
    have hwaiting {sub : Subscription} (hm : sub ∈ s.store.listUnprovisioned) :
        t.store.subscription? sub.id = some sub ∧ sub.needsProvisioning = true := by
      rw [ht.store]
      exact mem_listUnprovisioned_iff.mp hm
    obtain ⟨processed, deferred, given, hsplit, hdeals, hcounts⟩ :=
      provisionAll_runs (fun _ hm => (hwaiting hm).1) (fun _ hm => (hwaiting hm).2)
        (s.store.nodup_listSubscriptions _) hall
    have hlift {sub : Subscription} {full : Bool}
        (h : Fails (provisionAll {} s.store.listUnprovisioned) t report s' sub full) :
        Fails runOnce.run s (.ok report) s' sub full := by
      obtain ⟨q, e, q', hc, he⟩ := h
      exact ⟨q, e, q', .run_after hl hc.run_lift, he⟩
    exact ⟨report, processed, deferred, given, rfl, hsplit,
      ⟨hdeals.served.of_quiet ht htold, hdeals.gained,
        fun sub hm hb => hlift (hdeals.undone sub hm hb),
        fun sub hm => hlift (hdeals.stopped sub hm)⟩, hcounts⟩
  · cases (listUnprovisioned_runs hl).1

/-- Where agents fail, bindings are not saved and messages are lost, and nothing else runs, a
pass comes to an end, and its report tells what it did. Each subscription that gained a peer
was counted, and its owner was sent one message, with the binding that is stored; no other
message was sent. Each one that failed without gaining a peer was counted too, and the attempt
undone; those from the first that found no room are as they were. -/
theorem runOnce_reports_what_it_did (s : State) :
    (∃ r s', Runs mishaps.surroundings runOnce.run s r s') ∧
    ∀ r s', Runs mishaps.surroundings runOnce.run s r s' →
      ∃ report processed deferred given, r = .ok report ∧
        s.store.listUnprovisioned = processed ++ deferred ∧
        (report.full = true ↔ deferred ≠ []) ∧
        Deals runOnce.run s r s' processed deferred given ∧
        report.provisioned = (gains s s').length ∧ given.map Prod.fst = gains s s' ∧
        report.failed = processed.countP (fun sub => !isBound s' sub) ∧
        (∀ sub ∈ deferred, s'.store.subscription? sub.id = some sub) ∧
        ∀ id sub, s.store.subscription? id = some sub → sub.binding.isSome = true →
          s'.store.subscription? id = some sub := by
  refine ⟨exists_runs mishaps_total _ s, fun r s' hr => ?_⟩
  obtain ⟨report, processed, deferred, given, rfl, hsplit, hdeals, hcounts⟩ := runOnce_runs hr
  have hserved := hdeals.served
  have huntouched : ∀ sub ∈ deferred, s'.store.subscription? sub.id = some sub :=
    fun _ hm => untouched_of_deferred hserved hdeals.gained hsplit hm
  have hgains : given.map Prod.fst = gains s s' := by
    refine gains_eq hserved hdeals.gained hsplit fun sub hm => ?_
    have hwait : sub ∈ s.store.listUnprovisioned := by
      rw [hsplit]
      exact List.mem_append_right _ hm
    exact isBound_eq_false (huntouched sub hm) (mem_listUnprovisioned_iff.mp hwait).2
  refine ⟨report, processed, deferred, given, rfl, hsplit, ?_, hdeals, ?_, hgains, ?_,
    huntouched, ?_⟩
  · rw [hcounts.full]
    simp
  · rw [hcounts.provisioned, ← hgains, List.length_map, Nat.zero_add]
  · rw [hcounts.failed, Nat.zero_add]
  · intro id sub hs hb
    obtain rfl := (Store.subscription?_eq_some_iff.mp hs).2
    rw [hserved.kept sub.id, hs]
    intro hid
    have hneed := Subscription.needsProvisioning_iff.mp (waited hdeals.gained hsplit hs hid)
    rw [hneed.2] at hb
    cases hb

theorem runOnce_waiting : ∃ report s',
    Runs mishaps.surroundings runOnce.run .waiting (.ok report) s' ∧
    (told message? s').length = report.provisioned := by
  obtain ⟨⟨r, s', hr⟩, h⟩ := runOnce_reports_what_it_did .waiting
  obtain ⟨report, processed, deferred, given, rfl, -, -, hdeals, hcount, hgains, -⟩ := h r s' hr
  refine ⟨report, s', hr, ?_⟩
  rw [hdeals.served.letters, hcount, ← hgains]
  simp [told, State.waiting, State.setStore, State.founding]

end pass

end Provisioning

end PeerFleet
