import PeerFleet.Proofs.Fleet.Capacity
import PeerFleet.Proofs.Jobs.Shape

/-! # Allotments

A provisioning pass that runs alone where nothing fails. Each subscription that it serves takes
one of the places that are free, so the pass serves as many of those that wait as there are
places, in the order of their ids.
-/

namespace PeerFleet

/-- A node before and after peers came to it: none come to a node that takes none, and none
beyond the maximum. -/
structure Node.Fills (n n' : Node) : Prop where
  same : n' = { n with currentPeers := n'.currentPeers }
  closed : ¬ n.eligible → n'.currentPeers = n.currentPeers
  bounded : n.currentPeers ≤ n.maxPeers → n'.currentPeers ≤ n.maxPeers

namespace Node.Fills

variable {n n' n'' : Node}

theorem refl (n : Node) : n.Fills n :=
  ⟨rfl, fun _ => rfl, fun h => h⟩

theorem trans (h : n.Fills n') (h' : n'.Fills n'') : n.Fills n'' where
  same := by rw [h'.same, h.same]
  closed he := by
    have he' : ¬ n'.eligible := by
      rw [h.same]
      exact he
    rw [h'.closed he', h.closed he]
  bounded hc := by
    have hm : n'.maxPeers = n.maxPeers := by rw [h.same]
    exact hm ▸ h'.bounded (hm ▸ h.bounded hc)

theorem increased (he : n.eligible) (hc : n.hasCapacity) :
    n.Fills { n with currentPeers := Store.increased n.currentPeers } where
  same := rfl
  closed hn := absurd he hn
  bounded _ := by
    rw [UInt32.le_iff_toNat_le, Store.increased_toNat (Fleet.toNat_lt_of_hasCapacity hc)]
    exact UInt32.lt_iff_toNat_lt.mp (of_decide_eq_true hc)

end Node.Fills

namespace Store

/-- A store before and after some of its subscriptions were given peers. -/
structure Allots (s s' : Store) (served : List Subscription) : Prop where
  bound : ∀ sub ∈ served, ∃ b n, s.node? b.nodeId = some n ∧ n.eligible ∧
    s'.subscription? sub.id = some { sub with binding := some b }
  kept : ∀ id ∉ served.map Subscription.id, s'.subscription? id = s.subscription? id
  filled : ∀ id, Option.Rel Node.Fills (s.node? id) (s'.node? id)
  taken : s'.freeSlots + served.length = s.freeSlots

variable {s t u : Store} {sub : Subscription} {subs : List Subscription}

theorem rel_fills_refl (o : Option Node) : Option.Rel Node.Fills o o := by
  cases o with
  | none => exact .none
  | some n => exact .some (.refl n)

theorem Allots.nil (s : Store) : s.Allots s [] where
  bound _ h := absurd h List.not_mem_nil
  kept _ _ := rfl
  filled _ := rel_fills_refl _
  taken := Nat.add_zero _

theorem Allots.eligible (h : s.Allots t subs) {id : NodeId} {n : Node} (hn : t.node? id = some n)
    (he : n.eligible) : ∃ n, s.node? id = some n ∧ n.eligible := by
  have hf := h.filled id
  rw [hn] at hf
  cases hs : s.node? id with
  | none =>
    rw [hs] at hf
    cases hf
  | some m =>
    rw [hs] at hf
    cases hf with
    | some hf =>
      rw [hf.same] at he
      exact ⟨m, rfl, he⟩

theorem Allots.cons (h : s.Allots t [sub]) (h' : t.Allots u subs)
    (hd : sub.id ∉ subs.map Subscription.id) : s.Allots u (sub :: subs) where
  bound x hx := by
    rcases List.mem_cons.mp hx with rfl | hx
    · obtain ⟨b, n, hn, he, hb⟩ := h.bound x (List.mem_singleton_self x)
      exact ⟨b, n, hn, he, (h'.kept x.id hd).trans hb⟩
    · obtain ⟨b, n, hn, he, hb⟩ := h'.bound x hx
      obtain ⟨m, hm, he⟩ := h.eligible hn he
      exact ⟨b, m, hm, he, hb⟩
  kept id hid := by
    obtain ⟨h₁, h₂⟩ := not_or.mp (mt List.mem_cons.mpr hid)
    exact (h'.kept id h₂).trans (h.kept id (by simpa using h₁))
  filled id := by
    have h₁ := h.filled id
    have h₂ := h'.filled id
    generalize s.node? id = o, t.node? id = o', u.node? id = o'' at h₁ h₂
    cases h₁ with
    | none => exact h₂
    | some h₁ =>
      cases h₂ with
      | some h₂ => exact .some (h₁.trans h₂)
  taken := by
    have h₁ := h.taken
    have h₂ := h'.taken
    simp only [List.length_cons, List.length_nil] at h₁ ⊢
    omega

theorem freeSlots_setBinding {id : SubscriptionId} {b : Option Binding} :
    (s.setBinding id b).2.freeSlots = s.freeSlots := by
  simp only [freeSlots, listEligible, listNodes, setBinding, modifySubscription_nodes]

theorem Allots.single {n : Node} {b : Binding} (hs : s.subscription? sub.id = some sub)
    (hp : Fleet.pickLeastLoaded s.listEligible = .ok n) (hb : b.nodeId = n.id) :
    s.Allots ((s.setPeers n.id increased).2.setBinding sub.id (some b)).2 [sub] := by
  obtain ⟨hm, he, hc⟩ := Fleet.of_pickLeastLoaded_ok hp
  have hn := node?_of_mem_listEligible hm
  refine ⟨fun x hx => ?_, fun id hid => ?_, fun id => ?_, ?_⟩
  · obtain rfl := List.mem_singleton.mp hx
    refine ⟨b, n, hb ▸ hn, he, ?_⟩
    rw [setBinding_subscription?, if_pos rfl, setPeers_subscription?, hs]
    rfl
  · have hne : id ≠ sub.id := by simpa using hid
    rw [setBinding_subscription?, if_neg hne, setPeers_subscription?]
  · rw [setBinding_node?, setPeers_node?]
    split_ifs with hid
    · rw [hid, hn]
      exact .some (.increased he hc)
    · exact rel_fills_refl _
  · rw [freeSlots_setBinding]
    exact Fleet.freeSlots_increment hp

end Store

namespace Provisioning

open Fleet Program

/-- Nothing fails but messages, and an agent may issue any id. -/
def flawless : Conditions where
  storeFault _ _ _ := False
  connectFault _ _ _ := False
  agentFault _ _ _ _ := False
  issues _ _ _ := True

theorem flawless_faultsOnSave : flawless.FaultsOnSave := fun _ _ _ h => h.elim

theorem flawless_total : flawless.surroundings.Total :=
  Conditions.total fun _ _ => ⟨"", trivial⟩

variable {s : State} {sub : Subscription} {subs : List Subscription}

/-- A subscription that waits is given a peer, or there is no room for one. -/
theorem provision_flawless (hs : s.store.subscription? sub.id = some sub)
    (hn : sub.needsProvisioning) :
    (provision sub).run.wp flawless.logic
      (Outcome (fun served u => served = true ∧ s.store.Allots u.store [sub])
        fun e u => e.isCapacity ∧ s.store.freeSlots = 0 ∧ u.store = s.store) s := by
  refine provision_wp (pre_steady flawless_faultsOnSave (by simp) fun t ht => ?_)
  have ht : t.store = s.store := ht.store
  change if (s.store.subscription? sub.id).any Subscription.needsProvisioning then _ else _
  rw [hs, Option.any_some, if_pos hn]
  refine createClient_wp_of_fault flawless_faultsOnSave (fun n b _ k u _ hp hb _ hu _ => ?_)
    (fun e u hu hp => ?_) (fun _ _ _ _ _ h => h.elim) fun _ _ _ _ _ _ h => h.elim
  · rw [ht] at hp
    have hu : u.store = (s.store.setPeers n.id Store.increased).2 := by
      rw [hu.store, ← ht]
      rfl
    rw [wp_save]
    refine pre_store ?_ fun _ h => h.elim
    change Outcome _ _ (u.store.setBinding sub.id (some b)).1 _
    have hus : u.store.subscription? sub.id = some sub := by
      rw [hu, Store.setPeers_subscription?, hs]
    rw [Store.setBinding, Store.modifySubscription_fst hus]
    intro text
    refine pre_message fun _ v hv => ⟨rfl, ?_⟩
    have hv : v.store = (u.store.setBinding sub.id (some b)).2 := hv.store
    rw [hv, hu]
    exact .single hs hp hb
  · rw [ht] at hp
    obtain ⟨he, hf⟩ := freeSlots_of_pickLeastLoaded_error hp
    exact ⟨he, hf, hu.store.trans ht⟩

def extended (report : ProvisioningReport) (waiting free : ℕ) : ProvisioningReport :=
  { report with
    provisioned := report.provisioned + min waiting free
    full := report.full || decide (free < waiting) }

theorem provisionAll_flawless (report : ProvisioningReport)
    (hs : ∀ sub ∈ subs, s.store.subscription? sub.id = some sub ∧ sub.needsProvisioning)
    (hd : (subs.map Subscription.id).Nodup) :
    (provisionAll report subs).wp flawless.logic
      (fun r u => r = extended report subs.length s.store.freeSlots ∧
        s.store.Allots u.store (subs.take s.store.freeSlots)) s := by
  induction subs generalizing report s with
  | nil => exact ⟨by simp [extended], by simpa using Store.Allots.nil s.store⟩
  | cons sub subs ih =>
    obtain ⟨⟨hsub, hn⟩, hs⟩ := List.forall_mem_cons.mp hs
    obtain ⟨hnot, hd⟩ := List.nodup_cons.mp hd
    rw [provisionAll, wp_bind]
    refine wp_mono (fun r u hu => ?_) (provision_flawless hsub hn)
    rcases r with e | served
    · obtain ⟨he, hf, hu⟩ := hu
      change Program.wp _ (ite _ _ _) _ u
      rw [if_pos he, hf]
      refine ⟨by simp [extended], ?_⟩
      rw [hu]
      exact .nil s.store
    · obtain ⟨rfl, hu⟩ := hu
      have hleft : ∀ x ∈ subs, u.store.subscription? x.id = some x ∧ x.needsProvisioning := by
        intro x hx
        refine ⟨?_, (hs x hx).2⟩
        rw [hu.kept x.id, (hs x hx).1]
        simp only [List.map_cons, List.map_nil, List.mem_singleton]
        intro he
        exact hnot (he ▸ List.mem_map_of_mem hx)
      have hf : s.store.freeSlots = u.store.freeSlots + 1 := hu.taken.symm
      refine wp_mono (fun r v hv => ?_) (ih { report with provisioned := _ } hleft hd)
      obtain ⟨rfl, hv⟩ := hv
      rw [hf, List.take_succ_cons]
      refine ⟨?_, hu.cons hv fun h => hnot ?_⟩
      · simp [extended, Nat.add_min_add_right]
        omega
      · exact List.map_subset _ (List.take_subset _ _) h

/-- Where nothing fails and nothing else runs, a pass comes to an end, and however it comes to
it, it has served the first of those that wait, as many of them as there were places. -/
theorem runOnce_serves_as_many_as_fit (s : State) :
    (∃ r s', Runs flawless.surroundings runOnce.run s r s') ∧
    ∀ r s', Runs flawless.surroundings runOnce.run s r s' →
      let waiting := s.store.listUnprovisioned
      let served := min waiting.length s.store.freeSlots
      r = .ok { provisioned := served, failed := 0
                full := decide (s.store.freeSlots < waiting.length) } ∧
      s.store.Allots s'.store (waiting.take served) ∧
      ∀ x ∈ waiting.take served, ∀ y ∈ waiting.drop served, x.id < y.id := by
  refine ⟨exists_runs flawless_total _ s, fun r s' hr => ?_⟩
  have hw : runOnce.run.wp flawless.logic
      (Outcome (fun report u =>
        report = extended {} s.store.listUnprovisioned.length s.store.freeSlots ∧
        s.store.Allots u.store (s.store.listUnprovisioned.take s.store.freeSlots))
        fun _ _ => False) s := by
    rw [runOnce]
    refine wp_run_bind_of (wp_listFrom_of ?_)
    refine pre_steady flawless_faultsOnSave (by simp) fun u hu => ?_
    have hu : u.store = s.store := hu.store
    change Program.wp _ (ExceptT.run (liftM (provisionAll {} s.store.listUnprovisioned))) _ u
    rw [wp_run_lift, ← hu]
    refine provisionAll_flawless {} (fun sub hsub => ?_) (Store.nodup_listSubscriptions _ _)
    obtain ⟨hm, hn⟩ := List.mem_filter.mp hsub
    exact ⟨Store.subscription?_eq_some_iff.mpr ⟨hm, rfl⟩, hn⟩
  have hq := hr.of_wp hw
  cases r with
  | error e => exact hq.elim
  | ok report =>
    obtain ⟨rfl, ha⟩ := hq
    have hp := s.store.listSubscriptions_ascending Subscription.needsProvisioning
    rw [← List.take_append_drop (min s.store.listUnprovisioned.length s.store.freeSlots)
      (s.store.listSubscriptions _), List.pairwise_append] at hp
    refine ⟨by simp [extended], ?_, hp.2.2⟩
    rw [Nat.min_comm, ← List.take_eq_take_min]
    exact ha

def crowded : State :=
  let s := State.founding { Node.create 1 "node-1" "10.0.0.1:7443" 3 with currentPeers := 2 }
  s.setStore <| (s.store.upsertSubscription
    { id := 1, userId := 10, tariff := "month", expiresAt := .epoch }).upsertSubscription
    { id := 2, userId := 20, tariff := "month", expiresAt := .epoch }

theorem runOnce_crowded : ∃ r s', Runs flawless.surroundings runOnce.run crowded r s' ∧
    r = .ok { provisioned := 1, failed := 0, full := true } ∧
    s'.store.subscription? 2 = crowded.store.subscription? 2 ∧ s'.store.freeSlots = 0 := by
  obtain ⟨⟨r, s', hr⟩, h⟩ := runOnce_serves_as_many_as_fit crowded
  obtain ⟨hreport, ha, -⟩ := h r s' hr
  exact ⟨r, s', hr, hreport, ha.kept 2 (by decide), Nat.succ_injective ha.taken⟩

end Provisioning

end PeerFleet
