import Mathlib.Data.List.Sort
import PeerFleet.Proofs.Health.Observation

/-! # Passes of the health monitor

One pass after another, while nodes come and go. After each of them the records are those of the
nodes that it probed, and each is told by the readings of its node, as far back as no pass left
it out.
-/

namespace PeerFleet.Health

open Fleet Program

/-- A pass that was not stopped, with what it probed and what it found. -/
structure Sweep where
  now : Instant
  nodes : List Node
  probes : List (String × ProbeResult)
  transitions : List Transition

def readingsOf (now : Instant) (ns : List Node) (ps : List (String × ProbeResult)) : List Reading :=
  List.zipWith (fun n p => ⟨n, p.2, now⟩) ns ps

def Sweep.readings (w : Sweep) : List Reading :=
  readingsOf w.now w.nodes w.probes

def reading? (id : NodeId) (rs : List Reading) : Option Reading :=
  rs.find? (·.node.id = id)

/-- The readings of a node, as far back as every pass probed it. -/
def window (id : NodeId) : List Sweep → List Reading
  | [] => []
  | w :: log => (reading? id w.readings).elim [] (· :: window id log)

/-- The records after some passes: those of the nodes that the last one probed. -/
def snapshotOf : List Sweep → List NodeHealth
  | [] => []
  | w :: log => w.readings.map fun o => recordOf o (window o.node.id log)

def probeable (s : Store) : List Node :=
  s.nodes.items.filter fun n => n.healthUrl.isSome && n.eligible

/-- The pass that a run from a state has made. -/
def sweepOf (now : Instant) (s u : State) : Sweep :=
  ⟨now, probeable s.store, told probed? u, told transition? u⟩

/-- One pass after another, the last one first. The store may change between them in any way,
and a pass that cannot list the nodes does not count. -/
inductive Sweeps (C : Conditions) (admins : List UserId) : State → List Sweep → State → Prop
  | nil (s : State) : Sweeps C admins s [] s
  | change {s t : State} {log : List Sweep} (store : Store) :
      Sweeps C admins s log t → Sweeps C admins s log (t.setStore store)
  | fail {s t u : State} {log : List Sweep} {now : Instant} {e : StoreError} :
      Sweeps C admins s log t →
      Runs C.surroundings (runAt admins now).run (afresh t) (.error e) u →
        Sweeps C admins s log u
  | pass {s t u : State} {log : List Sweep} {now : Instant} {count : ℕ} :
      Sweeps C admins s log t →
      Runs C.surroundings (runAt admins now).run (afresh t) (.ok count) u →
        Sweeps C admins s (sweepOf now t u :: log) u

section pass

variable {C : Conditions} {s : State} {admins : List UserId} {now : Instant}
  {W : NodeId → List Reading}

def extended (W : NodeId → List Reading) (rs : List Reading) (id : NodeId) : List Reading :=
  (reading? id rs).elim (W id) (· :: W id)

def retained (W : NodeId → List Reading) (rs : List Reading) (id : NodeId) : List Reading :=
  (reading? id rs).elim [] (· :: W id)

def outcomes (ns : List Node) (ps : List (String × ProbeResult)) : List (Node × ProbeResult) :=
  List.zipWith (fun n p => (n, p.2)) ns ps

def readingAt (now : Instant) (x : Node × ProbeResult) : Reading :=
  ⟨x.1, x.2, now⟩

section readings

variable {ns : List Node} {ps : List (String × ProbeResult)}

theorem map_outcomes : (outcomes ns ps).map (readingAt now) = readingsOf now ns ps :=
  List.map_zipWith

theorem length_outcomes (h : ps.length = ns.length) : (outcomes ns ps).length = ns.length := by
  simp [outcomes, h]

theorem node_readingsOf (h : ps.length = ns.length) :
    (readingsOf now ns ps).map Reading.node = ns := by
  rw [readingsOf, List.map_zipWith]
  induction ns generalizing ps with
  | nil => simp
  | cons n ns ih =>
    cases ps with
    | nil => cases h
    | cons p ps => simp [ih (Nat.succ.inj h)]

end readings

theorem extended_cons {o : Reading} {rs : List Reading} (h : ∀ x ∈ rs, x.node.id ≠ o.node.id) :
    extended (Function.update W o.node.id (o :: W o.node.id)) rs = extended W (o :: rs) := by
  funext id
  unfold extended reading?
  by_cases hid : o.node.id = id
  · subst hid
    have hnone : rs.find? (·.node.id = o.node.id) = none := by simpa using h
    simp [hnone]
  · simp [hid, Function.update_of_ne (Ne.symm hid)]

theorem reading?_eq_none_iff {id : NodeId} {rs : List Reading} :
    reading? id rs = none ↔ id ∉ (rs.map Reading.node).map Node.id := by
  simp [reading?]

theorem Knows.retain {r : HealthRecords} {rs : List Reading} (h : Knows r (extended W rs)) :
    Knows (r.retain ((rs.map Reading.node).map Node.id)) (retained W rs) := by
  intro id
  rw [node?_retain, retained]
  cases hid : reading? id rs with
  | none =>
    rw [if_neg (reading?_eq_none_iff.mp hid)]
    rfl
  | some o =>
    have hmem : id ∈ (rs.map Reading.node).map Node.id := by
      by_contra hn
      rw [reading?_eq_none_iff.mpr hn] at hid
      cases hid
    rw [if_pos hmem, h id, extended, hid]
    rfl

theorem probeAll_wp {ns : List Node} {Q : List (Node × ProbeResult) → State → Prop}
    (hQ : ∀ ps u, ps.map Prod.fst = ns.map (fun n => n.healthUrl.getD "") → Tells s u [] [] ps →
      u.health = s.health → Q (outcomes ns ps) u) :
    (probeAll ns).wp C.logic Q s := by
  induction ns generalizing s Q with
  | nil => exact hQ [] s rfl (.refl s) rfl
  | cons n ns ih =>
    simp only [probeAll, wp_bind, wp_pure]
    rintro p _ ⟨u, hu, rfl⟩
    obtain rfl : u = s := hu
    refine ih fun ps v hps hv hh => ?_
    refine hQ ((n.healthUrl.getD "", p) :: ps) v ?_ ((tells_record rfl rfl).trans hv) hh
    rw [List.map_cons, List.map_cons, hps]

/-- Every node has its own readings, so the first to be observed does not matter to the rest. -/
theorem observeAll_wp {results : List (Node × ProbeResult)} {Q : Unit → State → Prop}
    (hk : Knows s.health W) (hd : (results.map (·.1.id)).Nodup)
    (hQ : ∀ ds u, Tells s u ds ((results.map (readingAt now)).map fun o =>
        transitionOf o (W o.node.id)) [] →
      Knows u.health (extended W (results.map (readingAt now))) → Q () u) :
    (observeAll admins now results).wp C.logic Q s := by
  induction results generalizing s W Q with
  | nil => exact hQ [] s (.refl s) hk
  | cons x results ih =>
    obtain ⟨hx, hd⟩ := List.nodup_cons.mp hd
    have hne : ∀ o ∈ results.map (readingAt now), o.node.id ≠ x.1.id := by
      intro o ho he
      obtain ⟨y, hy, rfl⟩ := List.mem_map.mp ho
      exact hx (List.mem_map.mpr ⟨y, hy, he⟩)
    obtain ⟨htr, -, hknow⟩ := hk.observe (o := readingAt now x) rfl
    rw [observeAll, wp_bind]
    refine observe_wp rfl fun ds u _ hu hh => ?_
    refine ih (W := Function.update W x.1.id (readingAt now x :: W x.1.id)) ?_ hd
      fun ds' v hv hk' => hQ (ds ++ ds') v ?_ ?_
    · rw [hh]
      exact hknow ds
    · have hrest : ((results.map (readingAt now)).map fun o => transitionOf o
          (Function.update W x.1.id (readingAt now x :: W x.1.id) o.node.id)) =
          (results.map (readingAt now)).map fun o => transitionOf o (W o.node.id) :=
        List.map_congr_left fun o ho => by rw [Function.update_of_ne (hne o ho)]
      rw [hrest] at hv
      rw [List.map_cons, List.map_cons, ← htr]
      exact hu.trans hv
    · exact extended_cons (o := readingAt now x) hne ▸ hk'

theorem filter_listEligible (store : Store) :
    store.listEligible.filter (·.healthUrl.isSome) = probeable store :=
  List.filter_filter

theorem ascending_probeable (store : Store) :
    (probeable store).Pairwise fun a b => a.id.toInt < b.id.toInt :=
  store.nodes.ascending.filter _

theorem runAt_wp_of {S : ℕ → State → Prop} {F : StoreError → State → Prop}
    (h : C.logic.pre (.store .listEligible) (Outcome
      (fun eligible : List Node =>
        (probeAll (eligible.filter (·.healthUrl.isSome))).wp C.logic fun results =>
          (observeAll admins now results).wp C.logic fun _ =>
            C.logic.pre (.health (.retain ((eligible.filter (·.healthUrl.isSome)).map Node.id)))
              fun _ => S results.length) F) s) :
    (runAt admins now).run.wp C.logic (Outcome S F) s := by
  rw [runAt]
  refine wp_run_bind_of (wp_listFrom_of (C.logic.mono (fun a x hx => ?_) h))
  refine hx.mono (fun eligible y hy => ?_) fun e y hy => hy
  refine wp_run_bind_of ?_
  rw [wp_run_lift]
  refine wp_mono (fun results z hz => ?_) hy
  refine wp_run_bind_of ?_
  rw [wp_run_lift]
  refine wp_mono (fun _ v hv => ?_) hz
  exact wp_run_bind_of hv

theorem probing_wp {ns : List Node} {S : ℕ → State → Prop} (hk : Knows s.health W)
    (hd : (ns.map Node.id).Nodup)
    (hS : ∀ ps ds u, ps.map Prod.fst = ns.map (fun n => n.healthUrl.getD "") →
      Tells s u ds ((readingsOf now ns ps).map fun o => transitionOf o (W o.node.id)) ps →
      Knows u.health (retained W (readingsOf now ns ps)) → S ns.length u) :
    (probeAll ns).wp C.logic (fun results => (observeAll admins now results).wp C.logic fun _ =>
      C.logic.pre (.health (.retain (ns.map Node.id))) fun _ => S results.length) s := by
  refine probeAll_wp fun ps v hps hv hh => ?_
  have hlen : ps.length = ns.length := by simpa using congrArg List.length hps
  have hnodes : (readingsOf now ns ps).map Reading.node = ns := node_readingsOf hlen
  refine observeAll_wp (W := W) (hh ▸ hk) ?_ fun ds w hw hk' => ?_
  · rw [← hnodes, ← map_outcomes, List.map_map, List.map_map] at hd
    exact hd
  rw [map_outcomes] at hw hk'
  rintro _ _ ⟨_, ⟨rfl, rfl⟩, rfl⟩
  rw [length_outcomes hlen]
  refine hS ps ds _ hps ?_ ?_
  · have hall := hv.trans hw
    simp only [List.append_nil, List.nil_append] at hall
    exact hall.quiet (tells_record rfl rfl)
  · have hids := hk'.retain
    rw [hnodes] at hids
    exact hids

theorem runAt_wp {S : ℕ → State → Prop} {F : StoreError → State → Prop} (hk : Knows s.health W)
    (hS : ∀ ps ds u, ps.map Prod.fst = (probeable s.store).map (fun n => n.healthUrl.getD "") →
      Tells s u ds ((readingsOf now (probeable s.store) ps).map fun o =>
        transitionOf o (W o.node.id)) ps →
      Knows u.health (retained W (readingsOf now (probeable s.store) ps)) →
      S (probeable s.store).length u)
    (hF : ∀ e u, u.health = s.health → F e u) :
    (runAt admins now).run.wp C.logic (Outcome S F) s := by
  refine runAt_wp_of ?_
  rintro a _ ⟨u, ⟨rfl, rfl⟩ | ⟨e, -, rfl, rfl⟩, rfl⟩
  · change (probeAll (s.store.listEligible.filter _)).wp _ (fun results =>
      (observeAll admins now results).wp _ fun _ =>
        C.logic.pre (.health (.retain ((s.store.listEligible.filter _).map Node.id))) _) _
    rw [filter_listEligible]
    have hlist : Tells s (s.record (.store .listEligible) (.ok s.store.listEligible)) [] [] [] :=
      tells_record rfl rfl
    refine probing_wp hk (nodup_of_ascending (ascending_probeable _)) fun ps ds u hps hu hk' => ?_
    exact hS ps ds u hps (hlist.trans hu) hk'
  · exact hF e _ rfl

/-- What a pass has done, as the readings of each node before it tell: every node was probed
once, in the order of the ids, and what was found changed its state as the readings say. -/
structure Sweep.Follows (w : Sweep) (W : NodeId → List Reading) : Prop where
  ascending : w.nodes.Pairwise fun a b => a.id.toInt < b.id.toInt
  nodes : w.readings.map Reading.node = w.nodes
  probes : w.probes.map Prod.fst = w.nodes.map fun n => n.healthUrl.getD ""
  transitions : w.transitions = w.readings.map fun o => transitionOf o (W o.node.id)

variable {u : State} {count : ℕ}

theorem pass_follows (hk : Knows s.health W)
    (hr : Runs C.surroundings (runAt admins now).run (afresh s) (.ok count) u) :
    (sweepOf now s u).Follows W ∧
      Knows u.health (retained W (sweepOf now s u).readings) := by
  refine hr.of_wp <| runAt_wp (S := fun _ u => (sweepOf now s u).Follows W ∧
      Knows u.health (retained W (sweepOf now s u).readings)) (F := fun _ _ => True) hk
    (fun ps ds u hps hu hk' => ?_) fun _ _ _ => trivial
  have hps : ps.map Prod.fst = (probeable s.store).map fun n => n.healthUrl.getD "" := hps
  have hlen : ps.length = (probeable s.store).length := by
    simpa using congrArg List.length hps
  have hprobed : told probed? u = ps := hu.probes
  have hw : (sweepOf now s u).readings = readingsOf now (probeable s.store) ps := by
    rw [← hprobed]
    rfl
  constructor
  · constructor
    · exact ascending_probeable s.store
    · rw [hw]
      exact node_readingsOf hlen
    · exact (congrArg _ hprobed).trans hps
    · rw [hw]
      exact hu.transitions
  · rw [hw]
    exact hk'

theorem health_of_failed {e : StoreError}
    (hr : Runs C.surroundings (runAt admins now).run (afresh s) (.error e) u)
    (hk : Knows s.health W) : u.health = s.health :=
  hr.of_wp <| runAt_wp (S := fun _ _ => True) (F := fun _ u => u.health = s.health) hk
    (fun _ _ _ _ _ _ => trivial) fun _ _ hu => hu

end pass

section sweeps

variable {C : Conditions} {s t : State} {admins : List UserId} {log : List Sweep}
  {r : HealthRecords} {id : NodeId} {w : Sweep} {earlier : List Sweep}

/-- After any passes the records are those that the windows of the nodes tell, and each pass did
what the windows before it tell. -/
theorem Sweeps.knows (hs : s.health = .empty) (h : Sweeps C admins s log t) :
    Knows t.health (window · log) ∧
      ∀ w earlier, w :: earlier <:+ log → w.Follows (window · earlier) := by
  induction h with
  | nil =>
    rw [hs]
    exact ⟨knows_empty, fun w earlier h => by simp at h⟩
  | change _ _ ih => exact ih
  | fail _ hr ih =>
    obtain ⟨hk, hf⟩ := ih
    rw [health_of_failed hr hk]
    exact ⟨hk, hf⟩
  | pass _ hr ih =>
    obtain ⟨hk, hf⟩ := ih
    obtain ⟨hw, hk'⟩ := pass_follows hk hr
    refine ⟨hk', fun w earlier h => ?_⟩
    rcases List.suffix_cons_iff.mp h with h | h
    · obtain ⟨rfl, rfl⟩ := List.cons_eq_cons.mp h
      exact hw
    · exact hf w earlier h

theorem reading?_eq_some_iff {rs : List Reading} {o : Reading}
    (hd : ((rs.map Reading.node).map Node.id).Nodup) :
    reading? id rs = some o ↔ o ∈ rs ∧ o.node.id = id := by
  constructor
  · intro h
    exact ⟨List.mem_of_find?_eq_some h, by simpa using List.find?_some h⟩
  · rintro ⟨ho, rfl⟩
    obtain ⟨x, hx⟩ : ∃ x, reading? o.node.id rs = some x :=
      Option.isSome_iff_exists.mp (List.find?_isSome.mpr ⟨o, ho, by simp⟩)
    have hid : x.node.id = o.node.id := by simpa using List.find?_some hx
    rw [List.map_map] at hd
    rw [hx, List.inj_on_of_nodup_map hd (List.mem_of_find?_eq_some hx) ho hid]

theorem mem_map_bare_iff {h : NodeHealth} :
    h ∈ r.items.map bare ↔ (r.node? h.nodeId).map bare = some h := by
  rw [List.mem_map, Option.map_eq_some_iff]
  refine exists_congr fun x => and_congr_left fun hx => ?_
  rw [HealthRecords.node?, Table.find?_eq_some_iff, ← hx]
  exact (and_iff_left rfl).symm

theorem mem_snapshotOf_iff {h : NodeHealth} {w : Sweep} {earlier : List Sweep}
    (hw : w.Follows (window · earlier)) : h ∈ snapshotOf (w :: earlier) ↔
      recordOf? (window h.nodeId (w :: earlier)) = some h := by
  have hd := nodup_of_ascending hw.ascending
  rw [← hw.nodes] at hd
  rw [snapshotOf, List.mem_map]
  constructor
  · rintro ⟨o, ho, rfl⟩
    have hr : reading? o.node.id w.readings = some o := (reading?_eq_some_iff hd).mpr ⟨ho, rfl⟩
    change recordOf? ((reading? o.node.id w.readings).elim [] _) = _
    rw [hr]
    rfl
  · intro hh
    rw [window] at hh
    cases hr : reading? h.nodeId w.readings with
    | none =>
      rw [hr] at hh
      cases hh
    | some o =>
      obtain ⟨ho, hid⟩ := (reading?_eq_some_iff hd).mp hr
      rw [hr] at hh
      refine ⟨o, ho, ?_⟩
      rw [hid]
      exact Option.some.inj hh

theorem ascending_snapshotOf {w : Sweep} {earlier : List Sweep}
    (hw : w.Follows (window · earlier)) :
    (snapshotOf (w :: earlier)).Pairwise fun a b => a.nodeId.toInt < b.nodeId.toInt := by
  have ha := hw.ascending
  rw [← hw.nodes, List.pairwise_map] at ha
  rw [snapshotOf, List.pairwise_map]
  exact ha

theorem items_eq_snapshotOf (hk : Knows r (window · log))
    (hf : ∀ w earlier, w :: earlier <:+ log → w.Follows (window · earlier)) :
    r.items.map bare = snapshotOf log := by
  have hmem (h : NodeHealth) :
      h ∈ r.items.map bare ↔ recordOf? (window h.nodeId log) = some h := by
    rw [mem_map_bare_iff, hk]
  cases log with
  | nil => exact List.eq_nil_iff_forall_not_mem.mpr fun h hh => by cases (hmem h).mp hh
  | cons w earlier =>
    have hw := hf w earlier List.suffix_rfl
    have : Std.Irrefl fun a b : NodeHealth => a.nodeId.toInt < b.nodeId.toInt :=
      ⟨fun _ => lt_irrefl _⟩
    have : Std.Antisymm fun a b : NodeHealth => a.nodeId.toInt < b.nodeId.toInt :=
      ⟨fun _ _ hab hba => absurd (hab.trans hba) (lt_irrefl _)⟩
    have ha : (r.items.map bare).Pairwise fun a b => a.nodeId.toInt < b.nodeId.toInt :=
      List.pairwise_map.mpr r.ascending
    exact ha.eq_of_mem_iff (ascending_snapshotOf hw) fun h =>
      (hmem h).trans (mem_snapshotOf_iff hw).symm

theorem toNat_failures_of_knows (hk : Knows r (window · log)) {h : NodeHealth} (hm : h ∈ r.items)
    (hlt : (failing (window h.nodeId log)).length < UInt32.size) :
    h.failures.toNat = (failing (window h.nodeId log)).length := by
  have hb := mem_map_bare_iff.mp (List.mem_map_of_mem (f := bare) hm)
  rw [hk] at hb
  change recordOf? (window h.nodeId log) = _ at hb
  cases hw : window h.nodeId log with
  | nil =>
    rw [hw] at hb
    cases hb
  | cons o earlier =>
    rw [hw] at hb hlt
    rw [← toNat_failures_recordOf hlt]
    exact congrArg (·.failures.toNat) (Option.some.inj hb).symm

/-- After each pass there is one record of each node that it probed, in the order of the ids and
no other, and it is what the readings of the node tell, as far back as every pass probed the
node. Each probe did to its node what they tell. -/
theorem records_tell_sweeps (hs : s.health = .empty) (h : Sweeps C admins s log t) :
    t.health.items.map bare = snapshotOf log ∧
      (∀ x ∈ t.health.items, (failing (window x.nodeId log)).length < UInt32.size →
        x.failures.toNat = (failing (window x.nodeId log)).length) ∧
      ∀ w earlier, w :: earlier <:+ log → w.Follows (window · earlier) := by
  obtain ⟨hk, hf⟩ := h.knows hs
  exact ⟨items_eq_snapshotOf hk hf, fun _ hm => toNat_failures_of_knows hk hm, hf⟩

end sweeps

def probedNode : Node :=
  { Node.create 1 "node-1" "10.0.0.1:7443" 10 with healthUrl := some "http://10.0.0.1/health" }

def later : Instant :=
  (Instant.epoch.shift? 5000000000).getD .epoch

theorem records_of_recovery : ∃ t log, Sweeps troubles [] (.founding probedNode) log t ∧
    t.health.items.map bare = snapshotOf log ∧
    log.map Sweep.transitions = [[.recovered ⟨5000000000⟩], [.wentDown]] := by
  have hrun : Can troubles.surroundings (runAt [] .epoch).run (fun r u => r = .ok 1 ∧
      told transition? u = [.wentDown] ∧
      Can troubles.surroundings (runAt [] later).run (fun r v => r = .error (.backend "") ∧
        Can troubles.surroundings (runAt [] later).run (fun r w => r = .ok 1 ∧
          told transition? w = [.recovered ⟨5000000000⟩]) (afresh v)) (afresh u))
      (afresh (.founding probedNode)) := by
    refine .call ⟨_, .inl ⟨rfl, rfl⟩, rfl⟩ ?_
    refine .call (a := ProbeResult.ofError 7 "HTTP 503") ⟨_, rfl, rfl⟩ ?_
    refine .call ⟨_, ⟨rfl, rfl⟩, rfl⟩ (.note ?_)
    refine .call ⟨_, ⟨rfl, rfl⟩, rfl⟩ ?_
    refine .call ⟨_, ⟨rfl, rfl⟩, rfl⟩ (.done ⟨rfl, rfl, ?_⟩)
    refine .call ⟨_, .inr ⟨.backend "", trivial, rfl, rfl⟩, rfl⟩ (.done ⟨rfl, ?_⟩)
    refine .call ⟨_, .inl ⟨rfl, rfl⟩, rfl⟩ ?_
    refine .call (a := ProbeResult.ofLatency 7) ⟨_, rfl, rfl⟩ ?_
    refine .call ⟨_, ⟨rfl, rfl⟩, rfl⟩ (.note ?_)
    exact .call ⟨_, ⟨rfl, rfl⟩, rfl⟩ (.done ⟨rfl, rfl⟩)
  obtain ⟨_, u, hu, rfl, htold, _, v, hv, rfl, _, w, hw, rfl, htold'⟩ := hrun
  have h : Sweeps troubles [] (.founding probedNode)
      [sweepOf later v w, sweepOf .epoch (.founding probedNode) u] w :=
    .pass (.fail (.pass (.nil _) hu) hv) hw
  refine ⟨w, _, h, (records_tell_sweeps rfl h).1, ?_⟩
  rw [List.map_cons, List.map_cons]
  exact congrArg₂ (fun a b => [a, b]) htold' htold

end PeerFleet.Health
