import PeerFleet.Proofs.Fleet.Steps
import PeerFleet.Proofs.Jobs.Shape

/-! # A pass of recounts

What a pass comes to if the store answers and nothing else runs, for whatever comes of
connecting to the agents and of asking them for their peers. It returns the counts of the nodes
that were heard, sets their counters, and leaves everything else as it was, so that another pass
that hears the same returns the same and changes nothing.
-/

namespace PeerFleet.PeerCount

open Fleet Program

/-- What comes of connecting to the agents of nodes, and of asking for the peers of an interface. -/
structure Contact where
  connect : NodeId → Except AgentError Unit
  list : NodeId → String → Except AgentError (List PeerInfo)

namespace Contact

variable (K : Contact)

def connected : PoolCall → Except AgentError Unit
  | .establish n => K.connect n.id
  | .lookup _ | .remove _ | .drain => .ok ()

/-- The surroundings in which connecting and listing come to what they are bound to. -/
def surroundings : Environment Effects State
  | .pool c, s, a, s' => a = (s.pool.perform (K.connected c) c).1 ∧
      s' = (s.setPool (s.pool.perform (K.connected c) c).2).record (.pool c) a
  | .agent k (.list i), s, a, s' =>
      a = K.list k.nodeId i ∧ s' = s.record (.agent k (.list i)) a
  | c, s, a, s' => answers.surroundings c s a s'

/-- There is a channel to a node, or one can be built. -/
def Reaches (q : Pool) (n : Node) : Prop :=
  (q.client? n.id).isSome ∨ K.connect n.id = .ok ()

/-- The agent of a node can be reached, and lists some peers. -/
def Hears (q : Pool) (n : Node) (infos : List PeerInfo) : Prop :=
  K.Reaches q n ∧ K.list n.id n.interface = .ok infos

instance (q : Pool) (n : Node) : Decidable (K.Reaches q n) :=
  inferInstanceAs (Decidable (_ ∨ _))

def heard? (q : Pool) (n : Node) : Option (List PeerInfo) :=
  if K.Reaches q n then (K.list n.id n.interface).toOption else none

/-- The counts of those of some nodes that are heard. -/
def counts (q : Pool) (ns : List Node) : List (NodeId × UInt32) :=
  ns.filterMap fun n => (K.heard? q n).map fun infos => (n.id, countOf infos)

variable {K} {q : Pool} {n m : Node} {infos : List PeerInfo} {s : State}

theorem heard?_eq_some_iff : K.heard? q n = some infos ↔ K.Hears q n infos := by
  rw [heard?, Option.ite_none_right_eq_some, Hears]
  apply and_congr_right
  intro _
  cases K.list n.id n.interface <;> simp [Except.toOption]

theorem surroundings_total : K.surroundings.Total := by
  have ha : answers.surroundings.Total := Conditions.total fun _ _ => ⟨"", trivial⟩
  intro c s
  cases c with
  | pool c => exact ⟨_, _, rfl, rfl⟩
  | agent k c =>
    cases c with
    | list i => exact ⟨_, _, rfl, rfl⟩
    | create | enable | disable | delete | get => exact ha _ s
  | store | close | message | probe | health | suffix => exact ha _ s

theorem establish_of_client? {k : Client} {r : Except AgentError Unit}
    (h : q.client? n.id = some k) : q.establish n r = (.ok (k, false), q) := by
  simp only [Pool.establish, h]

theorem establish_of_error {e : AgentError} (h : q.client? n.id = none) :
    q.establish n (.error e) = (.error e, q) := by
  simp only [Pool.establish, h]

theorem establish_of_ok (h : q.client? n.id = none) :
    q.establish n (.ok ()) = (.ok ((q.add n.id).1, true), (q.add n.id).2) := by
  simp only [Pool.establish, h]

theorem reaches_establish :
    K.Reaches (q.establish m (K.connect m.id)).2 n ↔ K.Reaches q n := by
  cases hm : q.client? m.id with
  | some k => rw [establish_of_client? hm]
  | none =>
    cases hc : K.connect m.id with
    | error e => rw [establish_of_error hm]
    | ok =>
      rw [establish_of_ok hm]
      dsimp only [Reaches]
      rw [client?_add]
      split_ifs with hid
      · rw [← hid]
        simp [hc]
      · rfl

theorem establish_cases (K : Contact) (q : Pool) (n : Node) :
    (K.Reaches q n ∧ ∃ k fresh, (q.establish n (K.connect n.id)).1 = .ok (k, fresh) ∧
      k.nodeId = n.id) ∨
    (¬ K.Reaches q n ∧ ∃ e, (q.establish n (K.connect n.id)).1 = .error e) := by
  cases hk : q.client? n.id with
  | some k =>
    refine .inl ⟨.inl (by rw [hk]; rfl), k, false, ?_, nodeId_of_client? hk⟩
    rw [establish_of_client? hk]
  | none =>
    cases hc : K.connect n.id with
    | error e =>
      rw [establish_of_error hk]
      exact .inr ⟨by simp [Reaches, hk, hc], e, rfl⟩
    | ok =>
      rw [establish_of_ok hk]
      exact .inl ⟨.inr hc, _, _, rfl, rfl⟩

theorem heard?_establish : K.heard? (q.establish m (K.connect m.id)).2 n = K.heard? q n := by
  simp only [heard?, reaches_establish]

theorem counts_establish {ns : List Node} :
    K.counts (q.establish m (K.connect m.id)).2 ns = K.counts q ns := by
  simp only [counts, heard?_establish]

end Contact

def setAll (t : Store) (counts : List (NodeId × UInt32)) : Store :=
  counts.foldl (fun t x => (t.setPeers x.1 fun _ => x.2).2) t

/-- Some nodes were asked for their peers one after another: channels to them were built, and the
counters of those that were heard were set. -/
structure Asked (K : Contact) (ns : List Node) (s u : State) : Prop where
  store : u.store = setAll s.store (K.counts s.pool ns)
  pool : u.pool = ns.foldl (fun q n => (q.establish n (K.connect n.id)).2) s.pool
  agents : u.agents = s.agents
  health : u.health = s.health

section pass

variable {K : Contact} {n : Node} {ns : List Node} {s u v : State}

theorem counts_cons (n : Node) (ns : List Node) {q : Pool} :
    K.counts q (n :: ns) = K.counts q [n] ++ K.counts q ns := by
  simp only [Contact.counts, List.filterMap_cons, List.filterMap_nil]
  cases Option.map _ (K.heard? q n) <;> rfl

theorem counts_of_hears {q : Pool} {infos : List PeerInfo} (h : K.Hears q n infos) :
    K.counts q [n] = [(n.id, countOf infos)] := by
  simp [Contact.counts, Contact.heard?_eq_some_iff.mpr h]

theorem counts_of_not_hears {q : Pool} (h : ∀ infos, ¬ K.Hears q n infos) :
    K.counts q [n] = [] := by
  have hnone : K.heard? q n = none := by
    apply Option.eq_none_iff_forall_ne_some.mpr
    intro infos hsome
    exact h infos (Contact.heard?_eq_some_iff.mp hsome)
  simp [Contact.counts, hnone]

theorem Asked.cons (h : Asked K [n] s u) (h' : Asked K ns u v) : Asked K (n :: ns) s v where
  store := by
    have hpool : u.pool = (s.pool.establish n (K.connect n.id)).2 := h.pool
    rw [h'.store, h.store, hpool, Contact.counts_establish, counts_cons n ns]
    exact List.foldl_append.symm
  pool := by
    rw [h'.pool, h.pool]
    rfl
  agents := h'.agents.trans h.agents
  health := h'.health.trans h.health

/-- A channel to a node was looked for, and nothing else was done. -/
structure Sought (K : Contact) (n : Node) (s u : State) : Prop where
  store : u.store = s.store
  pool : u.pool = (s.pool.establish n (K.connect n.id)).2
  agents : u.agents = s.agents
  health : u.health = s.health

theorem clientFor_sought : (clientFor n).run.wp K.surroundings.logic
    (Outcome (fun k u => Sought K n s u ∧ K.Reaches s.pool n ∧ k.nodeId = n.id)
      fun _ u => Sought K n s u ∧ ¬ K.Reaches s.pool n) s := by
  rw [wp_clientFor]
  rintro _ _ ⟨rfl, rfl⟩
  change (s.pool.client? n.id).elim (_ : State → Prop) _ _
  cases hk : s.pool.client? n.id with
  | some k =>
    have hpool : (s.pool.establish n (K.connect n.id)).2 = s.pool := by
      rw [Contact.establish_of_client? hk]
    exact ⟨⟨rfl, hpool.symm, rfl, rfl⟩, .inl (by rw [hk]; rfl), nodeId_of_client? hk⟩
  | none =>
    rintro _ _ ⟨rfl, rfl⟩
    change Outcome _ _ (s.pool.establish n (K.connect n.id)).1 _
    obtain ⟨hr, k, fresh, hok, hid⟩ | ⟨hr, e, herror⟩ := K.establish_cases s.pool n
    · rw [hok]
      exact ⟨⟨rfl, rfl, rfl, rfl⟩, hr, hid⟩
    · rw [herror]
      exact ⟨⟨rfl, rfl, rfl, rfl⟩, hr⟩

/-- A node that is not heard is passed over. -/
theorem Sought.asked (h : Sought K n s u) (hn : ∀ infos, ¬ K.Hears s.pool n infos) :
    Asked K [n] s u where
  store := by
    rw [counts_of_not_hears hn]
    exact h.store
  pool := h.pool
  agents := h.agents
  health := h.health

theorem syncPeerCount_asked (hn : (s.store.node? n.id).isSome) :
    (syncPeerCount n).run.wp K.surroundings.logic
      (fun r u => Asked K [n] s u ∧ K.counts s.pool [n] = (r.toOption.map (n.id, ·)).toList) s := by
  rw [← outcome_eta (fun r u => Asked K [n] s u ∧ _)]
  refine syncPeerCount_wp_of (wp_mono (fun r u hu => ?_) clientFor_sought)
  refine hu.mono ?_ ?_
  · rintro k u ⟨hu, hr, hid⟩
    rw [wp_remote]
    rintro _ _ ⟨rfl, rfl⟩
    rw [hid]
    cases hl : K.list n.id n.interface with
    | error e =>
      have hnot : ∀ infos, ¬ K.Hears s.pool n infos := by
        rintro infos ⟨-, hok⟩
        cases hl.symm.trans hok
      exact ⟨Sought.asked ⟨hu.store, hu.pool, hu.agents, hu.health⟩ hnot, counts_of_not_hears hnot⟩
    | ok infos =>
      have hcounts := counts_of_hears ⟨hr, hl⟩
      rintro a _ ⟨v, ⟨rfl, rfl⟩ | ⟨_, hfault, -⟩, rfl⟩
      · obtain ⟨node, hnode⟩ := Option.isSome_iff_exists.mp hn
        have hset : (u.store.perform (.setPeerCount n.id (countOf infos))).1 = .ok () :=
          Store.setPeers_fst (hu.store ▸ hnode)
        change Outcome _ _ (u.store.perform (.setPeerCount n.id (countOf infos))).1 _
        rw [hset]
        refine ⟨⟨?_, hu.pool, hu.agents, hu.health⟩, hcounts⟩
        rw [hcounts, ← hu.store]
        rfl
      · exact hfault.elim
  · rintro e u ⟨hu, hr⟩
    have hnot : ∀ infos, ¬ K.Hears s.pool n infos := fun _ h => hr h.1
    exact ⟨hu.asked hnot, counts_of_not_hears hnot⟩

theorem isSome_setAll {id : NodeId} {t : Store} {counts : List (NodeId × UInt32)} :
    ((setAll t counts).node? id).isSome = (t.node? id).isSome := by
  induction counts generalizing t with
  | nil => rfl
  | cons x counts ih => exact ih.trans Store.setPeers_isSome

theorem recountAll_asked (hns : ∀ n ∈ ns, (s.store.node? n.id).isSome) :
    (recountAll ns).wp K.surroundings.logic
      (fun r u => r = K.counts s.pool ns ∧ Asked K ns s u) s := by
  induction ns generalizing s with
  | nil => exact ⟨rfl, rfl, rfl, rfl, rfl⟩
  | cons n ns ih =>
    obtain ⟨hn, hns⟩ := List.forall_mem_cons.mp hns
    rw [recountAll, wp_bind]
    refine wp_mono (fun r u hu => ?_) (syncPeerCount_asked hn)
    obtain ⟨hu, hcounts⟩ := hu
    have hpool : u.pool = (s.pool.establish n (K.connect n.id)).2 := hu.pool
    have hrest : (recountAll ns).wp K.surroundings.logic (fun r v => r = K.counts s.pool ns ∧
        Asked K (n :: ns) s v) u := by
      refine wp_mono (fun r v hv => ?_) (ih fun m hm => ?_)
      · obtain ⟨rfl, hv⟩ := hv
        exact ⟨by rw [hpool, Contact.counts_establish], hu.cons hv⟩
      · rw [hu.store, isSome_setAll]
        exact hns m hm
    rw [counts_cons n ns, hcounts]
    cases r with
    | error e => exact hrest
    | ok count =>
      change Program.wp _ (_ >>= _) _ u
      rw [wp_bind]
      refine wp_mono (fun rest v hv => ?_) hrest
      exact ⟨by rw [hv.1]; rfl, hv.2⟩

theorem runOnce_asked : runOnce.run.wp K.surroundings.logic
    (fun r u => r = .ok (K.counts s.pool s.store.listEligible) ∧
      Asked K s.store.listEligible s u) s := by
  rw [← outcome_eta (fun r u => r = _ ∧ _)]
  apply wp_run_bind_of
  apply wp_listFrom_of
  rintro a _ ⟨u, ⟨rfl, rfl⟩ | ⟨_, hfault, -⟩, rfl⟩
  · change (ExceptT.run (liftM (recountAll s.store.listEligible) : Pass _)).wp _ _ _
    rw [wp_run_lift]
    refine wp_mono (fun r v hv => ?_) (recountAll_asked fun n hn => ?_)
    · obtain ⟨rfl, hv⟩ := hv
      exact ⟨rfl, hv.store, hv.pool, hv.agents, hv.health⟩
    · change (s.store.node? n.id).isSome
      rw [Store.node?_of_mem_listEligible hn]
      rfl
  · exact hfault.elim

end pass

/-- A node with its counter set if it was counted. -/
def recount (counts : List (NodeId × UInt32)) (n : Node) : Node :=
  { n with currentPeers := (counts.lookup n.id).getD n.currentPeers }

section counters

variable {t : Store} {counts : List (NodeId × UInt32)} {n : Node} {id : NodeId} {c : UInt32}

@[simp] theorem recount_recount : recount counts (recount counts n) = recount counts n := by
  simp only [recount]
  cases counts.lookup n.id <;> rfl

theorem recount_cons : recount ((id, c) :: counts) n =
    if n.id = id then { n with currentPeers := c } else recount counts n := by
  by_cases h : n.id = id
  · simp [recount, h]
  · have hne : (n.id == id) = false := by simpa using h
    simp only [recount, List.lookup_cons, hne, if_neg h]

theorem recount_of_notMem (h : n.id ∉ counts.map Prod.fst) : recount counts n = n := by
  have hnone : counts.lookup n.id = none := by
    rw [List.lookup_eq_none_iff]
    intro x hx
    simp only [bne_iff_ne]
    exact fun he => h (he ▸ List.mem_map_of_mem hx)
  simp [recount, hnone]

theorem listNodes_setPeers : (t.setPeers id fun _ => c).2.listNodes =
    t.listNodes.map (recount [(id, c)]) := by
  cases h : t.node? id with
  | none =>
    rw [Store.setPeers_of_none h]
    refine ((List.map_congr_left fun n hn => ?_).trans (List.map_id _)).symm
    apply recount_of_notMem
    rw [List.map_cons, List.map_nil, List.mem_singleton]
    rintro rfl
    rw [Store.node?_eq_some_iff.mpr ⟨hn, rfl⟩] at h
    cases h
  | some m =>
    simp only [Store.setPeers, h]
    apply List.map_congr_left
    intro n _
    rw [recount_cons]
    exact if_congr Store.toInt_eq_iff rfl rfl

theorem listNodes_setAll (hd : (counts.map Prod.fst).Nodup) :
    (setAll t counts).listNodes = t.listNodes.map (recount counts) := by
  induction counts generalizing t with
  | nil => exact (List.map_id t.listNodes).symm
  | cons x counts ih =>
    obtain ⟨id, c⟩ := x
    obtain ⟨hnot, hd⟩ := List.nodup_cons.mp hd
    refine (ih hd).trans ?_
    rw [listNodes_setPeers, List.map_map]
    apply List.map_congr_left
    intro n _
    rw [Function.comp_apply, recount_cons, recount_cons]
    split_ifs with h
    · apply recount_of_notMem
      rwa [← h] at hnot
    · rfl

@[simp] theorem setAll_subscriptions : (setAll t counts).subscriptions = t.subscriptions := by
  induction counts generalizing t with
  | nil => rfl
  | cons x counts ih => exact ih.trans Store.setPeers_subscriptions

theorem listEligible_of_listNodes {t' : Store}
    (h : t'.listNodes = t.listNodes.map (recount counts)) :
    t'.listEligible = t.listEligible.map (recount counts) := by
  rw [Store.listEligible, h, List.filter_map]
  rfl

end counters

namespace Contact

variable {K K' : Contact} {q q' : Pool} {n m : Node} {ns : List Node} {id : NodeId} {c : UInt32}

theorem mem_counts_iff : (id, c) ∈ K.counts q ns ↔ ∃ n ∈ ns, ∃ infos, n.id = id ∧
    K.Hears q n infos ∧ c.toNat = min infos.length (2 ^ 32 - 1) := by
  have hcount (infos : List PeerInfo) :
      countOf infos = c ↔ c.toNat = min infos.length (2 ^ 32 - 1) := by
    have hlt : min infos.length (UInt32.size - 1) < 2 ^ 32 := by
      rw [UInt32.size]
      omega
    rw [← UInt32.toNat_inj, countOf, UInt32.toNat_ofNat_of_lt' hlt, eq_comm]
    rfl
  simp only [counts, List.mem_filterMap, Option.map_eq_some_iff, heard?_eq_some_iff, Prod.mk.injEq,
    hcount]
  constructor
  · rintro ⟨n, hn, infos, hh, hid, hc⟩
    exact ⟨n, hn, infos, hid, hh, hc⟩
  · rintro ⟨n, hn, infos, hid, hh, hc⟩
    exact ⟨n, hn, infos, hh, hid, hc⟩

theorem counts_ascending (h : ns.Pairwise fun a b => a.id < b.id) :
    (K.counts q ns).Pairwise fun x y => x.1 < y.1 := by
  apply h.filterMap
  intro a b hab x hx y hy
  obtain ⟨-, -, rfl⟩ := Option.map_eq_some_iff.mp hx
  obtain ⟨-, -, rfl⟩ := Option.map_eq_some_iff.mp hy
  exact hab

theorem nodup_counts (h : ns.Pairwise fun a b => a.id < b.id) :
    ((K.counts q ns).map Prod.fst).Nodup :=
  nodup_of_ascending ((counts_ascending h).imp Int64.lt_iff_toInt_lt.mp)

theorem counts_map_recount {counts : List (NodeId × UInt32)}
    (h : ∀ n ∈ ns, ∀ infos, K'.Hears q' n infos ↔ K.Hears q n infos) :
    K'.counts q' (ns.map (recount counts)) = K.counts q ns := by
  have hheard : ∀ n ∈ ns, K'.heard? q' n = K.heard? q n := by
    intro n hn
    apply Option.ext
    intro infos
    rw [heard?_eq_some_iff, heard?_eq_some_iff, h n hn infos]
  rw [Contact.counts, List.filterMap_map]
  apply List.filterMap_congr
  intro n hn
  rw [← hheard n hn]
  rfl

/-- There is a channel to a node, or none can be built. -/
def Settled (K : Contact) (q : Pool) (n : Node) : Prop :=
  (q.client? n.id).isSome ∨ ∃ e, K.connect n.id = .error e

theorem settled_establish : K.Settled (q.establish n (K.connect n.id)).2 n := by
  obtain ⟨-, k, fresh, hok, -⟩ | ⟨-, e, herror⟩ := K.establish_cases q n
  · left
    rw [client?_of_establish hok]
    rfl
  · exact .inr ⟨e, (error_of_establish herror).1⟩

theorem Settled.establish (h : K.Settled q n) (m : Node) :
    K.Settled (q.establish m (K.connect m.id)).2 n := by
  refine h.imp_left fun hk => ?_
  obtain ⟨k, hk⟩ := Option.isSome_iff_exists.mp hk
  rw [client?_establish hk]
  rfl

theorem Settled.pool (h : K.Settled q n) : (q.establish n (K.connect n.id)).2 = q := by
  cases hk : q.client? n.id with
  | some k => rw [establish_of_client? hk]
  | none =>
    obtain hsome | ⟨e, he⟩ := h
    · simp [hk] at hsome
    · rw [he, establish_of_error hk]

theorem Settled.foldl (h : K.Settled q n) :
    K.Settled (ns.foldl (fun q n => (q.establish n (K.connect n.id)).2) q) n := by
  induction ns generalizing q with
  | nil => exact h
  | cons m ns ih => exact ih (h.establish m)

theorem settled_foldl :
    ∀ n ∈ ns, K.Settled (ns.foldl (fun q n => (q.establish n (K.connect n.id)).2) q) n := by
  induction ns generalizing q with
  | nil => simp
  | cons m ns ih => exact List.forall_mem_cons.mpr ⟨settled_establish.foldl, ih⟩

theorem foldl_of_settled (h : ∀ n ∈ ns, K.Settled q n) :
    ns.foldl (fun q n => (q.establish n (K.connect n.id)).2) q = q := by
  induction ns with
  | nil => rfl
  | cons m ns ih =>
    obtain ⟨hm, h⟩ := List.forall_mem_cons.mp h
    rw [List.foldl_cons, hm.pool]
    exact ih h

theorem hears_foldl {infos : List PeerInfo} :
    K.Hears (ns.foldl (fun q n => (q.establish n (K.connect n.id)).2) q) n infos ↔
      K.Hears q n infos := by
  induction ns generalizing q with
  | nil => rfl
  | cons m ns ih => exact ih.trans (and_congr_left fun _ => reaches_establish)

end Contact

section whole

variable {K K' : Contact} {s s' s'' : State}

/-- What a pass leaves behind. -/
structure Recounted (s s' : State) (counts : List (NodeId × UInt32)) : Prop where
  nodes : s'.store.listNodes = s.store.listNodes.map (recount counts)
  subscriptions : s'.store.subscriptions = s.store.subscriptions
  agents : s'.agents = s.agents
  health : s'.health = s.health

theorem Asked.recounted (h : Asked K s.store.listEligible s s') :
    Recounted s s' (K.counts s.pool s.store.listEligible) where
  nodes := by
    rw [h.store, listNodes_setAll (Contact.nodup_counts (Store.listEligible_ascending _))]
  subscriptions := by rw [h.store, setAll_subscriptions]
  agents := h.agents
  health := h.health

theorem Recounted.listEligible {counts : List (NodeId × UInt32)} (h : Recounted s s' counts) :
    s'.store.listEligible = s.store.listEligible.map (recount counts) :=
  listEligible_of_listNodes h.nodes

theorem Recounted.again {counts : List (NodeId × UInt32)} (h : Recounted s s' counts)
    (h' : Recounted s' s'' counts) : s''.store = s'.store := by
  apply Store.ext_lists _ h'.subscriptions
  rw [h'.nodes, h.nodes, List.map_map]
  apply List.map_congr_left
  intro n _
  exact recount_recount

/-- If nothing else runs, a pass comes to an end whatever comes of connecting and listing. It
returns, by ascending id, the counts of exactly the eligible nodes whose agents were heard, sets
exactly their counters, and changes no other field, no subscription and no peer. What was heard
would be heard again, and a pass that hears the same returns the same and changes nothing. -/
theorem runOnce_recounts (K : Contact) (s : State) :
    (∃ r s', Runs K.surroundings runOnce.run s r s') ∧
    ∀ r s', Runs K.surroundings runOnce.run s r s' → ∃ counts, r = .ok counts ∧
      counts.Pairwise (fun x y => x.1 < y.1) ∧
      (∀ id c, (id, c) ∈ counts ↔ ∃ n ∈ s.store.listEligible, ∃ infos, n.id = id ∧
        K.Hears s.pool n infos ∧ c.toNat = min infos.length (2 ^ 32 - 1)) ∧
      Recounted s s' counts ∧
      (∀ n infos, K.Hears s'.pool n infos ↔ K.Hears s.pool n infos) ∧
      ∀ K' : Contact,
        (∀ n ∈ s.store.listEligible, ∀ infos, K'.Hears s'.pool n infos ↔ K.Hears s.pool n infos) →
        ∀ r' s'', Runs K'.surroundings runOnce.run s' r' s'' →
          r' = r ∧ s''.store = s'.store ∧ s''.agents = s'.agents ∧ s''.health = s'.health ∧
            (K' = K → s''.pool = s'.pool) := by
  refine ⟨exists_runs Contact.surroundings_total _ _, fun r s' hr => ?_⟩
  obtain ⟨rfl, ha⟩ := hr.of_wp runOnce_asked
  have hrecounted := ha.recounted
  refine ⟨_, rfl, Contact.counts_ascending (Store.listEligible_ascending _), ?_, hrecounted, ?_, ?_⟩
  · exact fun _ _ => Contact.mem_counts_iff
  · intro n infos
    rw [ha.pool]
    exact Contact.hears_foldl
  · intro K' hsame r' s'' hr'
    obtain ⟨rfl, ha'⟩ := hr'.of_wp runOnce_asked
    have hcounts : K'.counts s'.pool s'.store.listEligible =
        K.counts s.pool s.store.listEligible := by
      rw [hrecounted.listEligible]
      exact Contact.counts_map_recount hsame
    have hagain := ha'.recounted
    rw [hcounts] at hagain ⊢
    refine ⟨rfl, hrecounted.again hagain, ha'.agents, ha'.health, ?_⟩
    rintro rfl
    rw [ha'.pool]
    apply Contact.foldl_of_settled
    intro n hn
    rw [hrecounted.listEligible] at hn
    obtain ⟨m, hm, rfl⟩ := List.mem_map.mp hn
    have hsettled : K'.Settled s'.pool m := by
      rw [ha.pool]
      exact Contact.settled_foldl m hm
    exact hsettled

theorem runOnce_recounts_unreachable_nodes : ∃ (K : Contact) (s s' s'' : State),
    s.store.listEligible.map (fun n => (n.id, n.currentPeers)) = [(1, 4), (2, 9), (3, 7)] ∧
    K.list 1 "wg0" = .error (.transport .listPeers "refused") ∧
    K.connect 3 = .error (.certificateRead "client.pem" "not found") ∧
    Runs K.surroundings runOnce.run s (.ok [(2, 0)]) s' ∧
    s'.store.listNodes.map (fun n => (n.id, n.currentPeers)) = [(1, 4), (2, 0), (3, 7)] ∧
    Runs K.surroundings runOnce.run s' (.ok [(2, 0)]) s'' ∧
    s''.store = s'.store ∧ s''.pool = s'.pool := by
  let K : Contact := {
    connect := fun id =>
      if id = 3 then .error (.certificateRead "client.pem" "not found") else .ok ()
    list := fun id _ => if id = 1 then .error (.transport .listPeers "refused") else .ok [] }
  let node (id : NodeId) (peers : UInt32) : Node :=
    { Node.create id "node" "10.0.0.1:7443" 10 with currentPeers := peers }
  let s : State := (State.founding (node 1 4)).setStore (.ofNodes [node 1 4, node 2 9, node 3 7])
  have hcounts : K.counts s.pool s.store.listEligible = [(2, 0)] := by decide
  obtain ⟨⟨r, s', hr⟩, hall⟩ := runOnce_recounts K s
  obtain ⟨rfl, -⟩ := hr.of_wp runOnce_asked
  obtain ⟨_, hc, -, -, hrecounted, hhears, hagain⟩ := hall _ s' hr
  cases hc
  rw [hcounts] at hr hrecounted hagain
  obtain ⟨r', s'', hr'⟩ := exists_runs K.surroundings_total runOnce.run s'
  obtain ⟨rfl, hstore, -, -, hpool⟩ := hagain K (fun n _ => hhears n) r' s'' hr'
  refine ⟨K, s, s', s'', by decide, rfl, rfl, hr, ?_, hr', hstore, hpool rfl⟩
  rw [hrecounted.nodes]
  decide

end whole

end PeerFleet.PeerCount
