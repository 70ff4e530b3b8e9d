import PeerFleet.Proofs.Fleet.Atomicity
import PeerFleet.Proofs.Fleet.Custody
import PeerFleet.Proofs.Program.Interleaving

/-! # Channels under concurrency

Any number of callers acquire channels, evict them and close the pool, and take turns at their
calls in any order. A channel that a caller has taken out of the pool and has still to close is
pending; with those that are pending, the channels that were taken out are the channels that were
closed.
-/

namespace PeerFleet.Fleet

open Program

/-- What callers ask of the pool. -/
inductive Handling where
  | acquire (n : Node)
  | evict (id : NodeId)
  | close

def Handling.Result : Handling → Type
  | .acquire _ => Except AgentError Client
  | .evict _ => Bool
  | .close => Unit

def handlings : Workload Effects State Handling where
  Result := Handling.Result
  program
    | .acquire n => clientOf n
    | .evict id => Fleet.evict id
    | .close => Fleet.close
  admits _ _ _ := True

/-- An answer as good as another: a pool that is emptied lists its channels in any order. -/
def Reorders : (c : Effect) → c.Answer → c.Answer → Prop
  | .pool .drain, cs, cs' => List.Perm cs' cs
  | _, a, a' => a' = a

/-- Building and closing a channel may fail at any time. -/
def poolside : Environment Effects State := fun c s a s' =>
  ∃ a' u, remoteTroubles.effect s c a' u ∧ Reorders c a' a ∧ s' = u.record c a

/-- How far a caller is. -/
inductive Holding where
  | begun
  | given (id : NodeId) (c : Client)
  | refused (e : AgentError)
  | closing (cs : List Client)

namespace Holding

@[simp] def pending : Holding → Multiset Client
  | closing cs => cs
  | _ => 0

@[simp] def handed : Holding → Multiset (NodeId × Client)
  | given id c => {(id, c)}
  | _ => 0

def Open : Holding → Prop
  | begun | closing _ => True
  | given _ _ | refused _ => False

def ended : (k : Handling) → k.Result → Holding
  | .acquire n, .ok c => given n.id c
  | .acquire _, .error e => refused e
  | .evict _, _ | .close, _ => closing []

/-- A call leads from one stage to another. -/
structure Leads (γ : Holding) (x : Exchange) (γ' : Holding) : Prop where
  pending : taken x + γ.pending = closed x + γ'.pending
  handed : Fleet.handed x + γ.handed = γ'.handed

theorem pending_ended (k : Handling) (r : k.Result) : (ended k r).pending = 0 := by
  cases k with
  | acquire n => cases r <;> rfl
  | evict | close => rfl

def Refuses : (c : Effect) → c.Answer → Holding → Prop
  | .pool (.establish _), .error e, γ => γ = refused e
  | _, _, _ => True

end Holding

/-- What was taken out was closed or is pending, and what was handed out is with its caller. -/
structure Accounts (s : State) (m : Multiset (Handling × Holding)) : Prop where
  custody : Custody s
  pending : tally taken s.history = tally closed s.history + m.bind (·.2.pending)
  handed : tally handed s.history = m.bind (·.2.handed)

theorem Accounts.step {s s' : State} {k : Handling} {γ γ' : Holding}
    {o : Multiset (Handling × Holding)} {x : Exchange} (h : Accounts s ((k, γ) ::ₘ o))
    (hh : s'.history = x :: s.history) (hx : Handles s.pool x s'.pool) (hγ : γ.Leads x γ') :
    Accounts s' ((k, γ') ::ₘ o) where
  custody := h.custody.step hh hx
  pending := by
    have hp := h.pending
    rw [Multiset.cons_bind] at hp ⊢
    rw [hh, tally_cons, tally_cons, hp, add_left_comm, ← add_assoc (taken x), hγ.pending]
    ac_rfl
  handed := by
    have hp := h.handed
    rw [Multiset.cons_bind] at hp ⊢
    rw [hh, tally_cons, hp, ← add_assoc, hγ.handed]

def accounting : Discipline handlings Holding where
  start _ := .begun
  Final _ _ := True
  Yields k r γ := γ = .ended k r
  Guard _ _ γ := γ.Open
  Moves _ _ c a γ := Holding.Refuses c a γ
  Inv := Accounts

section turns

variable {k : Handling} {γ : Holding}

theorem handles_of_poolside {s s' : State} {c : PoolCall} {a : c.Answer}
    (h : poolside (.pool c) s a s') : Handles s.pool ⟨.pool c, a⟩ s'.pool := by
  obtain ⟨a', _, ⟨connected, -, rfl, rfl⟩, ha, rfl⟩ := h
  cases c with
  | lookup id =>
    obtain rfl := ha
    exact handles_lookup
  | establish n =>
    obtain rfl := ha
    exact handles_establish
  | remove id =>
    obtain rfl := ha
    exact handles_remove
  | drain => exact handles_drain ha

theorem turn_pool {c : PoolCall} {K : c.Answer → Holding → Prop} (hγ : γ.Open)
    (h : ∀ a, ∃ γ', γ.Leads ⟨.pool c, a⟩ γ' ∧ Holding.Refuses (.pool c) a γ' ∧ K a γ') :
    (accounting.turns poolside k).pre (.pool c) K γ := by
  refine ⟨hγ, fun o s a s' hi he => ?_⟩
  have hx := handles_of_poolside he
  obtain ⟨_, _, ⟨_, -, -, rfl⟩, -, rfl⟩ := he
  obtain ⟨γ', hl, hr, hk⟩ := h a
  exact ⟨γ', hi.step rfl hx hl, hr, hk⟩

theorem turn_close {c : Client} {cs : List Client}
    {K : Except AgentError Unit → Holding → Prop} (h : ∀ a, K a (.closing cs)) :
    (accounting.turns poolside k).pre (.close c) K (.closing (c :: cs)) := by
  refine ⟨trivial, fun o s a s' hi he => ?_⟩
  obtain ⟨_, _, rfl, -, rfl⟩ := he
  refine ⟨.closing cs, hi.step rfl handles_close ⟨?_, rfl⟩, trivial, h a⟩
  exact (zero_add _).trans (Multiset.singleton_add c cs).symm

theorem clientOf_kept (n : Node) :
    (clientOf n).wp (accounting.turns poolside k) (fun r γ => γ = .ended (.acquire n) r)
      .begun := by
  rw [wp_clientOf]
  refine turn_pool trivial fun filed => ?_
  cases filed with
  | some c => exact ⟨.given n.id c, ⟨rfl, rfl⟩, trivial, rfl⟩
  | none =>
    refine ⟨.begun, ⟨rfl, rfl⟩, trivial, turn_pool trivial fun r => ?_⟩
    cases r with
    | error e => exact ⟨.refused e, ⟨rfl, rfl⟩, rfl, rfl⟩
    | ok c =>
      obtain ⟨c, fresh⟩ := c
      exact ⟨.given n.id c, ⟨rfl, rfl⟩, trivial, rfl⟩

theorem evict_kept (id : NodeId) :
    (evict id).wp (accounting.turns poolside k) (fun _ γ => γ = .closing []) .begun := by
  rw [wp_evict]
  refine turn_pool trivial fun found => ?_
  cases found with
  | none => exact ⟨.closing [], ⟨rfl, rfl⟩, trivial, rfl⟩
  | some c => exact ⟨.closing [c], ⟨rfl, rfl⟩, trivial, turn_close fun _ => rfl⟩

theorem close_kept :
    close.wp (accounting.turns poolside k) (fun _ γ => γ = .closing []) .begun := by
  refine turn_pool trivial fun cs => ⟨.closing cs, ⟨?_, rfl⟩, trivial, ?_⟩
  · exact (add_zero _).trans (zero_add _).symm
  · refine releaseAll_wp (J := fun cs γ => γ = Holding.closing cs) (fun c cs γ hγ => ?_) rfl
    subst hγ
    exact turn_close fun _ => rfl

theorem handlings_keep : accounting.Keeps poolside where
  begins {M s k} hM _ := by
    have hi : Accounts s (Discipline.stages M) := hM.inv
    exact ⟨hi.custody, by simpa [accounting, Multiset.cons_bind] using hi.pending,
      by simpa [accounting, Multiset.cons_bind] using hi.handed⟩
  follows k := by
    refine wp_mono (fun _ _ h => ⟨trivial, h⟩) ?_
    cases k with
    | acquire n => exact clientOf_kept n
    | evict id => exact evict_kept id
    | close => exact close_kept

end turns

section runs

variable {s₀ s : State} {ts : handlings.Threads}

def acquired : (k : Handling) → k.Result → Multiset (NodeId × Client)
  | .acquire n, .ok c => {(n.id, c)}
  | _, _ => 0

def returned (t : Thread Effects handlings.Result) : Multiset (NodeId × Client) :=
  t.rest.result?.elim 0 (acquired t.kind)

theorem handed_ended (k : Handling) (r : k.Result) :
    (Holding.ended k r).handed = acquired k r := by
  cases k with
  | acquire n => cases r <;> rfl
  | evict | close => rfl

theorem returned_of_follows {t : Thread Effects handlings.Result} {γ : Holding}
    (h : accounting.Follows poolside t γ) : returned t = γ.handed := by
  cases hn : t.rest.next? with
  | none =>
    obtain ⟨r, hr, rfl⟩ := h.yields hn
    rw [returned, hr]
    exact (handed_ended t.kind r).symm
  | some c =>
    have hr : t.rest.result? = none := by
      refine Option.eq_none_iff_forall_ne_some.mpr fun r hr => ?_
      rw [next?_eq_none hr] at hn
      cases hn
    rw [returned, hr]
    have hg : γ.Open := h.guard hn
    cases γ with
    | begun | closing => rfl
    | given | refused => exact hg.elim

theorem accounting_staged (hp : s₀.pool.clients = .empty) (hh : s₀.history = []) :
    accounting.Staged poolside (W := handlings) 0 s₀ := by
  refine .of_inv _ _ ⟨.of_empty hp hh, ?_, ?_⟩
  · rw [hh]
    rfl
  · rw [hh]
    rfl

theorem pool_of_refusal {m : Node} {s' : State} {e : AgentError}
    (h : poolside (.pool (.establish m)) s (.error e) s') : s'.pool = s.pool := by
  obtain ⟨_, _, ⟨connected, -, rfl, rfl⟩, ha, rfl⟩ := h
  exact (error_of_establish ha.symm).2

theorem refusal_of_follows {n m : Node}
    {rest : Except AgentError (Client × Bool) → Program Effects (Except AgentError Client)}
    {γ : Holding} {s' : State} {o : Multiset (Handling × Holding)} {e : AgentError}
    (h : accounting.Follows poolside ⟨.acquire n, .call (.pool (.establish m)) rest⟩ γ)
    (hi : Accounts s ((.acquire n, γ) ::ₘ o))
    (he : poolside (.pool (.establish m)) s (.error e) s') :
    (rest (.error e)).result? = some (.error e) := by
  obtain ⟨γ', -, hγ', h'⟩ := h.2 o s _ s' hi he
  obtain rfl : γ' = .refused e := hγ'
  have hf : accounting.Follows poolside (W := handlings) ⟨.acquire n, rest (.error e)⟩
      (.refused e) := h'
  cases hn : (rest (.error e)).next? with
  | some c => exact (hf.guard hn).elim
  | none =>
    obtain ⟨r, hr, hy⟩ := hf.yields hn
    cases r with
    | ok => cases hy
    | error =>
      cases hy
      exact hr

theorem pending_of_follows {M : Multiset (Thread Effects handlings.Result × Holding)}
    (hM : ∀ x ∈ M, accounting.Follows poolside x.1 x.2)
    (hd : ∀ x ∈ M, x.1.rest.next? = none) : (Discipline.stages M).bind (·.2.pending) = 0 := by
  refine (Multiset.bind_congr fun y hy => ?_).trans (Multiset.bind_zero _)
  obtain ⟨x, hx, rfl⟩ := Multiset.mem_map.mp hy
  obtain ⟨r, -, hγ⟩ := (hM x hx).yields (hd x hx)
  rw [hγ]
  exact Holding.pending_ended x.1.kind r

/-- Callers take turns at a pool that is empty at first. For every node, the channels that were
built are those that were taken out and the one that is filed, if one is. Who cannot build a
channel changes nothing and passes the failure on. What was handed out is what the callers have
returned with, and for one node it is the same channel unless one was taken out in between. When
every caller is at its end, each channel is filed and was not closed, or else was closed once. -/
theorem handlings_keep_custody (hp : s₀.pool.clients = .empty) (hh : s₀.history = [])
    (hr : handlings.Reaches poolside (0, s₀) (ts, s)) :
    (∀ id, (tally built s.history).countP (·.nodeId = id) =
      (tally taken s.history).countP (·.nodeId = id) +
        if (s.pool.client? id).isSome then 1 else 0) ∧
    (∀ {n m : Node}
        {rest : Except AgentError (Client × Bool) → Program Effects (Except AgentError Client)}
        {e : AgentError} {s' : State},
      (⟨.acquire n, .call (.pool (.establish m)) rest⟩ : Thread Effects handlings.Result) ∈ ts →
      poolside (.pool (.establish m)) s (.error e) s' →
      s'.pool = s.pool ∧ (rest (.error e)).result? = some (.error e)) ∧
    tally handed s.history = ts.bind returned ∧
    (∀ {later x between x' earlier id c c'},
      s.history = later ++ x :: (between ++ x' :: earlier) → (id, c) ∈ handed x →
      (id, c') ∈ handed x' → (∀ z ∈ between, ∀ d ∈ taken z, d.nodeId ≠ id) → c = c') ∧
    ((∀ t ∈ ts, t.rest.next? = none) → ∀ c ∈ tally built s.history,
      (s.pool.client? c.nodeId = some c ∧ (tally closed s.history).count c = 0) ∨
      (s.pool.client? c.nodeId ≠ some c ∧ (tally closed s.history).count c = 1)) := by
  obtain ⟨M, rfl, hM⟩ := (accounting_staged hp hh).reaches handlings_keep hr
  have hi : Accounts s (Discipline.stages M) := hM.inv
  refine ⟨fun id => ?_, fun {n m rest e s'} ht he => ⟨pool_of_refusal he, ?_⟩, ?_,
    fun hs hx hx' hb => hi.custody.shared hs hx hx' rfl hb, fun hd c hc => ?_⟩
  · rw [hi.custody.ledger, Multiset.countP_add, Pool.countP_content, add_comm]
  · obtain ⟨⟨t, γ⟩, hx, rfl⟩ := Multiset.mem_map.mp ht
    obtain ⟨o, rfl⟩ := Multiset.exists_cons_of_mem hx
    refine refusal_of_follows (hM.follows _ hx) (o := Discipline.stages o) ?_ he
    simpa [Discipline.stages] using hi
  · rw [hi.handed, Discipline.stages, Multiset.bind_map, Multiset.bind_map]
    exact Multiset.bind_congr fun x hx => (returned_of_follows (hM.follows x hx)).symm
  · have ht : tally taken s.history = tally closed s.history := by
      rw [hi.pending, pending_of_follows hM.follows, add_zero]
      exact fun x hx => hd _ (Multiset.mem_map_of_mem _ hx)
    have hone := Multiset.count_eq_one_of_mem hi.custody.nodup hc
    rw [hi.custody.ledger, ht, Multiset.count_add] at hone
    rw [ne_eq, ← Pool.mem_content_iff, ← Multiset.one_le_count_iff_mem]
    omega

theorem exists_rebuilt : handlings.Can poolside (0, .founding (.create 1 "node-1" "a:1" 10))
    fun x => (∀ t ∈ x.1, t.rest.next? = none) ∧ x.2.pool.client? 1 = some ⟨1, 1⟩ ∧
      tally built x.2.history = {⟨1, 1⟩, ⟨1, 0⟩} := by
  let n : Node := .create 1 "node-1" "a:1" 10
  refine .start (k := .acquire n) trivial ?_
  refine .call ⟨_, _, ⟨.ok (), nofun, rfl, rfl⟩, rfl, rfl⟩ ?_
  refine .start (k := .acquire n) trivial ?_
  refine .call ⟨_, _, ⟨.ok (), nofun, rfl, rfl⟩, rfl, rfl⟩ ?_
  refine .call ⟨_, _, ⟨.error (.config "no key"), fun _ _ => ⟨n, rfl, trivial⟩, rfl, rfl⟩,
    rfl, rfl⟩ ?_
  refine .swap ?_
  refine .call ⟨_, _, ⟨.ok (), nofun, rfl, rfl⟩, rfl, rfl⟩ (.note ?_)
  refine .start (k := .evict 1) trivial ?_
  refine .call ⟨_, _, ⟨.ok (), nofun, rfl, rfl⟩, rfl, rfl⟩ ?_
  refine .call (a := .error (.config "broken")) ⟨_, _, rfl, rfl, rfl⟩ (.note ?_)
  refine .start (k := .acquire n) trivial ?_
  refine .call ⟨_, _, ⟨.ok (), nofun, rfl, rfl⟩, rfl, rfl⟩ ?_
  refine .call ⟨_, _, ⟨.ok (), nofun, rfl, rfl⟩, rfl, rfl⟩ (.note (.here ⟨?_, rfl, rfl⟩))
  dsimp only
  refine Multiset.forall_mem_cons.mpr ⟨rfl, Multiset.forall_mem_cons.mpr ⟨rfl, ?_⟩⟩
  exact Workload.forall_mem_pair rfl rfl

theorem custody_of_rebuilt : ∃ (s₀ s : State) (ts : handlings.Threads),
    s₀.pool.clients = .empty ∧ s₀.history = [] ∧ handlings.Reaches poolside (0, s₀) (ts, s) ∧
    (∀ t ∈ ts, t.rest.next? = none) ∧
    (s.pool.client? 1 = some ⟨1, 1⟩ ∧ (tally closed s.history).count ⟨1, 1⟩ = 0) ∧
    (s.pool.client? 1 ≠ some ⟨1, 0⟩ ∧ (tally closed s.history).count ⟨1, 0⟩ = 1) := by
  obtain ⟨⟨ts, s⟩, hr, hd, hc, hb⟩ := exists_rebuilt
  obtain ⟨-, -, -, -, hsettled⟩ := handlings_keep_custody rfl rfl hr
  have hmem (i : Nat) (h : i = 1 ∨ i = 0) : (⟨1, i⟩ : Client) ∈ tally built s.history := by
    rw [hb]
    rcases h with rfl | rfl <;> simp
  have hlast := hsettled hd _ (hmem 1 (.inl rfl))
  have hfirst := hsettled hd _ (hmem 0 (.inr rfl))
  rw [hc] at hlast hfirst
  refine ⟨_, s, ts, rfl, rfl, hr, hd, ?_, ?_⟩
  · simpa [hc] using hlast
  · simpa [hc] using hfirst

end runs

end PeerFleet.Fleet
