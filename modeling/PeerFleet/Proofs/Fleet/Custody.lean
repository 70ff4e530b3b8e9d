import Mathlib.Algebra.BigOperators.Group.Multiset.Basic
import PeerFleet.Proofs.Fleet.Steps

/-! # Custody of channels

What the calls on the pool tell in their answers: the channels that were built, taken out of the
pool, closed, and handed to callers. A channel that was built is in the pool or was taken out of
it, and what is handed out for a node is the channel that is filed, the same one until it is
taken out.
-/

namespace PeerFleet

def Pool.content (q : Pool) : Multiset Client :=
  q.clients.items

theorem Pool.countP_content (q : Pool) (id : NodeId) :
    q.content.countP (·.nodeId = id) = if (q.client? id).isSome then 1 else 0 := by
  have hc : q.content.countP (·.nodeId = id) = q.clients.items.countP (Keyed.key · = id.toInt) := by
    rw [content, Multiset.coe_countP]
    refine List.countP_congr fun c _ => ?_
    rw [decide_eq_true_iff, decide_eq_true_iff]
    exact Store.toInt_eq_iff.symm
  rw [hc, Table.countP_key]
  rfl

theorem Pool.mem_content_iff {q : Pool} {c : Client} :
    c ∈ q.content ↔ q.client? c.nodeId = some c := by
  rw [client?, Table.find?_eq_some_iff]
  exact (and_iff_left rfl).symm

namespace Fleet

def built : Exchange → Multiset Client
  | ⟨.pool (.establish _), .ok (c, true)⟩ => {c}
  | _ => 0

def taken : Exchange → Multiset Client
  | ⟨.pool (.remove _), some c⟩ => {c}
  | ⟨.pool .drain, cs⟩ => Multiset.ofList cs
  | _ => 0

/-- A channel counts as closed whether or not that failed. -/
def closed : Exchange → Multiset Client
  | ⟨.close c, _⟩ => {c}
  | _ => 0

def handed : Exchange → Multiset (NodeId × Client)
  | ⟨.pool (.lookup id), some c⟩ => {(id, c)}
  | ⟨.pool (.establish n), .ok (c, _)⟩ => {(n.id, c)}
  | _ => 0

section tally

variable {α : Type} (f : Exchange → Multiset α)

def tally (l : List Exchange) : Multiset α :=
  (l.map f).sum

@[simp] theorem tally_nil : tally f [] = 0 := rfl

@[simp] theorem tally_cons (x : Exchange) (l : List Exchange) :
    tally f (x :: l) = f x + tally f l :=
  List.sum_cons

end tally

/-- What a call does to the pool can be told from its answer. -/
structure Handles (q : Pool) (x : Exchange) (q' : Pool) : Prop where
  balance : built x + q.content = q'.content + taken x
  fresh : built x = 0 ∧ q'.built = q.built ∨
    ∃ c, built x = {c} ∧ c.serial = q.built ∧ q'.built = q.built + 1
  kept : ∀ {id c}, q.client? id = some c → (∀ d ∈ taken x, d.nodeId ≠ id) → q'.client? id = some c
  filed : ∀ {y}, y ∈ handed x → q'.client? y.1 = some y.2 ∧ taken x = 0

section handles

variable {q : Pool} {id : NodeId} {n : Node} {connected : Except AgentError Unit}

theorem handles_of_still {x : Exchange} (hb : built x = 0) (ht : taken x = 0)
    (hh : ∀ {y}, y ∈ handed x → q.client? y.1 = some y.2) : Handles q x q where
  balance := by rw [hb, ht, zero_add, add_zero]
  fresh := .inl ⟨hb, rfl⟩
  kept h _ := h
  filed hy := ⟨hh hy, ht⟩

theorem handles_close {c : Client} {a : Except AgentError Unit} : Handles q ⟨.close c, a⟩ q :=
  handles_of_still rfl rfl fun h => absurd h (Multiset.notMem_zero _)

theorem handles_lookup : Handles q ⟨.pool (.lookup id), q.client? id⟩ q := by
  cases h : q.client? id with
  | none => exact handles_of_still rfl rfl fun h => absurd h (Multiset.notMem_zero _)
  | some c =>
    refine handles_of_still rfl rfl fun {y} hy => ?_
    obtain rfl := Multiset.mem_singleton.mp hy
    exact h

theorem handles_establish :
    Handles q ⟨.pool (.establish n), (q.establish n connected).1⟩ (q.establish n connected).2 := by
  unfold Pool.establish
  split
  next c h =>
    refine handles_of_still rfl rfl fun {y} hy => ?_
    obtain rfl := Multiset.mem_singleton.mp hy
    exact h
  next h =>
    cases connected with
    | error e => exact handles_of_still rfl rfl fun h => absurd h (Multiset.notMem_zero _)
    | ok =>
      obtain ⟨l, r, hl, hi⟩ := Table.insert_split (t := q.clients) (a := ⟨n.id, q.built⟩) h
      refine ⟨?_, .inr ⟨_, rfl, rfl, rfl⟩, fun {id c} hc _ => ?_, fun {y} hy => ⟨?_, rfl⟩⟩
      · change {(⟨n.id, q.built⟩ : Client)} + (q.clients.items : Multiset Client) =
          ((q.clients.insert ⟨n.id, q.built⟩).items : Multiset Client) + 0
        rw [hl, hi, add_zero, Multiset.singleton_add, Multiset.cons_coe]
        exact (Multiset.coe_eq_coe.mpr List.perm_middle).symm
      · have hne : n.id ≠ id := by
          rintro rfl
          rw [h] at hc
          cases hc
        exact (client?_add q n.id id).trans (by rw [if_neg hne, hc])
      · obtain rfl := Multiset.mem_singleton.mp hy
        exact (client?_add q n.id n.id).trans (if_pos rfl)

theorem handles_remove :
    Handles q ⟨.pool (.remove id), (q.remove id).1⟩ (q.remove id).2 := by
  have hkept {j : NodeId} {c : Client} (hc : q.client? j = some c) (hj : j ≠ id) :
      (q.remove id).2.client? j = some c := by
    change (q.clients.erase id.toInt).find? j.toInt = some c
    rwa [Table.find?_erase, if_neg (mt Store.toInt_eq_iff.mp hj)]
  change Handles q ⟨.pool (.remove id), q.client? id⟩ _
  cases h : q.client? id with
  | none =>
    refine ⟨?_, .inl ⟨rfl, rfl⟩, fun {j c} hc _ => hkept hc ?_, fun hy => ?_⟩
    · have he : (q.remove id).2.content = q.content :=
        congrArg Multiset.ofList (Table.erase_of_none h)
      rw [he]
      exact Multiset.add_comm 0 _
    · rintro rfl
      rw [h] at hc
      cases hc
    · exact absurd hy (Multiset.notMem_zero _)
  | some c =>
    refine ⟨?_, .inl ⟨rfl, rfl⟩, fun {j d} hd ht => hkept hd ?_, fun hy => ?_⟩
    · have he : q.content = c ::ₘ (q.remove id).2.content :=
        Multiset.coe_eq_coe.mpr (Table.items_erase h)
      change 0 + q.content = _ + {c}
      rw [zero_add, he, Multiset.add_comm, Multiset.singleton_add]
    · rintro rfl
      exact ht c (Multiset.mem_singleton_self c) (nodeId_of_client? h)
    · exact absurd hy (Multiset.notMem_zero _)

theorem handles_drain {cs : List Client} (h : cs.Perm q.drain.1) :
    Handles q ⟨.pool .drain, cs⟩ q.drain.2 where
  balance := by
    have hc : (cs : Multiset Client) = q.content := Multiset.coe_eq_coe.mpr h
    change 0 + q.content = 0 + Multiset.ofList cs
    rw [hc]
  fresh := .inl ⟨rfl, rfl⟩
  kept {id c} hc ht := by
    have hm : c ∈ cs := h.mem_iff.mpr (Table.find?_eq_some_iff.mp hc).1
    exact absurd (nodeId_of_client? hc) (ht c hm)
  filed hy := absurd hy (Multiset.notMem_zero _)

end handles

/-- Every channel that was built is filed or was taken out. What was last handed out for a node
is filed unless it was taken out, so two that were handed out with no removal in between are one
and the same. -/
structure Custody (s : State) : Prop where
  ledger : tally built s.history = s.pool.content + tally taken s.history
  serial : ∀ c ∈ tally built s.history, c.serial < s.pool.built
  nodup : (tally built s.history).Nodup
  current : ∀ {later x earlier y}, s.history = later ++ x :: earlier → y ∈ handed x →
    (∀ z ∈ later, ∀ c ∈ taken z, c.nodeId ≠ y.1) → s.pool.client? y.1 = some y.2
  shared : ∀ {later x between x' earlier y y'},
    s.history = later ++ x :: (between ++ x' :: earlier) → y ∈ handed x → y' ∈ handed x' →
    y.1 = y'.1 → (∀ z ∈ between, ∀ c ∈ taken z, c.nodeId ≠ y'.1) → y.2 = y'.2

namespace Custody

variable {s s' : State} {x : Exchange}

theorem of_empty (hp : s.pool.clients = .empty) (hh : s.history = []) : Custody s where
  ledger := by
    rw [hh, Pool.content, hp]
    rfl
  serial c hc := by
    rw [hh] at hc
    exact absurd hc (Multiset.notMem_zero c)
  nodup := by
    rw [hh]
    exact Multiset.nodup_zero
  current h := by
    rw [hh] at h
    exact absurd h.symm (by simp)
  shared h := by
    rw [hh] at h
    exact absurd h.symm (by simp)

theorem step (h : Custody s) (hh : s'.history = x :: s.history) (hx : Handles s.pool x s'.pool) :
    Custody s' where
  ledger := by
    rw [hh, tally_cons, tally_cons, h.ledger, ← add_assoc, hx.balance, add_assoc]
  serial c hc := by
    rw [hh, tally_cons] at hc
    rcases Multiset.mem_add.mp hc with hc | hc
    · obtain ⟨hb, -⟩ | ⟨d, hb, hd, hs⟩ := hx.fresh
      · rw [hb] at hc
        exact absurd hc (Multiset.notMem_zero c)
      · rw [hb] at hc
        obtain rfl := Multiset.mem_singleton.mp hc
        omega
    · have hlt := h.serial c hc
      obtain ⟨-, hs⟩ | ⟨d, -, -, hs⟩ := hx.fresh <;> omega
  nodup := by
    rw [hh, tally_cons]
    obtain ⟨hb, -⟩ | ⟨d, hb, hd, -⟩ := hx.fresh
    · rw [hb, zero_add]
      exact h.nodup
    · rw [hb, Multiset.singleton_add, Multiset.nodup_cons]
      refine ⟨fun hm => ?_, h.nodup⟩
      have := h.serial d hm
      omega
  current {later z earlier y} he hy hl := by
    rw [hh] at he
    cases later with
    | nil =>
      obtain ⟨rfl, -⟩ := List.cons.inj he
      exact (hx.filed hy).1
    | cons w later =>
      obtain ⟨rfl, he'⟩ := List.cons.inj he
      obtain ⟨hw, hl⟩ := List.forall_mem_cons.mp hl
      exact hx.kept (h.current he' hy hl) hw
  shared {later z between z' earlier y y'} he hy hy' hid hb := by
    rw [hh] at he
    cases later with
    | nil =>
      -- what is handed out now is filed, and so was what was handed out before
      obtain ⟨rfl, he'⟩ := List.cons.inj he
      obtain ⟨hf, ht⟩ := hx.filed hy
      have hk := hx.kept (h.current he' hy' hb) (by simp [ht])
      rw [hid, hk] at hf
      exact (Option.some.inj hf).symm
    | cons w later =>
      obtain ⟨rfl, he'⟩ := List.cons.inj he
      exact h.shared he' hy hy' hid hb

end Custody

end Fleet

end PeerFleet
