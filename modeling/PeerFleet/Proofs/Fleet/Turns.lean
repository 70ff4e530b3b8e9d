import PeerFleet.Proofs.Fleet.Steps
import PeerFleet.Proofs.Program.Interleaving

/-! # Turns on the fleet

What a thread of any discipline has to show for a call on the fleet: that the invariant holds
again afterwards, with the call written down and the thread at its next stage. Calls on the pool
matter to no discipline, so the search for a channel is one rule for all of them.
-/

namespace PeerFleet

namespace Discipline

variable {κ Γ : Type} {W : Workload Effects Fleet.State κ} (D : Discipline W Γ) (k : κ) (γ : Γ)

/-- A call does not matter to a discipline at a stage. -/
structure Passes (c : Effect) : Prop where
  guard : D.Guard c k γ
  moves : ∀ a, D.Moves k γ c a γ
  inv : ∀ {s m a}, D.Inv s m → D.Inv (s.record c a) m

/-- The pool does not matter to a discipline at a stage. -/
structure PassesPool : Prop where
  guard : ∀ c, D.Guard (.pool c) k γ
  moves : ∀ c a, D.Moves k γ (.pool c) a γ
  inv : ∀ {s m q c a}, D.Inv s m → D.Inv ((s.setPool q).record (.pool c) a) m

end Discipline

namespace Fleet

open Program

variable {κ Γ : Type} {W : Workload Effects State κ} {D : Discipline W Γ} {C : Conditions}
  {E : Environment Effects State} {k : κ} {γ : Γ}

theorem turn_of {c : Effect} {K : c.Answer → Γ → Prop} (hg : D.Guard c k γ)
    (h : ∀ o s a u, D.Inv s ((k, γ) ::ₘ o) → C.effect s c a u →
      ∃ γ', D.Inv (u.record c a) ((k, γ') ::ₘ o) ∧ D.Moves k γ c a γ' ∧ K a γ') :
    (D.turns C.surroundings k).pre c K γ := by
  refine ⟨hg, fun o s a s' hi he => ?_⟩
  obtain ⟨u, hu, rfl⟩ := he
  exact h o s a u hi hu

theorem turn_store_of (hC : ∀ s c e, ¬ C.storeFault s c e) {c : StoreCall}
    {K : c.Answer → Γ → Prop} (hg : D.Guard (.store c) k γ)
    (h : ∀ o s, D.Inv s ((k, γ) ::ₘ o) → ∃ γ',
      D.Inv ((s.setStore (s.store.perform c).2).record (.store c) (s.store.perform c).1)
        ((k, γ') ::ₘ o) ∧
      D.Moves k γ (.store c) (s.store.perform c).1 γ' ∧ K (s.store.perform c).1 γ') :
    (D.turns C.surroundings k).pre (.store c) K γ := by
  refine turn_of hg fun o s a u hi he => ?_
  obtain ⟨rfl, rfl⟩ | ⟨e, he, -⟩ := he
  · exact h o s hi
  · exact (hC s c e he).elim

theorem turn_pass_of {c : Effect} {K : c.Answer → Γ → Prop} (hc : D.Passes k γ c)
    (hs : ∀ s a u, C.effect s c a u → u = s) (h : ∀ a, K a γ) :
    (D.turns C.surroundings k).pre c K γ := by
  refine turn_of hc.guard fun o s a u hi he => ⟨γ, ?_, hc.moves a, h a⟩
  obtain rfl := hs s a u he
  exact hc.inv hi

/-- A channel is found or built, or building it fails and the thread goes on from there. -/
theorem clientFor_turn_of (hE : ∀ {c s a s'}, E c s a s' → C.surroundings c s a s')
    (hp : D.PassesPool k γ) {n : Node} {S : Client → Γ → Prop} {F : FleetError → Γ → Prop}
    (hS : ∀ c, c.nodeId = n.id → S c γ)
    (hF : ∀ o s e, D.Inv s ((k, γ) ::ₘ o) → C.connectFault s n e → ∃ γ', D.Inv s ((k, γ') ::ₘ o) ∧
      (∀ c a, D.Moves k γ (.pool c) a γ') ∧ F (.clientConstruction n.id e) γ') :
    (clientFor n).run.wp (D.turns E k) (Outcome S F) γ := by
  rw [wp_clientFor]
  refine ⟨hp.guard _, fun o s a s' hi he => ?_⟩
  obtain ⟨_, ⟨_, -, rfl, rfl⟩, rfl⟩ := hE he
  refine ⟨γ, hp.inv hi, hp.moves _ _, ?_⟩
  change (s.pool.client? n.id).elim (_ : Γ → Prop) _ _
  cases hk : s.pool.client? n.id with
  | some c => exact hS c (nodeId_of_client? hk)
  | none =>
    refine ⟨hp.guard _, fun o s a s' hi he => ?_⟩
    obtain ⟨_, ⟨connected, hc, rfl, rfl⟩, rfl⟩ := hE he
    change ∃ γ', _ ∧ _ ∧ Outcome _ _ (s.pool.establish n connected).1 γ'
    cases hr : (s.pool.establish n connected).1 with
    | ok c =>
      exact ⟨γ, hp.inv hi, hp.moves _ _, hS c.1 (nodeId_of_client? (client?_of_establish hr))⟩
    | error e =>
      obtain ⟨m, hm, hfault⟩ := hc e (error_of_establish hr).1
      cases hm
      obtain ⟨γ', hi', hm, hf⟩ := hF o s e hi hfault
      exact ⟨γ', hp.inv hi', hm _ _, hf⟩

end Fleet

end PeerFleet
