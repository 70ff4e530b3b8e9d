import PeerFleet.Proofs.Fleet.Steps
import PeerFleet.Proofs.Health.Observation
import PeerFleet.Proofs.Program.Parts

/-! # Calls that do not count

What a history tells of one kind of calls is not changed by a program that makes no call of
that kind. The operations of the fleet are put together from parts for which this is seen from
their calls alone.
-/

namespace PeerFleet.Fleet

open Program
open Health (told told_record)

variable {β : Type} {f : Exchange → Option β}

def ignoring (f : Exchange → Option β) : CallLogic Effects Unit where
  pre c K _ := ∀ a, f ⟨c, a⟩ = none ∧ K a ()
  mono hK h := fun a => (h a).imp_right (hK a ())

/-- No call of a program counts. -/
abbrev Ignores {α : Type} (f : Exchange → Option β) (p : FleetProgram α) : Prop :=
  p.wp (ignoring f) (fun _ _ => True) ()

section told

variable {C : Conditions} {s s' u : State} {α : Type} {p : FleetProgram α} {a : α}

theorem told_record_of_effect {c : Effect} {b : c.Answer} (h : C.effect s c b u) :
    told f (u.record c b) = told f s ++ (f ⟨c, b⟩).toList := by
  rw [told_record, told, told, history_of_effect h]

theorem told_eq_of_ignores (hp : Ignores f p) (hr : Runs C.surroundings p s a s') :
    told f s' = told f s := by
  induction hr with
  | done => rfl
  | note _ ih => exact ih hp
  | call he _ ih =>
    obtain ⟨u, hu, rfl⟩ := he
    obtain ⟨hc, hrest⟩ := hp _
    rw [ih hrest, told_record_of_effect hu, hc]
    exact List.append_nil _

end told

section parts

variable {α : Type} {n : Node} {k : Client}

theorem ignores_run_bind {ε γ : Type} {p : ExceptT ε (Program Effects) α}
    {g : α → ExceptT ε (Program Effects) γ} (hp : Ignores f p.run) (hg : ∀ a, Ignores f (g a).run) :
    Ignores f (p >>= g).run := by
  rw [Ignores, wp_run_bind]
  refine wp_mono (fun r _ _ => ?_) hp
  cases r with
  | ok a => exact hg a
  | error => trivial

theorem ignores_run_lift {ε : Type} {p : FleetProgram α} (hp : Ignores f p) :
    Ignores f (liftM p : ExceptT ε (Program Effects) α).run := by
  rw [Ignores, wp_run_lift]
  exact hp

theorem ignores_fromStore {c : StoreCall} (h : ∀ a, f ⟨.store c, a⟩ = none) :
    Ignores f (fromStore c).run := by
  rw [Ignores, wp_fromStore]
  exact fun r => ⟨h r, by cases r <;> trivial⟩

theorem ignores_clientFor (h : ∀ c a, f ⟨.pool c, a⟩ = none) : Ignores f (clientFor n).run := by
  rw [Ignores, wp_clientFor]
  refine fun filed => ⟨h _ filed, ?_⟩
  change (filed : Option Client).elim (_ : Unit → Prop) _ ()
  cases filed with
  | some k => trivial
  | none => exact fun r => ⟨h _ r, by cases r <;> trivial⟩

theorem ignores_remote {c : Agent.Call} (h : ∀ a, f ⟨.agent k c, a⟩ = none) :
    Ignores f (remote n k c).run := by
  rw [Ignores, wp_remote]
  exact fun r => ⟨h r, by cases r <;> trivial⟩

theorem ignores_removePeer {q : String} (h : ∀ a, f ⟨.agent k (.delete n.interface q), a⟩ = none) :
    Ignores f (removePeer n k q).run := by
  rw [Ignores, wp_removePeer]
  refine fun r => ⟨h r, ?_⟩
  cases r with
  | ok => trivial
  | error e =>
    rw [outcome_error]
    split_ifs <;> trivial

theorem ignores_count {c : StoreCall} {report : StoreError → String}
    (h : ∀ a, f ⟨.store c, a⟩ = none) : Ignores f (count c report) := by
  rw [Ignores, wp_count]
  exact fun r => ⟨h r, trivial⟩

theorem ignores_nodeOf {id : NodeId} (h : ∀ a, f ⟨.store (.getNode id), a⟩ = none) :
    Ignores f (nodeOf id).run := by
  rw [nodeOf]
  apply ignores_run_bind (ignores_fromStore h)
  rintro (_ | n) <;> trivial

end parts

end PeerFleet.Fleet
