import Mathlib.Tactic.Common
import PeerFleet.Program

/-! # Weakest preconditions of programs

A call logic says of each call what has to hold before it so that whatever is answered leads
to what is wanted after it. It extends to programs, and with it every fact about a program
is put together from facts about its parts.
-/

namespace PeerFleet

/-- For each call, what has to hold before it for its answer to satisfy a condition. -/
structure CallLogic (I : Interface) (τ : Type*) where
  pre : (c : I.Call) → (I.Answer c → τ → Prop) → τ → Prop
  mono : ∀ {c : I.Call} {K K' : I.Answer c → τ → Prop} {x : τ},
    (∀ a y, K a y → K' a y) → pre c K x → pre c K' x

/-- The condition on a result that may be a failure, with one part for each case. -/
def Outcome {ε α τ : Type*} (S : α → τ → Prop) (F : ε → τ → Prop) : Except ε α → τ → Prop
  | .ok a => S a
  | .error e => F e

section Outcome

variable {ε α τ : Type*} {S S' : α → τ → Prop} {F F' : ε → τ → Prop}

@[simp] theorem outcome_ok (a : α) : Outcome S F (.ok a) = S a := rfl

@[simp] theorem outcome_error (e : ε) : Outcome S F (.error e) = F e := rfl

theorem Outcome.mono (hS : ∀ a y, S a y → S' a y) (hF : ∀ e y, F e y → F' e y)
    {r : Except ε α} {y : τ} (h : Outcome S F r y) : Outcome S' F' r y := by
  cases r with
  | ok a => exact hS a y h
  | error e => exact hF e y h

theorem outcome_eta (Q : Except ε α → τ → Prop) :
    Outcome (fun a => Q (.ok a)) (fun e => Q (.error e)) = Q := by
  funext r
  cases r <;> rfl

end Outcome

namespace Program

variable {I : Interface} {α β ε : Type} {τ : Type*} (L : CallLogic I τ)

/-- What has to hold before a program for its result to satisfy a condition. -/
def wp : Program I α → (α → τ → Prop) → τ → Prop
  | done a, Q, x => Q a x
  | note _ rest, Q, x => rest.wp Q x
  | call c rest, Q, x => L.pre c (fun a => (rest a).wp Q) x

variable {L}

theorem wp_mono {p : Program I α} {Q Q' : α → τ → Prop} {x : τ}
    (hQ : ∀ a y, Q a y → Q' a y) (h : p.wp L Q x) : p.wp L Q' x := by
  induction p generalizing x with
  | done a => exact hQ a x h
  | note _ rest ih => exact ih h
  | call c rest ih => exact L.mono (fun a y => ih a) h

@[simp] theorem wp_pure (a : α) (Q : α → τ → Prop) :
    (pure a : Program I α).wp L Q = Q a := rfl

@[simp] theorem wp_bind (p : Program I α) (f : α → Program I β) (Q : β → τ → Prop) :
    (p >>= f).wp L Q = p.wp L fun a => (f a).wp L Q := by
  induction p with
  | done a => rfl
  | note _ rest ih => exact ih
  | call c rest ih => exact congrArg (L.pre c) (funext ih)

@[simp] theorem wp_map (f : α → β) (p : Program I α) (Q : β → τ → Prop) :
    (f <$> p).wp L Q = p.wp L fun a => Q (f a) :=
  wp_bind p (fun a => pure (f a)) Q

@[simp] theorem wp_ask (c : I.Call) (Q : I.Answer c → τ → Prop) :
    (ask c).wp L Q = L.pre c Q := rfl

@[simp] theorem wp_log (line : LogLine) (Q : Unit → τ → Prop) :
    (log (I := I) line).wp L Q = Q () := rfl

@[simp] theorem wp_ite (b : Prop) [Decidable b] (p q : Program I α) (Q : α → τ → Prop)
    (x : τ) : (if b then p else q).wp L Q x ↔ if b then p.wp L Q x else q.wp L Q x := by
  split <;> rfl

section interpret

variable {J : Interface} (L : CallLogic J τ) (f : (c : I.Call) → Program J (I.Answer c))

def through : CallLogic I τ where
  pre c K := (f c).wp L K
  mono hK h := wp_mono hK h

theorem wp_interpret (p : Program I α) (Q : α → τ → Prop) :
    (p.interpret f).wp L Q = p.wp (through L f) Q := by
  induction p with
  | done a => rfl
  | note _ rest ih => exact ih
  | call c rest ih =>
    exact (wp_bind (f c) _ Q).trans (congrArg ((f c).wp L) (funext ih))

end interpret

@[simp] theorem wp_run_pure (a : α) (Q : Except ε α → τ → Prop) :
    (pure a : ExceptT ε (Program I) α).run.wp L Q = Q (.ok a) := rfl

@[simp] theorem wp_run_throw (e : ε) (Q : Except ε α → τ → Prop) :
    (throw e : ExceptT ε (Program I) α).run.wp L Q = Q (.error e) := rfl

@[simp] theorem wp_run_lift (p : Program I α) (Q : Except ε α → τ → Prop) :
    (liftM p : ExceptT ε (Program I) α).run.wp L Q = p.wp L fun a => Q (.ok a) :=
  wp_map .ok p Q

@[simp] theorem wp_run_bind (p : ExceptT ε (Program I) α) (f : α → ExceptT ε (Program I) β)
    (Q : Except ε β → τ → Prop) :
    (p >>= f).run.wp L Q =
      p.run.wp L (Outcome (fun a => (f a).run.wp L Q) fun e => Q (.error e)) := by
  have h : (p >>= f).run = p.run >>= ExceptT.bindCont f := rfl
  rw [h, wp_bind]
  congr 1
  funext r
  cases r <;> rfl

theorem wp_run_bind_of {p : ExceptT ε (Program I) α} {f : α → ExceptT ε (Program I) β}
    {S : β → τ → Prop} {F : ε → τ → Prop} {x : τ}
    (h : p.run.wp L (Outcome (fun a => (f a).run.wp L (Outcome S F)) F) x) :
    (p >>= f).run.wp L (Outcome S F) x := by
  rw [wp_run_bind]
  exact h

end Program

end PeerFleet
