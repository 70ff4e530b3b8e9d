import PeerFleet.Proofs.Program.Weakest

/-! # Runs of programs

What surrounds a program answers its calls, one of several ways at a time. A run takes a
program alone from its first call to its result. A weakest precondition in the logic of the
surroundings speaks of all runs, and one in the logic of chances of some run.
-/

namespace PeerFleet

abbrev Environment (I : Interface) (σ : Type*) :=
  (c : I.Call) → σ → I.Answer c → σ → Prop

namespace Environment

variable {I : Interface} {σ : Type*}

def logic (E : Environment I σ) : CallLogic I σ where
  pre c K s := ∀ a s', E c s a s' → K a s'
  mono hK h a s' he := hK a s' (h a s' he)

/-- Something that may be answered must lead to what is wanted. -/
def chance (E : Environment I σ) : CallLogic I σ where
  pre c K s := ∃ a s', E c s a s' ∧ K a s'
  mono hK := fun ⟨a, s', he, h⟩ => ⟨a, s', he, hK a s' h⟩

/-- Something must be answered, and whatever it is must lead to what is wanted. -/
def surely (E : Environment I σ) : CallLogic I σ where
  pre c K s := (∃ a s', E c s a s') ∧ ∀ a s', E c s a s' → K a s'
  mono hK := fun ⟨he, h⟩ => ⟨he, fun a s' he => hK a s' (h a s' he)⟩

def always (E : Environment I σ) (J : σ → Prop) : CallLogic I σ where
  pre c K s := ∀ a s', E c s a s' → J s' ∧ K a s'
  mono hK h a s' he := (h a s' he).imp_right (hK a s')

def within (E : Environment I σ) (P : σ → Prop) : Environment I σ :=
  fun c s a s' => E c s a s' ∧ P s'

/-- Every call is answered. -/
def Total (E : Environment I σ) : Prop :=
  ∀ c s, ∃ a s', E c s a s'

end Environment

namespace Program

variable {I : Interface} {α : Type} {σ : Type*}

/-- A program run alone from one state to another, with its result. -/
inductive Runs (E : Environment I σ) : Program I α → σ → α → σ → Prop
  | done (a : α) (s : σ) : Runs E (.done a) s a s
  | note {line : LogLine} {rest : Program I α} {s s' : σ} {b : α} :
      Runs E rest s b s' → Runs E (.note line rest) s b s'
  | call {c : I.Call} {rest : I.Answer c → Program I α} {a : I.Answer c} {s s' s'' : σ} {b : α} :
      E c s a s' → Runs E (rest a) s' b s'' → Runs E (.call c rest) s b s''

variable {E : Environment I σ}

theorem Runs.of_wp {p : Program I α} {Q : α → σ → Prop} {s s' : σ} {a : α}
    (hr : Runs E p s a s') (h : p.wp E.logic Q s) : Q a s' := by
  induction hr with
  | done => exact h
  | note _ ih => exact ih h
  | call he _ ih => exact ih (h _ _ he)

theorem wp_of_runs {p : Program I α} {Q : α → σ → Prop} {s : σ}
    (h : ∀ a s', Runs E p s a s' → Q a s') : p.wp E.logic Q s := by
  induction p generalizing s with
  | done a => exact h a s (.done a s)
  | note _ rest ih => exact ih fun a s' hr => h a s' (.note hr)
  | call c rest ih => exact fun a s' he => ih a fun b s'' hr => h b s'' (.call he hr)

/-- A program has only runs of another one if it needs no more to hold before it than that. -/
theorem Runs.of_forall_wp {p q : Program I α} {s s' : σ} {a : α}
    (h : ∀ Q, q.wp E.logic Q s → p.wp E.logic Q s) (hr : Runs E p s a s') : Runs E q s a s' :=
  hr.of_wp (h _ (wp_of_runs fun _ _ hr => hr))

theorem exists_runs (hE : E.Total) (p : Program I α) (s : σ) : ∃ a s', Runs E p s a s' := by
  induction p generalizing s with
  | done a => exact ⟨a, s, .done a s⟩
  | note _ rest ih =>
    obtain ⟨a, s', hr⟩ := ih s
    exact ⟨a, s', .note hr⟩
  | call c rest ih =>
    obtain ⟨a, s', he⟩ := hE c s
    obtain ⟨b, s'', hr⟩ := ih a s'
    exact ⟨b, s'', .call he hr⟩

variable (E) in
/-- A program run alone up to some point, with what is left of it. -/
inductive Reaches : Program I α → σ → Program I α → σ → Prop
  | here (p : Program I α) (s : σ) : Reaches p s p s
  | note {line : LogLine} {rest q : Program I α} {s s' : σ} :
      Reaches rest s q s' → Reaches (.note line rest) s q s'
  | call {c : I.Call} {rest : I.Answer c → Program I α} {a : I.Answer c} {q : Program I α}
      {s s' s'' : σ} :
      E c s a s' → Reaches (rest a) s' q s'' → Reaches (.call c rest) s q s''

theorem Reaches.safe {J : σ → Prop} {p q : Program I α} {Q : α → σ → Prop} {s s' : σ}
    (hr : Reaches E p s q s') (h : p.wp (E.always J) Q s) (hs : J s) : J s' := by
  induction hr with
  | here => exact hs
  | note _ ih => exact ih h hs
  | call he _ ih =>
    obtain ⟨hs', h'⟩ := h _ _ he
    exact ih h' hs'

variable (E) in
/-- Some run comes to a point that is as wanted. -/
def Visits (p : Program I α) (P : σ → Prop) (s : σ) : Prop :=
  ∃ q s', Reaches E p s q s' ∧ P s'

theorem Visits.here {p : Program I α} {P : σ → Prop} {s : σ} (h : P s) : Visits E p P s :=
  ⟨p, s, .here p s, h⟩

theorem Visits.note {line : LogLine} {rest : Program I α} {P : σ → Prop} {s : σ}
    (h : Visits E rest P s) : Visits E (.note line rest) P s := by
  obtain ⟨q, s', hr, hp⟩ := h
  exact ⟨q, s', .note hr, hp⟩

theorem Visits.call {c : I.Call} {rest : I.Answer c → Program I α} {a : I.Answer c}
    {P : σ → Prop} {s s' : σ} (he : E c s a s') (h : Visits E (rest a) P s') :
    Visits E (.call c rest) P s := by
  obtain ⟨q, s'', hr, hp⟩ := h
  exact ⟨q, s'', .call he hr, hp⟩

variable (E) in
/-- Some run leads to what is wanted. -/
def Can (p : Program I α) (Q : α → σ → Prop) (s : σ) : Prop :=
  ∃ a s', Runs E p s a s' ∧ Q a s'

theorem Can.done {a : α} {Q : α → σ → Prop} {s : σ} (h : Q a s) : Can E (.done a) Q s :=
  ⟨a, s, .done a s, h⟩

theorem Can.note {line : LogLine} {rest : Program I α} {Q : α → σ → Prop} {s : σ}
    (h : Can E rest Q s) : Can E (.note line rest) Q s := by
  obtain ⟨a, s', hr, hq⟩ := h
  exact ⟨a, s', .note hr, hq⟩

theorem Can.call {c : I.Call} {rest : I.Answer c → Program I α} {a : I.Answer c}
    {Q : α → σ → Prop} {s s' : σ} (he : E c s a s') (h : Can E (rest a) Q s') :
    Can E (.call c rest) Q s := by
  obtain ⟨b, s'', hr, hq⟩ := h
  exact ⟨b, s'', .call he hr, hq⟩

theorem Can.of_wp {p : Program I α} {Q : α → σ → Prop} {s : σ} (h : p.wp E.chance Q s) :
    Can E p Q s := by
  induction p generalizing s with
  | done a => exact .done h
  | note _ rest ih => exact .note (ih h)
  | call c rest ih =>
    obtain ⟨a, s', he, hq⟩ := h
    exact .call he (ih a hq)

theorem runs_of_surely {p : Program I α} {Q : α → σ → Prop} {s : σ} (h : p.wp E.surely Q s) :
    (∃ a s', Runs E p s a s') ∧ ∀ a s', Runs E p s a s' → Q a s' := by
  induction p generalizing s with
  | done a =>
    refine ⟨⟨a, s, .done a s⟩, fun b s' hr => ?_⟩
    cases hr
    exact h
  | note _ rest ih =>
    obtain ⟨⟨a, s', hr⟩, hq⟩ := ih h
    refine ⟨⟨a, s', .note hr⟩, fun b s'' hr => ?_⟩
    cases hr with
    | note hr => exact hq b s'' hr
  | call c rest ih =>
    obtain ⟨⟨a, s', he⟩, hall⟩ := h
    obtain ⟨⟨b, s'', hr⟩, -⟩ := ih a (hall a s' he)
    refine ⟨⟨b, s'', .call he hr⟩, fun d t hr => ?_⟩
    cases hr with
    | call he hr => exact (ih _ (hall _ _ he)).2 d t hr

end Program

end PeerFleet
