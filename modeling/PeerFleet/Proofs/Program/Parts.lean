import PeerFleet.Proofs.Program.Run

/-! # Parts of a run

A run of a program that begins with another one begins with a run of that one. So a run of a
loop falls into the runs of its turns, and a run of a program contains the runs of its parts.
-/

namespace PeerFleet.Program

variable {I : Interface} {α β γ : Type} {σ : Type*} {E : Environment I σ}

theorem bind_assoc (p : Program I α) (f : α → Program I β) (g : β → Program I γ) :
    p >>= f >>= g = p >>= fun a => f a >>= g := by
  induction p with
  | done a => rfl
  | note line rest ih => exact congrArg (note line) ih
  | call c rest ih => exact congrArg (call c) (funext ih)

theorem bind_pure (p : Program I α) : p >>= pure = p := by
  induction p with
  | done a => rfl
  | note line rest ih => exact congrArg (note line) ih
  | call c rest ih => exact congrArg (call c) (funext ih)

variable {p : Program I α} {f : α → Program I β} {s s' s'' t t' : σ} {a : α} {b : β}

@[simp] theorem runs_pure_iff {a' : α} :
    Runs E (pure a : Program I α) s a' s' ↔ a' = a ∧ s' = s := by
  constructor
  · rintro ⟨⟩
    exact ⟨rfl, rfl⟩
  · rintro ⟨rfl, rfl⟩
    exact .done _ _

theorem runs_note_iff {line : LogLine} : Runs E (note line p) s a s' ↔ Runs E p s a s' := by
  constructor
  · rintro (_ | hr)
    exact hr
  · exact .note

theorem runs_bind_iff : Runs E (p >>= f) s b s'' ↔
    ∃ a s', Runs E p s a s' ∧ Runs E (f a) s' b s'' := by
  constructor
  · intro h
    induction p generalizing s with
    | done a => exact ⟨a, s, .done a s, h⟩
    | note line rest ih =>
      obtain ⟨a, s', hr, hf⟩ := ih (runs_note_iff.mp h)
      exact ⟨a, s', .note hr, hf⟩
    | call c rest ih =>
      cases h with
      | call he h =>
        obtain ⟨a, s', hr, hf⟩ := ih _ h
        exact ⟨a, s', .call he hr, hf⟩
  · rintro ⟨a, s', hr, hf⟩
    induction hr with
    | done => exact hf
    | note _ ih => exact .note (ih hf)
    | call he _ ih => exact .call he (ih hf)

theorem runs_map_iff {f : α → β} : Runs E (f <$> p) s b s' ↔ ∃ a, Runs E p s a s' ∧ b = f a := by
  refine (runs_bind_iff (f := fun a => pure (f a))).trans ⟨?_, ?_⟩
  · rintro ⟨a, t, hr, ⟨⟩⟩
    exact ⟨a, hr, rfl⟩
  · rintro ⟨a, hr, rfl⟩
    exact ⟨a, s', hr, .done _ _⟩

/-- A program that fails on the way ends there. -/
theorem runs_run_bind_iff {ε : Type} {p : ExceptT ε (Program I) α}
    {f : α → ExceptT ε (Program I) β} {r : Except ε β} :
    Runs E (p >>= f).run s r s'' ↔
      (∃ a s', Runs E p.run s (.ok a) s' ∧ Runs E (f a).run s' r s'') ∨
        ∃ e, Runs E p.run s (.error e) s'' ∧ r = .error e := by
  have h : (p >>= f).run = p.run >>= ExceptT.bindCont f := rfl
  rw [h, runs_bind_iff]
  constructor
  · rintro ⟨a | a, s', hp, hf⟩
    · obtain ⟨rfl, rfl⟩ := runs_pure_iff.mp hf
      exact .inr ⟨a, hp, rfl⟩
    · exact .inl ⟨a, s', hp, hf⟩
  · rintro (⟨a, s', hp, hf⟩ | ⟨e, hp, rfl⟩)
    · exact ⟨_, s', hp, hf⟩
    · exact ⟨_, s'', hp, .done _ _⟩

theorem runs_run_lift_iff {ε : Type} {r : Except ε α} :
    Runs E (liftM p : ExceptT ε (Program I) α).run s r s' ↔
      ∃ a, Runs E p s a s' ∧ r = .ok a :=
  runs_map_iff

theorem runs_run_lift_bind_iff {ε : Type} {f : α → ExceptT ε (Program I) β} {r : Except ε β} :
    Runs E ((liftM p : ExceptT ε (Program I) α) >>= f).run s r s'' ↔
      ∃ a s', Runs E p s a s' ∧ Runs E (f a).run s' r s'' := by
  rw [runs_run_bind_iff]
  constructor
  · rintro (⟨a, s', hp, hf⟩ | ⟨e, hp, -⟩)
    · obtain ⟨a, hp, ⟨⟩⟩ := runs_run_lift_iff.mp hp
      exact ⟨a, s', hp, hf⟩
    · obtain ⟨a, -, ⟨⟩⟩ := runs_run_lift_iff.mp hp
  · rintro ⟨a, s', hp, hf⟩
    exact .inl ⟨a, s', runs_run_lift_iff.mpr ⟨a, hp, rfl⟩, hf⟩

theorem Reaches.trans {p q r : Program I α} (h : Reaches E p s q s') (h' : Reaches E q s' r s'') :
    Reaches E p s r s'' := by
  induction h with
  | here => exact h'
  | note _ ih => exact .note (ih h')
  | call he _ ih => exact .call he (ih h')

theorem Reaches.bind {q : Program I α} (h : Reaches E p s q s') :
    Reaches E (p >>= f) s (q >>= f) s' := by
  induction h with
  | here => exact .here _ _
  | note _ ih => exact .note ih
  | call he _ ih => exact .call he ih

theorem Runs.reaches_bind (h : Runs E p s a s') : Reaches E (p >>= f) s (f a) s' := by
  induction h with
  | done => exact .here _ _
  | note _ ih => exact .note ih
  | call he _ ih => exact .call he ih

variable (E) in
/-- In a run of a program another program is run, from one state to another. -/
def Contains (p : Program I α) (s : σ) (a : α) (s' : σ) (q : Program I γ) (t : σ) (c : γ)
    (t' : σ) : Prop :=
  ∃ rest : γ → Program I α, Reaches E p s (q >>= rest) t ∧ Runs E q t c t' ∧
    Runs E (rest c) t' a s'

theorem Runs.contains_self (h : Runs E p s a s') : Contains E p s a s' p s a s' :=
  ⟨pure, (bind_pure p).symm ▸ .here p s, h, .done a s'⟩

namespace Contains

variable {q : Program I γ} {c : γ}

theorem note {line : LogLine} (h : Contains E p s a s' q t c t') :
    Contains E (.note line p) s a s' q t c t' := by
  obtain ⟨rest, hp, hq, hr⟩ := h
  exact ⟨rest, .note hp, hq, hr⟩

theorem bind (h : Contains E p s a s' q t c t') (hf : Runs E (f a) s' b s'') :
    Contains E (p >>= f) s b s'' q t c t' := by
  obtain ⟨rest, hp, hq, hr⟩ := h
  exact ⟨fun c => rest c >>= f, bind_assoc q rest f ▸ hp.bind, hq,
    runs_bind_iff.mpr ⟨a, s', hr, hf⟩⟩

theorem after (hp : Runs E p s a s') (h : Contains E (f a) s' b s'' q t c t') :
    Contains E (p >>= f) s b s'' q t c t' := by
  obtain ⟨rest, hf, hq, hr⟩ := h
  exact ⟨rest, hp.reaches_bind.trans hf, hq, hr⟩

theorem run_after {ε : Type} {p : ExceptT ε (Program I) α} {f : α → ExceptT ε (Program I) β}
    {r : Except ε β} (hp : Runs E p.run s (.ok a) s')
    (h : Contains E (f a).run s' r s'' q t c t') : Contains E (p >>= f).run s r s'' q t c t' :=
  h.after hp

theorem run_lift {ε : Type} (h : Contains E p s a s' q t c t') :
    Contains E (liftM p : ExceptT ε (Program I) α).run s (.ok a) s' q t c t' :=
  h.bind (.done _ _)

end Contains

end PeerFleet.Program
