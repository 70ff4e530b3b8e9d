import Mathlib.Data.Multiset.MapFold
import Mathlib.Logic.Relation
import PeerFleet.Proofs.Program.Run

/-! # Programs that take turns

Several programs under way take turns at their calls, in any order. A discipline gives every
thread a stage, which says what the thread has done and not yet settled; its invariant speaks
of the state and of the stages of all threads. If every call of every thread keeps the
invariant whatever the other threads are doing, the invariant holds in every state that is
reached.
-/

namespace PeerFleet

/-- A program under way, with what it is a run of. -/
structure Thread (I : Interface) {κ : Type} (ρ : κ → Type) where
  kind : κ
  rest : Program I (ρ kind)

namespace Program

variable {I : Interface} {α : Type}

/-- The call that a program is about to make, if it is not at its end. -/
def next? : Program I α → Option I.Call
  | done _ => none
  | note _ rest => rest.next?
  | call c _ => some c

/-- What a program comes to, if it makes no more calls. -/
def result? : Program I α → Option α
  | done a => some a
  | note _ rest => rest.result?
  | call _ _ => none

theorem next?_eq_none {p : Program I α} {a : α} (h : p.result? = some a) : p.next? = none := by
  induction p with
  | done => rfl
  | note _ rest ih => exact ih h
  | call => cases h

end Program

/-- The kinds of programs that may be under way together, and when one more may begin. -/
structure Workload (I : Interface) (σ κ : Type) where
  Result : κ → Type
  program : (k : κ) → Program I (Result k)
  admits : Multiset (Thread I Result) → σ → κ → Prop

namespace Workload

variable {I : Interface} {σ κ : Type} (W : Workload I σ κ)

abbrev Threads := Multiset (Thread I W.Result)

/-- A thread begins, writes a log line, or makes its next call. -/
inductive Step (E : Environment I σ) : W.Threads × σ → W.Threads × σ → Prop
  | start {k : κ} {ts : W.Threads} {s : σ} :
      W.admits ts s k → Step E (ts, s) (⟨k, W.program k⟩ ::ₘ ts, s)
  | note {k : κ} {line : LogLine} {rest : Program I (W.Result k)} {ts : W.Threads} {s : σ} :
      Step E (⟨k, .note line rest⟩ ::ₘ ts, s) (⟨k, rest⟩ ::ₘ ts, s)
  | call {k : κ} {c : I.Call} {rest : I.Answer c → Program I (W.Result k)} {a : I.Answer c}
      {ts : W.Threads} {s s' : σ} :
      E c s a s' → Step E (⟨k, .call c rest⟩ ::ₘ ts, s) (⟨k, rest a⟩ ::ₘ ts, s')

/-- Some order of turns leads from one configuration to another. -/
def Reaches (E : Environment I σ) : W.Threads × σ → W.Threads × σ → Prop :=
  Relation.ReflTransGen (W.Step E)

/-- Some order of turns leads from one configuration to another by way of configurations that
satisfy a condition. -/
def ReachesWithin (E : Environment I σ) (P : W.Threads → Prop) :
    W.Threads × σ → W.Threads × σ → Prop :=
  Relation.ReflTransGen fun x y => W.Step E x y ∧ P y.1

variable {W} {E : Environment I σ} {P : W.Threads × σ → Prop} {k : κ} {ts : W.Threads} {s : σ}

theorem Step.card_le {x y : W.Threads × σ} (h : W.Step E x y) :
    Multiset.card x.1 ≤ Multiset.card y.1 := by
  cases h <;> simp

theorem Reaches.within {x y : W.Threads × σ} (h : W.Reaches E x y) {P : W.Threads → Prop}
    (hP : ∀ ts : W.Threads, Multiset.card ts ≤ Multiset.card y.1 → P ts) :
    W.ReachesWithin E P x y := by
  induction h with
  | refl => exact .refl
  | tail _ hs ih =>
    exact .tail (ih fun ts hts => hP ts (hts.trans hs.card_le)) ⟨hs, hP _ le_rfl⟩

/-- What no call gives up holds in every state that is reached. -/
theorem Reaches.safe {J : σ → Prop} (hJ : ∀ {c s a s'}, J s → E c s a s' → J s')
    {x y : W.Threads × σ} (h : W.Reaches E x y) (hx : J x.2) : J y.2 := by
  induction h with
  | refl => exact hx
  | tail _ hs ih =>
    cases hs with
    | start | note => exact ih
    | call he => exact hJ ih he

variable (W E) in
/-- Some order of turns leads to what is wanted. -/
def Can (x : W.Threads × σ) (P : W.Threads × σ → Prop) : Prop :=
  ∃ y, W.Reaches E x y ∧ P y

theorem Can.here {x : W.Threads × σ} (h : P x) : W.Can E x P :=
  ⟨x, .refl, h⟩

theorem Can.step {x y : W.Threads × σ} (hs : W.Step E x y) (h : W.Can E y P) : W.Can E x P := by
  obtain ⟨z, hz, hp⟩ := h
  exact ⟨z, .head hs hz, hp⟩

theorem Can.start (ha : W.admits ts s k) (h : W.Can E (⟨k, W.program k⟩ ::ₘ ts, s) P) :
    W.Can E (ts, s) P :=
  .step (.start ha) h

theorem Can.note {line : LogLine} {rest : Program I (W.Result k)}
    (h : W.Can E (⟨k, rest⟩ ::ₘ ts, s) P) : W.Can E (⟨k, .note line rest⟩ ::ₘ ts, s) P :=
  .step .note h

theorem Can.call {c : I.Call} {rest : I.Answer c → Program I (W.Result k)} {a : I.Answer c}
    {s' : σ} (he : E c s a s') (h : W.Can E (⟨k, rest a⟩ ::ₘ ts, s') P) :
    W.Can E (⟨k, .call c rest⟩ ::ₘ ts, s) P :=
  .step (.call he) h

theorem Can.swap {t t' : Thread I W.Result} (h : W.Can E (t' ::ₘ t ::ₘ ts, s) P) :
    W.Can E (t ::ₘ t' ::ₘ ts, s) P := by
  rwa [Multiset.cons_swap]

theorem forall_mem_pair {P : Thread I W.Result → Prop} {t t' : Thread I W.Result} (h : P t)
    (h' : P t') : ∀ x ∈ t ::ₘ t' ::ₘ 0, P x := by
  simp [h, h']

end Workload

/-- Stages for the threads of a workload, an invariant over them, and what the stage of a thread
has to be when it makes a call and when it is at its end. -/
structure Discipline {I : Interface} {σ κ : Type} (W : Workload I σ κ) (Γ : Type) where
  start : κ → Γ
  Final : κ → Γ → Prop
  /-- What the last stage of a thread says about its result. -/
  Yields : (k : κ) → W.Result k → Γ → Prop := fun _ _ _ => True
  Guard : I.Call → κ → Γ → Prop
  Moves : κ → Γ → (c : I.Call) → I.Answer c → Γ → Prop := fun _ _ _ _ _ => True
  Inv : σ → Multiset (κ × Γ) → Prop

namespace Discipline

variable {I : Interface} {σ κ Γ : Type} {W : Workload I σ κ} (D : Discipline W Γ)
  (E : Environment I σ)

/-- The turns of one thread: its stage allows the call, and whatever is answered there is a
next stage that keeps the invariant. -/
def turns (k : κ) : CallLogic I Γ where
  pre c K γ := D.Guard c k γ ∧ ∀ others s a s', D.Inv s ((k, γ) ::ₘ others) → E c s a s' →
    ∃ γ', D.Inv s' ((k, γ') ::ₘ others) ∧ D.Moves k γ c a γ' ∧ K a γ'
  mono hK := by
    rintro ⟨hg, h⟩
    refine ⟨hg, fun others s a s' hi he => ?_⟩
    obtain ⟨γ', hi', hm, hk⟩ := h others s a s' hi he
    exact ⟨γ', hi', hm, hK a γ' hk⟩

/-- What is left of a thread agrees with its stage. -/
def Follows (t : Thread I W.Result) (γ : Γ) : Prop :=
  t.rest.wp (D.turns E t.kind) (fun r γ => D.Final t.kind γ ∧ D.Yields t.kind r γ) γ

variable {D E}

theorem Follows.guard {t : Thread I W.Result} {γ : Γ} (h : D.Follows E t γ) {c : I.Call}
    (hc : t.rest.next? = some c) : D.Guard c t.kind γ := by
  obtain ⟨k, p⟩ := t
  unfold Follows at h
  induction p with
  | done => cases hc
  | note _ rest ih => exact ih h hc
  | call c' rest =>
    cases hc
    exact h.1

theorem Follows.final {t : Thread I W.Result} {γ : Γ} (h : D.Follows E t γ)
    (hn : t.rest.next? = none) : D.Final t.kind γ := by
  obtain ⟨k, p⟩ := t
  unfold Follows at h
  induction p with
  | done => exact h.1
  | note _ rest ih => exact ih h hn
  | call => cases hn

theorem Follows.yields {t : Thread I W.Result} {γ : Γ} (h : D.Follows E t γ)
    (hn : t.rest.next? = none) : ∃ r, t.rest.result? = some r ∧ D.Yields t.kind r γ := by
  obtain ⟨k, p⟩ := t
  unfold Follows at h
  induction p with
  | done r => exact ⟨r, rfl, h.2⟩
  | note _ rest ih => exact ih h hn
  | call => cases hn

variable (D E)

def stages (M : Multiset (Thread I W.Result × Γ)) : Multiset (κ × Γ) :=
  M.map fun x => (x.1.kind, x.2)

/-- A way to give each thread a stage that it agrees with, so that the invariant holds. -/
structure Staged (M : Multiset (Thread I W.Result × Γ)) (s : σ) : Prop where
  inv : D.Inv s (stages M)
  follows : ∀ x ∈ M, D.Follows E x.1 x.2

theorem Staged.of_inv {s : σ} (h : D.Inv s 0) : D.Staged E 0 s :=
  ⟨h, fun x hx => absurd hx (Multiset.notMem_zero x)⟩

/-- Every thread begins and goes on as its stages have it. -/
structure Keeps : Prop where
  begins : ∀ {M : Multiset (Thread I W.Result × Γ)} {s : σ} {k : κ}, D.Staged E M s →
    W.admits (M.map Prod.fst) s k → D.Inv s ((k, D.start k) ::ₘ stages M)
  follows : ∀ k, D.Follows E ⟨k, W.program k⟩ (D.start k)

variable {D E}

theorem exists_cons_of_map_eq_cons {M : Multiset (Thread I W.Result × Γ)} {t : Thread I W.Result}
    {ts : W.Threads} (h : M.map Prod.fst = t ::ₘ ts) :
    ∃ γ M', M = (t, γ) ::ₘ M' ∧ M'.map Prod.fst = ts := by
  classical
  obtain ⟨x, hx, rfl, hts⟩ := (Multiset.map_eq_cons _ _ _ _).mpr h
  exact ⟨x.2, M.erase x, (Multiset.cons_erase hx).symm, hts⟩

variable (D E) in
/-- What a step may do to the state and the stages of the threads. -/
inductive Advances : σ → Multiset (κ × Γ) → σ → Multiset (κ × Γ) → Prop
  | start {s : σ} {m : Multiset (κ × Γ)} (k : κ) : Advances s m s ((k, D.start k) ::ₘ m)
  | note {s : σ} {m : Multiset (κ × Γ)} : Advances s m s m
  | call {k : κ} {γ γ' : Γ} {c : I.Call} {a : I.Answer c} {s s' : σ} {m : Multiset (κ × Γ)} :
      E c s a s' → D.Guard c k γ → D.Moves k γ c a γ' →
      Advances s ((k, γ) ::ₘ m) s' ((k, γ') ::ₘ m)

theorem Staged.step (hD : D.Keeps E) {M : Multiset (Thread I W.Result × Γ)} {ts' : W.Threads}
    {s s' : σ} (hM : D.Staged E M s) (h : W.Step E (M.map Prod.fst, s) (ts', s')) :
    ∃ M' : Multiset (Thread I W.Result × Γ), M'.map Prod.fst = ts' ∧ D.Staged E M' s' ∧
      D.Advances E s (stages M) s' (stages M') := by
  generalize hc : (M.map Prod.fst, s) = x at h
  generalize hc' : (ts', s') = x' at h
  cases h with
  | @start k ts _ ha =>
    cases hc
    cases hc'
    refine ⟨(⟨k, W.program k⟩, D.start k) ::ₘ M, by simp, ⟨?_, ?_⟩, ?_⟩
    · simpa [stages] using hD.begins hM ha
    · exact Multiset.forall_mem_cons.mpr ⟨hD.follows k, hM.follows⟩
    · simpa [stages] using Advances.start k
  | @note k line rest ts _ =>
    cases hc'
    obtain ⟨hts, rfl⟩ := Prod.mk.inj hc
    obtain ⟨γ, M', rfl, rfl⟩ := exists_cons_of_map_eq_cons hts
    obtain ⟨hf, hfs⟩ := Multiset.forall_mem_cons.mp hM.follows
    refine ⟨(⟨k, rest⟩, γ) ::ₘ M', by simp, ⟨?_, ?_⟩, ?_⟩
    · simpa [stages] using hM.inv
    · exact Multiset.forall_mem_cons.mpr ⟨hf, hfs⟩
    · simpa [stages] using Advances.note
  | @call k c rest a ts _ _ he =>
    cases hc'
    obtain ⟨hts, rfl⟩ := Prod.mk.inj hc
    obtain ⟨γ, M', rfl, rfl⟩ := exists_cons_of_map_eq_cons hts
    obtain ⟨hf, hfs⟩ := Multiset.forall_mem_cons.mp hM.follows
    have hi : D.Inv s ((k, γ) ::ₘ stages M') := by simpa [stages] using hM.inv
    obtain ⟨γ', hi', hm, hk⟩ := hf.2 _ _ a s' hi he
    refine ⟨(⟨k, rest a⟩, γ') ::ₘ M', by simp, ⟨?_, ?_⟩, ?_⟩
    · simpa [stages] using hi'
    · exact Multiset.forall_mem_cons.mpr ⟨hk, hfs⟩
    · simpa [stages] using Advances.call he hf.1 hm

/-- Threads that keep to a discipline can be given stages in every configuration they reach.
What every step to a configuration that satisfies a condition keeps holds all the way. -/
theorem Staged.reachesWithin (hD : D.Keeps E) {P : W.Threads → Prop}
    {J : σ → Multiset (κ × Γ) → Prop}
    (hJ : ∀ {M M' : Multiset (Thread I W.Result × Γ)} {s s' : σ}, D.Staged E M s →
      D.Staged E M' s' → P (M'.map Prod.fst) → D.Advances E s (stages M) s' (stages M') →
      J s (stages M) → J s' (stages M'))
    {M : Multiset (Thread I W.Result × Γ)} {s s' : σ} {ts' : W.Threads} (hM : D.Staged E M s)
    (hj : J s (stages M)) (h : W.ReachesWithin E P (M.map Prod.fst, s) (ts', s')) :
    ∃ M' : Multiset (Thread I W.Result × Γ), M'.map Prod.fst = ts' ∧ D.Staged E M' s' ∧
      J s' (stages M') := by
  generalize hc' : (ts', s') = x' at h
  induction h generalizing ts' s' with
  | refl =>
    cases hc'
    exact ⟨M, rfl, hM, hj⟩
  | @tail x _ _ hs ih =>
    cases hc'
    obtain ⟨ts₁, s₁⟩ := x
    obtain ⟨M₁, rfl, hM₁, hj₁⟩ := ih rfl
    obtain ⟨M', rfl, hM', ha⟩ := hM₁.step hD hs.1
    exact ⟨M', rfl, hM', hJ hM₁ hM' hs.2 ha hj₁⟩

theorem Staged.reaches (hD : D.Keeps E) {M : Multiset (Thread I W.Result × Γ)} {s s' : σ}
    {ts' : W.Threads} (hM : D.Staged E M s) (h : W.Reaches E (M.map Prod.fst, s) (ts', s')) :
    ∃ M' : Multiset (Thread I W.Result × Γ), M'.map Prod.fst = ts' ∧ D.Staged E M' s' := by
  have hw : W.ReachesWithin E (fun _ => True) (M.map Prod.fst, s) (ts', s') :=
    h.within fun _ _ => trivial
  obtain ⟨M', hts, hM', -⟩ :=
    hM.reachesWithin hD (J := fun _ _ => True) (fun _ _ _ _ h => h) trivial hw
  exact ⟨M', hts, hM'⟩

end Discipline

end PeerFleet
