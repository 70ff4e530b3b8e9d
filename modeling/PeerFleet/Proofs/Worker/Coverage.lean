import PeerFleet.Proofs.Config.Startup
import PeerFleet.Proofs.Program.Parts
import PeerFleet.Proofs.Worker.Balance

/-! # Workers that are driven together

A manager starts its workers up to the first that fails and stops them all, whatever fails. Of
workers with loops a stop undoes whatever part of a start there was: no loop is left, and each
slot is free for the next start.
-/

namespace PeerFleet

open Program

namespace Manager

variable {σ : Type*} {E : Environment Workers σ} {s s' s'' : σ} {i : ℕ} {name : String}
  {xs : List (ℕ × String)}

theorem runs_startAll_cons {r : Except WorkerError Unit} :
    Runs E (startAll ((i, name) :: xs)) s r s'' ↔
      (∃ e, E (.start i) s (.error e) s'' ∧ r = .error e) ∨
        ∃ s', E (.start i) s (.ok ()) s' ∧ Runs E (startAll xs) s' r s'' := by
  constructor
  · rintro (_ | _ | @⟨_, _, a, _, s', _, _, he, hr⟩)
    cases a with
    | error e =>
      obtain ⟨rfl, rfl⟩ := runs_pure_iff.mp (runs_note_iff.mp hr)
      exact .inl ⟨e, he, rfl⟩
    | ok => exact .inr ⟨s', he, runs_note_iff.mp hr⟩
  · rintro (⟨e, he, rfl⟩ | ⟨s', he, hr⟩)
    · exact .call he (.note (.done _ _))
    · exact .call he (.note hr)

def failure? (name : String) : Except WorkerError Unit → Option (String × WorkerError)
  | .ok () => none
  | .error e => some (name, e)

theorem runs_stopEach_cons {failures : List (String × WorkerError)} :
    Runs E (stopEach ((i, name) :: xs)) s failures s'' ↔ ∃ a s' rest, E (.stop i) s a s' ∧
      Runs E (stopEach xs) s' rest s'' ∧ failures = (failure? name a).toList ++ rest := by
  constructor
  · rintro (_ | _ | @⟨_, _, a, _, s', _, _, he, hr⟩)
    cases a with
    | error e =>
      have hr : Runs E (stopEach xs >>= fun rest => pure ((name, e) :: rest)) s' failures s'' :=
        runs_note_iff.mp hr
      obtain ⟨rest, t, hr, hp⟩ := runs_bind_iff.mp hr
      obtain ⟨rfl, rfl⟩ := runs_pure_iff.mp hp
      exact ⟨_, s', rest, he, hr, rfl⟩
    | ok => exact ⟨_, s', failures, he, runs_note_iff.mp hr, rfl⟩
  · rintro ⟨a, s', rest, he, hr, rfl⟩
    cases a with
    | error e =>
      have hr : Runs E (stopEach xs >>= fun rest => pure ((name, e) :: rest)) s'
          ((name, e) :: rest) s'' := runs_bind_iff.mpr ⟨rest, s'', hr, .done _ _⟩
      exact .call he (.note hr)
    | ok => exact .call he (.note hr)

theorem runs_stop_iff {names : List String} {r : Except StopFailures Unit} :
    Runs E (stop names) s r s' ↔
      ∃ failures, Runs E (stopEach (numbered names).reverse) s failures s' ∧
        r = if failures = [] then .ok () else .error ⟨failures⟩ := by
  refine runs_bind_iff.trans ⟨?_, ?_⟩
  · rintro ⟨failures, t, hr, hp⟩
    cases failures with
    | nil =>
      obtain ⟨rfl, rfl⟩ := runs_pure_iff.mp hp
      exact ⟨[], hr, rfl⟩
    | cons x failures =>
      obtain ⟨rfl, rfl⟩ := runs_pure_iff.mp hp
      exact ⟨x :: failures, hr, rfl⟩
  · rintro ⟨failures, hr, rfl⟩
    cases failures <;> exact ⟨_, s', hr, .done _ _⟩

section outcomes

/-- Workers answer as they are bound to, and their calls are written down. -/
def replying (outcome : WorkerCall → Except WorkerError Unit) :
    Environment Workers (List WorkerCall) :=
  fun (c : WorkerCall) log a log' => a = outcome c ∧ log' = log ++ [c]

variable (outcome : WorkerCall → Except WorkerError Unit)

/-- Workers are started in order: all of them, or those up to the first that fails. -/
inductive Starts (workers : List ℕ) : Except WorkerError Unit → List WorkerCall → Prop
  | all (h : ∀ i ∈ workers, outcome (.start i) = .ok ()) :
      Starts workers (.ok ()) (workers.map .start)
  | upTo {before after : List ℕ} {i : ℕ} {e : WorkerError} (hw : workers = before ++ i :: after)
      (h : ∀ j ∈ before, outcome (.start j) = .ok ()) (he : outcome (.start i) = .error e) :
      Starts workers (.error e) ((before ++ [i]).map .start)

/-- The failures of workers that are stopped one after another. -/
def failures (workers : List (ℕ × String)) : List (String × WorkerError) :=
  workers.filterMap fun w => failure? w.2 (outcome (.stop w.1))

variable {outcome} {log log' : List WorkerCall}

theorem starts_cons_iff {workers : List ℕ} {r : Except WorkerError Unit} :
    Starts outcome (i :: workers) r log ↔
      (∃ e, outcome (.start i) = .error e ∧ r = .error e ∧ log = [.start i]) ∨
        outcome (.start i) = .ok () ∧ ∃ rest, Starts outcome workers r rest ∧
          log = .start i :: rest := by
  constructor
  · rintro (h | ⟨hw, h, he⟩)
    · obtain ⟨hi, h⟩ := List.forall_mem_cons.mp h
      exact .inr ⟨hi, _, .all h, rfl⟩
    · rename_i before after j e
      cases before with
      | nil =>
        obtain ⟨rfl, rfl⟩ := List.cons_eq_cons.mp hw
        exact .inl ⟨e, he, rfl, rfl⟩
      | cons k before =>
        obtain ⟨rfl, rfl⟩ := List.cons_eq_cons.mp hw
        obtain ⟨hi, h⟩ := List.forall_mem_cons.mp h
        exact .inr ⟨hi, _, .upTo rfl h he, rfl⟩
  · rintro (⟨e, he, rfl, rfl⟩ | ⟨hi, rest, h, rfl⟩)
    · have hw : i :: workers = [] ++ i :: workers := rfl
      exact .upTo hw (by simp) he
    · cases h with
      | all h => exact .all (List.forall_mem_cons.mpr ⟨hi, h⟩)
      | @upTo before after j e hw h he =>
        have hw : i :: workers = (i :: before) ++ j :: after := congrArg (i :: ·) hw
        exact .upTo hw (List.forall_mem_cons.mpr ⟨hi, h⟩) he

theorem runs_startAll_iff {r : Except WorkerError Unit} :
    Runs (replying outcome) (startAll xs) log r log' ↔
      ∃ calls, Starts outcome (xs.map Prod.fst) r calls ∧ log' = log ++ calls := by
  induction xs generalizing log with
  | nil =>
    refine runs_pure_iff.trans ⟨?_, ?_⟩
    · rintro ⟨rfl, rfl⟩
      exact ⟨[], .all (by simp), by simp⟩
    · rintro ⟨calls, h, rfl⟩
      cases h with
      | all => simp
      | upTo hw => simp at hw
  | cons x xs ih =>
    rw [runs_startAll_cons, List.map_cons]
    simp only [starts_cons_iff, replying, ih]
    constructor
    · rintro (⟨e, ⟨he, rfl⟩, rfl⟩ | ⟨s, ⟨hi, rfl⟩, calls, h, rfl⟩)
      · exact ⟨_, .inl ⟨e, he.symm, rfl, rfl⟩, rfl⟩
      · exact ⟨_, .inr ⟨hi.symm, calls, h, rfl⟩, by simp⟩
    · rintro ⟨calls, ⟨e, he, rfl, rfl⟩ | ⟨hi, rest, h, rfl⟩, rfl⟩
      · exact .inl ⟨e, ⟨he.symm, rfl⟩, rfl⟩
      · exact .inr ⟨_, ⟨hi.symm, rfl⟩, rest, h, by simp⟩

theorem runs_stopEach_iff {fs : List (String × WorkerError)} :
    Runs (replying outcome) (stopEach xs) log fs log' ↔
      fs = failures outcome xs ∧ log' = log ++ xs.map fun x => .stop x.1 := by
  induction xs generalizing log fs with
  | nil => exact runs_pure_iff.trans (by simp [failures])
  | cons x xs ih =>
    have hcons : failures outcome (x :: xs) =
        (failure? x.2 (outcome (.stop x.1))).toList ++ failures outcome xs := by
      rw [failures, List.filterMap_cons]
      cases failure? x.2 (outcome (.stop x.1)) <;> rfl
    rw [runs_stopEach_cons, hcons]
    simp only [replying, ih]
    constructor
    · rintro ⟨a, s, rest, ⟨rfl, rfl⟩, ⟨rfl, rfl⟩, rfl⟩
      exact ⟨rfl, by simp⟩
    · rintro ⟨rfl, rfl⟩
      exact ⟨_, log ++ [.stop x.1], _, ⟨rfl, rfl⟩, ⟨rfl, by simp⟩, rfl⟩

theorem failures_eq_nil_iff (xs : List (ℕ × String)) : failures outcome xs = [] ↔
    ∀ x ∈ xs, outcome (.stop x.1) = .ok () := by
  rw [failures, List.filterMap_eq_nil_iff]
  refine forall₂_congr fun x _ => ?_
  cases outcome (.stop x.1) <;> simp [failure?]

end outcomes

end Manager

theorem WorkerState.beginStop_cases (s : WorkerState) :
    (s.slot = none ∧ s.beginStop = (none, s)) ∨
      ∃ n, s.slot = some n ∧ s.beginStop = (some n, { s with slot := none }.tell n) := by
  obtain ⟨_ | n, _, _, _, _, _⟩ := s
  · exact .inl ⟨rfl, rfl⟩
  · exact .inr ⟨n, rfl, rfl⟩

namespace Crew

variable {name : ℕ → String} {schedule : ℕ → Schedule} {s s' u : Crew} {i j : ℕ}
  {xs : List (ℕ × String)} {a : Except WorkerError Unit}

/-- Workers with loops, each of which is started and stopped by one caller at a time. The loops go
on before a call, and while a stop waits until the loop that it has taken is gone. -/
def scheduled (name : ℕ → String) (schedule : ℕ → Schedule) : Environment Workers Crew
  | .start i, s, a, s' => ∃ u, s.Proceeds u ∧ a = ((u i).start (name i) (schedule i)).1 ∧
      s' = Function.update u i ((u i).start (name i) (schedule i)).2
  | .stop i, s, a, s' => ∃ u, s.Proceeds u ∧ a = .ok () ∧
      match (u i).beginStop with
      | (none, w) => s' = Function.update u i w
      | (some n, w) => Proceeds (Function.update u i w) s' ∧ (s' i).gone n = true

/-- Workers that have been started and stopped in any order, one call after another. -/
def Used (name : ℕ → String) (schedule : ℕ → Schedule) : Crew → Prop :=
  Relation.ReflTransGen (fun s s' => ∃ c a, scheduled name schedule c s a s') idle

def Filed (s : Crew) : Prop :=
  ∀ i, ∀ n ∈ (s i).serials, (s i).slot = some n

theorem Proceeds.serials (h : s.Proceeds u) (i : ℕ) : (u i).serials ⊆ (s i).serials := by
  induction h with
  | refl => exact List.Subset.refl _
  | tail _ hs ih =>
    obtain ⟨j, n, t, w, hw, rfl⟩ := hs
    by_cases hi : i = j
    · subst hi
      rw [Function.update_self]
      exact List.Subset.trans (WorkerState.onward_go hw).serials.subset ih
    · rw [Function.update_of_ne hi]
      exact ih

theorem Filed.proceeds (h : s.Filed) (hp : s.Proceeds u) : u.Filed := fun i n hn =>
  (hp.slot i).trans (h i n (hp.serials i hn))

theorem Filed.start (h : s.Filed) (he : scheduled name schedule (.start i) s a s') : s'.Filed := by
  obtain ⟨u, hu, -, rfl⟩ := he
  intro j n hn
  have hu := h.proceeds hu
  by_cases hj : j = i
  · subst hj
    rw [Function.update_self] at hn ⊢
    by_cases ha : (u j).Admits (schedule j)
    · obtain hn | rfl := (WorkerState.mem_serials_start ha).mp hn
      · exact absurd (hu j n hn) (by simp [ha.1])
      · rw [WorkerState.start_of_admits ha]
    · rw [WorkerState.start_of_not_admits ha] at hn ⊢
      exact hu j n hn
  · rw [Function.update_of_ne hj] at hn ⊢
    exact hu j n hn

theorem stop_effect (he : scheduled name schedule (.stop i) s a s') :
    (s' i).slot = none ∧ (∀ j ≠ i, (s' j).slot = (s j).slot) ∧
      (∀ j, (s' j).serials ⊆ (s j).serials) ∧ ∀ n, (s i).slot = some n → n ∉ (s' i).serials := by
  obtain ⟨u, hu, -, he⟩ := he
  obtain ⟨hs, hb⟩ | ⟨n, hs, hb⟩ := (u i).beginStop_cases
  · rw [hb] at he
    obtain rfl : s' = u := he.trans (Function.update_eq_self i u)
    refine ⟨hs, fun j _ => hu.slot j, hu.serials, fun n hn => ?_⟩
    rw [← hu.slot, hs] at hn
    cases hn
  · rw [hb] at he
    obtain ⟨hp, hgone⟩ := he
    have htell := WorkerState.onward_tell { u i with slot := none } n
    refine ⟨?_, ?_, ?_, ?_⟩
    · rw [hp.slot, Function.update_self, htell.slot]
    · intro j hj
      rw [hp.slot, Function.update_of_ne hj, hu.slot]
    · intro j
      refine List.Subset.trans (hp.serials j) (List.Subset.trans ?_ (hu.serials j))
      by_cases hj : j = i
      · subst hj
        rw [Function.update_self]
        exact htell.serials.subset
      · rw [Function.update_of_ne hj]
        exact List.Subset.refl _
    · intro m hm
      rw [← hu.slot, hs] at hm
      cases hm
      exact WorkerState.gone_iff.mp hgone

theorem Filed.stop (h : s.Filed) (he : scheduled name schedule (.stop i) s a s') :
    s'.Filed ∧ (s' i).slot = none ∧ (s' i).loops = [] := by
  obtain ⟨hslot, hslots, hserials, hgone⟩ := stop_effect he
  have hnone : (s' i).serials = [] := by
    apply List.eq_nil_iff_forall_not_mem.mpr
    intro n hn
    exact hgone n (h i n (hserials i hn)) hn
  refine ⟨?_, hslot, List.map_eq_nil_iff.mp hnone⟩
  intro j n hn
  by_cases hj : j = i
  · subst hj
    simp [hnone] at hn
  · rw [hslots j hj]
    exact h j n (hserials j hn)

theorem Used.filed (h : Used name schedule s) : s.Filed := by
  induction h with
  | refl => simp [Filed, idle, WorkerState.serials]
  | tail _ hs ih =>
    obtain ⟨c, a, he⟩ := hs
    cases c with
    | start i => exact ih.start he
    | stop i => exact (ih.stop he).1

theorem Used.runs {α : Type} {p : Program Workers α} {r : α} (h : Used name schedule s)
    (hr : Runs (scheduled name schedule) p s r s') : Used name schedule s' := by
  induction hr with
  | done => exact h
  | note _ ih => exact ih h
  | call he _ ih => exact ih (h.tail ⟨_, _, he⟩)

def Rests (s : Crew) (i : ℕ) : Prop :=
  (s i).slot = none ∧ (s i).loops = []

theorem Rests.stop (h : s.Rests j) (he : scheduled name schedule (.stop i) s a s') :
    s'.Rests j := by
  obtain ⟨hslot, hslots, hserials, -⟩ := stop_effect he
  constructor
  · by_cases hj : j = i
    · exact hj ▸ hslot
    · rw [hslots j hj, h.1]
  · have hnil : (s' j).serials = [] := by
      apply List.eq_nil_of_subset_nil
      simpa [WorkerState.serials, h.2] using hserials j
    exact List.map_eq_nil_iff.mp hnil

theorem rests_of_stopEach {fs : List (String × WorkerError)} (h : s.Filed)
    (hr : Runs (scheduled name schedule) (Manager.stopEach xs) s fs s') :
    (∀ x ∈ xs, s'.Rests x.1) ∧ ∀ j, s.Rests j → s'.Rests j := by
  induction xs generalizing s fs with
  | nil =>
    obtain ⟨-, rfl⟩ := runs_pure_iff.mp hr
    exact ⟨by simp, fun _ => id⟩
  | cons x xs ih =>
    obtain ⟨a, u, rest, he, hr, -⟩ := Manager.runs_stopEach_cons.mp hr
    obtain ⟨hu, hx⟩ := h.stop he
    obtain ⟨hxs, hkept⟩ := ih hu hr
    exact ⟨List.forall_mem_cons.mpr ⟨hkept _ hx, hxs⟩, fun j hj => hkept j (hj.stop he)⟩

theorem slot_of_start (he : scheduled name schedule (.start i) s a s') (hj : j ≠ i) :
    (s' j).slot = (s j).slot := by
  obtain ⟨u, hu, -, rfl⟩ := he
  rw [Function.update_of_ne hj, hu.slot]

theorem not_alreadyRunning_of_startAll {r : Except WorkerError Unit}
    (hd : (xs.map Prod.fst).Nodup) (hs : ∀ x ∈ xs, (s x.1).slot = none)
    (hr : Runs (scheduled name schedule) (Manager.startAll xs) s r s') (text : String) :
    r ≠ .error (.alreadyRunning text) := by
  induction xs generalizing s with
  | nil =>
    obtain ⟨rfl, -⟩ := runs_pure_iff.mp hr
    simp
  | cons x xs ih =>
    obtain ⟨hx, hs⟩ := List.forall_mem_cons.mp hs
    obtain ⟨hnot, hd⟩ := List.nodup_cons.mp hd
    obtain ⟨e, ⟨u, hu, ha, -⟩, rfl⟩ | ⟨u, he, hr⟩ := Manager.runs_startAll_cons.mp hr
    · rintro ⟨⟩
      have hslot := WorkerState.slot_of_alreadyRunning ha.symm
      rw [hu.slot, hx] at hslot
      cases hslot
    · refine ih hd (fun y hy => ?_) hr
      have hne : y.1 ≠ x.1 := fun h => hnot (h ▸ List.mem_map_of_mem hy)
      rw [slot_of_start he hne, hs y hy]

theorem proceeds_of_turns {n : ℕ} {us : List LoopTurn} {w : WorkerState}
    (h : (s i).goAll? n us = some w) :
    s.Proceeds (Function.update s i w) := by
  induction us generalizing s with
  | nil =>
    obtain rfl := Option.some.inj h
    rw [Function.update_eq_self]
    exact .refl
  | cons t us ih =>
    rw [WorkerState.goAll?_cons] at h
    obtain ⟨v, hv, h⟩ := Option.bind_eq_some_iff.mp h
    have hrest : Proceeds (Function.update s i v) (Function.update (Function.update s i v) i w) :=
      ih (by rwa [Function.update_self])
    rw [Function.update_idem] at hrest
    exact .head ⟨i, n, t, v, hv, rfl⟩ hrest

/-- Every call can return: a loop that has been told to shut down can always leave. -/
theorem total_scheduled (name : ℕ → String) (schedule : ℕ → Schedule) :
    (scheduled name schedule).Total := by
  rintro (i | i) s
  · exact ⟨_, _, s, .refl, rfl, rfl⟩
  · obtain ⟨-, hb⟩ | ⟨n, -, hb⟩ := (s i).beginStop_cases
    · refine ⟨.ok (), Function.update s i (s i), s, .refl, rfl, ?_⟩
      rw [hb]
    · obtain ⟨us, w, hw, hgone⟩ := WorkerState.exists_gone { s i with slot := none } n
      let told : Crew := Function.update s i ({ s i with slot := none }.tell n)
      have htold : told i = { s i with slot := none }.tell n := Function.update_self i _ s
      have hp : told.Proceeds (Function.update told i w) := proceeds_of_turns (htold ▸ hw)
      refine ⟨.ok (), Function.update told i w, s, .refl, rfl, ?_⟩
      rw [hb]
      exact ⟨hp, by rwa [Function.update_self]⟩

end Crew

namespace Manager

theorem map_fst_reverse_numbered (names : List String) :
    (numbered names).reverse.map Prod.fst = (List.range names.length).reverse := by
  rw [List.map_reverse, map_fst_numbered]

theorem forall_mem_numbered_iff {names : List String} (P : ℕ → Prop) :
    (∀ x ∈ (numbered names).reverse, P x.1) ↔ ∀ i < names.length, P i := by
  simp only [List.mem_reverse, ← List.mem_range, ← map_fst_numbered, List.forall_mem_map]

theorem runs_start_iff {names : List String} {outcome : WorkerCall → Except WorkerError Unit}
    {r : Except WorkerError Unit} {log : List WorkerCall} :
    Runs (replying outcome) (start names) [] r log ↔
      Starts outcome (List.range names.length) r log := by
  rw [start, runs_startAll_iff, map_fst_numbered]
  simp

theorem runs_replying_stop_iff {names : List String}
    {outcome : WorkerCall → Except WorkerError Unit} {r : Except StopFailures Unit}
    {log : List WorkerCall} : Runs (replying outcome) (stop names) [] r log ↔
      log = (List.range names.length).reverse.map .stop ∧
        ((∀ i < names.length, outcome (.stop i) = .ok ()) ∧ r = .ok () ∨
          (∃ i < names.length, outcome (.stop i) ≠ .ok ()) ∧
            r = .error ⟨failures outcome (numbered names).reverse⟩) := by
  have hlog : [] ++ (numbered names).reverse.map (fun x => WorkerCall.stop x.1) =
      (List.range names.length).reverse.map .stop := by
    rw [← map_fst_reverse_numbered, List.map_map]
    rfl
  have hnil : failures outcome (numbered names).reverse = [] ↔
      ∀ i < names.length, outcome (.stop i) = .ok () :=
    (failures_eq_nil_iff _).trans (forall_mem_numbered_iff fun i => outcome (.stop i) = .ok ())
  simp only [runs_stop_iff, runs_stopEach_iff, hlog, and_assoc, exists_eq_left]
  apply and_congr_right
  intro _
  by_cases hall : ∀ i < names.length, outcome (.stop i) = .ok ()
  · have hnot : ¬ ∃ i < names.length, outcome (.stop i) ≠ .ok () := by
      rintro ⟨i, hi, hne⟩
      exact hne (hall i hi)
    rw [if_pos (hnil.mpr hall)]
    simp only [hnot, false_and, or_false, and_iff_right hall]
  · have hsome : ∃ i < names.length, outcome (.stop i) ≠ .ok () := by
      simpa using hall
    rw [if_neg (hnil.not.mpr hall)]
    simp only [hall, false_and, false_or, and_iff_right hsome]

/-- A manager covers its workers whatever becomes of them. A start calls them in order, up to the
first that fails, and returns its error. A stop calls every worker once, the last one first, and
returns exactly the failures, in that order. If the workers have loops, then a stop after a start,
whatever it came to, leaves no loop of theirs, and the next start finds none of them running. -/
theorem start_and_stop_cover (names : List String) :
    (∀ outcome r log, Runs (replying outcome) (start names) [] r log ↔
      Starts outcome (List.range names.length) r log) ∧
    (∀ outcome r log, Runs (replying outcome) (stop names) [] r log ↔
      log = (List.range names.length).reverse.map .stop ∧
        ((∀ i < names.length, outcome (.stop i) = .ok ()) ∧ r = .ok () ∨
          (∃ i < names.length, outcome (.stop i) ≠ .ok ()) ∧
            r = .error ⟨failures outcome (numbered names).reverse⟩)) ∧
    ∀ (name : ℕ → String) (schedule : ℕ → Schedule) (s : Crew), Crew.Used name schedule s →
      (∃ r t, Runs (Crew.scheduled name schedule) (start names) s r t) ∧
      ∀ r t, Runs (Crew.scheduled name schedule) (start names) s r t →
        (∃ r' u, Runs (Crew.scheduled name schedule) (stop names) t r' u) ∧
        ∀ r' u, Runs (Crew.scheduled name schedule) (stop names) t r' u →
          (∀ i < names.length, (u i).loops = []) ∧
          (∃ r'' v, Runs (Crew.scheduled name schedule) (start names) u r'' v) ∧
          ∀ r'' v, Runs (Crew.scheduled name schedule) (start names) u r'' v →
            ∀ text, r'' ≠ .error (.alreadyRunning text) := by
  refine ⟨fun _ _ _ => runs_start_iff, fun _ _ _ => runs_replying_stop_iff, ?_⟩
  intro name schedule s hs
  have htotal := Crew.total_scheduled name schedule
  refine ⟨exists_runs htotal _ _, fun r t ht => ⟨exists_runs htotal _ _, fun r' u hu => ?_⟩⟩
  obtain ⟨failures, hstop, -⟩ := runs_stop_iff.mp hu
  have hrests : ∀ i < names.length, u.Rests i := by
    rw [← forall_mem_numbered_iff]
    exact (Crew.rests_of_stopEach (hs.runs ht).filed hstop).1
  refine ⟨fun i hi => (hrests i hi).2, exists_runs htotal _ _, fun r'' v hv text => ?_⟩
  refine Crew.not_alreadyRunning_of_startAll ?_ ?_ hv text
  · rw [map_fst_numbered]
    exact List.nodup_range
  · have hslots := (forall_mem_numbered_iff fun i => (u i).slot = none).mpr fun i hi =>
      (hrests i hi).1
    exact fun x hx => hslots x (List.mem_reverse.mpr hx)

theorem start_and_stop_cover_partial_start :
    ∃ (schedule : ℕ → Schedule) (e : WorkerError) (t u : Crew) (r : Except StopFailures Unit),
      Runs (Crew.scheduled (fun _ => "health") schedule) (start ["health", "health"]) Crew.idle
        (.error e) t ∧ (t 0).loops ≠ [] ∧
      Runs (Crew.scheduled (fun _ => "health") schedule) (stop ["health", "health"]) t r u ∧
      (u 0).loops = [] ∧
      ∃ r' v,
        Runs (Crew.scheduled (fun _ => "health") schedule) (start ["health", "health"]) u r' v ∧
          ∀ text, r' ≠ .error (.alreadyRunning text) := by
  let schedule : ℕ → Schedule := fun i => if i = 0 then .every ⟨1000000000⟩ else .every ⟨0⟩
  obtain ⟨-, -, hloops⟩ := start_and_stop_cover ["health", "health"]
  obtain ⟨-, hstarted⟩ := hloops (fun _ => "health") schedule Crew.idle .refl
  have hstart : Runs (Crew.scheduled (fun _ => "health") schedule) (start ["health", "health"])
      Crew.idle _ _ :=
    .call ⟨Crew.idle, .refl, rfl, rfl⟩ (.note (.call ⟨_, .refl, rfl, rfl⟩ (.note (.done _ _))))
  obtain ⟨⟨r, u, hstop⟩, hstopped⟩ := hstarted _ _ hstart
  obtain ⟨hgone, ⟨r', v, hagain⟩, hfree⟩ := hstopped r u hstop
  exact ⟨schedule, _, _, u, r, hstart, by decide, hstop, hgone 0 (by decide), r', v, hagain,
    hfree r' v hagain⟩

end Manager

end PeerFleet
