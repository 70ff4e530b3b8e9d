import Mathlib.Data.List.Induction
import PeerFleet.Proofs.Worker.Loops

/-! # Callers of a worker

Any number of callers start and stop one worker while its loops go on. A start holds the lock
of the slot from its check to its end and is one turn. A stop holds the lock only while it takes
the loop out of the slot; it tells the loop and waits for it afterwards, when others may see
the empty slot. Passes lie apart, and a stop that returns leaves no pass behind, exactly as
long as no stop still has a loop that may pass.
-/

namespace PeerFleet

/-- Where a call to stop stands. -/
inductive StopCall where
  | called
  | took (serial : ℕ)
  /-- It has told the loop to shut down, and waits until it is gone. -/
  | told (serial : ℕ)
  | returned
  deriving DecidableEq, Repr

namespace StopCall

def loop? : StopCall → Option ℕ
  | .took n | .told n => some n
  | .called | .returned => none

def advance? (s : WorkerState) : StopCall → Option (StopCall × WorkerState)
  | .called =>
    match s.take with
    | (none, s) => some (.returned, s)
    | (some n, s) => some (.took n, s)
  | .took n => some (.told n, s.tell n)
  | .told n => if s.gone n then some (.returned, s) else none
  | .returned => none

/-- The loop that the call has to end may still pass. -/
def Holds (s : WorkerState) (c : StopCall) : Prop :=
  ∃ l ∈ s.loops, c.loop? = some l.serial ∧ l.MayPass

end StopCall

inductive Turn where
  | start
  | stop
  /-- A call to stop goes on, the first call being number 0. -/
  | advance (call : ℕ)
  | loop (serial : ℕ) (turn : LoopTurn)
  deriving DecidableEq, Repr

namespace Turn

def toFirstPass : List Turn :=
  [.start, .loop 0 .enter, .loop 0 .tick, .loop 0 .beginPass]

def toQuiet : List Turn :=
  [.advance 0, .advance 0, .loop 0 (.endPass .completed), .loop 0 .leave, .advance 0]

end Turn

/-- A worker with the calls to stop it, in the order in which they came. -/
structure Traffic where
  worker : WorkerState := {}
  stops : List StopCall := []
  deriving DecidableEq, Repr

namespace WorkerState

/-- A start would spawn a loop. -/
def Admits (s : WorkerState) (schedule : Schedule) : Prop :=
  s.slot = none ∧ schedule.validate = .ok ()

variable {s s' : WorkerState} {schedule : Schedule} {name : String} {c c' : StopCall} {n : ℕ}

theorem start_of_admits (h : s.Admits schedule) :
    (s.start name schedule).2 =
      { s with slot := some s.spawned, loops := s.loops ++ [{ serial := s.spawned }],
               spawned := s.spawned + 1 } := by
  simp [start, h.1, h.2]

theorem start_fst_of_admits (h : s.Admits schedule) : (s.start name schedule).1 = .ok () := by
  simp [start, h.1, h.2]

theorem start_of_not_admits (h : ¬ s.Admits schedule) : (s.start name schedule).2 = s := by
  unfold start
  split
  · rfl
  · rename_i hv
    have hs : s.slot.isSome := Option.isSome_iff_ne_none.mpr fun hs => h ⟨hs, hv⟩
    simp [hs]

theorem serials_start (h : s.Admits schedule) :
    (s.start name schedule).2.serials = s.serials ++ [s.spawned] := by
  simp [start_of_admits h, serials]

theorem mem_serials_start (h : s.Admits schedule) :
    n ∈ (s.start name schedule).2.serials ↔ n ∈ s.serials ∨ n = s.spawned := by
  simp [serials_start h]

theorem busy_start (h : s.Admits schedule) : (s.start name schedule).2.busy = s.busy + 1 := by
  simp [start_of_admits h, busy, WorkerLoop.MayPass]

theorem advance_cases (h : c.advance? s = some (c', s')) :
    (c = .called ∧ s.slot = none ∧ c' = .returned ∧ s' = s) ∨
    (∃ n, c = .called ∧ s.slot = some n ∧ c' = .took n ∧ s' = { s with slot := none }) ∨
    (∃ n, c = .took n ∧ c' = .told n ∧ s' = s.tell n) ∨
    ∃ n, c = .told n ∧ n ∉ s.serials ∧ c' = .returned ∧ s' = s := by
  cases c with
  | called =>
    cases hs : s.slot with
    | none =>
      simp only [StopCall.advance?, take, hs, Option.some.injEq, Prod.mk.injEq] at h
      obtain ⟨rfl, rfl⟩ := h
      exact .inl ⟨rfl, rfl, rfl, by rw [← hs]⟩
    | some n =>
      simp only [StopCall.advance?, take, hs, Option.some.injEq, Prod.mk.injEq] at h
      exact .inr (.inl ⟨n, rfl, rfl, h.1.symm, h.2.symm⟩)
  | took n =>
    simp only [StopCall.advance?, Option.some.injEq, Prod.mk.injEq] at h
    exact .inr (.inr (.inl ⟨n, rfl, h.1.symm, h.2.symm⟩))
  | told n =>
    simp only [StopCall.advance?, Option.ite_none_right_eq_some, Option.some.injEq,
      Prod.mk.injEq] at h
    refine .inr (.inr (.inr ⟨n, rfl, ?_, h.2.1.symm, h.2.2.symm⟩))
    simpa [gone, loop?, serials] using h.1
  | returned => simp [StopCall.advance?] at h

end WorkerState

namespace Traffic

variable (name : String) (schedule : Schedule)

def turn? (x : Traffic) : Turn → Option Traffic
  | .start => some { x with worker := (x.worker.start name schedule).2 }
  | .stop => some { x with stops := x.stops ++ [.called] }
  | .advance i => do
    let c ← x.stops[i]?
    let (c', s) ← c.advance? x.worker
    return ⟨s, x.stops.set i c'⟩
  | .loop n t => do
    let s ← x.worker.go? n t
    return { x with worker := s }

def run? (x : Traffic) (turns : List Turn) : Option Traffic :=
  turns.foldlM (turn? name schedule) x

/-- Every loop is in the slot or has a call to stop that waits for it. -/
structure Orderly (x : Traffic) : Prop where
  nodup : x.worker.serials.Nodup
  lt_spawned : ∀ n ∈ x.worker.serials, n < x.worker.spawned
  held : ∀ n ∈ x.worker.serials, x.worker.slot = some n ∨ ∃ c ∈ x.stops, c.loop? = some n

variable {name : String} {schedule : Schedule} {x y z : Traffic} {t : Turn} {ts us : List Turn}

@[simp] theorem run?_nil : run? name schedule x [] = some x := rfl

@[simp] theorem run?_cons :
    run? name schedule x (t :: ts) = (turn? name schedule x t).bind (run? name schedule · ts) := by
  simp [run?]

@[simp] theorem run?_singleton : run? name schedule x [t] = turn? name schedule x t := by
  simp [run?]

theorem run?_append :
    run? name schedule x (ts ++ us) = (run? name schedule x ts).bind (run? name schedule · us) := by
  simp [run?, List.foldlM_append]

theorem run_keeps {P : Traffic → Prop}
    (hstep : ∀ t ∈ ts, ∀ x y, P x → turn? name schedule x t = some y → P y) (hx : P x)
    (h : run? name schedule x ts = some y) : P y := by
  induction ts generalizing x with
  | nil =>
    obtain rfl := Option.some.inj h
    exact hx
  | cons t ts ih =>
    rw [run?_cons] at h
    obtain ⟨z, hz, h⟩ := Option.bind_eq_some_iff.mp h
    apply ih (fun u hu => hstep u (List.mem_cons_of_mem t hu)) _ h
    exact hstep t List.mem_cons_self x z hx hz

theorem advance_cases {i : ℕ} (h : turn? name schedule x (.advance i) = some y) :
    ∃ c c' s, x.stops[i]? = some c ∧ c.advance? x.worker = some (c', s) ∧
      y = ⟨s, x.stops.set i c'⟩ := by
  simp only [turn?, Option.bind_eq_bind, Option.bind_eq_some_iff, Option.pure_def,
    Option.some.injEq] at h
  obtain ⟨c, hc, ⟨c', s⟩, hs, rfl⟩ := h
  exact ⟨c, c', s, hc, hs, rfl⟩

theorem loop_cases {n : ℕ} {t : LoopTurn} (h : turn? name schedule x (.loop n t) = some y) :
    ∃ s, x.worker.go? n t = some s ∧ y = { x with worker := s } := by
  simp only [turn?, Option.bind_eq_bind, Option.bind_eq_some_iff, Option.pure_def,
    Option.some.injEq] at h
  obtain ⟨s, hs, rfl⟩ := h
  exact ⟨s, hs, rfl⟩

theorem orderly_empty : Orderly {} where
  nodup := by simp [WorkerState.serials]
  lt_spawned := by simp [WorkerState.serials]
  held := by simp [WorkerState.serials]

theorem orderly_start (hx : x.Orderly) :
    Orderly { x with worker := (x.worker.start name schedule).2 } := by
  by_cases ha : x.worker.Admits schedule
  · constructor
    · rw [WorkerState.serials_start ha, List.nodup_append]
      refine ⟨hx.nodup, by simp, ?_⟩
      intro n hn m hm
      have hlt := hx.lt_spawned n hn
      simp only [List.mem_singleton] at hm
      omega
    · intro n hn
      rw [WorkerState.start_of_admits ha]
      obtain hn | rfl := (WorkerState.mem_serials_start ha).mp hn
      · exact Nat.lt_succ_of_lt (hx.lt_spawned n hn)
      · exact Nat.lt_succ_self _
    · intro n hn
      rw [WorkerState.start_of_admits ha]
      obtain hn | rfl := (WorkerState.mem_serials_start ha).mp hn
      · obtain hs | hc := hx.held n hn
        · simp [ha.1] at hs
        · exact .inr hc
      · exact .inl rfl
  · rw [WorkerState.start_of_not_admits ha]
    exact hx

theorem exists_mem_set {stops : List StopCall} {i n : ℕ} {c c' : StopCall}
    (hi : stops[i]? = some c) (hc : c.loop? = some n → c'.loop? = some n)
    (h : ∃ d ∈ stops, d.loop? = some n) : ∃ d ∈ stops.set i c', d.loop? = some n := by
  obtain ⟨d, hd, hn⟩ := h
  obtain ⟨j, hj⟩ := List.mem_iff_getElem?.mp hd
  have hlt : i < stops.length := (List.getElem?_eq_some_iff.mp hi).1
  by_cases hij : i = j
  · subst hij
    obtain rfl : c = d := by simpa [hi] using hj
    exact ⟨c', List.mem_set hlt c', hc hn⟩
  · exact ⟨d, List.mem_iff_getElem?.mpr ⟨j, by rw [List.getElem?_set_ne hij, hj]⟩, hn⟩

theorem Orderly.onward {s : WorkerState} (hx : x.Orderly) (hs : x.worker.Onward s) :
    Orderly { x with worker := s } := by
  constructor
  · exact hx.nodup.sublist hs.serials
  · intro n hn
    rw [hs.spawned]
    exact hx.lt_spawned n (hs.serials.subset hn)
  · intro n hn
    rw [hs.slot]
    exact hx.held n (hs.serials.subset hn)

theorem Orderly.set_stop {i : ℕ} {c c' : StopCall} (hx : x.Orderly) (hi : x.stops[i]? = some c)
    (hc : ∀ n ∈ x.worker.serials, c.loop? = some n → c'.loop? = some n) :
    Orderly { x with stops := x.stops.set i c' } where
  nodup := hx.nodup
  lt_spawned := hx.lt_spawned
  held n hn := (hx.held n hn).imp_right (exists_mem_set hi (hc n hn))

theorem orderly_advance {i : ℕ} (hx : x.Orderly)
    (h : turn? name schedule x (.advance i) = some y) : y.Orderly := by
  obtain ⟨c, c', s, hi, ha, rfl⟩ := advance_cases h
  obtain ⟨rfl, -, rfl, rfl⟩ | ⟨n, rfl, hs, rfl, rfl⟩ | ⟨n, rfl, rfl, rfl⟩ |
    ⟨n, rfl, hn, rfl, rfl⟩ := WorkerState.advance_cases ha
  · exact hx.set_stop hi (by simp [StopCall.loop?])
  · -- the loop of the slot is now the loop of the call
    constructor
    · exact hx.nodup
    · exact hx.lt_spawned
    · intro m hm
      right
      obtain hm | hm := hx.held m hm
      · have hlt : i < x.stops.length := (List.getElem?_eq_some_iff.mp hi).1
        exact ⟨.took n, List.mem_set hlt _, by rw [← hm, hs]; rfl⟩
      · exact exists_mem_set hi (by simp [StopCall.loop?]) hm
  · exact (hx.onward (x.worker.onward_tell n)).set_stop hi fun _ _ => id
  · apply hx.set_stop hi
    rintro m hm he
    obtain rfl : n = m := by simpa [StopCall.loop?] using he
    exact absurd hm hn

theorem orderly_turn (hx : x.Orderly) (h : turn? name schedule x t = some y) : y.Orderly := by
  cases t with
  | start =>
    obtain rfl := Option.some.inj h
    exact orderly_start hx
  | stop =>
    obtain rfl := Option.some.inj h
    refine ⟨hx.nodup, hx.lt_spawned, fun n hn => (hx.held n hn).imp_right ?_⟩
    rintro ⟨c, hc, hn⟩
    exact ⟨c, List.mem_append_left _ hc, hn⟩
  | advance i => exact orderly_advance hx h
  | loop n t =>
    obtain ⟨s, hs, rfl⟩ := loop_cases h
    exact hx.onward (WorkerState.onward_go hs)

theorem orderly_run (hx : x.Orderly) (h : run? name schedule x ts = some y) : y.Orderly :=
  run_keeps (fun _ _ _ _ => orderly_turn) hx h

theorem busy_le_of_turn (hx : x.Orderly) (ht : t ≠ .start)
    (h : turn? name schedule x t = some y) : y.worker.busy ≤ x.worker.busy := by
  cases t with
  | start => exact absurd rfl ht
  | stop =>
    obtain rfl := Option.some.inj h
    exact Nat.le_refl _
  | advance i =>
    obtain ⟨c, c', s, -, ha, rfl⟩ := advance_cases h
    obtain ⟨-, -, -, rfl⟩ | ⟨n, -, -, -, rfl⟩ | ⟨n, -, -, rfl⟩ | ⟨n, -, -, -, rfl⟩ :=
      WorkerState.advance_cases ha
    · exact Nat.le_refl _
    · exact Nat.le_refl _
    · exact (x.worker.onward_tell n).busy hx.nodup
    · exact Nat.le_refl _
  | loop n t =>
    obtain ⟨s, hs, rfl⟩ := loop_cases h
    exact (WorkerState.onward_go hs).busy hx.nodup

theorem busy_le_of_run (hx : x.Orderly) (hts : .start ∉ ts)
    (h : run? name schedule x ts = some y) : y.worker.busy ≤ x.worker.busy := by
  have hkeeps : y.Orderly ∧ y.worker.busy ≤ x.worker.busy := by
    apply run_keeps (P := fun z => z.Orderly ∧ z.worker.busy ≤ x.worker.busy) _
      ⟨hx, Nat.le_refl _⟩ h
    rintro t ht z z' ⟨hz, hle⟩ hturn
    have hne : t ≠ .start := fun he => hts (he ▸ ht)
    exact ⟨orderly_turn hz hturn, Nat.le_trans (busy_le_of_turn hz hne hturn) hle⟩
  exact hkeeps.2

variable (name schedule) in
/-- All loops that may pass come to be in a pass at one time, if they are left alone. -/
theorem exists_inFlight_eq_busy (hx : x.Orderly) :
    ∃ ts y, .start ∉ ts ∧ run? name schedule x ts = some y ∧
      y.worker.inFlight = x.worker.busy := by
  induction hn : x.worker.lag using Nat.strongRecOn generalizing x with
  | ind n ih =>
    obtain h | ⟨l, hl, hp, hne⟩ := x.worker.inFlight_eq_busy_or
    · exact ⟨[], x, by simp, rfl, h⟩
    · obtain ⟨t, s, new, hs, hm, hnew, hlag⟩ :=
        WorkerState.exists_turn (WorkerState.loop?_of_mem hx.nodup hl) hp hne
      have hturn : turn? name schedule x (.loop l.serial t) = some { x with worker := s } := by
        simp [turn?, hs]
      obtain ⟨ts, y, hts, hy, hb⟩ :=
        ih s.lag (hn ▸ hm.lag_lt hx.nodup hlag) (orderly_turn hx hturn) rfl
      refine ⟨.loop l.serial t :: ts, y, by simpa using hts, ?_, ?_⟩
      · rw [run?_cons, hturn]
        exact hy
      · rw [hb, hm.busy_eq hx.nodup hnew hp]

theorem busy_pos_of_holds {s : WorkerState} {c : StopCall} (h : c.Holds s) : 0 < s.busy := by
  obtain ⟨l, hl, -, hp⟩ := h
  by_contra hb
  exact WorkerState.busy_eq_zero_iff.mp (by omega) l hl hp

theorem busy_eq_zero (hx : x.Orderly) (hs : x.worker.slot = none)
    (hc : ∀ c ∈ x.stops, ¬ c.Holds x.worker) : x.worker.busy = 0 := by
  rw [WorkerState.busy_eq_zero_iff]
  intro l hl hp
  obtain h | ⟨c, hmem, h⟩ := hx.held l.serial (List.mem_map_of_mem hl)
  · simp [hs] at h
  · exact hc c hmem ⟨l, hl, h, hp⟩

/-- Along a run in which no start is accepted while a call to stop holds a loop that may pass,
one loop may pass at any time. -/
theorem busy_le_one {x : Traffic}
    (hts : ∀ us z, us ++ [.start] <+: ts → run? name schedule {} us = some z →
      z.worker.Admits schedule → ∀ c ∈ z.stops, ¬ c.Holds z.worker)
    (h : run? name schedule {} ts = some x) : x.worker.busy ≤ 1 := by
  induction ts using List.reverseRecOn generalizing x with
  | nil =>
    obtain rfl := Option.some.inj h
    simp [WorkerState.busy]
  | append_singleton ts t ih =>
    rw [run?_append] at h
    obtain ⟨z, hz, h⟩ := Option.bind_eq_some_iff.mp h
    rw [run?_singleton] at h
    have ho := orderly_run orderly_empty hz
    have hle : z.worker.busy ≤ 1 :=
      ih (fun us w hus => hts us w (hus.trans (List.prefix_append ts [t]))) hz
    by_cases ht : t = .start
    · subst ht
      obtain rfl := Option.some.inj h
      by_cases ha : z.worker.Admits schedule
      · have hzero := busy_eq_zero ho ha.1 (hts ts z (List.prefix_refl _) hz ha)
        simp [WorkerState.busy_start ha, hzero]
      · rw [WorkerState.start_of_not_admits ha]
        exact hle
    · exact Nat.le_trans (busy_le_of_turn ho ht h) hle

/-- The passes of a worker lie apart, and are bound to as long as nobody starts it again,
exactly if no start is accepted while a call to stop holds a loop that may pass. -/
theorem passes_apart_iff (name : String) (schedule : Schedule) (turns : List Turn) :
    (∀ before after x, before <+: turns → .start ∉ after →
      run? name schedule {} (before ++ after) = some x → x.worker.inFlight ≤ 1) ↔
    ∀ before x, before ++ [.start] <+: turns → run? name schedule {} before = some x →
      x.worker.Admits schedule → ∀ c ∈ x.stops, ¬ c.Holds x.worker := by
  constructor
  · intro h before x hpre hx ha c hc hholds
    -- the new loop and the loop of the call both come to pass
    have hstart : run? name schedule {} (before ++ [.start]) =
        some { x with worker := (x.worker.start name schedule).2 } := by
      simp [run?_append, hx, turn?]
    obtain ⟨after, y, hafter, hy, hb⟩ :=
      exists_inFlight_eq_busy name schedule (orderly_run orderly_empty hstart)
    have hle := h _ after y hpre hafter (by rw [run?_append, hstart]; exact hy)
    have hpos := busy_pos_of_holds hholds
    simp only [WorkerState.busy_start ha] at hb
    omega
  · intro h before after x hpre hafter hx
    rw [run?_append] at hx
    obtain ⟨z, hz, hx⟩ := Option.bind_eq_some_iff.mp hx
    have hle : z.worker.busy ≤ 1 := busy_le_one (fun us w hus => h us w (hus.trans hpre)) hz
    calc x.worker.inFlight
      _ ≤ x.worker.busy := x.worker.inFlight_le_busy
      _ ≤ z.worker.busy := busy_le_of_run (orderly_run orderly_empty hz) hafter hx
      _ ≤ 1 := hle

/-- A stop empties the slot and waits; the next start is accepted and its first pass begins while
the old loop is still in one. -/
theorem exists_passes_overlap :
    ∃ turns x, run? "health" (.every ⟨1000000000⟩) {} turns = some x ∧ x.worker.inFlight = 2 :=
  ⟨Turn.toFirstPass ++ [.stop, .advance 0, .advance 0, .start, .loop 1 .enter, .loop 1 .tick,
    .loop 1 .beginPass], _, rfl, by decide⟩

theorem slot_none_or_called_of_turn {i : ℕ} (ht : t ≠ .start)
    (hx : x.stops[i]? = some .called ∨ x.worker.slot = none)
    (h : turn? name schedule x t = some y) :
    y.stops[i]? = some .called ∨ y.worker.slot = none := by
  cases t with
  | start => exact absurd rfl ht
  | stop =>
    obtain rfl := Option.some.inj h
    refine hx.imp_left fun hi => ?_
    rw [List.getElem?_append_left (List.getElem?_eq_some_iff.mp hi).1, hi]
  | advance j =>
    obtain ⟨c, c', s, hj, ha, rfl⟩ := advance_cases h
    -- a call that goes on after it has taken the loop is another one
    have hother (hc : c ≠ .called) (hi : x.stops[i]? = some .called) :
        (x.stops.set j c')[i]? = some .called := by
      have hji : j ≠ i := by
        rintro rfl
        exact hc (Option.some.inj (hj.symm.trans hi))
      rw [List.getElem?_set_ne hji, hi]
    obtain ⟨rfl, hs, rfl, rfl⟩ | ⟨n, rfl, hs, rfl, rfl⟩ | ⟨n, rfl, rfl, rfl⟩ |
      ⟨n, rfl, hn, rfl, rfl⟩ := WorkerState.advance_cases ha
    · exact .inr hs
    · exact .inr rfl
    · exact hx.imp (hother (by simp)) (x.worker.onward_tell n).slot.trans
    · exact hx.imp_left (hother (by simp))
  | loop n t =>
    obtain ⟨s, hs, rfl⟩ := loop_cases h
    exact hx.imp_right (WorkerState.onward_go hs).slot.trans

theorem slot_none_or_called {i : ℕ} (hts : .start ∉ ts)
    (hx : x.stops[i]? = some .called ∨ x.worker.slot = none)
    (h : run? name schedule x ts = some y) :
    y.stops[i]? = some .called ∨ y.worker.slot = none := by
  apply run_keeps _ hx h
  intro t ht z z' hz hturn
  have hne : t ≠ .start := fun he => hts (he ▸ ht)
  exact slot_none_or_called_of_turn hne hz hturn

/-- A stop that has returned, with no start since it was called, leaves no pass under way and
none to come before the next start, exactly if no other call holds a loop that may pass. -/
theorem quiescent_iff (before during : List Turn)
    (hbefore : run? name schedule {} before = some x)
    (hduring : run? name schedule x (.stop :: during) = some y) (hstart : .start ∉ during)
    (hreturned : y.stops[x.stops.length]? = some .returned) :
    (∀ after z, .start ∉ after → run? name schedule y after = some z →
      z.worker.inFlight = 0) ↔
    ∀ c ∈ y.stops, ¬ c.Holds y.worker := by
  have ho : y.Orderly := orderly_run (orderly_run orderly_empty hbefore) hduring
  constructor
  · intro h c hc hholds
    obtain ⟨after, z, hafter, hz, hb⟩ := exists_inFlight_eq_busy name schedule ho
    have hzero := h after z hafter hz
    have hpos := busy_pos_of_holds hholds
    omega
  · intro h after z hafter hz
    have hslot : y.worker.slot = none := by
      rw [run?_cons, turn?, Option.bind_some] at hduring
      have hcalled : (x.stops ++ [StopCall.called])[x.stops.length]? = some .called := by simp
      obtain hi | hs := slot_none_or_called hstart (.inl hcalled) hduring
      · simp [hi] at hreturned
      · exact hs
    have hle := busy_le_of_run ho hafter hz
    have hfl := z.worker.inFlight_le_busy
    have hzero := busy_eq_zero ho hslot h
    omega

theorem quiescent_of_lone_stop :
    ∃ x y,
      run? "health" (.every ⟨1000000000⟩) {} Turn.toFirstPass = some x ∧
      run? "health" (.every ⟨1000000000⟩) x (.stop :: Turn.toQuiet) = some y ∧
      .start ∉ Turn.toQuiet ∧ y.stops[x.stops.length]? = some .returned ∧
      ∀ after z, .start ∉ after → run? "health" (.every ⟨1000000000⟩) y after = some z →
        z.worker.inFlight = 0 := by
  refine ⟨_, _, rfl, rfl, by decide, rfl, ?_⟩
  apply (quiescent_iff Turn.toFirstPass Turn.toQuiet rfl rfl (by decide) rfl).mpr
  rintro c - ⟨l, hl, -⟩
  exact absurd hl List.not_mem_nil

/-- Of two stops the second finds the slot empty and returns at once, while the first still waits
for the pass. -/
theorem exists_stop_during_pass :
    ∃ before x y,
      run? "health" (.every ⟨1000000000⟩) {} before = some x ∧
      run? "health" (.every ⟨1000000000⟩) x [.stop, .advance 1] = some y ∧
      y.stops[x.stops.length]? = some .returned ∧ y.worker.inFlight = 1 :=
  ⟨Turn.toFirstPass ++ [.stop, .advance 0, .advance 0], _, _, rfl, rfl, rfl, by decide⟩

end Traffic

end PeerFleet
