import PeerFleet.Proofs.Worker.Callers

/-! # Balance of passes

Along every run each pass that has begun is counted when it ends, or is still under way, however
it ends. No end of a pass ends the loop: a loop goes only by its own leave, once a call to stop
has told it to, and so the call is answered without an error.
-/

namespace PeerFleet

/-- The turns that a loop which has been told to shut down still takes. -/
def LoopPhase.toLeave (outcome : PassOutcome) : LoopPhase → List LoopTurn
  | .fresh => [.enter, .leave]
  | .waiting => [.leave]
  | .called => [.beginPass, .endPass outcome, .leave]
  | .passing => [.endPass outcome, .leave]

namespace Turn

/-- A pass begins. -/
def begins : Turn → Bool
  | .loop _ t => t = .beginPass
  | _ => false

def ends (outcome : PassOutcome) : Turn → Bool
  | .loop _ t => t = .endPass outcome
  | _ => false

end Turn

/-- What a call to stop answers when it returns. It waits for the task of its loop, which ends in
order only if the loop has left. -/
def StopCall.answer (name : String) (turns : List Turn) : StopCall → Except WorkerError Unit
  | .told n =>
    if .loop n .leave ∈ turns then .ok () else .error (.failed name "the task broke off")
  | .called | .took _ | .returned => .ok ()

theorem Schedule.invalid_of_validate {schedule : Schedule} {e : WorkerError}
    (h : schedule.validate = .error e) : ∃ reason, e = .invalidSchedule reason := by
  cases schedule with
  | daily hour minute =>
    simp only [validate] at h
    split_ifs at h
    cases h
    exact ⟨_, rfl⟩
  | every interval =>
    simp only [validate] at h
    split_ifs at h
    cases h
    exact ⟨_, rfl⟩

namespace WorkerState

variable {s s' : WorkerState} {l old new : WorkerLoop} {n : ℕ} {t : LoopTurn} {name : String}
  {schedule : Schedule}

theorem slot_of_alreadyRunning {text : String}
    (h : (s.start name schedule).1 = .error (.alreadyRunning text)) : s.slot.isSome := by
  unfold start at h
  split at h
  next e hv =>
    obtain ⟨reason, rfl⟩ := Schedule.invalid_of_validate hv
    cases h
  next hv =>
    split_ifs at h with hs
    exact hs

theorem counts_go (h : s.go? n t = some s') :
    s'.begun = s.begun + (if t = .beginPass then 1 else 0) ∧
    s'.completed = s.completed + (if t = .endPass .completed then 1 else 0) ∧
    s'.panicked = s.panicked + (if t = .endPass .panicked then 1 else 0) := by
  cases t with
  | enter =>
    simp only [go?, enter] at h
    split at h
    · split_ifs at h
      cases h
      simp [setLoop]
    · cases h
  | tick =>
    simp only [go?, tick] at h
    split at h
    · split_ifs at h
      cases h
      simp [setLoop]
    · cases h
  | beginPass =>
    simp only [go?, beginPass] at h
    split at h
    · split_ifs at h
      cases h
      simp [setLoop]
    · cases h
  | endPass outcome =>
    simp only [go?, endPass] at h
    split at h
    · split_ifs at h
      cases outcome <;> cases h <;> simp [setLoop]
    · cases h
  | leave =>
    obtain ⟨-, -, -, -, rfl⟩ := leave_cases h
    simp

theorem Moved.inFlight_add (h : Moved s s' old new) (hn : s.serials.Nodup) :
    s'.inFlight + (if old.phase = .passing then 1 else 0) =
      s.inFlight + (if new.phase = .passing then 1 else 0) := by
  obtain ⟨a, b, hs, hs'⟩ := h.split hn
  simp only [inFlight_eq_countP, hs, hs', List.countP_append, List.countP_cons, decide_eq_true_eq]
  omega

theorem inFlight_leave (hn : s.serials.Nodup) (h : s.leave n = some s') :
    s'.inFlight = s.inFlight := by
  obtain ⟨l, hl, hp, -, rfl⟩ := leave_cases h
  rw [inFlight_eq_countP, inFlight_eq_countP, List.countP_filter]
  apply List.countP_congr
  intro m hm
  simp only [Bool.and_eq_true, decide_eq_true_eq, bne_iff_ne, and_iff_left_iff_imp]
  rintro hpass rfl
  rw [loop?_of_mem hn hm] at hl
  cases hl
  cases hp.symm.trans hpass

theorem inFlight_go (hn : s.serials.Nodup) (h : s.go? n t = some s') :
    s'.inFlight + (if t = .endPass .completed then 1 else 0) +
      (if t = .endPass .panicked then 1 else 0) =
        s.inFlight + (if t = .beginPass then 1 else 0) := by
  cases t with
  | enter =>
    obtain ⟨l, hl, h⟩ := enter_cases h
    simpa [hl] using h.inFlight_add hn
  | tick =>
    obtain ⟨l, hl, -, h⟩ := tick_cases h
    simpa [hl] using h.inFlight_add hn
  | beginPass =>
    obtain ⟨l, hl, h⟩ := beginPass_cases h
    simpa [hl] using h.inFlight_add hn
  | endPass outcome =>
    obtain ⟨l, hl, h⟩ := endPass_cases h
    have hadd := h.inFlight_add hn
    cases outcome <;> simpa [hl] using hadd
  | leave => simpa using inFlight_leave hn h

theorem counts_tell (s : WorkerState) (n : ℕ) : (s.tell n).begun = s.begun ∧
    (s.tell n).completed = s.completed ∧ (s.tell n).panicked = s.panicked := by
  unfold tell
  split <;> exact ⟨rfl, rfl, rfl⟩

theorem inFlight_tell (hn : s.serials.Nodup) : (s.tell n).inFlight = s.inFlight := by
  obtain h | ⟨l, h⟩ := s.tell_cases n
  · rw [h]
  · simpa using h.inFlight_add hn

theorem serials_tell (s : WorkerState) (n : ℕ) : (s.tell n).serials = s.serials := by
  obtain h | ⟨l, h⟩ := s.tell_cases n
  · rw [h]
  · exact h.serials

theorem go_cases (h : s.go? n t = some s') :
    (t ≠ .leave ∧ ∃ old new, Moved s s' old new ∧ new.shutdown = old.shutdown) ∨
      (t = .leave ∧ ∃ l, s.loop? n = some l ∧ l.phase = .waiting ∧ l.shutdown = true ∧
        s' = { s with loops := s.loops.filter (·.serial != n) }) := by
  cases t with
  | enter =>
    obtain ⟨l, -, h⟩ := enter_cases h
    exact .inl ⟨by decide, l, _, h, rfl⟩
  | tick =>
    obtain ⟨l, -, -, h⟩ := tick_cases h
    exact .inl ⟨by decide, l, _, h, rfl⟩
  | beginPass =>
    obtain ⟨l, -, h⟩ := beginPass_cases h
    exact .inl ⟨by decide, l, _, h, rfl⟩
  | endPass outcome =>
    obtain ⟨l, -, h⟩ := endPass_cases h
    exact .inl ⟨by simp, l, _, h, rfl⟩
  | leave => exact .inr ⟨rfl, leave_cases h⟩

theorem serials_go (h : s.go? n t = some s') {m : ℕ} (hm : m ∈ s.serials) :
    m ∈ s'.serials ∨ m = n ∧ t = .leave := by
  obtain ⟨-, l, new, hmoved, -⟩ | ⟨rfl, -, -, -, -, rfl⟩ := go_cases h
  · exact .inl (hmoved.serials ▸ hm)
  · by_cases hmn : m = n
    · exact .inr ⟨hmn, rfl⟩
    · left
      obtain ⟨l, hl, rfl⟩ := List.mem_map.mp hm
      exact List.mem_map_of_mem (List.mem_filter.mpr ⟨hl, by simpa using hmn⟩)

theorem Moved.mem (h : Moved s s' old new) (hl : l ∈ s'.loops) : l = new ∨ l ∈ s.loops := by
  rw [h.loops, setLoop] at hl
  obtain ⟨m, hm, rfl⟩ := List.mem_map.mp hl
  split_ifs
  · exact .inl rfl
  · exact .inr hm

def Signalled (s : WorkerState) (l : WorkerLoop) : Prop :=
  ∃ m ∈ s.loops, m.serial = l.serial ∧ m.shutdown = l.shutdown

theorem signalled_go (h : s.go? n t = some s') (hl : l ∈ s'.loops) : s.Signalled l := by
  obtain ⟨-, old, new, hmoved, hs⟩ | ⟨-, -, -, -, -, rfl⟩ := go_cases h
  · obtain rfl | hl := hmoved.mem hl
    · obtain ⟨hold, hserial⟩ := mem_loops_of_loop? hmoved.found
      exact ⟨old, hold, hserial, hs.symm⟩
    · exact ⟨l, hl, rfl, rfl⟩
  · exact ⟨l, List.mem_of_mem_filter hl, rfl, rfl⟩

theorem shutdown_tell (hl : l ∈ (s.tell n).loops) :
    l.serial = n ∧ l.shutdown = true ∨ l.serial ≠ n ∧ s.Signalled l := by
  unfold tell at hl
  split at hl
  next m hm =>
    obtain ⟨-, rfl⟩ := mem_loops_of_loop? hm
    obtain ⟨k, hk, rfl⟩ := List.mem_map.mp hl
    split_ifs with h
    · exact .inl ⟨rfl, rfl⟩
    · exact .inr ⟨h, k, hk, rfl, rfl⟩
  next hnone =>
    refine .inr ⟨?_, l, hl, rfl, rfl⟩
    rintro rfl
    simpa using List.find?_eq_none.mp hnone l hl

theorem gone_iff : s.gone n = true ↔ n ∉ s.serials := by
  simp [gone, loop?, serials]

theorem loop?_setLoop (hl : s.loop? n = some l) (new : WorkerLoop) (hn : new.serial = l.serial) :
    (s.setLoop new).loop? n = some new := by
  obtain ⟨-, rfl⟩ := mem_loops_of_loop? hl
  have hserial : (fun m : WorkerLoop => decide (m.serial = l.serial)) ∘
      (fun m => if m.serial = new.serial then new else m) =
        fun m : WorkerLoop => decide (m.serial = l.serial) := by
    funext m
    by_cases hm : m.serial = l.serial <;> simp [hm, hn]
  unfold loop? at hl ⊢
  rw [setLoop, List.find?_map, hserial, hl]
  simp [hn]

theorem go_toLeave (hl : s.loop? n = some l) (hs : l.shutdown = true) (outcome : PassOutcome) :
    ∃ t ts s', l.phase.toLeave outcome = t :: ts ∧ s.go? n t = some s' ∧
      (ts = [] ∧ n ∉ s'.serials ∨
        ∃ m, s'.loop? n = some m ∧ m.shutdown = true ∧ m.phase.toLeave outcome = ts) := by
  cases hp : l.phase with
  | fresh =>
    refine ⟨.enter, [.leave], s.setLoop { l with phase := .waiting }, rfl, ?_, .inr ?_⟩
    · simp [go?, enter, hl, hp]
    · exact ⟨_, loop?_setLoop hl { l with phase := .waiting } rfl, hs, rfl⟩
  | waiting =>
    refine ⟨.leave, [], { s with loops := s.loops.filter (·.serial != n) }, rfl, ?_, .inl ⟨rfl, ?_⟩⟩
    · simp [go?, leave, hl, hp, hs]
    · simp [serials]
  | called =>
    refine ⟨.beginPass, [.endPass outcome, .leave],
      { s.setLoop { l with phase := .passing } with begun := s.begun + 1 }, rfl, ?_, .inr ?_⟩
    · simp [go?, beginPass, hl, hp]
    · exact ⟨_, loop?_setLoop hl { l with phase := .passing } rfl, hs, rfl⟩
  | passing =>
    have hset := loop?_setLoop hl { l with phase := .waiting } rfl
    cases outcome with
    | completed =>
      refine ⟨.endPass .completed, [.leave],
        { s.setLoop { l with phase := .waiting } with completed := s.completed + 1 }, rfl, ?_,
        .inr ⟨_, hset, hs, rfl⟩⟩
      simp [go?, endPass, hl, hp, setLoop]
    | panicked =>
      refine ⟨.endPass .panicked, [.leave],
        { s.setLoop { l with phase := .waiting } with panicked := s.panicked + 1 }, rfl, ?_,
        .inr ⟨_, hset, hs, rfl⟩⟩
      simp [go?, endPass, hl, hp, setLoop]

def goAll? (s : WorkerState) (n : ℕ) (turns : List LoopTurn) : Option WorkerState :=
  turns.foldlM (go? · n) s

@[simp] theorem goAll?_cons {ts : List LoopTurn} :
    s.goAll? n (t :: ts) = (s.go? n t).bind (goAll? · n ts) := by
  simp [goAll?]

theorem gone_of_toLeave (hl : s.loop? n = some l) (hs : l.shutdown = true) (outcome : PassOutcome) :
    ∃ s', s.goAll? n (l.phase.toLeave outcome) = some s' ∧ n ∉ s'.serials := by
  induction hts : l.phase.toLeave outcome generalizing s l with
  | nil =>
    obtain ⟨t, ts, s', hcons, -⟩ := go_toLeave hl hs outcome
    simp [hts] at hcons
  | cons t ts ih =>
    obtain ⟨t', ts', s', hcons, hgo, hnext⟩ := go_toLeave hl hs outcome
    obtain ⟨rfl, rfl⟩ := List.cons_eq_cons.mp (hts.symm.trans hcons)
    rw [goAll?_cons, hgo]
    obtain ⟨rfl, hgone⟩ | ⟨m, hm, hms, hrest⟩ := hnext
    · exact ⟨s', rfl, hgone⟩
    · exact ih hm hms hrest

/-- A loop that is told to shut down is gone at once, or after turns of its own. -/
theorem exists_gone (s : WorkerState) (n : ℕ) :
    ∃ ts w, (s.tell n).goAll? n ts = some w ∧ w.gone n = true := by
  cases hl : (s.tell n).loop? n with
  | none => exact ⟨[], _, rfl, by simp [gone, hl]⟩
  | some l =>
    obtain ⟨hmem, hserial⟩ := mem_loops_of_loop? hl
    obtain ⟨-, hs⟩ | ⟨hne, -⟩ := shutdown_tell hmem
    · obtain ⟨w, hw, hgone⟩ := gone_of_toLeave hl hs .completed
      exact ⟨_, w, hw, gone_iff.mpr hgone⟩
    · exact absurd hserial hne

end WorkerState

namespace Traffic

variable {name : String} {schedule : Schedule} {x y z : Traffic} {t : Turn} {ts us : List Turn}

theorem run_induction {P : List Turn → Traffic → Prop} (hnil : P [] {})
    (hstep : ∀ ts t x y, run? name schedule {} ts = some x → P ts x →
      turn? name schedule x t = some y → P (ts ++ [t]) y)
    (h : run? name schedule {} ts = some x) : P ts x := by
  induction ts using List.reverseRecOn generalizing x with
  | nil =>
    obtain rfl := Option.some.inj h
    exact hnil
  | append_singleton ts t ih =>
    rw [run?_append] at h
    obtain ⟨z, hz, h⟩ := Option.bind_eq_some_iff.mp h
    exact hstep ts t z x hz (ih hz) (run?_singleton ▸ h)

/-- What a turn does to a worker and to the calls to stop it. -/
inductive Takes (schedule : Schedule) (x : Traffic) : Turn → Traffic → Prop
  | accepted (ha : x.worker.Admits schedule) :
      Takes schedule x .start
        { x with worker := { x.worker with
            slot := some x.worker.spawned
            loops := x.worker.loops ++ [{ serial := x.worker.spawned }]
            spawned := x.worker.spawned + 1 } }
  | refused (ha : ¬ x.worker.Admits schedule) : Takes schedule x .start x
  | called : Takes schedule x .stop { x with stops := x.stops ++ [.called] }
  | idle {i : ℕ} (hi : x.stops[i]? = some .called) (hs : x.worker.slot = none) :
      Takes schedule x (.advance i) { x with stops := x.stops.set i .returned }
  | took {i n : ℕ} (hi : x.stops[i]? = some .called) (hs : x.worker.slot = some n) :
      Takes schedule x (.advance i)
        { worker := { x.worker with slot := none }, stops := x.stops.set i (.took n) }
  | told {i n : ℕ} (hi : x.stops[i]? = some (.took n)) :
      Takes schedule x (.advance i)
        { worker := x.worker.tell n, stops := x.stops.set i (.told n) }
  | returned {i n : ℕ} (hi : x.stops[i]? = some (.told n)) (hn : n ∉ x.worker.serials) :
      Takes schedule x (.advance i) { x with stops := x.stops.set i .returned }
  | went {n : ℕ} {u : LoopTurn} {s : WorkerState} (hs : x.worker.go? n u = some s) :
      Takes schedule x (.loop n u) { x with worker := s }

theorem takes_of_turn? (h : turn? name schedule x t = some y) : x.Takes schedule t y := by
  cases t with
  | start =>
    obtain rfl := Option.some.inj h
    by_cases ha : x.worker.Admits schedule
    · rw [WorkerState.start_of_admits ha]
      exact .accepted ha
    · rw [WorkerState.start_of_not_admits ha]
      exact .refused ha
  | stop =>
    obtain rfl := Option.some.inj h
    exact .called
  | advance i =>
    obtain ⟨c, c', s, hi, ha, rfl⟩ := advance_cases h
    obtain ⟨rfl, hs, rfl, rfl⟩ | ⟨n, rfl, hs, rfl, rfl⟩ | ⟨n, rfl, rfl, rfl⟩ |
      ⟨n, rfl, hn, rfl, rfl⟩ := WorkerState.advance_cases ha
    · exact .idle hi hs
    · exact .took hi hs
    · exact .told hi
    · exact .returned hi hn
  | loop n t =>
    obtain ⟨s, hs, rfl⟩ := loop_cases h
    exact .went hs

/-- Every pass that has begun is counted once or under way. -/
structure Balanced (turns : List Turn) (s : WorkerState) : Prop where
  balance : s.begun = s.completed + s.panicked + s.inFlight
  begun : s.begun = turns.countP Turn.begins
  completed : s.completed = turns.countP (Turn.ends .completed)
  panicked : s.panicked = turns.countP (Turn.ends .panicked)

theorem Balanced.quiet {s s' : WorkerState} (hb : Balanced ts s) (h₁ : s'.begun = s.begun)
    (h₂ : s'.completed = s.completed) (h₃ : s'.panicked = s.panicked)
    (h₄ : s'.inFlight = s.inFlight) (ht : t.begins = false)
    (he : ∀ outcome, t.ends outcome = false) : Balanced (ts ++ [t]) s' := by
  obtain ⟨hbalance, hbegun, hcompleted, hpanicked⟩ := hb
  constructor <;> simp [List.countP_append, *]
  omega

theorem balanced_turn (hx : x.Orderly) (hb : Balanced ts x.worker)
    (h : turn? name schedule x t = some y) : Balanced (ts ++ [t]) y.worker := by
  cases takes_of_turn? h with
  | accepted ha =>
    refine hb.quiet rfl rfl rfl ?_ rfl fun _ => rfl
    simp [WorkerState.inFlight_eq_countP]
  | refused => exact hb.quiet rfl rfl rfl rfl rfl fun _ => rfl
  | called => exact hb.quiet rfl rfl rfl rfl rfl fun _ => rfl
  | idle => exact hb.quiet rfl rfl rfl rfl rfl fun _ => rfl
  | took => exact hb.quiet rfl rfl rfl rfl rfl fun _ => rfl
  | @told i n =>
    obtain ⟨h₁, h₂, h₃⟩ := x.worker.counts_tell n
    exact hb.quiet h₁ h₂ h₃ (WorkerState.inFlight_tell hx.nodup) rfl fun _ => rfl
  | returned => exact hb.quiet rfl rfl rfl rfl rfl fun _ => rfl
  | went hs =>
    obtain ⟨hbegun, hcompleted, hpanicked⟩ := WorkerState.counts_go hs
    have hflight := WorkerState.inFlight_go hx.nodup hs
    obtain ⟨hb₀, hb₁, hb₂, hb₃⟩ := hb
    constructor
    · dsimp only
      omega
    · simp [List.countP_append, Turn.begins, hbegun, hb₁]
    · simp [List.countP_append, Turn.ends, hcompleted, hb₂]
    · simp [List.countP_append, Turn.ends, hpanicked, hb₃]

theorem balanced_run (h : run? name schedule {} ts = some x) : Balanced ts x.worker := by
  apply run_induction _ _ h
  · constructor <;> rfl
  · intro ts t x y hx hb hturn
    exact balanced_turn (orderly_run orderly_empty hx) hb hturn

theorem serials_turn (h : turn? name schedule x t = some y) {n : ℕ} (hn : n ∈ x.worker.serials) :
    n ∈ y.worker.serials ∨ t = .loop n .leave := by
  cases takes_of_turn? h with
  | accepted => exact .inl (by simpa [WorkerState.serials] using .inl (List.mem_map.mp hn))
  | refused => exact .inl hn
  | called => exact .inl hn
  | idle => exact .inl hn
  | took => exact .inl hn
  | told => exact .inl (x.worker.serials_tell _ ▸ hn)
  | returned => exact .inl hn
  | went hs =>
    obtain hn | ⟨rfl, rfl⟩ := WorkerState.serials_go hs hn
    · exact .inl hn
    · exact .inr rfl

theorem leave_of_gone (hx : x.Orderly) (h : turn? name schedule x t = some y) {l : WorkerLoop}
    (hl : l ∈ x.worker.loops) (hgone : l.serial ∉ y.worker.serials) :
    t = .loop l.serial .leave ∧ l.phase = .waiting ∧ l.shutdown = true := by
  obtain hn | rfl := serials_turn h (List.mem_map_of_mem hl)
  · exact absurd hn hgone
  · obtain ⟨s, hs, rfl⟩ := loop_cases h
    obtain ⟨m, hm, hp, hshut, -⟩ := WorkerState.leave_cases hs
    rw [WorkerState.loop?_of_mem hx.nodup hl] at hm
    cases hm
    exact ⟨rfl, hp, hshut⟩

theorem spawned_turn (h : turn? name schedule x t = some y) :
    y.worker.spawned = x.worker.spawned ∨
      y.worker.spawned = x.worker.spawned + 1 ∧ x.worker.spawned ∈ y.worker.serials := by
  cases takes_of_turn? h with
  | accepted => exact .inr ⟨rfl, by simp [WorkerState.serials]⟩
  | refused => exact .inl rfl
  | called => exact .inl rfl
  | idle => exact .inl rfl
  | took => exact .inl rfl
  | told => exact .inl (x.worker.onward_tell _).spawned
  | returned => exact .inl rfl
  | went hs => exact .inl (WorkerState.onward_go hs).spawned

theorem left_run (h : run? name schedule {} ts = some x) :
    ∀ n < x.worker.spawned, n ∈ x.worker.serials ∨ .loop n .leave ∈ ts := by
  apply run_induction _ _ h
  · intro n hn
    exact absurd hn (Nat.not_lt_zero n)
  · intro ts t x y hx hleft hturn n hn
    have hold (hlt : n < x.worker.spawned) :
        n ∈ y.worker.serials ∨ .loop n .leave ∈ ts ++ [t] := by
      obtain hn | hn := hleft n hlt
      · exact (serials_turn hturn hn).imp_right (by rintro rfl; simp)
      · exact .inr (List.mem_append_left _ hn)
    obtain he | ⟨he, hnew⟩ := spawned_turn hturn
    · exact hold (he ▸ hn)
    · obtain hlt | rfl := Nat.lt_succ_iff_lt_or_eq.mp (he ▸ hn)
      · exact hold hlt
      · exact .inl hnew

theorem shutdown_turn (h : turn? name schedule x t = some y) {l : WorkerLoop}
    (hl : l ∈ y.worker.loops) (hs : l.shutdown = true) :
    (∃ m ∈ x.worker.loops, m.serial = l.serial ∧ m.shutdown = true) ∨
      ∃ i, t = .advance i ∧ x.stops[i]? = some (.took l.serial) := by
  cases takes_of_turn? h with
  | accepted =>
    obtain hl | hl := List.mem_append.mp hl
    · exact .inl ⟨l, hl, rfl, hs⟩
    · obtain rfl := List.mem_singleton.mp hl
      cases hs
  | refused => exact .inl ⟨l, hl, rfl, hs⟩
  | called => exact .inl ⟨l, hl, rfl, hs⟩
  | idle => exact .inl ⟨l, hl, rfl, hs⟩
  | took => exact .inl ⟨l, hl, rfl, hs⟩
  | told hi =>
    obtain ⟨rfl, -⟩ | ⟨-, m, hm, hserial, he⟩ := WorkerState.shutdown_tell hl
    · exact .inr ⟨_, rfl, hi⟩
    · exact .inl ⟨m, hm, hserial, he.trans hs⟩
  | returned => exact .inl ⟨l, hl, rfl, hs⟩
  | went hgo =>
    obtain ⟨m, hm, hserial, he⟩ := WorkerState.signalled_go hgo hl
    exact .inl ⟨m, hm, hserial, he.trans hs⟩

/-- A loop that has the signal to shut down was told by a call that had taken it. -/
theorem told_of_shutdown (h : run? name schedule {} ts = some x) :
    ∀ l ∈ x.worker.loops, l.shutdown = true → ∃ us i z, us ++ [.advance i] <+: ts ∧
      run? name schedule {} us = some z ∧ z.stops[i]? = some (.took l.serial) := by
  apply run_induction _ _ h
  · intro l hl
    exact absurd hl List.not_mem_nil
  · intro ts t x y hx htold hturn l hl hs
    obtain ⟨m, hm, hserial, hms⟩ | ⟨i, rfl, hi⟩ := shutdown_turn hturn hl hs
    · obtain ⟨us, i, z, hus, hz, hi⟩ := htold m hm hms
      exact ⟨us, i, z, hus.trans (List.prefix_append ts [t]), hz, hserial ▸ hi⟩
    · exact ⟨ts, i, x, List.prefix_refl _, hx, hi⟩

/-- The slot and the calls know only loops that have been spawned, and a loop that a call has told
has the signal. -/
structure Informed (x : Traffic) : Prop where
  slot : ∀ n, x.worker.slot = some n → n < x.worker.spawned
  stops : ∀ c ∈ x.stops, ∀ n, c.loop? = some n → n < x.worker.spawned
  told : ∀ n, .told n ∈ x.stops → ∀ l ∈ x.worker.loops, l.serial = n → l.shutdown = true

theorem informed_empty : Informed {} where
  slot := by simp
  stops := by simp
  told := by simp

theorem Informed.set_stop {i : ℕ} {c : StopCall} (hx : x.Informed)
    (hc : ∀ n, c.loop? = some n → n < x.worker.spawned)
    (ht : ∀ n, c = .told n → ∀ l ∈ x.worker.loops, l.serial = n → l.shutdown = true) :
    Informed { x with stops := x.stops.set i c } where
  slot := hx.slot
  stops := by
    intro d hd
    obtain hd | rfl := List.mem_or_eq_of_mem_set hd
    · exact hx.stops d hd
    · exact hc
  told := by
    intro n hn
    obtain hn | rfl := List.mem_or_eq_of_mem_set hn
    · exact hx.told n hn
    · exact ht n rfl

theorem informed_turn (hx : x.Informed) (h : turn? name schedule x t = some y) : y.Informed := by
  cases takes_of_turn? h with
  | accepted =>
    constructor
    · rintro n ⟨⟩
      exact Nat.lt_succ_self _
    · intro c hc n hn
      exact Nat.lt_succ_of_lt (hx.stops c hc n hn)
    · intro n hn l hl hserial
      obtain hl | hl := List.mem_append.mp hl
      · exact hx.told n hn l hl hserial
      · obtain rfl := List.mem_singleton.mp hl
        exact absurd (hserial ▸ hx.stops _ hn n rfl) (Nat.lt_irrefl _)
  | refused => exact hx
  | called =>
    refine ⟨hx.slot, fun c hc => ?_, fun n hn => ?_⟩
    · obtain hc | hc := List.mem_append.mp hc
      · exact hx.stops c hc
      · obtain rfl := List.mem_singleton.mp hc
        simp [StopCall.loop?]
    · exact hx.told n (by simpa using hn)
  | idle => exact hx.set_stop (by simp [StopCall.loop?]) (by simp)
  | @took i n hi hs =>
    have hset : Informed { x with stops := x.stops.set i (.took n) } := by
      refine hx.set_stop ?_ (by simp)
      rintro m ⟨⟩
      exact hx.slot n hs
    exact ⟨by simp, hset.stops, hset.told⟩
  | @told i n hi =>
    have htell := x.worker.onward_tell n
    have hx' : Informed { x with worker := x.worker.tell n } := by
      refine ⟨?_, ?_, ?_⟩
      · simpa only [htell.slot, htell.spawned] using hx.slot
      · simpa only [htell.spawned] using hx.stops
      · intro m hm l hl hserial
        obtain ⟨-, hs⟩ | ⟨-, k, hk, he, hs⟩ := WorkerState.shutdown_tell hl
        · exact hs
        · exact hs ▸ hx.told m hm k hk (he.trans hserial)
    apply hx'.set_stop
    · rintro m ⟨⟩
      exact hx'.stops _ (List.mem_of_getElem? hi) n rfl
    · rintro m ⟨⟩ l hl hserial
      obtain ⟨-, hs⟩ | ⟨hne, -⟩ := WorkerState.shutdown_tell hl
      · exact hs
      · exact absurd hserial hne
  | returned => exact hx.set_stop (by simp [StopCall.loop?]) (by simp)
  | went hs =>
    have hgo := WorkerState.onward_go hs
    refine ⟨?_, ?_, ?_⟩
    · simpa only [hgo.slot, hgo.spawned] using hx.slot
    · simpa only [hgo.spawned] using hx.stops
    · intro m hm l hl hserial
      obtain ⟨k, hk, he, hs⟩ := WorkerState.signalled_go hs hl
      exact hs ▸ hx.told m hm k hk (he.trans hserial)

theorem informed_run (h : run? name schedule {} ts = some x) : x.Informed :=
  run_keeps (fun _ _ _ _ => informed_turn) informed_empty h

/-- The turns that the loop with a serial number takes until nobody waits for it any more. -/
def wayOut (x : Traffic) (n : ℕ) (outcome : PassOutcome) : List Turn :=
  match x.worker.loop? n with
  | some l => (l.phase.toLeave outcome).map (.loop n)
  | none => []

theorem answer_eq_ok (h : run? name schedule {} ts = some x) {i : ℕ} {c : StopCall}
    (hi : x.stops[i]? = some c) (hturn : turn? name schedule x (.advance i) = some y) :
    c.answer name ts = .ok () := by
  cases c with
  | told n =>
    have hgone : n ∉ x.worker.serials := by
      cases takes_of_turn? hturn with
      | idle hi' | took hi' | told hi' => cases hi.symm.trans hi'
      | returned hi' hn =>
        cases hi.symm.trans hi'
        exact hn
    have hlt := (informed_run h).stops _ (List.mem_of_getElem? hi) n rfl
    exact if_pos ((left_run h n hlt).resolve_left hgone)
  | called | took | returned => rfl

theorem run?_loops {n : ℕ} {us : List LoopTurn} {s : WorkerState}
    (h : x.worker.goAll? n us = some s) :
    run? name schedule x (us.map (.loop n)) = some { x with worker := s } := by
  induction us generalizing x with
  | nil =>
    obtain rfl := Option.some.inj h
    rfl
  | cons u us ih =>
    rw [WorkerState.goAll?_cons] at h
    obtain ⟨s', hs', h⟩ := Option.bind_eq_some_iff.mp h
    rw [List.map_cons, run?_cons, turn?, hs']
    exact ih h

theorem exists_return (h : run? name schedule {} ts = some x) {i n : ℕ}
    (hi : x.stops[i]? = some (.told n)) (outcome : PassOutcome) :
    ∃ y z, run? name schedule x (x.wayOut n outcome) = some y ∧
      turn? name schedule y (.advance i) = some z ∧ z.stops[i]? = some .returned := by
  obtain ⟨s, hs, hgone⟩ : ∃ s, run? name schedule x (x.wayOut n outcome) =
      some { x with worker := s } ∧ n ∉ s.serials := by
    unfold wayOut
    split
    next l hl =>
      obtain ⟨hmem, hserial⟩ := WorkerState.mem_loops_of_loop? hl
      have hshut := (informed_run h).told n (List.mem_of_getElem? hi) l hmem hserial
      obtain ⟨s, hs, hgone⟩ := WorkerState.gone_of_toLeave hl hshut outcome
      exact ⟨s, run?_loops hs, hgone⟩
    next hnone =>
      exact ⟨x.worker, rfl, by simpa [WorkerState.serials, WorkerState.loop?] using hnone⟩
  have hlt : i < x.stops.length := (List.getElem?_eq_some_iff.mp hi).1
  have hnone : s.gone n = true := WorkerState.gone_iff.mpr hgone
  refine ⟨_, { worker := s, stops := x.stops.set i .returned }, hs, ?_, by simp [hlt]⟩
  simp [turn?, hi, StopCall.advance?, hnone]

theorem valid_of_slot (h : run? name schedule {} ts = some x) (hs : x.worker.slot.isSome) :
    schedule.validate = .ok () := by
  have hvalid : x.worker.slot = none ∨ schedule.validate = .ok () := by
    apply run_keeps (P := fun x => x.worker.slot = none ∨ schedule.validate = .ok ()) _ (.inl rfl) h
    intro t _ x y hx hturn
    cases takes_of_turn? hturn with
    | accepted ha => exact .inr ha.2
    | refused | called | idle | returned => exact hx
    | took => exact .inl rfl
    | told => exact hx.imp_left (x.worker.onward_tell _).slot.trans
    | went hgo => exact hx.imp_left (WorkerState.onward_go hgo).slot.trans
  exact hvalid.resolve_left (Option.isSome_iff_ne_none.mp hs)

theorem start_eq_alreadyRunning_iff (h : run? name schedule {} ts = some x) :
    (x.worker.start name schedule).1 = .error (.alreadyRunning name) ↔ x.worker.slot.isSome := by
  constructor
  · exact WorkerState.slot_of_alreadyRunning
  · intro hs
    simp [WorkerState.start, valid_of_slot h hs, hs]

/-- Whatever the passes come to and however calls and loops take turns, every pass that has begun is
counted once, as completed or as panicked, or under way. A loop goes only by its own leave, while it
waits and has been told to shut down, which only a call to stop does; so a call that returns is
answered without an error, and one that has told its loop can return whatever becomes of the pass.
A start is refused as running exactly while the slot is taken, and a refused one changes nothing. -/
theorem passes_balanced (name : String) (schedule : Schedule) (turns : List Turn) (x : Traffic)
    (h : run? name schedule {} turns = some x) :
    Balanced turns x.worker ∧
    (∀ l ∈ x.worker.loops, ∀ t y, turn? name schedule x t = some y →
      l.serial ∉ y.worker.serials →
        t = .loop l.serial .leave ∧ l.phase = .waiting ∧ l.shutdown = true) ∧
    (∀ l ∈ x.worker.loops, l.shutdown = true → ∃ before i z, before ++ [.advance i] <+: turns ∧
      run? name schedule {} before = some z ∧ z.stops[i]? = some (.took l.serial)) ∧
    (∀ i c y, x.stops[i]? = some c → turn? name schedule x (.advance i) = some y →
      y.stops[i]? = some .returned → c.answer name turns = .ok ()) ∧
    (∀ i n, x.stops[i]? = some (.told n) → ∀ outcome, ∃ y z,
      run? name schedule x (x.wayOut n outcome) = some y ∧
        turn? name schedule y (.advance i) = some z ∧ z.stops[i]? = some .returned) ∧
    ((x.worker.start name schedule).1 = .error (.alreadyRunning name) ↔ x.worker.slot.isSome) ∧
    ((x.worker.start name schedule).1 ≠ .ok () →
      (x.worker.start name schedule).2 = x.worker) := by
  refine ⟨balanced_run h, ?_, told_of_shutdown h, ?_, ?_, start_eq_alreadyRunning_iff h, ?_⟩
  · intro l hl t y hturn hgone
    exact leave_of_gone (orderly_run orderly_empty h) hturn hl hgone
  · intro i c y hi hturn _
    exact answer_eq_ok h hi hturn
  · intro i n hi outcome
    exact exists_return h hi outcome
  · intro hne
    apply WorkerState.start_of_not_admits
    intro ha
    exact hne (WorkerState.start_fst_of_admits ha)

theorem passes_balanced_panic_during_stop :
    ∃ turns x y, run? "health" (.every ⟨1000000000⟩) {} turns = some x ∧
      .loop 0 (.endPass .panicked) ∈ turns ∧ Balanced turns x.worker ∧
      turn? "health" (.every ⟨1000000000⟩) x (.advance 0) = some y ∧
      y.stops[0]? = some .returned ∧ StopCall.answer "health" turns (.told 0) = .ok () := by
  have hrun : run? "health" (.every ⟨1000000000⟩) {}
      (Turn.toFirstPass ++ [.stop, .advance 0, .advance 0, .loop 0 (.endPass .panicked),
        .loop 0 .leave]) = some ⟨{ spawned := 1, begun := 1, panicked := 1 }, [.told 0]⟩ := rfl
  have hreturn : turn? "health" (.every ⟨1000000000⟩)
      ⟨{ spawned := 1, begun := 1, panicked := 1 }, [.told 0]⟩ (.advance 0) =
        some ⟨{ spawned := 1, begun := 1, panicked := 1 }, [.returned]⟩ := rfl
  obtain ⟨hbalanced, -, -, hanswer, -⟩ := passes_balanced _ _ _ _ hrun
  exact ⟨_, _, _, hrun, by decide, hbalanced, hreturn, rfl, hanswer 0 _ _ rfl hreturn rfl⟩

end Traffic

end PeerFleet
