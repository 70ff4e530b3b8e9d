import Mathlib.Algebra.Ring.Nat
import Mathlib.Data.List.Nodup
import PeerFleet.Worker.Loop

/-! # Loops of a worker

What a turn of one loop changes, and that it leaves the other loops as they are. A loop that is
in a pass, or may still begin one, stays among these until it has been told to shut down and is
not in a pass.
-/

namespace PeerFleet

namespace WorkerLoop

/-- In a pass, called to one, or not told to shut down yet. -/
def MayPass (l : WorkerLoop) : Prop :=
  l.phase = .called ∨ l.phase = .passing ∨ l.shutdown = false

instance : DecidablePred MayPass := fun _ => inferInstanceAs (Decidable (_ ∨ _))

def lag (l : WorkerLoop) : ℕ :=
  if l.MayPass then
    match l.phase with
    | .fresh => 3
    | .waiting => 2
    | .called => 1
    | .passing => 0
  else 0

end WorkerLoop

inductive LoopTurn where
  | enter
  | tick
  | beginPass
  | endPass (outcome : PassOutcome)
  | leave
  deriving DecidableEq, Repr

namespace WorkerState

def go? (s : WorkerState) (serial : ℕ) : LoopTurn → Option WorkerState
  | .enter => s.enter serial
  | .tick => s.tick serial
  | .beginPass => s.beginPass serial
  | .endPass outcome => s.endPass serial outcome
  | .leave => s.leave serial

/-- The loops that are in a pass or may still begin one. -/
def busy (s : WorkerState) : ℕ :=
  s.loops.countP (·.MayPass)

def lag (s : WorkerState) : ℕ :=
  (s.loops.map WorkerLoop.lag).sum

def serials (s : WorkerState) : List ℕ :=
  s.loops.map WorkerLoop.serial

/-- One loop has gone on, and nothing else has changed but the counts of passes. -/
structure Moved (s s' : WorkerState) (old new : WorkerLoop) : Prop where
  found : s.loop? new.serial = some old
  loops : s'.loops = (s.setLoop new).loops
  slot : s'.slot = s.slot
  spawned : s'.spawned = s.spawned

variable {s s' : WorkerState} {l old new : WorkerLoop} {n : ℕ}

section turns

theorem moved_setLoop (h : s.loop? n = some l) (new : WorkerLoop) (hn : new.serial = l.serial) :
    Moved s (s.setLoop new) l new := by
  have hl : l.serial = n := by simpa using List.find?_some h
  exact ⟨by rw [hn, hl, h], rfl, rfl, rfl⟩

theorem enter_cases (h : s.enter n = some s') :
    ∃ l, l.phase = .fresh ∧ Moved s s' l { l with phase := .waiting } := by
  unfold enter at h
  split at h
  next l hl =>
    split_ifs at h with hp
    cases h
    exact ⟨l, hp, moved_setLoop hl _ rfl⟩
  · cases h

theorem tick_cases (h : s.tick n = some s') :
    ∃ l, l.phase = .waiting ∧ l.shutdown = false ∧ Moved s s' l { l with phase := .called } := by
  unfold tick at h
  split at h
  next l hl =>
    split_ifs at h with hp
    cases h
    exact ⟨l, hp.1, hp.2, moved_setLoop hl _ rfl⟩
  · cases h

theorem beginPass_cases (h : s.beginPass n = some s') :
    ∃ l, l.phase = .called ∧ Moved s s' l { l with phase := .passing } := by
  unfold beginPass at h
  split at h
  next l hl =>
    split_ifs at h with hp
    cases h
    obtain ⟨hf, -, -, -⟩ := moved_setLoop hl { l with phase := .passing } rfl
    exact ⟨l, hp, hf, rfl, rfl, rfl⟩
  · cases h

theorem endPass_cases {outcome : PassOutcome} (h : s.endPass n outcome = some s') :
    ∃ l, l.phase = .passing ∧ Moved s s' l { l with phase := .waiting } := by
  unfold endPass at h
  split at h
  next l hl =>
    split_ifs at h with hp
    obtain ⟨hf, -, -, -⟩ := moved_setLoop hl { l with phase := .waiting } rfl
    cases outcome <;> cases h <;> exact ⟨l, hp, hf, rfl, rfl, rfl⟩
  · cases h

theorem leave_cases (h : s.leave n = some s') :
    ∃ l, s.loop? n = some l ∧ l.phase = .waiting ∧ l.shutdown = true ∧
      s' = { s with loops := s.loops.filter (·.serial != n) } := by
  unfold leave at h
  split at h
  next l hl =>
    split_ifs at h with hp
    cases h
    exact ⟨l, hl, hp.1, hp.2, rfl⟩
  · cases h

theorem tell_cases (s : WorkerState) (n : ℕ) :
    s.tell n = s ∨ ∃ l, Moved s (s.tell n) l { l with shutdown := true } := by
  unfold tell
  split
  next l hl => exact .inr ⟨l, moved_setLoop hl _ rfl⟩
  · exact .inl rfl

theorem exists_turn (hl : s.loop? l.serial = some l) (hp : l.MayPass) (hne : l.phase ≠ .passing) :
    ∃ t s' new, s.go? l.serial t = some s' ∧ Moved s s' l new ∧ new.MayPass ∧
      new.lag < l.lag := by
  cases hphase : l.phase with
  | fresh =>
    have hs : l.shutdown = false := by simpa [WorkerLoop.MayPass, hphase] using hp
    refine ⟨.enter, _, { l with phase := .waiting }, ?_, moved_setLoop hl _ rfl, ?_, ?_⟩
    · simp [go?, enter, hl, hphase]
    · simp [WorkerLoop.MayPass, hs]
    · simp [WorkerLoop.lag, WorkerLoop.MayPass, hs, hphase]
  | waiting =>
    have hs : l.shutdown = false := by simpa [WorkerLoop.MayPass, hphase] using hp
    refine ⟨.tick, _, { l with phase := .called }, ?_, moved_setLoop hl _ rfl, ?_, ?_⟩
    · simp [go?, tick, hl, hphase, hs]
    · simp [WorkerLoop.MayPass]
    · simp [WorkerLoop.lag, WorkerLoop.MayPass, hs, hphase]
  | called =>
    have hm := moved_setLoop hl { l with phase := .passing } rfl
    refine ⟨.beginPass, { s.setLoop { l with phase := .passing } with begun := s.begun + 1 },
      { l with phase := .passing }, ?_, ⟨hm.found, rfl, rfl, rfl⟩, ?_, ?_⟩
    · simp [go?, beginPass, hl, hphase]
    · simp [WorkerLoop.MayPass]
    · simp [WorkerLoop.lag, WorkerLoop.MayPass, hphase]
  | passing => exact absurd hphase hne

end turns

section counts

theorem mem_loops_of_loop? (h : s.loop? n = some l) : l ∈ s.loops ∧ l.serial = n :=
  ⟨List.mem_of_find?_eq_some h, by simpa using List.find?_some h⟩

theorem loop?_of_mem (hn : s.serials.Nodup) (hl : l ∈ s.loops) : s.loop? l.serial = some l := by
  obtain ⟨m, hm⟩ : ∃ m, s.loop? l.serial = some m :=
    Option.isSome_iff_exists.mp (List.find?_isSome.mpr ⟨l, hl, by simp⟩)
  obtain ⟨hmem, hserial⟩ := mem_loops_of_loop? hm
  rw [hm, List.inj_on_of_nodup_map hn hmem hl hserial]

theorem serials_setLoop (s : WorkerState) (l : WorkerLoop) : (s.setLoop l).serials = s.serials := by
  unfold serials setLoop
  rw [List.map_map]
  apply List.map_congr_left
  intro m _
  by_cases h : m.serial = l.serial <;> simp [h]

theorem Moved.serials (h : Moved s s' old new) : s'.serials = s.serials := by
  rw [WorkerState.serials, h.loops]
  exact serials_setLoop s new

theorem Moved.split (h : Moved s s' old new) (hn : s.serials.Nodup) :
    ∃ a b, s.loops = a ++ old :: b ∧ s'.loops = a ++ new :: b := by
  obtain ⟨hmem, hserial⟩ := mem_loops_of_loop? h.found
  obtain ⟨a, b, hab⟩ := List.append_of_mem hmem
  have hne : ∀ m ∈ a ++ b, m.serial ≠ new.serial := by
    have hp : (s.loops.map WorkerLoop.serial).Perm
        ((old :: (a ++ b)).map WorkerLoop.serial) := by
      rw [hab]
      exact List.perm_middle.map _
    have hd := hp.nodup_iff.mp hn
    rw [List.map_cons, List.nodup_cons, hserial] at hd
    intro m hm he
    exact hd.1 (he ▸ List.mem_map_of_mem hm)
  have same {c : List WorkerLoop} (hc : ∀ m ∈ c, m.serial ≠ new.serial) :
      c.map (fun m => if m.serial = new.serial then new else m) = c := by
    conv_rhs => rw [← List.map_id c]
    exact List.map_congr_left fun m hm => if_neg (hc m hm)
  refine ⟨a, b, hab, ?_⟩
  rw [h.loops, setLoop, hab]
  simp only [List.map_append, List.map_cons, hserial, if_true]
  rw [same fun m hm => hne m (List.mem_append_left b hm),
    same fun m hm => hne m (List.mem_append_right a hm)]

theorem inFlight_eq_countP (s : WorkerState) :
    s.inFlight = s.loops.countP (·.phase = .passing) := by
  rw [inFlight, List.countP_eq_length_filter]

theorem inFlight_le_busy (s : WorkerState) : s.inFlight ≤ s.busy := by
  rw [inFlight_eq_countP, busy]
  apply List.countP_mono_left
  intro l _ hl
  simp only [decide_eq_true_eq] at hl ⊢
  exact .inr (.inl hl)

theorem Moved.busy_le (h : Moved s s' old new) (hn : s.serials.Nodup)
    (hp : new.MayPass → old.MayPass) : s'.busy ≤ s.busy := by
  obtain ⟨a, b, hs, hs'⟩ := h.split hn
  simp only [busy, hs, hs', List.countP_append, List.countP_cons, decide_eq_true_eq]
  split_ifs with h₁ h₂
  · exact Nat.le_refl _
  · exact absurd (hp h₁) h₂
  · omega
  · exact Nat.le_refl _

theorem Moved.busy_eq (h : Moved s s' old new) (hn : s.serials.Nodup) (hnew : new.MayPass)
    (hold : old.MayPass) : s'.busy = s.busy := by
  obtain ⟨a, b, hs, hs'⟩ := h.split hn
  simp [busy, hs, hs', List.countP_append, hnew, hold]

theorem Moved.lag_lt (h : Moved s s' old new) (hn : s.serials.Nodup) (hlt : new.lag < old.lag) :
    s'.lag < s.lag := by
  obtain ⟨a, b, hs, hs'⟩ := h.split hn
  simp only [lag, hs, hs', List.map_append, List.map_cons, List.sum_append, List.sum_cons]
  omega

/-- Either all loops that may pass are in a pass, or one of them is on its way. -/
theorem inFlight_eq_busy_or (s : WorkerState) :
    s.inFlight = s.busy ∨ ∃ l ∈ s.loops, l.MayPass ∧ l.phase ≠ .passing := by
  by_cases h : ∀ l ∈ s.loops, l.MayPass → l.phase = .passing
  · left
    rw [inFlight_eq_countP, busy]
    apply List.countP_congr
    intro l hl
    simp only [decide_eq_true_eq]
    exact ⟨fun hp => .inr (.inl hp), h l hl⟩
  · right
    push Not at h
    exact h

theorem busy_eq_zero_iff : s.busy = 0 ↔ ∀ l ∈ s.loops, ¬ l.MayPass := by
  simp [busy, List.countP_eq_zero]

end counts

/-- No loop has been spawned, and no more of them may pass than before. -/
structure Onward (s s' : WorkerState) : Prop where
  slot : s'.slot = s.slot
  spawned : s'.spawned = s.spawned
  serials : s'.serials.Sublist s.serials
  busy : s.serials.Nodup → s'.busy ≤ s.busy

theorem Onward.refl (s : WorkerState) : Onward s s :=
  ⟨rfl, rfl, .refl _, fun _ => Nat.le_refl _⟩

theorem Moved.onward (h : Moved s s' old new) (hp : new.MayPass → old.MayPass) : Onward s s' :=
  ⟨h.slot, h.spawned, h.serials ▸ .refl _, fun hn => h.busy_le hn hp⟩

theorem onward_tell (s : WorkerState) (n : ℕ) : Onward s (s.tell n) := by
  obtain h | ⟨l, h⟩ := s.tell_cases n
  · rw [h]
    exact .refl s
  · exact h.onward fun hp => hp.imp_right fun hp => .inl (hp.resolve_right (by simp))

theorem onward_go {t : LoopTurn} (h : s.go? n t = some s') : Onward s s' := by
  cases t with
  | enter =>
    obtain ⟨l, hl, h⟩ := enter_cases h
    exact h.onward fun hp => .inr (.inr (by simpa [WorkerLoop.MayPass] using hp))
  | tick =>
    obtain ⟨l, -, hl, h⟩ := tick_cases h
    exact h.onward fun _ => .inr (.inr hl)
  | beginPass =>
    obtain ⟨l, hl, h⟩ := beginPass_cases h
    exact h.onward fun _ => .inl hl
  | endPass outcome =>
    obtain ⟨l, hl, h⟩ := endPass_cases h
    exact h.onward fun _ => .inr (.inl hl)
  | leave =>
    obtain ⟨-, -, -, -, rfl⟩ := leave_cases h
    exact ⟨rfl, rfl, List.filter_sublist.map _, fun _ => List.filter_sublist.countP_le⟩

end WorkerState

end PeerFleet
