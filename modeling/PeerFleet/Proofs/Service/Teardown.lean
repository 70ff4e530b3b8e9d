import Mathlib.Data.List.Range
import PeerFleet.Proofs.Config.Startup
import PeerFleet.Proofs.Fleet.Shape
import PeerFleet.Service.Standalone

/-! # Tearing a service down

A service that has started its workers is torn down before it returns: every worker is told to
stop and is done, the last one first, and then the pool is emptied and its channels are
released. A start that fails leads there, and so does the signal to stop, whatever fails to
stop. The service is deserted if its status API cannot be opened, or if it cannot wait for
the signal: then it returns with its workers running.
-/

namespace PeerFleet

namespace Serve

open Program

abbrev Exchange := Sigma ServeCall.Answer

/-- Every call may be answered in any way, and is written down, the first one first. -/
def transcript : Environment Serving (List Exchange) :=
  fun c s a s' => s' = s ++ [⟨c, a⟩]

def stopCalls (workers : ℕ) : List ServeCall :=
  (List.range workers).reverse.map fun i => .worker (.stop i)

def TearsDown (workers : ℕ) (part : List Exchange) : Prop :=
  ∃ (stops : List Exchange) (filed : List Client) (closes : List Exchange),
    part = stops ++ ⟨.fleet (.pool .drain), filed⟩ :: closes ∧
    stops.map Sigma.fst = stopCalls workers ∧
    closes.map Sigma.fst = filed.map fun k => .fleet (.close k)

/-- The last thing that happened is that the service was torn down. -/
def TornDown (workers : ℕ) (log : List Exchange) : Prop :=
  ∃ earlier part, log = earlier ++ part ∧ TearsDown workers part

/-- The status API could not be opened, or the signal to stop could not be waited for. -/
inductive Deserts : Exchange → Prop
  | unheard (address cause : String) : Deserts ⟨.listen address, .error cause⟩
  | unwaited (cause : String) : Deserts ⟨.awaitSignal, .error cause⟩

def Deserted (log : List Exchange) : Prop :=
  ∃ x ∈ log, Deserts x

theorem deserted_append {s t : List Exchange} : Deserted (s ++ t) ↔ Deserted s ∨ Deserted t := by
  simp only [Deserted, List.mem_append, or_and_right, exists_or]

theorem deserted_singleton {x : Exchange} : Deserted [x] ↔ Deserts x := by
  simp [Deserted]

def Records (s : List Exchange) (calls : List ServeCall) (s' : List Exchange) : Prop :=
  ∃ part, s' = s ++ part ∧ part.map Sigma.fst = calls

section Records

variable {s s' : List Exchange} {c : ServeCall} {calls : List ServeCall}

theorem Records.nil : Records s [] s :=
  ⟨[], by simp⟩

theorem Records.cons {a : c.Answer} (h : Records (s ++ [⟨c, a⟩]) calls s') :
    Records s (c :: calls) s' := by
  obtain ⟨part, rfl, rfl⟩ := h
  exact ⟨⟨c, a⟩ :: part, by simp⟩

theorem not_deserted_of_calls (h : ∀ c ∈ s.map Sigma.fst,
    (∃ w, c = .worker w) ∨ ∃ e, c = .fleet e) : ¬ Deserted s := by
  rintro ⟨x, hx, hd⟩
  have hc := h x.1 (List.mem_map_of_mem hx)
  cases hd <;> simp at hc

theorem TearsDown.not_deserted {workers : ℕ} (h : TearsDown workers s) : ¬ Deserted s := by
  obtain ⟨stops, filed, closes, rfl, hs, hc⟩ := h
  apply not_deserted_of_calls
  intro c hm
  rw [List.map_append, List.map_cons, hs, hc] at hm
  simp only [stopCalls, List.mem_append, List.mem_cons, List.mem_map] at hm
  rcases hm with ⟨i, -, rfl⟩ | rfl | ⟨k, -, rfl⟩
  · exact .inl ⟨_, rfl⟩
  · exact .inr ⟨_, rfl⟩
  · exact .inr ⟨_, rfl⟩

end Records

section parts

variable {τ : Type*} {s : List Exchange} {names : List String}

theorem wp_onWorkers_bind {L : CallLogic Serving τ} {α β : Type} (p : Program Workers α)
    (f : α → Program Workers β) (Q : β → τ → Prop) :
    (onWorkers (p >>= f)).wp L Q = (onWorkers p).wp L fun a => (onWorkers (f a)).wp L Q := by
  have h {γ : Type} (q : Program Workers γ) (R : γ → τ → Prop) : (onWorkers q).wp L R =
      q.wp (through L fun c => ask (I := Serving) (.worker c)) R := wp_interpret L _ q R
  simp only [h, wp_bind]

theorem startAll_wp (xs : List (ℕ × String)) :
    (onWorkers (Manager.startAll xs)).wp transcript.logic
      (Outcome (fun _ => Records s (xs.map fun x => .worker (.start x.1)))
        fun _ s' => ∃ calls, calls <+: xs.map (fun x => .worker (.start x.1)) ∧ calls ≠ [] ∧
          Records s calls s') s := by
  induction xs generalizing s with
  | nil => exact .nil
  | cons x xs ih =>
    intro r s' hs'
    subst hs'
    cases r with
    | error e => exact ⟨[.worker (.start x.1)], by simp, by simp, Records.nil.cons⟩
    | ok =>
      refine wp_mono (fun r t ht => ?_) ih
      refine ht.mono (fun _ u hu => hu.cons) fun e u hu => ?_
      obtain ⟨calls, hp, -, hu⟩ := hu
      exact ⟨_, (List.cons_prefix_cons.mpr ⟨rfl, hp⟩), by simp, hu.cons⟩

def startCalls (workers : ℕ) : List ServeCall :=
  (List.range workers).map fun i => .worker (.start i)

/-- Some workers were started, the first one first, and nothing else was done. -/
structure Started (workers : ℕ) (s : List Exchange) : Prop where
  calls : s.map Sigma.fst <+: startCalls workers
  ne : s ≠ []

theorem Started.not_deserted {workers : ℕ} (h : Started workers s) : ¬ Deserted s := by
  apply not_deserted_of_calls
  intro c hc
  obtain ⟨i, -, rfl⟩ := List.mem_map.mp (h.calls.subset hc)
  exact .inl ⟨_, rfl⟩

theorem Started.first {workers : ℕ} (h : Started workers s) :
    (s.map Sigma.fst).head? = some (.worker (.start 0)) := by
  obtain ⟨t, ht⟩ := h.calls
  cases s with
  | nil => exact absurd rfl h.ne
  | cons x s =>
    cases workers with
    | zero => simp [startCalls] at ht
    | succ n =>
      rw [startCalls, List.range_succ_eq_map] at ht
      simpa using congrArg List.head? ht

theorem start_wp (hn : names ≠ []) :
    (onWorkers (Manager.start names)).wp transcript.logic
      (fun _ => Started names.length) [] := by
  have hm : (Manager.numbered names).map (fun x => ServeCall.worker (.start x.1)) =
      startCalls names.length := by
    rw [startCalls, ← Manager.map_fst_numbered, List.map_map]
    rfl
  refine wp_mono (fun r t ht => ?_) (startAll_wp _)
  cases r with
  | ok =>
    obtain ⟨part, rfl, hp⟩ := ht
    rw [hm] at hp
    refine ⟨hp ▸ List.prefix_rfl, ?_⟩
    rintro rfl
    cases names with
    | nil => exact hn rfl
    | cons => simp [startCalls] at hp
  | error e =>
    obtain ⟨calls, hp, hne, part, rfl, rfl⟩ := ht
    rw [hm] at hp
    refine ⟨hp, ?_⟩
    rintro rfl
    exact hne rfl

theorem stopEach_wp (xs : List (ℕ × String)) :
    (onWorkers (Manager.stopEach xs)).wp transcript.logic
      (fun _ => Records s (xs.map fun x => .worker (.stop x.1))) s := by
  induction xs generalizing s with
  | nil => exact .nil
  | cons x xs ih =>
    intro r s' hs'
    subst hs'
    cases r with
    | ok => exact wp_mono (fun _ _ ht => ht.cons) ih
    | error e =>
      change (onWorkers (Manager.stopEach xs >>= fun fs => pure ((x.2, e) :: fs))).wp _ _ _
      rw [wp_onWorkers_bind]
      exact wp_mono (fun _ _ ht => ht.cons) ih

theorem stop_wp : (onWorkers (Manager.stop names)).wp transcript.logic
    (fun _ => Records s (stopCalls names.length)) s := by
  have hm : (Manager.numbered names).reverse.map (fun x => ServeCall.worker (.stop x.1)) =
      stopCalls names.length := by
    rw [stopCalls, ← Manager.map_fst_numbered, ← List.map_reverse, List.map_map]
    rfl
  rw [Manager.stop, wp_onWorkers_bind, ← hm]
  refine wp_mono (fun failures t ht => ?_) (stopEach_wp _)
  cases failures <;> exact ht

theorem releaseAll_wp (filed : List Client) :
    (onFleet (Fleet.releaseAll filed)).wp transcript.logic
      (fun _ => Records s (filed.map fun k => .fleet (.close k))) s := by
  induction filed generalizing s with
  | nil => exact .nil
  | cons k filed ih =>
    intro r s' hs'
    subst hs'
    cases r <;> exact wp_mono (fun _ _ ht => ht.cons) ih

theorem close_wp {s₀ : List Exchange} {workers : ℕ} (h : Records s₀ (stopCalls workers) s) :
    (onFleet Fleet.close).wp transcript.logic
      (fun _ t => ∃ part, t = s₀ ++ part ∧ TearsDown workers part) s := by
  obtain ⟨stops, rfl, hs⟩ := h
  intro filed s' hs'
  subst hs'
  refine wp_mono (fun _ t ht => ?_) (releaseAll_wp filed)
  obtain ⟨closes, rfl, hc⟩ := ht
  exact ⟨_, by simp, stops, filed, closes, rfl, hs, hc⟩

end parts

section whole

variable {s : List Exchange} {workers : ℕ}

/-- Workers have been started, and the service is neither deserted nor closed. -/
structure Running (s : List Exchange) : Prop where
  first : (s.map Sigma.fst).head? = some (.worker (.start 0))
  attended : ¬ Deserted s
  undrained : ServeCall.fleet (.pool .drain) ∉ s.map Sigma.fst

/-- The service was torn down, or it was deserted and never closed its pool. -/
structure Ended (workers : ℕ) (s : List Exchange) : Prop where
  first : (s.map Sigma.fst).head? = some (.worker (.start 0))
  either : TornDown workers s ∧ ¬ Deserted s ∨
    Deserted s ∧ ServeCall.fleet (.pool .drain) ∉ s.map Sigma.fst

theorem Ended.tornDown_iff (h : Ended workers s) : TornDown workers s ↔ ¬ Deserted s := by
  rcases h.either with ⟨ht, hd⟩ | ⟨hd, hn⟩
  · exact iff_of_true ht hd
  · refine iff_of_false ?_ (not_not_intro hd)
    rintro ⟨earlier, -, rfl, stops, filed, closes, rfl, -⟩
    simp at hn

theorem Started.running (h : Started workers s) : Running s where
  first := h.first
  attended := h.not_deserted
  undrained hm := by
    obtain ⟨i, -, hi⟩ := List.mem_map.mp (h.calls.subset hm)
    cases hi

theorem head?_calls_append {t : List Exchange} {c : ServeCall}
    (h : (s.map Sigma.fst).head? = some c) : ((s ++ t).map Sigma.fst).head? = some c := by
  rw [List.map_append, List.head?_append, h, Option.some_or]

theorem Running.snoc {x : Exchange} (h : Running s) (hd : ¬ Deserts x)
    (hc : x.1 ≠ .fleet (.pool .drain)) : Running (s ++ [x]) where
  first := head?_calls_append h.first
  attended := by
    rw [deserted_append, deserted_singleton]
    exact not_or_intro h.attended hd
  undrained := by
    rw [List.map_append, List.mem_append, List.map_singleton, List.mem_singleton]
    exact not_or_intro h.undrained hc.symm

theorem Running.tearsDown {part : List Exchange} (h : Running s) (ht : TearsDown workers part) :
    Ended workers (s ++ part) where
  first := head?_calls_append h.first
  either := by
    refine .inl ⟨⟨s, part, rfl, ht⟩, ?_⟩
    rw [deserted_append]
    exact not_or_intro h.attended ht.not_deserted

theorem Running.deserts {x : Exchange} (h : Running s) (hd : Deserts x) :
    Ended workers (s ++ [x]) where
  first := head?_calls_append h.first
  either := by
    refine .inr ⟨deserted_append.mpr (.inr (deserted_singleton.mpr hd)), ?_⟩
    rw [List.map_append, List.mem_append, List.map_singleton, List.mem_singleton]
    apply not_or_intro h.undrained
    cases hd <;> nofun

variable {names : List String}

theorem tearDown_wp (h : Running s) :
    (onWorkers (Manager.stop names)).wp transcript.logic
      (fun _ => (onFleet Fleet.close).wp transcript.logic fun _ => Ended names.length) s := by
  refine wp_mono (fun _ t ht => ?_) (stop_wp (s := s))
  exact wp_mono (fun _ u ⟨part, hu, hd⟩ => hu ▸ h.tearsDown hd) (close_wp ht)

theorem abandon_wp (h : Running s) :
    (abandon names).wp transcript.logic (fun _ => Ended names.length) s := by
  rw [abandon, wp_bind]
  refine wp_mono (fun r t ht => ?_) (tearDown_wp h)
  cases r <;> exact ht

/-- What comes after the teardown and is only told does not touch it. -/
theorem tearDown_bind_wp {α : Type} {f : Except StopFailures Unit → Program Serving α}
    (h : Running s) (hf : ∀ r u, Ended names.length u →
      (f r).wp transcript.logic (fun _ => Ended names.length) u) :
    (onWorkers (Manager.stop names) >>= fun stopped =>
      onFleet Fleet.close >>= fun _ => f stopped).wp transcript.logic
      (fun _ => Ended names.length) s := by
  rw [wp_bind]
  refine wp_mono (fun r t ht => ?_) (tearDown_wp h)
  rw [wp_bind]
  exact wp_mono (fun _ u hu => hf r u hu) ht

theorem shutDown_wp {listening : Bool} (h : Running s) :
    (shutDown names listening).wp transcript.logic (fun _ => Ended names.length) s := by
  intro r s' hs'
  subst hs'
  cases r with
  | error cause => exact h.deserts (.unwaited cause)
  | ok =>
    have hw : Running (s ++ [⟨.awaitSignal, .ok ()⟩]) := h.snoc (by rintro ⟨⟩) (by rintro ⟨⟩)
    cases listening with
    | false =>
      refine tearDown_bind_wp hw fun r u hu => ?_
      cases r <;> exact hu
    | true =>
      intro r s' hs'
      subst hs'
      have hx : Running (s ++ [⟨.awaitSignal, .ok ()⟩] ++ [⟨.hangUp, r⟩]) :=
        hw.snoc (by rintro ⟨⟩) (by rintro ⟨⟩)
      refine tearDown_bind_wp hx fun r u hu => ?_
      cases r <;> exact hu

theorem runWorkers_wp {address : Option String} (hn : names ≠ []) :
    (runWorkers names address).wp transcript.logic (fun _ => Ended names.length) [] := by
  rw [runWorkers, wp_bind]
  refine wp_mono (fun r s hs => ?_) (start_wp hn)
  cases r with
  | error e =>
    dsimp only
    rw [wp_bind]
    exact abandon_wp hs.running
  | ok =>
    cases address with
    | none => exact shutDown_wp hs.running
    | some address =>
      intro r s' hs'
      subst hs'
      cases r with
      | error cause => exact hs.running.deserts (.unheard address cause)
      | ok => exact shutDown_wp (hs.running.snoc nofun nofun)

end whole

theorem jobs_ne_nil {c : FleetConfig} {jobs : List (Job × Schedule)} (h : c.jobs = .ok jobs) :
    jobs ≠ [] := by
  rintro rfl
  simp only [FleetConfig.jobs] at h
  cases he : c.workers.expirationSchedule <;> cases hn : c.workers.notificationSchedule <;>
    cases hp : c.workers.peerCountEnabled <;> simp only [he, hn, hp] at h <;> cases h

theorem run_wp {c : FleetConfig} {address : Option String} {jobs : List (Job × Schedule)}
    (h : c.jobs = .ok jobs) :
    (run c address).wp transcript.logic (fun _ => Ended jobs.length) [] := by
  have hnames : jobs.map (·.1.name) ≠ [] := List.map_eq_nil_iff.not.mpr (jobs_ne_nil h)
  have hw : (runWorkers (jobs.map (·.1.name)) (address <|> c.status.bindAddr)).wp transcript.logic
      (fun _ => Ended jobs.length) [] := by
    simpa using runWorkers_wp hnames
  simp only [run, h]
  split <;> exact hw

/-- The service of an accepted configuration starts its workers, and it is torn down before it
returns unless it is deserted. -/
theorem tornDown_iff_not_deserted {c : FleetConfig} (h : c.validate.passed = true)
    {address : Option String} {r : Except String Unit} {log : List Exchange}
    (hr : Runs transcript (run c address) [] r log) :
    ∃ jobs, c.jobs = .ok jobs ∧
      (log.map Sigma.fst).head? = some (.worker (.start 0)) ∧
      (TornDown jobs.length log ↔ ¬ Deserted log) := by
  obtain ⟨jobs, hjobs, -⟩ := FleetConfig.jobs_of_accepted (FleetConfig.validate_passed_iff.mp h)
  have hend := hr.of_wp (run_wp hjobs)
  exact ⟨jobs, hjobs, hend.first, hend.tornDown_iff⟩

theorem exists_answer (c : ServeCall) : ∃ a : c.Answer, ¬ Deserts ⟨c, a⟩ := by
  cases c with
  | worker => exact ⟨.ok (), nofun⟩
  | fleet e => exact ⟨(Standalone.handle e {}).1, nofun⟩
  | listen => exact ⟨.ok (), nofun⟩
  | awaitSignal => exact ⟨.ok (), nofun⟩
  | hangUp => exact ⟨(), nofun⟩

theorem can_attend {α : Type} (p : Program Serving α) {s : List Exchange} (hs : ¬ Deserted s) :
    Can transcript p (fun _ s' => ¬ Deserted s') s := by
  induction p generalizing s with
  | done a => exact .done hs
  | note line rest ih => exact .note (ih hs)
  | call c rest ih =>
    obtain ⟨a, ha⟩ := exists_answer c
    refine .call rfl (ih a ?_)
    rw [deserted_append, deserted_singleton]
    exact not_or_intro hs ha

theorem tornDown_pair : ∃ jobs r log, FleetConfig.pair.validate.passed = true ∧
    FleetConfig.pair.jobs = .ok jobs ∧ Runs transcript (run FleetConfig.pair none) [] r log ∧
    TornDown jobs.length log := by
  have h : FleetConfig.pair.validate.passed = true := by decide
  obtain ⟨r, log, hr, hd⟩ := can_attend (run FleetConfig.pair none) (s := []) (by simp [Deserted])
  obtain ⟨jobs, hjobs, -, ht⟩ := tornDown_iff_not_deserted h hr
  exact ⟨jobs, r, log, h, hjobs, hr, ht.mpr hd⟩

theorem can_start (xs : List (ℕ × String)) {Q : Except WorkerError Unit → List Exchange → Prop}
    (hQ : ∀ s, Q (.ok ()) s) {s : List Exchange} :
    (onWorkers (Manager.startAll xs)).wp transcript.chance Q s := by
  induction xs generalizing s with
  | nil => exact hQ s
  | cons x xs ih => exact ⟨.ok (), _, rfl, ih⟩

theorem can_desert {c : FleetConfig} {jobs : List (Job × Schedule)} (h : c.jobs = .ok jobs)
    (address cause : String) :
    Can transcript (run c (some address)) (fun r log =>
      r = .error s!"Failed to bind status API to {address}: {cause}" ∧ Deserted log) [] := by
  have hw (names : List String) : (runWorkers names (some address)).wp transcript.chance
      (fun r log => r = .error s!"Failed to bind status API to {address}: {cause}" ∧
        Deserted log) [] := by
    rw [runWorkers, wp_bind]
    refine can_start _ fun s => ?_
    refine ⟨.error cause, _, rfl, rfl, ?_⟩
    rw [deserted_append, deserted_singleton]
    exact .inr (.unheard address cause)
  apply Can.of_wp
  simp only [run, h]
  split <;> exact hw _

/-- A status API that cannot be opened leaves the workers running. -/
theorem exists_deserted : ∃ jobs r log, FleetConfig.pair.validate.passed = true ∧
    FleetConfig.pair.jobs = .ok jobs ∧
    Runs transcript (run FleetConfig.pair (some "nope")) [] r log ∧
    r = .error "Failed to bind status API to nope: invalid socket address" ∧
    (log.map Sigma.fst).head? = some (.worker (.start 0)) ∧ ¬ TornDown jobs.length log := by
  have h : FleetConfig.pair.validate.passed = true := by decide
  obtain ⟨jobs, hjobs, -⟩ := FleetConfig.jobs_of_accepted (FleetConfig.validate_passed_iff.mp h)
  obtain ⟨r, log, hr, hre, hd⟩ := can_desert hjobs "nope" "invalid socket address"
  have hend := hr.of_wp (run_wp hjobs)
  exact ⟨jobs, r, log, h, hjobs, hr, hre, hend.first, fun ht => hend.tornDown_iff.mp ht hd⟩

end Serve

end PeerFleet
