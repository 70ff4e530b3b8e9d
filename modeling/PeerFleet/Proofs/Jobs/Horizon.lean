import PeerFleet.Proofs.Config.Acceptance
import PeerFleet.Proofs.Jobs.Daily

/-! # Reminders up to the last instant

A reminder pass whose windows all end before the last instant serves every threshold, whatever
the store and the messenger answer. One threshold that reaches beyond the last instant ends the
pass before its first call, because the largest one is served first. The check of a configuration
lets every list of thresholds pass.
-/

namespace PeerFleet

namespace Reminder

open Fleet Program
open Health (Dispatch dispatch? told told_record)

section window

variable {now : Instant} {n : UInt32}

/-- The end of a window is an instant. -/
def InRange (now : Instant) (n : UInt32) : Prop :=
  now.seconds + n.toNat * 86400 ≤ 8210266876799

theorem inRange_iff : InRange now n ↔ ∃ last, now.shiftDays? n.toNat = some last := by
  have hk : 0 ≤ (n.toNat : ℤ) * 86400 := by omega
  rw [InRange, Instant.shiftDays?_eq, Instant.exists_shift?_iff hk]

theorem exists_window_of_inRange (hfirst : -8334601142400 ≤ now.seconds + n.toNat * 86400)
    (h : InRange now n) : ∃ w, window now n = .ok w := by
  have hk : 0 ≤ (n.toNat : ℤ) * 86400 := by omega
  obtain ⟨last, hlast⟩ := inRange_iff.mp h
  rw [Instant.shiftDays?_eq] at hlast
  have hseconds := Instant.seconds_of_shift? hk hlast
  have hday : (-1 : ℤ) * 86400 < 0 := by decide
  obtain ⟨first, hfirst⟩ := Instant.exists_shift?_neg (t := last) hday (by omega)
  refine ⟨(first, last), ?_⟩
  simp only [window, Instant.shiftDays?_eq, hlast, hfirst]

theorem window_of_not_inRange (h : ¬ InRange now n) :
    window now n = .error Instant.overflowText := by
  have hnone : now.shiftDays? n.toNat = none := by
    rw [Option.eq_none_iff_forall_not_mem]
    exact fun u hu => h (inRange_iff.mpr ⟨u, hu⟩)
  rw [window, hnone]

end window

abbrev Listing := (Instant × Instant) × Except StoreError (List Subscription)

def listing? : Exchange → Option Listing
  | ⟨.store (.listExpiring first last), a⟩ => some ((first, last), a)
  | _ => none

/-- The messages that the listings for some thresholds call for. -/
def due (days : List UInt32) (listings : List Listing) : List MessageCall :=
  (days.zip listings).flatMap fun
    | (n, _, .ok subs) => subs.map fun sub => call (n, sub)
    | (_, _, .error _) => []

def Asked (C : Conditions) (store : Store) (now : Instant) (n : UInt32) (l : Listing) : Prop :=
  window now n = .ok l.1 ∧ (l.2 = .ok (store.listExpiring l.1.1 l.1.2) ∨
    ∃ s e, C.storeFault s (.listExpiring l.1.1 l.1.2) e ∧ l.2 = .error e)

/-- A part of a pass left the store alone, made some listings and sent some messages. -/
structure Did (s u : State) (listings : List Listing) (messages : List MessageCall) : Prop where
  store : u.store = s.store
  listings : told listing? u = told listing? s ++ listings
  messages : told message? u = told message? s ++ messages

/-- Every threshold was served: its window was listed, a message was sent for each subscription
that was found, and all of these were added to the report. -/
def Served (C : Conditions) (now : Instant) (days : List UInt32) (s u : State)
    (report report' : ReminderReport) : Prop :=
  ∃ listings, List.Forall₂ (Asked C s.store now) days listings ∧
    Did s u listings (due days listings) ∧
    report'.sent + report'.failed = report.sent + report.failed + (due days listings).length

def arrived : Dispatch → Bool
  | ⟨_, .ok _⟩ => true
  | ⟨_, .error _⟩ => false

def tally (report : ReminderReport) (ds : List Dispatch) : ReminderReport where
  sent := report.sent + ds.countP arrived
  failed := report.failed + ds.countP fun d => !arrived d

/-- A part of a pass left the store alone, made some listings and called the messenger. -/
structure Calls (s u : State) (listings : List Listing) (ds : List Dispatch) : Prop where
  store : u.store = s.store
  listings : told listing? u = told listing? s ++ listings
  dispatches : told dispatch? u = told dispatch? s ++ ds

section pass

variable {C : Conditions} {now : Instant} {s u v : State} {n : UInt32} {days : List UInt32}
  {subs : List Subscription} {listings listings' : List Listing} {ds ds' : List Dispatch}
  {report : ReminderReport}

theorem tally_tally : tally (tally report ds) ds' = tally report (ds ++ ds') := by
  simp [tally, Nat.add_assoc]

theorem tally_cons (d : Dispatch) : tally report (d :: ds) =
    tally (if arrived d then { report with sent := report.sent + 1 }
      else { report with failed := report.failed + 1 }) ds := by
  cases h : arrived d with
  | true => simp [tally, h, Nat.add_assoc, Nat.add_comm 1]
  | false => simp [tally, h, Nat.add_assoc, Nat.add_comm 1]

theorem sent_add_failed_tally : (tally report ds).sent + (tally report ds).failed =
    report.sent + report.failed + ds.length := by
  have hlength : ds.length = ds.countP arrived + ds.countP fun d => !arrived d := by
    simpa using ds.length_eq_countP_add_countP arrived
  simp only [tally]
  omega

theorem told_message (s : State) : told message? s = (told dispatch? s).map Sigma.fst := by
  rw [told, told, List.map_reverse, List.map_filterMap]
  congr 2
  funext x
  obtain ⟨c, a⟩ := x
  cases c <;> rfl

theorem Calls.refl (s : State) : Calls s s [] [] := by
  constructor <;> simp

theorem Calls.trans (h : Calls s u listings ds) (h' : Calls u v listings' ds') :
    Calls s v (listings ++ listings') (ds ++ ds') := by
  constructor
  · rw [h'.store, h.store]
  · rw [h'.listings, h.listings, List.append_assoc]
  · rw [h'.dispatches, h.dispatches, List.append_assoc]

theorem Calls.did (h : Calls s u listings ds) : Did s u listings (ds.map Sigma.fst) := by
  constructor
  · exact h.store
  · exact h.listings
  · rw [told_message, told_message, h.dispatches, List.map_append]

theorem calls_record {c : Effect} {a : c.Answer} :
    Calls s (s.record c a) (listing? ⟨c, a⟩).toList (dispatch? ⟨c, a⟩).toList :=
  ⟨rfl, told_record, told_record⟩

theorem remindAll_surely :
    (remindAll n report subs).wp C.surroundings.surely
      (fun r u => ∃ ds, Calls s u [] ds ∧
        ds.map Sigma.fst = subs.map (fun sub => call (n, sub)) ∧ r = tally report ds) s := by
  induction subs generalizing report s with
  | nil => exact ⟨[], .refl s, rfl, rfl⟩
  | cons sub subs ih =>
    refine ⟨⟨.error default, _, s, rfl, rfl⟩, ?_⟩
    rintro a _ ⟨u, rfl, rfl⟩
    have hsent : Calls u (u.record (.message (call (n, sub))) a) [] [⟨call (n, sub), a⟩] :=
      calls_record
    cases a with
    | error | ok =>
      refine wp_mono (fun r v h => ?_) ih
      obtain ⟨ds, hds, hcalls, rfl⟩ := h
      refine ⟨_ :: ds, hsent.trans hds, ?_, ?_⟩
      · rw [List.map_cons, List.map_cons, hcalls]
      · rw [tally_cons]
        rfl

theorem serve_surely (hw : ∀ n ∈ days, ∃ w, window now n = .ok w) :
    (serve now report days).wp C.surroundings.surely
      (fun r u => ∃ listings ds, List.Forall₂ (Asked C s.store now) days listings ∧
        Calls s u listings ds ∧ ds.map Sigma.fst = due days listings ∧
        r = .ok (tally report ds)) s := by
  induction days generalizing report s with
  | nil => exact ⟨[], [], .nil, .refl s, rfl, rfl⟩
  | cons n days ih =>
    obtain ⟨⟨⟨first, last⟩, hwindow⟩, hw⟩ := List.forall_mem_cons.mp hw
    rw [serve, hwindow]
    refine ⟨⟨_, _, _, .inl ⟨rfl, rfl⟩, rfl⟩, ?_⟩
    -- The store lists the window, or fails and the threshold is passed over.
    rintro a _ ⟨u, ⟨rfl, rfl⟩ | ⟨e, he, rfl, rfl⟩, rfl⟩
    · have hlisted : Calls s (s.record (.store (.listExpiring first last))
          (.ok (s.store.listExpiring first last)))
          [((first, last), .ok (s.store.listExpiring first last))] [] := calls_record
      change Program.wp _ (remindAll n report (s.store.listExpiring first last) >>=
        fun report => serve now report days) _ _
      rw [wp_bind]
      refine wp_mono (fun report₁ v h₁ => wp_mono (fun r v' h => ?_) (ih hw)) remindAll_surely
      obtain ⟨ds₁, hds₁, hcalls₁, rfl⟩ := h₁
      obtain ⟨listings, ds₂, hls, hds₂, hcalls₂, rfl⟩ := h
      have hstore : v.store = s.store := hds₁.store
      rw [hstore] at hls
      refine ⟨_, ds₁ ++ ds₂, .cons ⟨hwindow, .inl rfl⟩ hls, (hlisted.trans hds₁).trans hds₂, ?_, ?_⟩
      · rw [List.map_append, hcalls₁, hcalls₂]
        rfl
      · rw [tally_tally]
    · have hlisted : Calls u (u.record (.store (.listExpiring first last)) (.error e))
          [((first, last), .error e)] [] := calls_record
      refine wp_mono (fun r v h => ?_) (ih hw)
      obtain ⟨listings, ds, hls, hds, hcalls, rfl⟩ := h
      exact ⟨_, ds, .cons ⟨hwindow, .inr ⟨u, e, he, rfl⟩⟩ hls, hlisted.trans hds, hcalls, rfl⟩

theorem runAt_surely_of_not_inRange (hn : n ∈ days) (h : ¬ InRange now n) :
    (runAt days now).wp C.surroundings.surely
      (fun r u => r = .error Instant.overflowText ∧ u = s) s := by
  obtain ⟨m, rest, hl, -, hmax⟩ := exists_largest (List.ne_nil_of_mem hn)
  have hnm : n.toNat ≤ m.toNat := UInt32.le_iff_toNat_le.mp (hmax n hn)
  have hm : ¬ InRange now m := by
    unfold InRange at h ⊢
    omega
  rw [runAt, hl, serve, window_of_not_inRange hm]
  exact ⟨rfl, rfl⟩

/-- A pass whose windows all end before the last instant serves every threshold. -/
theorem runAt_surely_of_inRange (hnow : -8334601142400 ≤ now.seconds)
    (h : ∀ n ∈ days, InRange now n) :
    (runAt days now).wp C.surroundings.surely
      (fun r u => ∃ report, r = .ok report ∧ Served C now (thresholds days) s u {} report) s := by
  have hw : ∀ n ∈ thresholds days, ∃ w, window now n = .ok w := fun n hn =>
    exists_window_of_inRange (by omega) (h n (mem_thresholds_iff.mp hn))
  refine wp_mono (fun r u hr => ?_) (serve_surely hw)
  obtain ⟨listings, ds, hls, hds, hcalls, rfl⟩ := hr
  refine ⟨_, rfl, listings, hls, ?_, ?_⟩
  · rw [← hcalls]
    exact hds.did
  · rw [sent_add_failed_tally, ← hcalls, List.length_map]

end pass

theorem passed_notifyDays (c : FleetConfig) (notifyDays : List UInt32) :
    { c with workers := { c.workers with notifyDays } }.validate.passed = c.validate.passed := by
  rw [Bool.eq_iff_iff, FleetConfig.validate_passed_iff, FleetConfig.validate_passed_iff]
  constructor
  · rintro ⟨hd, hn, hw⟩
    exact ⟨hd, hn, hw.1, hw.2, hw.3, hw.4, hw.5, hw.6⟩
  · rintro ⟨hd, hn, hw⟩
    exact ⟨hd, hn, hw.1, hw.2, hw.3, hw.4, hw.5, hw.6⟩

/-- Whether a configuration passes its check does not depend on its thresholds. From 2000 on, a
pass serves all of them exactly if they end before the last instant, and otherwise breaks off
before its first call. -/
theorem served_iff_inRange (C : Conditions) (c : FleetConfig) (s : State) {now : Instant}
    (hnow : (Date.mk 2000 1 1).toDays * 86400 ≤ now.seconds) :
    (∀ notifyDays, { c with workers := { c.workers with notifyDays } }.validate.passed =
      c.validate.passed) ∧
    (∃ r u, Runs C.surroundings (runAt c.workers.notifyDays now) s r u) ∧
    ((∀ r u, Runs C.surroundings (runAt c.workers.notifyDays now) s r u →
        ∃ report, r = .ok report ∧ Served C now (thresholds c.workers.notifyDays) s u {} report) ↔
      ∀ n ∈ c.workers.notifyDays, InRange now n) ∧
    ∀ n ∈ c.workers.notifyDays, ¬ InRange now n →
      ∀ r u, Runs C.surroundings (runAt c.workers.notifyDays now) s r u →
        r = .error Instant.overflowText ∧ u = s := by
  have hdays : (Date.mk 2000 1 1).toDays = 10957 := by decide
  have hbroken : ∀ n ∈ c.workers.notifyDays, ¬ InRange now n → _ := fun n hn h =>
    runs_of_surely (runAt_surely_of_not_inRange (C := C) (s := s) hn h)
  have hserved : (∀ n ∈ c.workers.notifyDays, InRange now n) → _ := fun h =>
    runs_of_surely (runAt_surely_of_inRange (C := C) (s := s) (by omega) h)
  refine ⟨passed_notifyDays c, ?_, ⟨fun h n hn => ?_, fun h => (hserved h).2⟩,
    fun n hn h => (hbroken n hn h).2⟩
  · by_cases h : ∀ n ∈ c.workers.notifyDays, InRange now n
    · exact (hserved h).1
    · simp only [not_forall] at h
      obtain ⟨n, hn, hr⟩ := h
      exact (hbroken n hn hr).1
  · by_contra hr
    obtain ⟨⟨r, u, hrun⟩, hall⟩ := hbroken n hn hr
    obtain ⟨rfl, -⟩ := hall r u hrun
    obtain ⟨report, hreport, -⟩ := h _ u hrun
    cases hreport

def june : Instant :=
  moment 1780308000

def ending : State :=
  State.waiting.setStore (storeUntil (moment 1780311600))

def farsighted : FleetConfig where
  workers := { notifyDays := [1, 95005631, 1] }

theorem served_farsighted : (Date.mk 2000 1 1).toDays * 86400 ≤ june.seconds ∧
    ∃ report u, Runs calm.surroundings (runAt farsighted.workers.notifyDays june) ending
        (.ok report) u ∧
      Served calm june (thresholds farsighted.workers.notifyDays) ending u {} report := by
  have hnow : (Date.mk 2000 1 1).toDays * 86400 ≤ june.seconds := by decide
  have hrange : ∀ n ∈ farsighted.workers.notifyDays, InRange june n := by
    change ∀ n ∈ [1, 95005631, 1], InRange june n
    simp only [List.forall_mem_cons, List.not_mem_nil, false_implies, implies_true, and_true,
      InRange]
    decide
  obtain ⟨-, ⟨r, u, hr⟩, hall, -⟩ := served_iff_inRange calm farsighted ending hnow
  obtain ⟨report, rfl, hserved⟩ := hall.mpr hrange r u hr
  exact ⟨hnow, report, u, hr, hserved⟩

/-- An accepted configuration with one threshold that reaches too far, and a subscription that
ends within a day and is not reminded of. -/
theorem exists_broken_off : ∃ (c : FleetConfig) (now : Instant) (s : State),
    c.validate.passed = true ∧ (2000 ≤ (Date.ofDays now.day).year ∧
      (Date.ofDays now.day).year ≤ 9999) ∧ 1 ∈ c.workers.notifyDays ∧
    (∃ w, window now 1 = .ok w ∧ s.store.listExpiring w.1 w.2 ≠ []) ∧
    ∃ u, Runs calm.surroundings (runAt c.workers.notifyDays now) s (.error Instant.overflowText) u ∧
      told message? u = [] := by
  refine ⟨{ workers := { notifyDays := [4294967295, 1] } }, june, ending, by decide, by decide,
    by decide, ?_, ?_⟩
  · exact ⟨_, rfl, by decide⟩
  · have hrange : ¬ InRange june 4294967295 := by
      unfold InRange
      decide
    have hmem : (4294967295 : UInt32) ∈ [4294967295, 1] := List.mem_cons_self
    obtain ⟨⟨r, u, hr⟩, hall⟩ := runs_of_surely
      (runAt_surely_of_not_inRange (C := calm) (s := ending) hmem hrange)
    obtain ⟨rfl, rfl⟩ := hall r u hr
    exact ⟨ending, hr, rfl⟩

end Reminder

end PeerFleet
