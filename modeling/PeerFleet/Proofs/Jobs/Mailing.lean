import PeerFleet.Proofs.Health.Outage
import PeerFleet.Proofs.Jobs.Horizon

/-! # Who is reminded of what

A reminder pass over a store that nobody else changes. Each subscription whose end lies in the
window of some threshold is the subject of one message, whichever messages fail, and the report
counts the messages by their answers. The windows of different thresholds do not meet, and the
thresholds are sorted and freed of repetitions first, so that neither their order nor how often
each of them was given plays a role.
-/

namespace PeerFleet

namespace Reminder

open Fleet Program
open Health (Dispatch dispatch? recipient told)

theorem thresholds_congr {days days' : List UInt32} (h : ∀ n, n ∈ days' ↔ n ∈ days) :
    thresholds days' = thresholds days := by
  have hperm : (thresholds days').Perm (thresholds days) := by
    rw [List.perm_ext_iff_of_nodup (nodup_thresholds days') (nodup_thresholds days)]
    intro n
    rw [mem_thresholds_iff, mem_thresholds_iff, h]
  refine hperm.eq_of_pairwise ?_ (descending_thresholds days') (descending_thresholds days)
  intro a b _ _ hba hab
  exact absurd hab (UInt32.not_lt.mpr (UInt32.le_of_lt hba))

section window

variable {now first last e : Instant} {n m : UInt32} {w w' : Instant × Instant}

theorem window_eq_ok_iff (h : ¬ now.isLeap) : window now n = .ok (first, last) ↔
    now.shiftDays? ((n.toNat : ℤ) - 1) = some first ∧ now.shiftDays? n.toNat = some last := by
  unfold window
  cases hl : now.shiftDays? n.toNat with
  | none => simp
  | some l =>
    have hback : l.shiftDays? (-1) = now.shiftDays? ((n.toNat : ℤ) - 1) := by
      rw [Instant.shiftDays?_of_not_isLeap h] at hl
      obtain ⟨hs, hn⟩ := Instant.of_ofParts?_eq_some hl
      have hleap : ¬ l.isLeap := by
        unfold Instant.isLeap at h ⊢
        omega
      rw [Instant.shiftDays?_of_not_isLeap h, Instant.shiftDays?_of_not_isLeap hleap, hs, hn]
      congr 1
      omega
    simp only [hback]
    cases now.shiftDays? ((n.toNat : ℤ) - 1) with
    | none => simp
    | some f => simp

/-- No instant lies in the windows of two thresholds. -/
theorem eq_of_mem_windows (h : ¬ now.isLeap) (hn : window now n = .ok w)
    (hm : window now m = .ok w') (hw : w.1 ≤ e ∧ e < w.2) (hw' : w'.1 ≤ e ∧ e < w'.2) : n = m := by
  obtain ⟨⟨hfs, hfn⟩, hls, hln⟩ := of_window_eq_ok hn (.inr h)
  obtain ⟨⟨hfs', hfn'⟩, hls', hln'⟩ := of_window_eq_ok hm (.inr h)
  simp only [Instant.le_iff, Instant.lt_iff, Instant.place] at hw hw'
  apply UInt32.toNat_inj.mp
  omega

end window

section attempts

variable {now : Instant} {store : Store} {n : UInt32} {days : List UInt32} {sub : Subscription}

/-- A subscription is stored and active, and its end lies in the window of a threshold. -/
def Matches (store : Store) (now : Instant) (n : UInt32) (sub : Subscription) : Prop :=
  store.subscription? sub.id = some sub ∧ sub.status = .active ∧
    ∃ w, window now n = .ok w ∧ w.1 ≤ sub.expiresAt ∧ sub.expiresAt < w.2

def listingAt (store : Store) (now : Instant) (n : UInt32) : List Subscription :=
  match window now n with
  | .ok (first, last) => store.listExpiring first last
  | .error _ => []

def attemptsAt (store : Store) (now : Instant) (days : List UInt32) :
    List (UInt32 × Subscription) :=
  days.flatMap fun n => (listingAt store now n).map fun sub => (n, sub)

theorem map_attemptsAt_cons : (attemptsAt store now (n :: days)).map call =
    (listingAt store now n).map (fun sub => call (n, sub)) ++
      (attemptsAt store now days).map call := by
  simp [attemptsAt, Function.comp_def]

theorem mem_listingAt_iff : sub ∈ listingAt store now n ↔ Matches store now n sub := by
  unfold listingAt Matches
  cases hw : window now n with
  | error reason => simp
  | ok w => simp [Store.listExpiring, Store.mem_listSubscriptions, Subscription.isActive, and_assoc]

theorem matches_iff (h : ¬ now.isLeap) : Matches store now n sub ↔
    store.subscription? sub.id = some sub ∧ sub.status = .active ∧
      ∃ first last, now.shiftDays? ((n.toNat : ℤ) - 1) = some first ∧
        now.shiftDays? n.toNat = some last ∧ first ≤ sub.expiresAt ∧ sub.expiresAt < last := by
  simp [Matches, Prod.exists, window_eq_ok_iff h, and_assoc]

theorem nodup_listingAt : ((listingAt store now n).map Subscription.id).Nodup := by
  unfold listingAt
  split
  · exact store.nodup_listSubscriptions _
  · exact List.nodup_nil

theorem mem_attemptsAt_iff :
    (n, sub) ∈ attemptsAt store now days ↔ n ∈ days ∧ Matches store now n sub := by
  simp [attemptsAt, mem_listingAt_iff]

theorem nodup_attemptsAt (h : ¬ now.isLeap) (hd : days.Nodup) :
    ((attemptsAt store now days).map fun a => a.2.id).Nodup := by
  rw [attemptsAt, List.map_flatMap, List.nodup_flatMap]
  constructor
  · intro n _
    rw [List.map_map]
    exact nodup_listingAt
  · refine hd.imp fun {n m} hne => ?_
    rw [Function.onFun, List.disjoint_iff_ne]
    simp only [List.map_map, List.mem_map, mem_listingAt_iff]
    rintro _ ⟨sub, ⟨hs, -, w, hw, hin⟩, rfl⟩ _ ⟨sub', ⟨hs', -, w', hw', hin'⟩, rfl⟩ hid
    simp only [Function.comp_apply] at hid
    -- A subscription that is listed for both thresholds ends in both windows.
    obtain rfl : sub = sub' := by
      rw [hid, hs'] at hs
      exact (Option.some.inj hs).symm
    exact hne (eq_of_mem_windows h hw hw' hin hin')

end attempts

section pass

variable {C : Conditions} {now : Instant} {s : State} {store : Store} {days : List UInt32}
  {listings : List Listing}

theorem due_eq (hC : ∀ s a b err, ¬ C.storeFault s (.listExpiring a b) err)
    (h : List.Forall₂ (Asked C store now) days listings) :
    due days listings = (attemptsAt store now days).map call := by
  induction h with
  | nil => rfl
  | @cons n l days listings hn _ ih =>
    obtain ⟨w, a⟩ := l
    obtain ⟨hw, ha | ⟨s, e, he, -⟩⟩ := hn
    · simp only at hw ha
      subst ha
      rw [map_attemptsAt_cons, listingAt, hw, ← ih]
      rfl
    · exact absurd he (hC _ _ _ _)

theorem runAt_surely (hC : ∀ s a b err, ¬ C.storeFault s (.listExpiring a b) err)
    (hw : ∀ n ∈ days, ∃ w, window now n = .ok w) :
    (runAt days now).wp C.surroundings.surely
      (fun r u => ∃ ds, told dispatch? u = told dispatch? s ++ ds ∧
        ds.map Sigma.fst = (attemptsAt s.store now (thresholds days)).map call ∧
        r = .ok (tally {} ds)) s := by
  refine wp_mono (fun r u h => ?_) (serve_surely fun n hn => hw n (mem_thresholds_iff.mp hn))
  obtain ⟨listings, ds, hls, hds, hcalls, rfl⟩ := h
  rw [due_eq hC hls] at hcalls
  exact ⟨ds, hds.dispatches, hcalls, rfl⟩

theorem countP_of_accepts {attempts : List (UInt32 × Subscription)} {ds : List Dispatch}
    {accepts : UserId → Bool} (hds : ds.map Sigma.fst = attempts.map call)
    (h : ∀ d ∈ ds, arrived d = accepts (recipient d.1)) (p : Bool → Bool) :
    ds.countP (fun d => p (arrived d)) = attempts.countP fun a => p (accepts a.2.userId) := by
  calc ds.countP (fun d => p (arrived d))
      = ds.countP (fun d => p (accepts (recipient d.1))) :=
        List.countP_congr fun d hd => by rw [h d hd]
    _ = (ds.map Sigma.fst).countP fun c => p (accepts (recipient c)) := by
        rw [List.countP_map]
        rfl
    _ = attempts.countP fun a => p (accepts a.2.userId) := by
        rw [hds, List.countP_map]
        rfl

end pass

/-- Outside leap seconds, a pass whose windows are all in range makes one attempt for each active
subscription whose end lies in the day up to some threshold, and no other. Whichever lists of the
same thresholds passes are given, they make the same attempts in the same order. The report counts
the answers, and depends on the attempts alone if the answers depend on the recipients alone. -/
theorem pass_reminds_once {C : Conditions}
    (hC : ∀ s a b err, ¬ C.storeFault s (.listExpiring a b) err) {now : Instant}
    (hleap : ¬ now.isLeap) {days : List UInt32}
    (hdays : ∀ n ∈ days, (∃ first, now.shiftDays? ((n.toNat : ℤ) - 1) = some first) ∧
      ∃ last, now.shiftDays? n.toNat = some last) (s : State) :
    ∃ attempts : List (UInt32 × Subscription),
      (attempts.map fun a => a.2.id).Nodup ∧
      (∀ n sub, (n, sub) ∈ attempts ↔
        n ∈ days ∧ s.store.subscription? sub.id = some sub ∧ sub.status = .active ∧
          ∃ first last, now.shiftDays? ((n.toNat : ℤ) - 1) = some first ∧
            now.shiftDays? n.toNat = some last ∧ first ≤ sub.expiresAt ∧ sub.expiresAt < last) ∧
      ∀ days', (∀ n, n ∈ days' ↔ n ∈ days) →
        (∃ r u, Runs C.surroundings (runAt days' now) s r u) ∧
        ∀ r u, Runs C.surroundings (runAt days' now) s r u →
          ∃ report ds, r = .ok report ∧ told dispatch? u = told dispatch? s ++ ds ∧
            ds.map Sigma.fst = attempts.map call ∧
            report.sent = ds.countP arrived ∧ report.failed = ds.countP (fun d => !arrived d) ∧
            report.sent + report.failed = attempts.length ∧
            ∀ accepts : UserId → Bool, (∀ d ∈ ds, arrived d = accepts (recipient d.1)) →
              report.sent = attempts.countP (fun a => accepts a.2.userId) ∧
              report.failed = attempts.countP fun a => !accepts a.2.userId := by
  have hwindows : ∀ n ∈ days, ∃ w, window now n = .ok w := by
    intro n hn
    obtain ⟨⟨first, hfirst⟩, last, hlast⟩ := hdays n hn
    exact ⟨(first, last), (window_eq_ok_iff hleap).mpr ⟨hfirst, hlast⟩⟩
  obtain ⟨hruns, hall⟩ := runs_of_surely (runAt_surely (s := s) hC hwindows)
  refine ⟨attemptsAt s.store now (thresholds days), nodup_attemptsAt hleap (nodup_thresholds days),
    fun n sub => ?_, fun days' hmem => ?_⟩
  · rw [mem_attemptsAt_iff, mem_thresholds_iff, matches_iff hleap]
  · rw [runAt, thresholds_congr hmem, ← runAt]
    refine ⟨hruns, fun r u hr => ?_⟩
    obtain ⟨ds, htold, hcalls, rfl⟩ := hall r u hr
    have hlength : ds.length = (attemptsAt s.store now (thresholds days)).length := by
      simpa using congrArg List.length hcalls
    refine ⟨_, ds, rfl, htold, hcalls, Nat.zero_add _, Nat.zero_add _, ?_, ?_⟩
    · rw [sent_add_failed_tally, hlength]
      exact Nat.zero_add _
    · intro accepts h
      have hcount := countP_of_accepts hcalls h
      simp only [tally, Nat.zero_add]
      exact ⟨hcount id, hcount not⟩

def juneTomorrow : Instant :=
  moment 1780394400

theorem june_pass_reminds_once : ¬ june.isLeap ∧
    (∀ n ∈ ([1, 2, 1] : List UInt32), (∃ first, june.shiftDays? ((n.toNat : ℤ) - 1) = some first) ∧
      ∃ last, june.shiftDays? n.toNat = some last) ∧
    ∃ (sub : Subscription) (attempts : List (UInt32 × Subscription)) (report : ReminderReport)
      (ds : List Dispatch) (u : State),
      (storeUntil juneTomorrow).subscription? 1 = some sub ∧ sub.expiresAt = juneTomorrow ∧
      (2, sub) ∈ attempts ∧ (1, sub) ∉ attempts ∧ (attempts.map fun a => a.2.id).Nodup ∧
      Runs calm.surroundings (runAt [1, 2, 1] june)
        (State.waiting.setStore (storeUntil juneTomorrow)) (.ok report) u ∧
      told dispatch? u = ds ∧ ds.map Sigma.fst = attempts.map call ∧
      report.sent + report.failed = attempts.length := by
  have hleap : ¬ june.isLeap := by decide
  have htomorrow : june.shiftDays? 1 = some juneTomorrow := by decide
  have hafter : june.shiftDays? 2 = some (moment 1780480800) := by decide
  have hdays : ∀ n ∈ ([1, 2, 1] : List UInt32),
      (∃ first, june.shiftDays? ((n.toNat : ℤ) - 1) = some first) ∧
        ∃ last, june.shiftDays? n.toNat = some last := by
    have hone : (∃ first, june.shiftDays? (((1 : UInt32).toNat : ℤ) - 1) = some first) ∧
        ∃ last, june.shiftDays? (1 : UInt32).toNat = some last :=
      ⟨⟨june, by decide⟩, _, htomorrow⟩
    have htwo : (∃ first, june.shiftDays? (((2 : UInt32).toNat : ℤ) - 1) = some first) ∧
        ∃ last, june.shiftDays? (2 : UInt32).toNat = some last :=
      ⟨⟨_, htomorrow⟩, _, hafter⟩
    simp only [List.forall_mem_cons, List.not_mem_nil, false_implies, implies_true, and_true]
    exact ⟨hone, htwo, hone⟩
  obtain ⟨attempts, hnodup, hmem, hpass⟩ := pass_reminds_once (C := calm) (fun _ _ _ _ => id)
    hleap hdays (State.waiting.setStore (storeUntil juneTomorrow))
  obtain ⟨⟨r, u, hr⟩, hall⟩ := hpass [1, 2, 1] fun _ => .rfl
  obtain ⟨report, ds, rfl, htold, hcalls, -, -, hsum, -⟩ := hall r u hr
  refine ⟨hleap, hdays, _, attempts, report, ds, u, rfl, rfl, ?_, ?_, hnodup, hr, htold, hcalls,
    hsum⟩
  · exact (hmem 2 _).mpr ⟨by decide, rfl, rfl, juneTomorrow, _, htomorrow, hafter, by decide,
      by decide⟩
  · intro hone
    obtain ⟨-, -, -, first, last, -, hlast, -, hlt⟩ := (hmem 1 _).mp hone
    obtain rfl : juneTomorrow = last := Option.some.inj (htomorrow.symm.trans hlast)
    exact absurd hlt (by decide)

end Reminder

end PeerFleet
