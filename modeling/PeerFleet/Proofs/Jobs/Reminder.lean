import Mathlib.Data.List.Nodup
import PeerFleet.Jobs.Reminder
import PeerFleet.Proofs.Fleet.Shape
import PeerFleet.Proofs.Fleet.State
import PeerFleet.Proofs.Health.Observation
import PeerFleet.Proofs.Text.Digits
import PeerFleet.Proofs.Time.Instant

/-! # What a reminder pass tells

A pass lists the subscriptions of one window for each threshold and sends a message for each
that it listed, whatever others do to the store meanwhile. A subscription that stays paid for
until one instant is listed for a threshold if the instant lies in the window, and then once.
-/

namespace PeerFleet

/-- A subscription is active and ends at an instant. -/
def Store.PaidUntil (t : Store) (id : SubscriptionId) (e : Instant) : Prop :=
  ∃ sub, t.subscription? id = some sub ∧ sub.isActive = true ∧ sub.expiresAt = e

/-- A subscription stays paid for until an instant; before each call others may have changed
everything else in the store. -/
def Fleet.Conditions.paid (C : Fleet.Conditions) (id : SubscriptionId) (e : Instant) :
    Environment Effects Fleet.State :=
  fun c s a u => ∃ t : Store, t.PaidUntil id e ∧ C.surroundings c (s.setStore t) a u

namespace Reminder

open Fleet Program
open Health (told told_record)

section texts

variable {d e : UInt32} {sub : Subscription}

theorem toList_whenText (h : d ≠ 0) : (whenText d).toList =
    "in ".toList ++ (Nat.toDigits 10 d.toNat ++ (if d = 1 then " day" else " days").toList) := by
  rw [whenText, if_neg h]
  split_ifs with hone
  · subst hone
    decide
  · have hdays := Text.toList_toString_uint32 d
    simp [hdays, Text.toString_self]

theorem whenText_injective : Function.Injective whenText := by
  intro d e h
  have htoday {d : UInt32} (hd : d ≠ 0) : whenText d ≠ whenText 0 := by
    rw [← String.toList_inj.ne, toList_whenText hd]
    simp [whenText]
  by_cases hd : d = 0
  · by_contra hne
    exact htoday (fun he => hne (hd.trans he.symm)) (hd ▸ h).symm
  by_cases he : e = 0
  · exact absurd (he ▸ h) (htoday hd)
  have hunit (d : UInt32) :
      ∀ c ∈ (if d = 1 then " day" else " days").toList.head?, Text.isDigit c = false := by
    split_ifs <;> simp [Text.isDigit]
  rw [← String.toList_inj, toList_whenText hd, toList_whenText he, List.append_right_inj] at h
  exact UInt32.toNat_inj.mp (Text.toDigits_append_inj (hunit d) (hunit e) h).1

theorem exists_toList_text (sub : Subscription) : ∃ front back, ∀ days,
    (text sub days).toList = front ++ ((whenText days).toList ++ back) := by
  refine ⟨s!"Your \"{sub.tariff}\" VPN subscription expires ".toList,
    s!" ({sub.expiresAt.toMinute} UTC). Renew it to keep your access.".toList, fun days => ?_⟩
  simp [text, Text.toString_self]

/-- A reminder shows in how many days the subscription ends. -/
theorem text_eq_iff : text sub d = text sub e ↔ d = e := by
  obtain ⟨front, back, htext⟩ := exists_toList_text sub
  rw [← String.toList_inj, htext, htext, List.append_right_inj, List.append_left_inj,
    String.toList_inj, whenText_injective.eq_iff]

end texts

section thresholds

variable {a b : UInt32} {l days : List UInt32}

theorem loop_eq_append (a : UInt32) (l acc : List UInt32) :
    List.eraseRepsBy.loop (· == ·) a l acc = acc.reverse ++ (a :: l).eraseReps := by
  change _ = acc.reverse ++ List.eraseRepsBy.loop (· == ·) a l []
  induction l generalizing a acc with
  | nil => simp [List.eraseRepsBy.loop]
  | cons b l ih =>
    simp only [List.eraseRepsBy.loop]
    cases a == b with
    | true => exact ih a acc
    | false =>
      simp only [ih b (a :: acc), ih b [a]]
      simp

theorem eraseReps_cons_cons (a b : UInt32) (l : List UInt32) :
    (a :: b :: l).eraseReps = if a = b then (a :: l).eraseReps else a :: (b :: l).eraseReps := by
  change List.eraseRepsBy.loop (· == ·) a (b :: l) [] = _
  simp only [List.eraseRepsBy.loop]
  split_ifs with h
  · simp [h, loop_eq_append]
  · simp [beq_eq_false_iff_ne.mpr h, loop_eq_append]

theorem mem_eraseReps_cons_iff : b ∈ (a :: l).eraseReps ↔ b ∈ a :: l := by
  induction l generalizing a with
  | nil => rfl
  | cons c l ih =>
    rw [eraseReps_cons_cons]
    split_ifs with h
    · subst h
      simp [ih]
    · simp [ih]

theorem descending_eraseReps_cons (h : (a :: l).Pairwise fun a b => b ≤ a) :
    (a :: l).eraseReps.Pairwise fun a b => b < a := by
  induction l generalizing a with
  | nil => exact List.pairwise_singleton _ a
  | cons c l ih =>
    rw [List.pairwise_cons] at h
    rw [eraseReps_cons_cons]
    split_ifs with hac
    · subst hac
      exact ih h.2
    · rw [List.pairwise_cons]
      refine ⟨fun b hmem => ?_, ih h.2⟩
      have hca : c < a := UInt32.lt_of_le_of_ne (h.1 c List.mem_cons_self) (Ne.symm hac)
      obtain rfl | hmem := List.mem_cons.mp (mem_eraseReps_cons_iff.mp hmem)
      · exact hca
      · exact UInt32.lt_of_le_of_lt ((List.pairwise_cons.mp h.2).1 b hmem) hca

theorem mem_thresholds_iff : a ∈ Reminder.thresholds days ↔ a ∈ days := by
  rw [Reminder.thresholds]
  have hperm : a ∈ days.mergeSort (fun a b => b ≤ a) ↔ a ∈ days := List.mem_mergeSort
  rw [← hperm]
  cases days.mergeSort fun a b => b ≤ a with
  | nil => rfl
  | cons b l => exact mem_eraseReps_cons_iff

theorem pairwise_mergeSort (days : List UInt32) :
    (days.mergeSort fun a b => b ≤ a).Pairwise fun a b => b ≤ a := by
  have hsorted : (days.mergeSort fun a b => b ≤ a).Pairwise fun a b => decide (b ≤ a) = true := by
    apply List.pairwise_mergeSort
    · intro a b c hab hbc
      simp only [decide_eq_true_eq] at *
      exact UInt32.le_trans hbc hab
    · intro a b
      simpa using UInt32.le_total b a
  simpa using hsorted

theorem descending_thresholds (days : List UInt32) :
    (Reminder.thresholds days).Pairwise fun a b => b < a := by
  rw [Reminder.thresholds]
  have hsorted := pairwise_mergeSort days
  cases hl : days.mergeSort fun a b => b ≤ a with
  | nil => exact .nil
  | cons b l =>
    rw [hl] at hsorted
    exact descending_eraseReps_cons hsorted

theorem nodup_thresholds (days : List UInt32) : (Reminder.thresholds days).Nodup :=
  List.nodup_iff_pairwise_ne.mpr <|
    (descending_thresholds days).imp fun h => (UInt32.ne_of_lt h).symm

theorem exists_eraseReps_cons (a : UInt32) (l : List UInt32) :
    ∃ rest, (a :: l).eraseReps = a :: rest := by
  induction l with
  | nil => exact ⟨[], rfl⟩
  | cons b l ih =>
    rw [eraseReps_cons_cons]
    split_ifs
    · exact ih
    · exact ⟨_, rfl⟩

theorem exists_largest (hd : days ≠ []) :
    ∃ n rest, Reminder.thresholds days = n :: rest ∧ n ∈ days ∧ ∀ m ∈ days, m ≤ n := by
  rw [Reminder.thresholds]
  have hsorted := pairwise_mergeSort days
  have hperm (m : UInt32) : m ∈ days.mergeSort (fun a b => b ≤ a) ↔ m ∈ days := List.mem_mergeSort
  cases hl : days.mergeSort fun a b => b ≤ a with
  | nil =>
    obtain ⟨m, hm⟩ := List.exists_mem_of_ne_nil days hd
    rw [hl] at hperm
    exact absurd ((hperm m).mpr hm) List.not_mem_nil
  | cons n l =>
    rw [hl] at hsorted hperm
    obtain ⟨rest, hrest⟩ := exists_eraseReps_cons n l
    refine ⟨n, rest, hrest, (hperm n).mp List.mem_cons_self, fun m hm => ?_⟩
    obtain rfl | hm := List.mem_cons.mp ((hperm m).mpr hm)
    · exact UInt32.le_refl m
    · exact (List.pairwise_cons.mp hsorted).1 m hm

end thresholds

section window

variable {now first last : Instant} {days : UInt32}

theorem toNat_pos (hd : days ≠ 0) : 0 < days.toNat :=
  Nat.pos_of_ne_zero fun h => hd (UInt32.toNat_inj.mp h)

theorem of_window_eq_ok (h : window now days = .ok (first, last)) (hd : days ≠ 0 ∨ ¬ now.isLeap) :
    (first.seconds = now.seconds + (days.toNat - 1) * 86400 ∧
      first.nanos = now.nanos % 1000000000) ∧
    last.seconds = now.seconds + days.toNat * 86400 ∧ last.nanos = now.nanos % 1000000000 := by
  have hshift : 0 < (days.toNat : ℤ) * 86400 ∨ ¬ now.isLeap := by
    refine hd.imp_left fun hne => ?_
    have hpos := toNat_pos hne
    omega
  unfold window at h
  split at h
  · cases h
  next l hl =>
    split at h
    · cases h
    next f hf =>
      cases h
      rw [Instant.shiftDays?_eq] at hl hf
      obtain ⟨hls, hln⟩ := Instant.of_shift?_seconds_eq_some hl hshift
      obtain ⟨hfs, hfn⟩ := Instant.of_shift?_seconds_eq_some hf
        (.inr (Instant.not_isLeap_of_nanos_eq hln))
      refine ⟨⟨?_, ?_⟩, hls, hln⟩
      · rw [hfs, hls, Int.sub_mul]
        omega
      · rw [hfn, hln, Nat.mod_mod]

end window

def listed? : Exchange → Option (List Subscription)
  | ⟨.store (.listExpiring _ _), .ok subs⟩ => some subs
  | _ => none

def message? : Exchange → Option MessageCall
  | ⟨.message c, _⟩ => some c
  | _ => none

def call (a : UInt32 × Subscription) : MessageCall :=
  .send a.2.userId (text a.2 a.1)

def attemptsOf (days : List UInt32) (listings : List (List Subscription)) :
    List (UInt32 × Subscription) :=
  (days.zip listings).flatMap fun (n, subs) => subs.map (n, ·)

/-- A part of a pass made some listings and sent some messages. -/
structure Tells (s u : State) (listings : List (List Subscription)) (messages : List MessageCall) :
    Prop where
  listings : told listed? u = told listed? s ++ listings
  messages : told message? u = told message? s ++ messages

def Lists (id : SubscriptionId) (e now : Instant) (n : UInt32) (subs : List Subscription) : Prop :=
  ∃ first last, window now n = .ok (first, last) ∧
    subs.countP (·.id = id) = if first ≤ e ∧ e < last then 1 else 0

section pass

variable {C : Conditions} {id : SubscriptionId} {e now : Instant} {s u v : State} {n : UInt32}
  {days : List UInt32} {subs : List Subscription} {listings listings' : List (List Subscription)}
  {messages messages' : List MessageCall} {report : ReminderReport}

theorem Tells.refl (s : State) : Tells s s [] [] := by
  constructor <;> simp

theorem Tells.trans (h : Tells s u listings messages) (h' : Tells u v listings' messages') :
    Tells s v (listings ++ listings') (messages ++ messages') := by
  constructor
  · rw [h'.listings, h.listings, List.append_assoc]
  · rw [h'.messages, h.messages, List.append_assoc]

theorem tells_record {c : Effect} {a : c.Answer} (hh : u.history = s.history) :
    Tells s (u.record c a) (listed? ⟨c, a⟩).toList (message? ⟨c, a⟩).toList := by
  have htold {α : Type} (f : Exchange → Option α) : told f u = told f s := by
    rw [told, told, hh]
  constructor
  · rw [told_record, htold]
  · rw [told_record, htold]

@[simp] theorem attemptsOf_cons :
    attemptsOf (n :: days) (subs :: listings) =
      subs.map (fun sub => (n, sub)) ++ attemptsOf days listings := rfl

theorem countP_listExpiring {t : Store} (h : t.PaidUntil id e) (first last : Instant) :
    (t.listExpiring first last).countP (·.id = id) = if first ≤ e ∧ e < last then 1 else 0 := by
  obtain ⟨sub, hs, hactive, rfl⟩ := h
  have hcount : (t.listExpiring first last).countP (·.id = id) =
      ((t.listExpiring first last).map Subscription.id).count id := by
    rw [List.count_eq_countP, List.countP_map]
    congr 1
  rw [hcount, Store.listExpiring, (t.nodup_listSubscriptions _).count]
  congr 1
  simp [Store.mem_listSubscriptions_iff, hs, hactive]

theorem remindAll_wp :
    (remindAll n report subs).wp (C.paid id e).logic
      (fun _ u => Tells s u [] (subs.map fun sub => call (n, sub))) s := by
  induction subs generalizing report s with
  | nil => exact .refl s
  | cons sub subs ih =>
    rintro a _ ⟨t, -, u, hu, rfl⟩
    obtain rfl : u = s.setStore t := hu
    have hsent := tells_record (c := .message (call (n, sub))) (a := a) (s := s)
      (u := s.setStore t) rfl
    cases a <;> exact wp_mono (fun _ v hv => hsent.trans hv) ih

theorem serve_wp (hC : ∀ s a b err, ¬ C.storeFault s (.listExpiring a b) err) :
    (serve now report days).wp (C.paid id e).logic
      (fun r u => ∀ rep, r = .ok rep → ∃ listings, List.Forall₂ (Lists id e now) days listings ∧
        Tells s u listings ((attemptsOf days listings).map call)) s := by
  induction days generalizing report s with
  | nil => exact fun _ _ => ⟨[], .nil, .refl s⟩
  | cons n days ih =>
    rw [serve]
    cases hw : window now n with
    | error reason => rintro _ ⟨⟩
    | ok w =>
      obtain ⟨first, last⟩ := w
      rintro a _ ⟨t, ht, u, ⟨rfl, rfl⟩ | ⟨err, herr, -, -⟩, rfl⟩
      · have hlisted := tells_record (c := .store (.listExpiring first last))
          (a := .ok (t.listExpiring first last)) (s := s) (u := s.setStore t) rfl
        change Program.wp _ (remindAll n report (t.listExpiring first last) >>=
          fun report => serve now report days) _ _
        rw [wp_bind]
        refine wp_mono (fun report v hv => wp_mono (fun r v' h rep hrep => ?_) ih) remindAll_wp
        obtain ⟨listings, hls, hv'⟩ := h rep hrep
        refine ⟨t.listExpiring first last :: listings, ?_, ?_⟩
        · exact .cons ⟨first, last, hw, countP_listExpiring ht first last⟩ hls
        · have htells := (hlisted.trans hv).trans hv'
          simpa [listed?, message?, Function.comp_def] using htells
      · exact absurd herr (hC _ _ _ _)

theorem exists_window {N : UInt32} (h : List.Forall₂ (Lists id e now) days listings)
    (hN : N ∈ days) : ∃ first last, window now N = .ok (first, last) := by
  induction h with
  | nil => cases hN
  | cons hn _ ih =>
    obtain rfl | hN := List.mem_cons.mp hN
    · obtain ⟨first, last, hw, -⟩ := hn
      exact ⟨first, last, hw⟩
    · exact ih hN

theorem mem_of_mem_attemptsOf {a : UInt32 × Subscription} (h : a ∈ attemptsOf days listings) :
    a.1 ∈ days := by
  obtain ⟨⟨n, subs⟩, hz, ha⟩ := List.mem_flatMap.mp h
  obtain ⟨sub, -, rfl⟩ := List.mem_map.mp ha
  exact (List.of_mem_zip hz).1

theorem countP_attemptsOf {N : UInt32} {first last : Instant}
    (h : List.Forall₂ (Lists id e now) days listings) (hd : days.Nodup) (hN : N ∈ days)
    (hw : window now N = .ok (first, last)) :
    (attemptsOf days listings).countP (fun a => a.1 = N ∧ a.2.id = id) =
      if first ≤ e ∧ e < last then 1 else 0 := by
  induction h with
  | nil => cases hN
  | @cons n subs days listings hn h ih =>
    rw [attemptsOf_cons, List.countP_append, List.countP_map]
    obtain ⟨hnotMem, hd⟩ := List.nodup_cons.mp hd
    by_cases hnN : n = N
    · subst hnN
      obtain ⟨first', last', hw', hsubs⟩ := hn
      obtain ⟨rfl, rfl⟩ : first' = first ∧ last' = last := by simpa [hw'] using hw
      have hrest : (attemptsOf days listings).countP (fun a => a.1 = n ∧ a.2.id = id) = 0 := by
        rw [List.countP_eq_zero]
        intro a ha
        simp only [decide_eq_true_eq]
        rintro ⟨rfl, -⟩
        exact hnotMem (mem_of_mem_attemptsOf ha)
      rw [hrest, Nat.add_zero]
      simpa [Function.comp_def] using hsubs
    · obtain rfl | hmem := List.mem_cons.mp hN
      · exact absurd rfl hnN
      · simpa [Function.comp_def, hnN] using ih hd hmem

theorem remindAll_chance {t : Store} (ht : t.PaidUntil id e) :
    (remindAll n report subs).wp (C.paid id e).chance (fun _ _ => True) s := by
  induction subs generalizing report s with
  | nil => trivial
  | cons sub subs ih =>
    exact ⟨Except.ok (1 : Telegram.MessageId), _, ⟨t, ht, _, rfl, rfl⟩, ih⟩

theorem serve_chance {t : Store} (ht : t.PaidUntil id e)
    (hw : ∀ n ∈ days, ∃ w, window now n = .ok w) :
    (serve now report days).wp (C.paid id e).chance (fun r _ => ∃ rep, r = .ok rep) s := by
  induction days generalizing report s with
  | nil => exact ⟨report, rfl⟩
  | cons n days ih =>
    obtain ⟨⟨first, last⟩, hw'⟩ := hw n List.mem_cons_self
    rw [serve, hw']
    refine ⟨.ok (t.listExpiring first last), _, ⟨t, ht, _, .inl ⟨rfl, rfl⟩, rfl⟩, ?_⟩
    change Program.wp _ (remindAll n report (t.listExpiring first last) >>=
      fun report => serve now report days) _ _
    rw [wp_bind]
    exact wp_mono (fun _ _ _ => ih fun m hm => hw m (List.mem_cons_of_mem _ hm))
      (remindAll_chance ht)

end pass

structure Round where
  now : Instant
  listings : List (List Subscription)
  messages : List MessageCall

namespace Round

def attempts (days : List UInt32) (r : Round) : List (UInt32 × Subscription) :=
  attemptsOf (thresholds days) r.listings

/-- A pass ran to its end while a subscription stayed paid for until an instant. -/
def Ran (C : Conditions) (days : List UInt32) (id : SubscriptionId) (e : Instant) (r : Round) :
    Prop :=
  ∃ s report u, s.history = [] ∧ Runs (C.paid id e) (runAt days r.now) s (.ok report) u ∧
    r.listings = told listed? u ∧ r.messages = told message? u

variable {C : Conditions} {days : List UInt32} {id : SubscriptionId} {e now : Instant} {r : Round}

/-- Every attempt is a message, and there is none besides. -/
theorem Ran.messages_eq (hC : ∀ s a b err, ¬ C.storeFault s (.listExpiring a b) err)
    (h : r.Ran C days id e) : r.messages = (r.attempts days).map call := by
  obtain ⟨s, report, u, hs, hr, hl, hm⟩ := h
  obtain ⟨listings, -, ht⟩ := hr.of_wp (serve_wp hC) report rfl
  have hnil {α : Type} (f : Exchange → Option α) : told f s = [] := by simp [told, hs]
  rw [hm, ht.messages, hnil, List.nil_append, attempts, hl, ht.listings, hnil, List.nil_append]

/-- A pass attempts to remind of a subscription at a threshold, once, if its end lies in the
window. -/
theorem Ran.countP_attempts (hC : ∀ s a b err, ¬ C.storeFault s (.listExpiring a b) err)
    (h : r.Ran C days id e) {N : UInt32} (hN : N ∈ days) :
    ∃ first last, window r.now N = .ok (first, last) ∧
      (r.attempts days).countP (fun a => a.1 = N ∧ a.2.id = id) =
        if first ≤ e ∧ e < last then 1 else 0 := by
  obtain ⟨s, report, u, hs, hr, hl, -⟩ := h
  obtain ⟨listings, hls, ht⟩ := hr.of_wp (serve_wp hC) report rfl
  have hnil : told listed? s = [] := by simp [told, hs]
  have hmem := mem_thresholds_iff.mpr hN
  obtain ⟨first, last, hw⟩ := exists_window hls hmem
  refine ⟨first, last, hw, ?_⟩
  rw [attempts, hl, ht.listings, hnil, List.nil_append]
  exact countP_attemptsOf hls (nodup_thresholds days) hmem hw

theorem exists_ran {t : Store} (ht : t.PaidUntil id e)
    (hw : ∀ n ∈ days, ∃ w, window now n = .ok w) : ∃ r : Round, r.now = now ∧ r.Ran C days id e := by
  have hcan : Can (C.paid id e) (runAt days now) (fun r _ => ∃ report, r = .ok report) .waiting :=
    .of_wp (serve_chance ht fun n hn => hw n (mem_thresholds_iff.mp hn))
  obtain ⟨_, u, hr, report, rfl⟩ := hcan
  exact ⟨⟨now, told listed? u, told message? u⟩, rfl, .waiting, report, u, rfl, hr, rfl, rfl⟩

theorem exists_rounds {t : Store} (ht : t.PaidUntil id e) (ts : List Instant)
    (hw : ∀ now ∈ ts, ∀ n ∈ days, ∃ w, window now n = .ok w) :
    ∃ rounds : List Round, rounds.map Round.now = ts ∧ ∀ r ∈ rounds, r.Ran C days id e := by
  induction ts with
  | nil => exact ⟨[], rfl, by simp⟩
  | cons now ts ih =>
    obtain ⟨r, rfl, hr⟩ := exists_ran (C := C) ht (hw now List.mem_cons_self)
    obtain ⟨rounds, rfl, hrounds⟩ := ih fun u hu => hw u (List.mem_cons_of_mem _ hu)
    exact ⟨r :: rounds, rfl, List.forall_mem_cons.mpr ⟨hr, hrounds⟩⟩

end Round

end Reminder

end PeerFleet
