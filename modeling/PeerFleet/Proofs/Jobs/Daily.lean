import Mathlib.Data.List.Chain
import PeerFleet.Proofs.Jobs.Overlap
import PeerFleet.Proofs.Jobs.Reminder

/-! # Daily reminders

A reminder pass runs once a day, each time a little after the same time of day, and counts its
windows from the moment at which it runs. Where the windows of two passes in a row do not meet,
the end of a subscription may fall between them or into both.
-/

namespace PeerFleet.Reminder

open Fleet

section row

/- A window is one that `o` holds of if it opens after some moment, and `c` if it closes after the
moment. -/
variable {α : Type} {o c : α → Prop} [DecidablePred o] [DecidablePred c] {a : α} {l : List α}

omit [DecidablePred o] in
theorem forall_of_head (hmono : (a :: l).IsChain fun a b => o a → o b) (ha : o a) :
    ∀ b ∈ a :: l, o b := by
  induction l generalizing a with
  | nil => simpa using ha
  | cons b l ih =>
    rw [List.isChain_cons_cons] at hmono
    have hb := hmono.1 ha
    intro d hd
    obtain rfl | hd := List.mem_cons.mp hd
    · exact ha
    · exact ih hmono.2 hb d hd

theorem countP_of_head (hmono : (a :: l).IsChain fun a b => o a → o b) (ha : o a) :
    (a :: l).countP (fun b => ¬ o b ∧ c b) = 0 := by
  rw [List.countP_eq_zero]
  intro b hb
  simp [forall_of_head hmono ha b hb]

omit [DecidablePred o] [DecidablePred c] in
theorem isChain_of_head (hoc : ∀ b ∈ a :: l, o b → c b)
    (hmono : (a :: l).IsChain fun a b => o a → o b) (ha : o a) :
    (a :: l).IsChain fun a b => (c a ↔ o b) := by
  have hall := forall_of_head hmono ha
  refine hmono.imp_of_mem_imp fun b d hb hd _ => ?_
  exact iff_of_true (hoc b hb (hall b hb)) (hall d hd)

theorem countP_of_open (hoc : ∀ b ∈ a :: l, o b → c b)
    (ho : (a :: l).IsChain fun a b => o a → o b) (hc : (a :: l).IsChain fun a b => c a → c b)
    (hna : ¬ o a) (hca : c a) :
    (a :: l).countP (fun b => ¬ o b ∧ c b) = 1 ↔ (a :: l).IsChain fun a b => (c a ↔ o b) := by
  have hcount : (a :: l).countP (fun b => ¬ o b ∧ c b) = l.countP (fun b => ¬ o b ∧ c b) + 1 :=
    List.countP_cons_of_pos (by simp [hna, hca])
  cases l with
  | nil => simp [hna, hca]
  | cons b l =>
    rw [List.isChain_cons_cons] at ho hc
    rw [hcount, List.isChain_cons_cons]
    by_cases hb : o b
    · have hzero := countP_of_head (c := c) ho.2 hb
      have hchain := isChain_of_head (fun d hd => hoc d (List.mem_cons_of_mem a hd)) ho.2 hb
      rw [hzero]
      simp [hchain, hca, hb]
    · have hpos : 0 < (b :: l).countP (fun b => ¬ o b ∧ c b) :=
        List.countP_pos_iff.mpr ⟨b, List.mem_cons_self, by simp [hb, hc.1 hca]⟩
      constructor
      · omega
      · rintro ⟨hab, -⟩
        exact absurd (hab.mp hca) hb

/-- Windows open and close later and later. If the first closes before some moment and another
one after it, then exactly one window is open at the moment if and only if, of any two windows in
a row, the first closes after the moment exactly if the second opens after it. -/
theorem countP_eq_one_iff (hoc : ∀ b ∈ l, o b → c b) (ho : l.IsChain fun a b => o a → o b)
    (hc : l.IsChain fun a b => c a → c b) (hfirst : ∀ a ∈ l.head?, ¬ c a) (hlast : ∃ a ∈ l, c a) :
    l.countP (fun a => ¬ o a ∧ c a) = 1 ↔ l.IsChain fun a b => (c a ↔ o b) := by
  induction l with
  | nil => simp at hlast
  | cons a l ih =>
    have hca : ¬ c a := hfirst a rfl
    have hcount : (a :: l).countP (fun b => ¬ o b ∧ c b) = l.countP (fun b => ¬ o b ∧ c b) :=
      List.countP_cons_of_neg (by simp [hca])
    cases l with
    | nil => simp [hca] at hlast
    | cons b l =>
      rw [List.isChain_cons_cons] at ho hc
      rw [hcount, List.isChain_cons_cons]
      have hoc' : ∀ d ∈ b :: l, o d → c d := fun d hd => hoc d (List.mem_cons_of_mem a hd)
      by_cases hb : o b
      · rw [countP_of_head ho.2 hb]
        simp [hca, hb]
      · rw [and_iff_right (iff_of_false hca hb)]
        by_cases hcb : c b
        · exact countP_of_open hoc' ho.2 hc.2 hb hcb
        · refine ih hoc' ho.2 hc.2 (by simpa using hcb) ?_
          simpa [hca] using hlast

end row

/-- One instant on each of some days in a row, less than a minute after a time of day. -/
def Daily (hour minute : ℕ) (ts : List Instant) : Prop :=
  (∀ t ∈ ts, hour * 3600 + minute * 60 ≤ t.secondOfDay ∧
    t.secondOfDay < hour * 3600 + minute * 60 + 60) ∧
  ts.IsChain fun t u => u.day = t.day + 1

def opening (n : UInt32) (t : Instant) : ℤ :=
  (t.seconds + (n.toNat - 1) * 86400) * 2000000000 + (t.nanos % 1000000000 : ℕ)

def closing (n : UInt32) (t : Instant) : ℤ :=
  (t.seconds + n.toNat * 86400) * 2000000000 + (t.nanos % 1000000000 : ℕ)

section daily

variable {C : Conditions} {days : List UInt32} {N : UInt32} {id : SubscriptionId}
  {e t u : Instant} {w : Instant × Instant} {hour minute : ℕ} {rounds : List Round}
  {ts : List Instant}

theorem Daily.seconds_lt (h : Daily hour minute ts) :
    ts.IsChain fun t u => t.seconds < u.seconds := by
  refine h.2.imp_of_mem_imp fun t u ht hu hday => ?_
  have ht := h.1 t ht
  have hu := h.1 u hu
  unfold Instant.day at hday
  unfold Instant.secondOfDay at ht hu
  omega

theorem lt_window_iff (hN : N ≠ 0) (h : window t N = .ok w) :
    (e < w.1 ↔ e.place < opening N t) ∧ (e < w.2 ↔ e.place < closing N t) := by
  obtain ⟨⟨hfs, hfn⟩, hls, hln⟩ := of_window_eq_ok h (.inl hN)
  rw [Instant.lt_iff, Instant.lt_iff, Instant.place, Instant.place, Instant.place, hfs, hfn, hls,
    hln]
  exact ⟨Iff.rfl, Iff.rfl⟩

theorem opening_lt_closing (N : UInt32) (t : Instant) : opening N t < closing N t := by
  unfold opening closing
  omega

theorem opening_lt_opening (h : t.seconds < u.seconds) :
    opening N t < opening N u ∧ closing N t < closing N u := by
  unfold opening closing
  omega

theorem place_lt_closing (hN : N ≠ 0) : t.place < closing N t := by
  have hpos := toNat_pos hN
  have hlt := t.nanos_lt
  unfold Instant.place closing
  omega

theorem closing_lt_place (h : t.shift? ((N.toNat * 86400 + 120) * 1000000000) = some u) :
    closing N t < u.place := by
  obtain ⟨hs, hn⟩ := Instant.of_shift?_seconds_eq_some h (.inl (by omega))
  unfold Instant.place closing
  omega

theorem countP_rounds (hC : ∀ s a b err, ¬ C.storeFault s (.listExpiring a b) err)
    (hdays : N ∈ days) (hN : N ≠ 0) (hran : ∀ r ∈ rounds, r.Ran C days id e) :
    (rounds.flatMap (Round.attempts days)).countP (fun a => a.1 = N ∧ a.2.id = id) =
      (rounds.map Round.now).countP fun t =>
        ¬ e.place < opening N t ∧ e.place < closing N t := by
  induction rounds with
  | nil => rfl
  | cons r rounds ih =>
    obtain ⟨first, last, hw, hcount⟩ := (hran r List.mem_cons_self).countP_attempts hC hdays
    obtain ⟨hopen, hclose⟩ := lt_window_iff (e := e) hN hw
    rw [List.flatMap_cons, List.countP_append, hcount,
      ih fun r hr => hran r (List.mem_cons_of_mem _ hr), List.map_cons, List.countP_cons,
      Nat.add_comm]
    congr 1
    have hiff : first ≤ e ∧ e < last ↔ ¬ e.place < opening N r.now ∧ e.place < closing N r.now := by
      rw [← hopen, ← hclose, Instant.not_lt]
    simp only [hiff, decide_eq_true_eq]

/-- Passes on days in a row, the first well before the time for a reminder and one of them at the
end of the subscription or after it, attempt to remind of a subscription once for a threshold if
and only if, of any two passes in a row, the window of the first closes after the end exactly if
that of the second opens after it. Every attempt is a message. -/
theorem reminded_once_iff (hC : ∀ s a b err, ¬ C.storeFault s (.listExpiring a b) err)
    (hdays : N ∈ days) (hN : N ≠ 0) (hran : ∀ r ∈ rounds, r.Ran C days id e)
    (hts : rounds.map Round.now = ts) (hdaily : Daily hour minute ts)
    (hfirst : ∀ t ∈ ts.head?, ∃ u, t.shift? ((N.toNat * 86400 + 120) * 1000000000) = some u ∧ u ≤ e)
    (hlast : ∃ t ∈ ts, e ≤ t) :
    (∀ r ∈ rounds, r.messages = (r.attempts days).map call) ∧
    ((rounds.flatMap (Round.attempts days)).countP (fun a => a.1 = N ∧ a.2.id = id) = 1 ↔
      ts.IsChain fun t u => ∀ w w', window t N = .ok w → window u N = .ok w' →
        (e < w.2 ↔ e < w'.1)) := by
  refine ⟨fun r hr => (hran r hr).messages_eq hC, ?_⟩
  have hwindow : ∀ t ∈ ts, ∃ w, window t N = .ok w := by
    rw [← hts, List.forall_mem_map]
    intro r hr
    obtain ⟨first, last, hw, -⟩ := (hran r hr).countP_attempts hC hdays
    exact ⟨_, hw⟩
  have hchain : (ts.IsChain fun t u => ∀ w w', window t N = .ok w → window u N = .ok w' →
      (e < w.2 ↔ e < w'.1)) ↔
      ts.IsChain fun t u => (e.place < closing N t ↔ e.place < opening N u) := by
    refine List.IsChain.iff_of_mem_imp fun t u ht hu => ?_
    obtain ⟨w, hw⟩ := hwindow t ht
    obtain ⟨w', hw'⟩ := hwindow u hu
    rw [← (lt_window_iff hN hw).2, ← (lt_window_iff hN hw').1]
    simp [hw, hw']
  rw [countP_rounds hC hdays hN hran, hts, hchain]
  apply countP_eq_one_iff
  · intro t _ ho
    exact ho.trans (opening_lt_closing N t)
  · exact hdaily.seconds_lt.imp fun t u hlt ho => ho.trans (opening_lt_opening hlt).1
  · exact hdaily.seconds_lt.imp fun t u hlt hc => hc.trans (opening_lt_opening hlt).2
  · intro t ht hc
    obtain ⟨u, hu, hle⟩ := hfirst t ht
    have huc : closing N t < u.place := closing_lt_place hu
    rw [Instant.le_iff] at hle
    omega
  · obtain ⟨t, ht, hle⟩ := hlast
    rw [Instant.le_iff] at hle
    exact ⟨t, ht, Int.lt_of_le_of_lt hle (place_lt_closing hN)⟩

end daily

def moment (seconds : ℤ) : Instant :=
  (Instant.ofParts? seconds 0).getD .epoch

def storeUntil (e : Instant) : Store :=
  ({} : Store).upsertSubscription { id := 1, userId := 10, tariff := "month", expiresAt := e }

theorem paidUntil_storeUntil (e : Instant) : (storeUntil e).PaidUntil 1 e :=
  ⟨_, rfl, rfl, rfl⟩

/-- Three passes at midnight, the last of them a second late. -/
def nights : List Instant :=
  [moment 0, moment 86400, moment 172801]

theorem daily_nights : Daily 0 0 nights := by
  unfold Daily
  decide

theorem exists_rounds_nights (e : Instant) : ∃ rounds : List Round,
    rounds.map Round.now = nights ∧ ∀ r ∈ rounds, r.Ran calm [1] 1 e := by
  apply Round.exists_rounds (paidUntil_storeUntil e)
  intro now hnow n hn
  obtain rfl := List.mem_singleton.mp hn
  simp only [nights, List.mem_cons, List.not_mem_nil, or_false] at hnow
  rcases hnow with rfl | rfl | rfl <;> exact ⟨_, rfl⟩

theorem reminded_at_second_night : ∃ rounds : List Round,
    (∀ r ∈ rounds, r.Ran calm [1] 1 (moment 172799)) ∧ rounds.map Round.now = nights ∧
    Daily 0 0 nights ∧
    (∀ t ∈ nights.head?, ∃ u, t.shift? (((1 : UInt32).toNat * 86400 + 120) * 1000000000) = some u ∧
      u ≤ moment 172799) ∧
    (∃ t ∈ nights, moment 172799 ≤ t) ∧
    (rounds.flatMap (Round.attempts [1])).countP (fun a => a.1 = 1 ∧ a.2.id = 1) = 1 := by
  obtain ⟨rounds, hnow, hran⟩ := exists_rounds_nights (moment 172799)
  have hfirst : ∀ t ∈ nights.head?, ∃ u,
      t.shift? (((1 : UInt32).toNat * 86400 + 120) * 1000000000) = some u ∧ u ≤ moment 172799 := by
    rintro _ ⟨⟩
    exact ⟨moment 86520, by decide, by decide⟩
  have hlast : ∃ t ∈ nights, moment 172799 ≤ t := by decide
  refine ⟨rounds, hran, hnow, daily_nights, hfirst, hlast, ?_⟩
  apply (reminded_once_iff (fun _ _ _ _ => id) (by decide) (by decide) hran hnow daily_nights hfirst
    hlast).2.mpr
  rw [nights, List.isChain_cons_cons, List.isChain_pair]
  constructor
  · intro w w' hw hw'
    rw [(lt_window_iff (by decide) hw).2, (lt_window_iff (by decide) hw').1]
    decide
  · intro w w' hw hw'
    rw [(lt_window_iff (by decide) hw).2, (lt_window_iff (by decide) hw').1]
    decide

/-- A subscription that ends at the third midnight is in the window of no pass. -/
theorem exists_unreminded : ∃ (rounds : List Round) (e : Instant),
    (∀ r ∈ rounds, r.Ran calm [1] 1 e) ∧ rounds.map Round.now = nights ∧ Daily 0 0 nights ∧
    (∀ t ∈ nights.head?, ∃ u, t.shift? (((1 : UInt32).toNat * 86400 + 120) * 1000000000) = some u ∧
      u ≤ e) ∧
    (∃ t ∈ nights, e ≤ t) ∧
    (rounds.flatMap (Round.attempts [1])).countP (fun a => a.1 = 1 ∧ a.2.id = 1) = 0 := by
  obtain ⟨rounds, hnow, hran⟩ := exists_rounds_nights (moment 172800)
  refine ⟨rounds, moment 172800, hran, hnow, daily_nights, ?_, by decide, ?_⟩
  · rintro _ ⟨⟩
    exact ⟨moment 86520, by decide, by decide⟩
  · rw [countP_rounds (fun _ _ _ _ => id) (by decide) (by decide) hran, hnow]
    decide

end PeerFleet.Reminder
