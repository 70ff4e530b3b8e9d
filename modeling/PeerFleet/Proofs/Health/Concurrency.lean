import PeerFleet.Proofs.Health.Outage
import PeerFleet.Proofs.Program.Interleaving

/-! # Observations that take turns

Observations of nodes and passes of the health monitor take turns at their calls. An outcome is
filed by one call, and the messages about it are filed by another one, which may come when the
node is healthy again or was forgotten. Whatever the order, a record is what the history of the
filings tells. Messages that come when the outage is over are left out, unless the node is out
again by then: they are filed with the new outage.
-/

namespace PeerFleet.Health

open Fleet Program

/-- A node is down exactly if it is known since when, and exactly if it failed at least once, and
messages are kept only while it is down. -/
structure Sound (h : NodeHealth) : Prop where
  since : h.state = .down ↔ h.downSince.isSome
  failures : h.state = .down ↔ 1 ≤ h.failures
  reports : h.state ≠ .down → h.reports = []

/-- The readings of a node since it was last forgotten, the last one first. -/
def recent (id : NodeId) : List HealthCall → List Reading
  | [] => []
  | .record n probe at_ :: earlier =>
    if n.id = id then ⟨n, probe, at_⟩ :: recent id earlier else recent id earlier
  | .remember _ _ :: earlier => recent id earlier
  | .retain ids :: earlier => if id ∈ ids then recent id earlier else []

/-- The last reading of a node failed, and the node was not forgotten since. -/
def out (id : NodeId) (filings : List HealthCall) : Bool :=
  (recent id filings).head?.any fun o => !o.probe.healthy

/-- The messages that are kept with a node: those that were last filed while it was out. -/
def kept (id : NodeId) : List HealthCall → Reports
  | [] => []
  | .record n probe _ :: earlier => if n.id = id ∧ probe.healthy then [] else kept id earlier
  | .remember j reports :: earlier =>
    if j = id ∧ out id earlier then reports else kept id earlier
  | .retain ids :: earlier => if id ∈ ids then kept id earlier else []

def recordFrom (id : NodeId) (filings : List HealthCall) : Option NodeHealth :=
  (recordOf? (recent id filings)).map fun h => { h with reports := kept id filings }

section filings

variable {id j : NodeId} {filings earlier : List HealthCall} {h : NodeHealth} {n : Node}
  {probe : ProbeResult} {at_ : Instant} {r : HealthRecords} {reports : Reports}

theorem length_recent_le : (recent id filings).length ≤ filings.length := by
  induction filings with
  | nil => rfl
  | cons c earlier ih =>
    cases c with
    | record n probe at_ =>
      rw [recent]
      split_ifs
      · exact Nat.succ_le_succ ih
      · exact ih.trans (Nat.le_succ _)
    | remember j reports => exact ih.trans (Nat.le_succ _)
    | retain ids =>
      rw [recent]
      split_ifs
      · exact ih.trans (Nat.le_succ _)
      · exact Nat.zero_le _

theorem length_failing_recent_le : (failing (recent id filings)).length ≤ filings.length :=
  (List.takeWhile_sublist _).length_le.trans length_recent_le

theorem out_record_self (hn : n.id = id) :
    out id (.record n probe at_ :: earlier) = !probe.healthy := by
  simp [out, recent, hn]

theorem out_record_of_ne (hn : n.id ≠ id) :
    out id (.record n probe at_ :: earlier) = out id earlier := by
  simp [out, recent, hn]

theorem kept_eq_nil (ho : out id filings = false) : kept id filings = [] := by
  induction filings with
  | nil => rfl
  | cons c earlier ih =>
    cases c with
    | record n probe at_ =>
      rw [kept]
      by_cases hn : n.id = id
      · rw [out_record_self hn, Bool.not_eq_eq_eq_not, Bool.not_false] at ho
        exact if_pos ⟨hn, ho⟩
      · rw [out_record_of_ne hn] at ho
        rw [if_neg fun h => hn h.1, ih ho]
    | remember j reports =>
      change out id earlier = false at ho
      rw [kept, if_neg (by simp [ho]), ih ho]
    | retain ids =>
      rw [kept]
      split_ifs with hid
      · rw [out, recent, if_pos hid] at ho
        exact ih ho
      · rfl

theorem recordFrom_eq_some_iff : recordFrom id filings = some h ↔
    ∃ o l, recent id filings = o :: l ∧ h = { recordOf o l with reports := kept id filings } := by
  unfold recordFrom
  cases recent id filings with
  | nil => simp [recordOf?]
  | cons o l => simp [recordOf?, eq_comm]

theorem state_recordFrom (hr : recordFrom id filings = some h) :
    h.state = .down ↔ out id filings := by
  obtain ⟨o, l, hl, rfl⟩ := recordFrom_eq_some_iff.mp hr
  rw [out, hl]
  cases hh : o.probe.healthy <;> simp [recordOf, hh]

theorem reports_recordFrom (hr : recordFrom id filings = some h) :
    h.reports = kept id filings := by
  obtain ⟨_, _, -, rfl⟩ := recordFrom_eq_some_iff.mp hr
  rfl

theorem sound_recordFrom (hr : recordFrom id filings = some h)
    (hlt : (failing (recent id filings)).length < UInt32.size) : Sound h := by
  have hstate := state_recordFrom hr
  obtain ⟨o, l, hl, rfl⟩ := recordFrom_eq_some_iff.mp hr
  rw [hl] at hlt
  refine ⟨?_, ?_, fun hs => kept_eq_nil (by simpa [hstate] using hs)⟩
  · cases hh : o.probe.healthy with
    | true => simp [recordOf, hh, failing_cons_of_healthy]
    | false => simp [recordOf, hh, getLast?_failing_cons]
  · rw [UInt32.le_iff_toNat_le, show _ = _ from toNat_failures_recordOf hlt]
    cases hh : o.probe.healthy with
    | true => simp [recordOf, hh, failing_cons_of_healthy]
    | false => simp [recordOf, hh, failing_cons_of_failed]

theorem reports_apply (healthy : Bool) : (h.apply healthy at_).2.reports =
    if healthy ∧ h.state = .down then [] else h.reports := by
  obtain ⟨_, _, state, _, _, _, _, _⟩ := h
  cases state <;> cases healthy <;> rfl

/-- The records are those that the filings tell. -/
def Tell (filings : List HealthCall) (r : HealthRecords) : Prop :=
  ∀ id, r.node? id = recordFrom id filings

theorem tell_nil : Tell [] .empty := fun _ => rfl

theorem map_bare_recordFrom :
    (recordFrom id filings).map bare = recordOf? (recent id filings) := by
  unfold recordFrom
  cases recent id filings <;> rfl

theorem out_eq_false_of_none (hr : recordFrom id filings = none) : out id filings = false := by
  rw [recordFrom, Option.map_eq_none_iff] at hr
  cases hl : recent id filings with
  | nil => simp [out, hl]
  | cons o l =>
    rw [hl] at hr
    cases hr

theorem Tell.reports_record (ht : Tell filings r) (n : Node) (probe : ProbeResult)
    (at_ : Instant) :
    (r.record n probe at_).1.2.reports = if probe.healthy then [] else kept n.id filings := by
  have hr := ht n.id
  cases hn : r.node? n.id with
  | none =>
    rw [hn] at hr
    rw [record_of_none hn, reports_apply, kept_eq_nil (out_eq_false_of_none hr.symm)]
    simp
  | some old =>
    rw [hn] at hr
    rw [record_of_some hn, reports_apply]
    change (if probe.healthy = true ∧ old.state = .down then [] else old.reports) = _
    simp only [state_recordFrom hr.symm, reports_recordFrom hr.symm]
    cases ho : out n.id filings with
    | true => simp
    | false => simp [kept_eq_nil ho]

theorem Tell.record (ht : Tell filings r) (n : Node) (probe : ProbeResult) (at_ : Instant) :
    Tell (.record n probe at_ :: filings) (r.record n probe at_).2 := by
  intro id
  rw [node?_record]
  by_cases hn : n.id = id
  · subst hn
    have hbare : (r.node? n.id).map bare = recordOf? (recent n.id filings) := by
      rw [ht n.id, map_bare_recordFrom]
    have hrec := (record_of_readings (o := ⟨n, probe, at_⟩) hbare).2
    rw [if_pos rfl, eq_comm, recordFrom_eq_some_iff]
    refine ⟨⟨n, probe, at_⟩, recent n.id filings, if_pos rfl, ?_⟩
    rw [← hrec, kept]
    simp only [true_and]
    rw [← ht.reports_record n probe at_]
    rfl
  · rw [if_neg hn, ht id, recordFrom, recordFrom, recent, kept, if_neg hn, if_neg fun h => hn h.1]

/-- Messages are filed with a node that is out, and with no other. -/
theorem Tell.remember (ht : Tell filings r) (id : NodeId) (reports : Reports) :
    Tell (.remember id reports :: filings) (r.remember id reports) := by
  intro j
  rw [node?_remember, ht j]
  by_cases hj : j = id
  · subst hj
    rw [if_pos rfl]
    cases hr : recordFrom j filings with
    | none =>
      rw [recordFrom, Option.map_eq_none_iff] at hr
      rw [recordFrom, recent, hr]
      rfl
    | some h =>
      have hstate := state_recordFrom hr
      obtain ⟨o, l, hl, rfl⟩ := recordFrom_eq_some_iff.mp hr
      rw [eq_comm, Option.map_some, recordFrom_eq_some_iff]
      refine ⟨o, l, hl, ?_⟩
      rw [NodeHealth.remember, kept]
      simp only [hstate, true_and]
      split_ifs <;> rfl
  · rw [if_neg hj, recordFrom, recordFrom, recent, kept, if_neg fun h => hj h.1.symm]

theorem Tell.retain (ht : Tell filings r) (ids : List NodeId) :
    Tell (.retain ids :: filings) (r.retain ids) := by
  intro id
  rw [node?_retain, ht id, recordFrom, recordFrom, recent, kept]
  split_ifs <;> rfl

theorem Tell.perform (ht : Tell filings r) (c : HealthCall) :
    Tell (c :: filings) (r.perform c).2 := by
  cases c with
  | record n probe at_ => exact ht.record n probe at_
  | remember id reports => exact ht.remember id reports
  | retain ids => exact ht.retain ids

end filings

inductive Watching where
  | observe (admins : List UserId) (n : Node) (probe : ProbeResult) (at_ : Instant)
  | pass (admins : List UserId) (now : Instant)

def Watching.Result : Watching → Type
  | .observe _ _ _ _ => Transition
  | .pass _ _ => Except StoreError Nat

def watches : Workload Effects State Watching where
  Result := Watching.Result
  program
    | .observe admins n probe at_ => observe admins n probe at_
    | .pass admins now => (runAt admins now).run
  admits _ _ _ := True

/-- What a call does to the records. No call but a filing changes them. -/
def files (r : HealthRecords) : (c : Effect) → c.Answer → HealthRecords → Prop
  | .health c, a, r' => (a, r') = r.perform c
  | _, _, r' => r' = r

/-- Every call is written down. Whatever is called but filings may be answered in any way, and
may change anything but the records. -/
def unruled : Environment Effects State :=
  fun c s a s' => s'.history = ⟨c, a⟩ :: s.history ∧ files s.health c a s'.health

def filing? : Exchange → Option HealthCall
  | ⟨.health c, _⟩ => some c
  | _ => none

def filings (s : State) : List HealthCall :=
  s.history.filterMap filing?

/-- After these filings a node is not out: it was healthy, or it was forgotten. -/
def Ends (id : NodeId) : HealthCall → Prop
  | .record n probe _ => n.id = id ∧ probe.healthy = true
  | .remember _ _ => False
  | .retain ids => id ∉ ids

def Fails (id : NodeId) : HealthCall → Prop
  | .record n probe _ => n.id = id ∧ probe.healthy = false
  | .remember _ _ | .retain _ => False

/-- The outage of a node is over: since it was healthy or forgotten it did not fail again. -/
def Over (id : NodeId) (filings : List HealthCall) : Prop :=
  ∃ later c earlier, filings = later ++ c :: earlier ∧ Ends id c ∧ ∀ d ∈ later, ¬ Fails id d

/-- A filing about a node changes no record, and the record of the node has no messages. -/
def LeftOut (id : NodeId) (s s' : State) : Prop :=
  (∀ j, s'.health.node? j = s.health.node? j) ∧
    ∀ h, s'.health.node? id = some h → h.reports = []

section turns

variable {s s' : State} {id : NodeId} {ts : watches.Threads} {c : Effect} {a : c.Answer}

theorem unruled_of_surroundings {C : Conditions} (he : C.surroundings c s a s') :
    unruled c s a s' := by
  obtain ⟨u, hu, rfl⟩ := he
  refine ⟨congrArg (List.cons _) (history_of_effect hu), ?_⟩
  change files s.health c a u.health
  cases c with
  | health c => exact Prod.ext hu.1 (congrArg State.health hu.2)
  | _ => exact health_of_effect hu (by rintro _ ⟨⟩)

theorem tell_of_unruled (ht : Tell (filings s) s.health) (he : unruled c s a s') :
    Tell (filings s') s'.health := by
  obtain ⟨hh, hf⟩ := he
  rw [filings, hh, List.filterMap_cons]
  cases c with
  | health c =>
    have hr : s'.health = (s.health.perform c).2 := congrArg Prod.snd hf
    rw [hr]
    exact ht.perform c
  | _ =>
    obtain hf : s'.health = s.health := hf
    rw [hf]
    exact ht

/-- Whatever takes turns with what, the records are those that the filings tell. -/
theorem tell_of_reaches {s₀ : State} (hr : watches.Reaches unruled (0, s₀) (ts, s))
    (hh : s₀.health = .empty) (h₀ : s₀.history = []) : Tell (filings s) s.health := by
  refine hr.safe (J := fun s => Tell (filings s) s.health) tell_of_unruled ?_
  rw [filings, hh, h₀]
  exact tell_nil

/-- A message that is filed while the node is out is filed with that outage, even if it is about
an earlier one. -/
theorem Tell.exists_of_out {r : HealthRecords} {filings : List HealthCall} {reports : Reports}
    (ht : Tell filings r) (ho : out id filings = true) :
    ∃ h, (r.remember id reports).node? id = some h ∧ h.state = .down ∧ h.reports = reports := by
  cases hr : recordFrom id filings with
  | none => simp [out_eq_false_of_none hr] at ho
  | some h =>
    have hdown := (state_recordFrom hr).mpr ho
    refine ⟨{ h with reports }, ?_, hdown, rfl⟩
    rw [node?_remember, if_pos rfl, ht id, hr]
    exact congrArg some (if_pos hdown)

theorem out_cons_of_ends {filings : List HealthCall} {c : HealthCall} (h : Ends id c) :
    out id (c :: filings) = false := by
  cases c with
  | record n probe at_ => simp [out_record_self h.1, h.2]
  | remember => cases h
  | retain ids =>
    have hid : id ∉ ids := h
    simp [out, recent, hid]

theorem out_cons_of_fails {filings : List HealthCall} {c : HealthCall} (h : Fails id c) :
    out id (c :: filings) = true := by
  cases c with
  | record n probe at_ => simp [out_record_self h.1, h.2]
  | remember | retain => cases h

theorem out_cons {filings : List HealthCall} {c : HealthCall} (he : ¬ Ends id c)
    (hf : ¬ Fails id c) : out id (c :: filings) = out id filings := by
  cases c with
  | record n probe at_ =>
    refine out_record_of_ne fun hn => ?_
    cases hh : probe.healthy with
    | true => exact he ⟨hn, hh⟩
    | false => exact hf ⟨hn, hh⟩
  | remember => rfl
  | retain ids => rw [out, recent, if_pos (not_not.mp he), ← out]

theorem out_eq_false_of_over {filings : List HealthCall} (ho : Over id filings) :
    out id filings = false := by
  obtain ⟨later, c, earlier, rfl, hc, hlater⟩ := ho
  induction later with
  | nil => exact out_cons_of_ends hc
  | cons d later ih =>
    obtain ⟨hd, hlater⟩ := List.forall_mem_cons.mp hlater
    by_cases he : Ends id d
    · exact out_cons_of_ends he
    · exact (out_cons he hd).trans (ih hlater)

theorem over_of_out_eq_false {filings : List HealthCall} (hc : ∃ c ∈ filings, Ends id c)
    (ho : out id filings = false) : Over id filings := by
  induction filings with
  | nil => simp at hc
  | cons d earlier ih =>
    by_cases hd : Ends id d
    · exact ⟨[], d, earlier, rfl, hd, by simp⟩
    have hf : ¬ Fails id d := fun hf => by simp [out_cons_of_fails hf] at ho
    have hearlier : ∃ c ∈ earlier, Ends id c := by simpa [hd] using hc
    rw [out_cons hd hf] at ho
    obtain ⟨later, c, rest, rfl, hends, hlater⟩ := ih hearlier ho
    exact ⟨d :: later, c, rest, rfl, hends, List.forall_mem_cons.mpr ⟨hf, hlater⟩⟩

theorem node?_remember_of_over {r : HealthRecords} {filings : List HealthCall} {j : NodeId}
    {reports : Reports} (ht : Tell filings r) (ho : Over id filings) :
    (r.remember id reports).node? j = r.node? j := by
  rw [node?_remember]
  split_ifs with hj
  · subst hj
    cases hn : r.node? j with
    | none => rfl
    | some h =>
      have hstate := state_recordFrom ((ht j).symm.trans hn)
      rw [out_eq_false_of_over ho] at hstate
      exact congrArg some (if_neg (by simpa using hstate))
  · rfl

/-- Observations and passes that take turns in any way leave only records that make sense. Messages
that are filed after the node was healthy or forgotten are left out exactly if it did not fail
again since: the records do not tell which outage a message is about. -/
theorem records_sound_and_leftOut_iff {s₀ : State} (hh : s₀.health = .empty)
    (h₀ : s₀.history = []) (hr : watches.Reaches unruled (0, s₀) (ts, s))
    (hlt : ∀ id, (failing (recent id (filings s))).length < UInt32.size) :
    (∀ id h, s.health.node? id = some h → Sound h) ∧
    ∀ id reports s', reports ≠ [] → (∃ c ∈ filings s, Ends id c) →
      unruled (.health (.remember id reports)) s () s' →
      (LeftOut id s s' ↔ Over id (filings s)) := by
  have ht := tell_of_reaches hr hh h₀
  refine ⟨fun id h hn => sound_recordFrom ((ht id).symm.trans hn) (hlt id),
    fun id reports s' hne hended he => ?_⟩
  have hs' : s'.health = s.health.remember id reports := congrArg Prod.snd he.2
  constructor
  · intro hleft
    refine over_of_out_eq_false hended (Bool.eq_false_iff.mpr fun ho => ?_)
    obtain ⟨h, hn, -, hreports⟩ : ∃ h, (s.health.remember id reports).node? id = some h ∧
      h.state = .down ∧ h.reports = reports := ht.exists_of_out ho
    exact hne (hreports.symm.trans (hleft.2 h (hs' ▸ hn)))
  · intro ho
    have hsame (j : NodeId) : s'.health.node? j = s.health.node? j := by
      rw [hs', node?_remember_of_over ht ho]
    refine ⟨hsame, fun h hn => ?_⟩
    have hrec := (ht id).symm.trans ((hsame id).symm.trans hn)
    rw [reports_recordFrom hrec, kept_eq_nil (out_eq_false_of_over ho)]

end turns

theorem leftOut_late_report : ∃ (t : Thread Effects watches.Result) (ts : watches.Threads)
    (s s' : State), watches.Reaches unruled (0, .founding plainNode) (t ::ₘ ts, s) ∧
    t.rest.next? = some (.health (.remember 1 [(7, 100)])) ∧
    unruled (.health (.remember 1 [(7, 100)])) s () s' ∧
    ∃ h, s'.health.node? 1 = some h ∧ Sound h ∧ h.state = .up ∧ h.reports = [] := by
  have hreach : watches.Can unruled (0, .founding plainNode) fun x => ∃ t ts, x.1 = t ::ₘ ts ∧
      t.rest.next? = some (.health (.remember 1 [(7, 100)])) ∧
      filings x.2 = [.record plainNode (.ofLatency 7) .epoch, .record plainNode refused .epoch] ∧
      (x.2.health.node? 1).map NodeHealth.state = some .up := by
    refine .start (k := .observe [7] plainNode refused .epoch) trivial ?_
    refine .call (unruled_of_surroundings (C := troubles) ⟨_, ⟨rfl, rfl⟩, rfl⟩) (.note ?_)
    refine .call (a := Except.ok (100 : Telegram.MessageId))
      (unruled_of_surroundings (C := troubles) ⟨_, rfl, rfl⟩) ?_
    refine .start (k := .observe [] plainNode (.ofLatency 7) .epoch) trivial ?_
    refine .call (unruled_of_surroundings (C := troubles) ⟨_, ⟨rfl, rfl⟩, rfl⟩) (.note ?_)
    refine .swap (.here ?_)
    dsimp only
    exact ⟨_, _, rfl, rfl, rfl, rfl⟩
  obtain ⟨⟨_, s⟩, hr, t, ts, rfl, ht, hf, hstate⟩ := hreach
  obtain ⟨h, hn, hup⟩ := Option.map_eq_some_iff.mp hstate
  have hends : Ends 1 (.record plainNode (.ofLatency 7) .epoch) := ⟨rfl, rfl⟩
  have hmem : .record plainNode (.ofLatency 7) .epoch ∈ filings s := hf ▸ List.mem_cons_self
  have hover : Over 1 (filings s) :=
    ⟨[], _, _, hf, hends, by simp⟩
  have hlt (id : NodeId) : (failing (recent id (filings s))).length < UInt32.size := by
    refine length_failing_recent_le.trans_lt ?_
    rw [hf]
    decide
  obtain ⟨hsound, hlate⟩ := records_sound_and_leftOut_iff rfl rfl hr hlt
  have he : unruled (.health (.remember 1 [(7, 100)])) s () _ :=
    unruled_of_surroundings (C := troubles) ⟨_, ⟨rfl, rfl⟩, rfl⟩
  obtain ⟨hsame, hnone⟩ :=
    (hlate 1 [(7, 100)] _ (List.cons_ne_nil _ _) ⟨_, hmem, hends⟩ he).mpr hover
  have hn' := (hsame 1).trans hn
  exact ⟨t, ts, s, _, hr, ht, he, h, hn', hsound 1 h hn, hup, hnone h hn'⟩

def relapse : List HealthCall :=
  [.remember 1 [(7, 101)], .record plainNode (.ofError 9 "HTTP 503") .epoch,
    .record plainNode (.ofLatency 7) .epoch, .record plainNode refused .epoch]

/-- The message about an outage is filed when the node was healthy and has failed again: it takes
the place of the message about the new outage. -/
theorem exists_late_report : ∃ (t : Thread Effects watches.Result) (ts : watches.Threads)
    (s s' : State), watches.Reaches unruled (0, .founding plainNode) (t ::ₘ ts, s) ∧
    t.kind = .observe [7] plainNode refused .epoch ∧
    t.rest.next? = some (.health (.remember 1 [(7, 100)])) ∧
    filings s = relapse ∧
    unruled (.health (.remember 1 [(7, 100)])) s () s' ∧
    (s.health.node? 1).map NodeHealth.reports = some [(7, 101)] ∧
    (s'.health.node? 1).map NodeHealth.reports = some [(7, 100)] := by
  have hreach : watches.Can unruled (0, .founding plainNode) fun x => ∃ t ts, x.1 = t ::ₘ ts ∧
      t.kind = .observe [7] plainNode refused .epoch ∧
      t.rest.next? = some (.health (.remember 1 [(7, 100)])) ∧
      filings x.2 = relapse ∧
      (x.2.health.node? 1).map NodeHealth.reports = some [(7, 101)] ∧
      ((x.2.health.remember 1 [(7, 100)]).node? 1).map NodeHealth.reports = some [(7, 100)] := by
    refine .start (k := .observe [7] plainNode refused .epoch) trivial ?_
    refine .call (unruled_of_surroundings (C := troubles) ⟨_, ⟨rfl, rfl⟩, rfl⟩) (.note ?_)
    refine .call (a := Except.ok (100 : Telegram.MessageId))
      (unruled_of_surroundings (C := troubles) ⟨_, rfl, rfl⟩) ?_
    refine .start (k := .observe [] plainNode (.ofLatency 7) .epoch) trivial ?_
    refine .call (unruled_of_surroundings (C := troubles) ⟨_, ⟨rfl, rfl⟩, rfl⟩) (.note ?_)
    refine .swap ?_
    refine .start (k := .observe [7] plainNode (.ofError 9 "HTTP 503") .epoch) trivial ?_
    refine .call (unruled_of_surroundings (C := troubles) ⟨_, ⟨rfl, rfl⟩, rfl⟩) (.note ?_)
    refine .call (a := Except.ok (101 : Telegram.MessageId))
      (unruled_of_surroundings (C := troubles) ⟨_, rfl, rfl⟩) ?_
    refine .call (unruled_of_surroundings (C := troubles) ⟨_, ⟨rfl, rfl⟩, rfl⟩) ?_
    refine .swap (.here ?_)
    dsimp only
    exact ⟨_, _, rfl, rfl, rfl, rfl, rfl, rfl⟩
  obtain ⟨⟨_, s⟩, hr, t, ts, rfl, hkind, ht, hf, hbefore, hafter⟩ := hreach
  have he : unruled (.health (.remember 1 [(7, 100)])) s () _ :=
    unruled_of_surroundings (C := troubles) ⟨_, ⟨rfl, rfl⟩, rfl⟩
  exact ⟨t, ts, s, _, hr, hkind, ht, hf, he, hbefore, hafter⟩

end PeerFleet.Health
