import PeerFleet.Proofs.Health.Observation
import PeerFleet.Proofs.Text.Digits

/-! # Messages of an outage

One observation after another. An outage of a node is told to each admin in one message, which is
edited as long as the node stays down, and its end in one more.
-/

namespace PeerFleet.Health

open Fleet Program
open Telegram (MessageId)

/-- An observation, with the calls on the messenger that it has made, the first one first. -/
structure Sighting where
  reading : Reading
  messages : List Dispatch

/-- One observation after another, the last one first, by a monitor. -/
inductive Watch (C : Conditions) (admins : List UserId) : State → List Sighting → State → Prop
  | nil (s : State) : Watch C admins s [] s
  | observe {s t u : State} {log : List Sighting} {o : Reading} {tr : Transition} :
      Watch C admins s log t →
      Runs C.surroundings (observe admins o.node o.probe o.at_) (afresh t) tr u →
        Watch C admins s (⟨o, told dispatch? u⟩ :: log) u

/-- The last observations of a node, as far back as it failed all of them. -/
def outage (id : NodeId) (log : List Sighting) : List Sighting :=
  (log.filter (·.reading.node.id = id)).takeWhile fun x => !x.reading.probe.healthy

def sent? (chat : UserId) : Dispatch → Option MessageId
  | ⟨.send c _, .ok id⟩ => if c = chat then some id else none
  | _ => none

/-- The messages that reached a chat in some observations, the first one first. -/
def delivered (chat : UserId) (out : List Sighting) : List MessageId :=
  out.reverse.flatMap fun x => x.messages.filterMap (sent? chat)

/-- The calls on the messenger that an observation owes to the admins after those of the outage
that it goes on with or ends. -/
def dueCalls (admins : List UserId) (o : Reading) (out : List Sighting) : List MessageCall :=
  match o.probe.healthy, out.getLast? with
  | false, _ => admins.map fun admin =>
    let text := downText o.node (UInt32.ofNat (out.length + 1)) o.probe
    match (delivered admin out).head? with
    | some id => .edit admin id text
    | none => .send admin text
  | true, some first =>
    admins.map (.send · (recoveredText o.node (o.at_.elapsed first.reading.at_)))
  | true, none => []

section texts

/-- The message about an outage shows how often the node failed and what was wrong last. -/
theorem exists_toList_downText (n : Node) : ∃ front, ∀ failures probe,
    (downText n failures probe).toList = front ++ "Failed checks: ".toList ++
      (Nat.toDigits 10 failures.toNat ++
        ("\nLast error: ".toList ++ (probe.error.getD "unhealthy").toList)) := by
  refine ⟨s!"Node {n.name} (#{n.id}) is DOWN\n".toList, fun failures probe => ?_⟩
  have hfailures := Text.toList_toString_uint32 failures
  simp [downText, hfailures, Text.toString_self]

theorem downText_eq_iff {n : Node} {f g : UInt32} {p q : ProbeResult} :
    downText n f p = downText n g q ↔
      f = g ∧ p.error.getD "unhealthy" = q.error.getD "unhealthy" := by
  obtain ⟨front, htext⟩ := exists_toList_downText n
  rw [← String.toList_inj, htext, htext, List.append_right_inj]
  constructor
  · intro h
    obtain ⟨hfailures, herror⟩ :=
      Text.toDigits_append_inj (by simp [Text.isDigit]) (by simp [Text.isDigit]) h
    exact ⟨UInt32.toNat_inj.mp hfailures, String.toList_inj.mp (List.append_cancel_left herror)⟩
  · rintro ⟨rfl, herror⟩
    rw [herror]

end texts

section reports

variable {existing r : Reports} {text : String} {admins : List UserId} {a : UserId}
  {d : Dispatch} {ds : List Dispatch}

def recipient : MessageCall → UserId
  | .send chat _ | .edit chat _ _ => chat

@[simp] theorem recipient_reportCall : recipient (reportCall existing text a) = a := by
  unfold reportCall
  split <;> rfl

theorem lookup_set_self (chat : UserId) (id : MessageId) :
    (r.set chat id).lookup chat = some id := by
  have hnone : (r.filter fun e => e.1 != chat).lookup chat = none := by
    rw [List.lookup_eq_none_iff]
    intro e he
    have hne : e.1 ≠ chat := by simpa using (List.mem_filter.mp he).2
    exact bne_iff_ne.mpr hne.symm
  rw [Reports.set, List.lookup_append, hnone, Option.none_or, List.lookup_cons, beq_self_eq_true]

theorem lookup_set_of_ne {chat : UserId} {id : MessageId} (h : a ≠ chat) :
    (r.set chat id).lookup a = r.lookup a := by
  have hfilter : (r.filter fun e => e.1 != chat).lookup a = r.lookup a := by
    induction r with
    | nil => rfl
    | cons e r ih =>
      by_cases hc : e.1 = chat
      · have ha : (a == e.1) = false := beq_false_of_ne (hc ▸ h)
        rw [List.filter_cons_of_neg (by simpa using hc), ih, List.lookup_cons, ha]
      · rw [List.filter_cons_of_pos (by simpa using hc), List.lookup_cons, List.lookup_cons, ih]
  rw [Reports.set, List.lookup_append, hfilter, List.lookup_cons, beq_false_of_ne h]
  exact Option.or_none

theorem lookup_file_of_ne (h : recipient d.1 ≠ a) : (file r d).lookup a = r.lookup a := by
  obtain ⟨c, x⟩ := d
  cases c with
  | edit => exact lookup_set_of_ne (Ne.symm h)
  | send =>
    cases x with
    | ok => exact lookup_set_of_ne (Ne.symm h)
    | error => rfl

theorem sent?_eq_none (h : recipient d.1 ≠ a) : sent? a d = none := by
  obtain ⟨c, x⟩ := d
  cases c with
  | edit => rfl
  | send =>
    cases x with
    | ok => exact if_neg h
    | error => rfl

theorem lookup_foldl_file_of_ne (h : ∀ d ∈ ds, recipient d.1 ≠ a) :
    (ds.foldl file r).lookup a = r.lookup a := by
  induction ds generalizing r with
  | nil => rfl
  | cons d ds ih =>
    rw [List.forall_mem_cons] at h
    rw [List.foldl_cons, ih h.2, lookup_file_of_ne h.1]

theorem filterMap_sent?_eq_nil (h : ∀ d ∈ ds, recipient d.1 ≠ a) :
    ds.filterMap (sent? a) = [] :=
  List.filterMap_eq_nil_iff.mpr fun d hd => sent?_eq_none (h d hd)

theorem recipient_ne_of_notMem (hds : ds.map Sigma.fst = admins.map (reportCall existing text))
    (ha : a ∉ admins) : ∀ d ∈ ds, recipient d.1 ≠ a := by
  rintro d hd rfl
  have hm : d.1 ∈ admins.map (reportCall existing text) := hds ▸ List.mem_map_of_mem hd
  obtain ⟨b, hb, he⟩ := List.mem_map.mp hm
  rw [← he, recipient_reportCall] at ha
  exact ha hb

/-- Each admin gets one call, and what is filed and sent for the admin is told by its answer. -/
theorem exists_dispatch (hn : admins.Nodup)
    (hds : ds.map Sigma.fst = admins.map (reportCall existing text)) (ha : a ∈ admins) :
    ∃ (d : Dispatch) (r : Reports), d.1 = reportCall existing text a ∧ r.lookup a = none ∧
      (ds.foldl file []).lookup a = (file r d).lookup a ∧
      ds.filterMap (sent? a) = (sent? a d).toList := by
  obtain ⟨as, bs, rfl⟩ := List.append_of_mem ha
  obtain ⟨-, hbs, hdisj⟩ := List.nodup_append.mp hn
  rw [List.map_append, List.map_cons] at hds
  obtain ⟨l, l', rfl, hl, hl'⟩ := List.map_eq_append_iff.mp hds
  obtain ⟨d, r, rfl, hd, hr⟩ := List.map_eq_cons_iff.mp hl'
  have hl := recipient_ne_of_notMem hl fun h => hdisj a h a List.mem_cons_self rfl
  have hr := recipient_ne_of_notMem hr (List.nodup_cons.mp hbs).1
  refine ⟨d, l.foldl file [], hd, lookup_foldl_file_of_ne hl, ?_, ?_⟩
  · rw [List.foldl_append, List.foldl_cons, lookup_foldl_file_of_ne hr]
  · rw [List.filterMap_append, List.filterMap_cons, filterMap_sent?_eq_nil hl,
      filterMap_sent?_eq_nil hr]
    cases sent? a d <;> rfl

theorem lookup_filed (hn : admins.Nodup)
    (hds : ds.map Sigma.fst = admins.map (reportCall existing text)) (ha : a ∈ admins) :
    (ds.foldl file []).lookup a = (existing.lookup a).or (ds.filterMap (sent? a)).head? := by
  obtain ⟨⟨c, x⟩, r, hd, hnone, hfold, hsent⟩ := exists_dispatch hn hds ha
  rw [hfold, hsent]
  cases hl : existing.lookup a with
  | some id =>
    simp only [reportCall, hl] at hd
    subst hd
    exact lookup_set_self a id
  | none =>
    simp only [reportCall, hl] at hd
    subst hd
    cases x with
    | ok id =>
      have hs : sent? a ⟨.send a text, .ok id⟩ = some id := if_pos rfl
      rw [hs]
      exact lookup_set_self a id
    | error e => exact hnone

theorem filterMap_sent?_of_reported (hn : admins.Nodup)
    (hds : ds.map Sigma.fst = admins.map (reportCall existing text)) (ha : a ∈ admins)
    {id : MessageId} (h : existing.lookup a = some id) : ds.filterMap (sent? a) = [] := by
  obtain ⟨⟨c, x⟩, -, hd, -, -, hsent⟩ := exists_dispatch hn hds ha
  simp only [reportCall, h] at hd
  subst hd
  exact hsent

theorem length_filterMap_sent?_le (hn : admins.Nodup)
    (hds : ds.map Sigma.fst = admins.map (reportCall existing text)) :
    (ds.filterMap (sent? a)).length ≤ 1 := by
  by_cases ha : a ∈ admins
  · obtain ⟨d, -, -, -, -, hsent⟩ := exists_dispatch hn hds ha
    rw [hsent]
    cases sent? a d <;> simp
  · simp [filterMap_sent?_eq_nil (recipient_ne_of_notMem hds ha)]

end reports

section observations

variable {C : Conditions} {admins : List UserId} {log out : List Sighting} {s t u : State}
  {x : Sighting} {o : Reading} {id : NodeId} {a : UserId} {tr : Transition} {h : NodeHealth}
  {r : HealthRecords}

def readings (id : NodeId) (log : List Sighting) : List Reading :=
  (log.map Sighting.reading).filter (·.node.id = id)

theorem readings_cons : (fun id => readings id (x :: log)) =
    Function.update (readings · log) x.reading.node.id
      (x.reading :: readings x.reading.node.id log) := by
  funext id
  by_cases h : x.reading.node.id = id
  · subst h
    simp [readings]
  · simp [readings, h, Function.update_of_ne (Ne.symm h)]

theorem map_outage : (outage id log).map Sighting.reading = failing (readings id log) := by
  rw [failing, readings, List.filter_map, List.takeWhile_map]
  rfl

theorem outage_cons_of_ne (h : x.reading.node.id ≠ id) : outage id (x :: log) = outage id log := by
  simp [outage, h]

theorem outage_cons_of_failed (h : x.reading.probe.healthy = false) :
    outage x.reading.node.id (x :: log) = x :: outage x.reading.node.id log := by
  simp [outage, h]

theorem outage_cons_of_healthy (h : x.reading.probe.healthy = true) :
    outage x.reading.node.id (x :: log) = [] := by
  simp [outage, h]

theorem delivered_cons :
    delivered a (x :: out) = delivered a out ++ x.messages.filterMap (sent? a) := by
  simp [delivered]

/-- The records tell the readings, and while a node is down they tell what was sent about it. -/
structure Reported (admins : List UserId) (log : List Sighting) (t : State) : Prop where
  knows : Knows t.health (readings · log)
  reports : ∀ {id : NodeId} {h : NodeHealth}, t.health.node? id = some h → h.state = .down →
    ∀ a ∈ admins, h.reports.lookup a = (delivered a (outage id log)).head?
  once : ∀ id a, (delivered a (outage id log)).length ≤ 1

theorem callsFor_of_healthy (hi : Reported admins log t)
    (hr : t.health.record o.node o.probe o.at_ = ((tr, h), r)) (hh : o.probe.healthy = true) :
    callsFor admins o.node o.probe h tr = dueCalls admins o (outage o.node.id log) := by
  obtain ⟨rfl, -, -⟩ := hi.knows.observe hr
  have hlast : (failing (readings o.node.id log)).getLast? =
      (outage o.node.id log).getLast?.map Sighting.reading := by
    rw [← map_outage, List.getLast?_map]
  rw [transitionOf, dueCalls, hh, hlast]
  cases (outage o.node.id log).getLast? with
  | none =>
    dsimp only [Option.map_none]
    split <;> rfl
  | some first => rfl

theorem exists_down (hi : Reported admins log t) (hf : outage id log ≠ []) :
    ∃ old, t.health.node? id = some old ∧ old.state = .down := by
  have hk : (t.health.node? id).map bare = recordOf? (readings id log) := hi.knows id
  have hf : failing (readings id log) ≠ [] := by
    rw [← map_outage]
    exact fun h => hf (List.map_eq_nil_iff.mp h)
  cases hl : readings id log with
  | nil => exact absurd (congrArg failing hl) hf
  | cons last earlier =>
    rw [hl] at hk hf
    obtain ⟨old, hold, hb⟩ := Option.map_eq_some_iff.mp hk
    have hlast : last.probe.healthy = false := by
      by_contra h
      exact hf (failing_cons_of_healthy (by simpa using h))
    refine ⟨old, hold, ?_⟩
    have hs : old.state = if last.probe.healthy then .up else .down :=
      congrArg NodeHealth.state hb
    rw [hs, hlast]
    rfl

theorem callsFor_of_failed (hi : Reported admins log t)
    (hr : t.health.record o.node o.probe o.at_ = ((tr, h), r)) (hh : o.probe.healthy = false) :
    ∃ existing : Reports,
      (∀ a ∈ admins, existing.lookup a = (delivered a (outage o.node.id log)).head?) ∧
      callsFor admins o.node o.probe h tr = admins.map (reportCall existing
        (downText o.node (UInt32.ofNat ((outage o.node.id log).length + 1)) o.probe)) ∧
      ∀ ds, remembered r o.node.id ds tr = r.remember o.node.id (ds.foldl file []) := by
  obtain ⟨htr, hb, -⟩ := hi.knows.observe hr
  have hlen : (failing (o :: readings o.node.id log)).length =
      (outage o.node.id log).length + 1 := by
    rw [failing_cons_of_failed hh, List.length_cons, ← map_outage, List.length_map]
  rw [transitionOf, hh, hlen, ← map_outage, List.getLast?_map] at htr
  by_cases hout : outage o.node.id log = []
  · rw [hout] at htr hlen ⊢
    obtain rfl : tr = .wentDown := htr
    refine ⟨[], fun _ _ => rfl, ?_, fun _ => rfl⟩
    have hfail : h.failures = UInt32.ofNat (failing (o :: readings o.node.id log)).length :=
      congrArg NodeHealth.failures hb
    rw [callsFor, hfail, hlen]
  · obtain ⟨old, hold, hs⟩ := exists_down hi hout
    obtain ⟨first, hfirst⟩ := Option.ne_none_iff_exists'.mp
      (mt List.getLast?_eq_none_iff.mp hout)
    rw [hfirst] at htr
    obtain rfl : tr = .stayedDown (UInt32.ofNat ((outage o.node.id log).length + 1)) := htr
    have hrep : h.reports = old.reports := by
      have he : (t.health.record o.node o.probe o.at_).1 =
          { old with nodeName := o.node.name, lastProbe := some o.probe }.apply
            o.probe.healthy o.at_ := record_of_some hold
      rw [hr, hh, apply_down] at he
      · exact congrArg (·.2.reports) he
      · exact hs
    refine ⟨h.reports, fun a ha => ?_, rfl, fun _ => rfl⟩
    rw [hrep]
    exact hi.reports hold hs a ha

theorem map_reportCall {existing : Reports}
    (hex : ∀ a ∈ admins, existing.lookup a = (delivered a out).head?)
    (hh : o.probe.healthy = false) :
    admins.map (reportCall existing (downText o.node (UInt32.ofNat (out.length + 1)) o.probe)) =
      dueCalls admins o out := by
  rw [dueCalls, hh]
  refine List.map_congr_left fun a ha => ?_
  cases hd : (delivered a out).head? with
  | none => simp [reportCall, hex a ha, hd]
  | some id => simp [reportCall, hex a ha, hd]

theorem node?_remembered_of_ne {j : NodeId} {ds : List Dispatch} (hj : id ≠ j) :
    (remembered r id ds tr).node? j = r.node? j := by
  cases tr with
  | wentDown | stayedDown => exact node?_remember.trans (if_neg (Ne.symm hj))
  | _ => rfl

theorem reports_remember {reports : Reports} (hs : (h.remember reports).state = .down) :
    (h.remember reports).reports = reports := by
  unfold NodeHealth.remember at hs ⊢
  split at hs
  next hd => rw [if_pos hd]
  next hd => exact absurd hs hd

theorem Reported.cons {ds : List Dispatch} (hi : Reported admins log t)
    (hr : t.health.record o.node o.probe o.at_ = ((tr, h), r))
    (hu : u.health = remembered r o.node.id ds tr)
    (hself : ∀ {h' : NodeHealth}, u.health.node? o.node.id = some h' → h'.state = .down →
      ∀ a ∈ admins,
        h'.reports.lookup a = (delivered a (outage o.node.id (⟨o, ds⟩ :: log))).head?)
    (honce : ∀ a, (delivered a (outage o.node.id (⟨o, ds⟩ :: log))).length ≤ 1) :
    Reported admins (⟨o, ds⟩ :: log) u := by
  constructor
  · rw [hu, readings_cons]
    exact (hi.knows.observe hr).2.2 ds
  · intro j h' hj hs a ha
    by_cases hid : o.node.id = j
    · subst hid
      exact hself hj hs a ha
    · have hn := node?_record (r := t.health) (j := j) o.node o.probe o.at_
      rw [hr, if_neg hid] at hn
      rw [hu, node?_remembered_of_ne hid, hn] at hj
      rw [outage_cons_of_ne hid]
      exact hi.reports hj hs a ha
  · intro j a
    by_cases hid : o.node.id = j
    · subst hid
      exact honce a
    · rw [outage_cons_of_ne hid]
      exact hi.once j a

theorem Reported.cons_of_healthy {ds : List Dispatch} (hi : Reported admins log t)
    (hr : t.health.record o.node o.probe o.at_ = ((tr, h), r))
    (hu : u.health = remembered r o.node.id ds tr) (hh : o.probe.healthy = true) :
    Reported admins (⟨o, ds⟩ :: log) u := by
  refine hi.cons hr hu (fun {h'} hn hs => ?_) fun a => ?_
  · have hk := (hi.knows.observe hr).2.2 ds o.node.id
    rw [← hu, hn, Function.update_self] at hk
    have hup : h'.state = if o.probe.healthy then .up else .down :=
      congrArg NodeHealth.state (Option.some.inj hk)
    rw [hh, hs] at hup
    cases hup
  · rw [outage_cons_of_healthy (x := ⟨o, ds⟩) hh]
    exact Nat.zero_le 1

theorem Reported.cons_of_failed {existing : Reports} {text : String} {ds : List Dispatch}
    (hn : admins.Nodup) (hi : Reported admins log t)
    (hr : t.health.record o.node o.probe o.at_ = ((tr, h), r))
    (hu : u.health = remembered r o.node.id ds tr)
    (hrem : remembered r o.node.id ds tr = r.remember o.node.id (ds.foldl file []))
    (hex : ∀ a ∈ admins, existing.lookup a = (delivered a (outage o.node.id log)).head?)
    (hds : ds.map Sigma.fst = admins.map (reportCall existing text))
    (hh : o.probe.healthy = false) : Reported admins (⟨o, ds⟩ :: log) u := by
  have hout : outage o.node.id (⟨o, ds⟩ :: log) = ⟨o, ds⟩ :: outage o.node.id log :=
    outage_cons_of_failed hh
  refine hi.cons hr hu (fun {h'} hnode hs a ha => ?_) fun a => ?_
  · have hrec := node?_record (r := t.health) (j := o.node.id) o.node o.probe o.at_
    rw [hr, if_pos rfl] at hrec
    rw [hu, hrem, node?_remember, if_pos rfl, hrec] at hnode
    obtain rfl : h.remember (ds.foldl file []) = h' := Option.some.inj hnode
    rw [reports_remember hs, hout, delivered_cons, List.head?_append, ← hex a ha]
    exact lookup_filed hn hds ha
  · rw [hout, delivered_cons, List.length_append]
    have honce := hi.once o.node.id a
    by_cases ha : a ∈ admins
    · cases hsent : delivered a (outage o.node.id log) with
      | nil => simpa using length_filterMap_sent?_le hn hds
      | cons id ids =>
        have hl : existing.lookup a = some id := by rw [hex a ha, hsent, List.head?_cons]
        rw [filterMap_sent?_of_reported hn hds ha hl, ← hsent]
        exact honce
    · rw [filterMap_sent?_eq_nil (recipient_ne_of_notMem hds ha)]
      exact honce

theorem Reported.observe (hn : admins.Nodup) (hi : Reported admins log t)
    (hr : Runs C.surroundings (observe admins o.node o.probe o.at_) (afresh t) tr u) :
    (told dispatch? u).map Sigma.fst = dueCalls admins o (outage o.node.id log) ∧
      Reported admins (⟨o, told dispatch? u⟩ :: log) u := by
  cases hrec : t.health.record o.node o.probe o.at_ with
  | mk p r =>
    obtain ⟨tr', h⟩ := p
    refine hr.of_wp (Q := fun _ u => (told dispatch? u).map Sigma.fst = dueCalls admins o _ ∧
      Reported admins (⟨o, told dispatch? u⟩ :: log) u) (observe_wp hrec fun ds u hds hu hh => ?_)
    have htold : told dispatch? u = ds := hu.dispatches
    rw [htold]
    cases hp : o.probe.healthy with
    | true => exact ⟨hds.trans (callsFor_of_healthy hi hrec hp), hi.cons_of_healthy hrec hh hp⟩
    | false =>
      obtain ⟨existing, hex, hcalls, hrem⟩ := callsFor_of_failed hi hrec hp
      rw [hcalls] at hds
      exact ⟨hds.trans (map_reportCall hex hp),
        hi.cons_of_failed hn hrec hh (hrem ds) hex hds hp⟩

theorem reported_nil (hs : s.health = .empty) : Reported admins [] s := by
  constructor
  · rw [hs]
    exact knows_empty
  · intro id h hid
    rw [hs] at hid
    cases hid
  · exact fun _ _ => Nat.zero_le 1

/-- After any observations the records tell what the messenger was asked. -/
theorem Watch.reported (hn : admins.Nodup) (hs : s.health = .empty) (hw : Watch C admins s log t) :
    Reported admins log t := by
  induction hw with
  | nil => exact reported_nil hs
  | observe _ hr ih => exact (ih.observe hn hr).2

/-- Whatever the messenger answers, each observation makes the calls that are due and no other,
and no admin is sent more than one message about an outage. -/
theorem reports_follow_outage (hn : admins.Nodup) (hs : s.health = .empty)
    (hw : Watch C admins s log t) {x : Sighting} {earlier : List Sighting}
    (hx : x :: earlier <:+ log) :
    x.messages.map Sigma.fst =
        dueCalls admins x.reading (outage x.reading.node.id earlier) ∧
      ∀ a, (delivered a (outage x.reading.node.id (x :: earlier))).length ≤ 1 := by
  induction hw with
  | nil => simp at hx
  | observe hw hr ih =>
    rcases List.suffix_cons_iff.mp hx with hx | hx
    · obtain ⟨rfl, rfl⟩ := List.cons_eq_cons.mp hx
      obtain ⟨hcalls, hi⟩ := (hw.reported hn hs).observe hn hr
      exact ⟨hcalls, hi.once _⟩
    · exact ih hx

end observations

def plainNode : Node :=
  .create 1 "node-1" "10.0.0.1:7443" 10

def refused : ProbeResult :=
  .ofError 7 "HTTP 503"

theorem reports_of_recovery : ∃ t log, Watch troubles [7, 8] (.founding plainNode) log t ∧
    log.map (·.messages.map Sigma.fst) =
      [[.send 7 (recoveredText plainNode ⟨0⟩), .send 8 (recoveredText plainNode ⟨0⟩)],
        [.edit 7 100 (downText plainNode 2 refused), .send 8 (downText plainNode 2 refused)],
        [.send 7 (downText plainNode 1 refused), .send 8 (downText plainNode 1 refused)]] ∧
    ∀ a, (delivered a (outage 1 log.tail)).length ≤ 1 := by
  have hrun : Can troubles.surroundings (observe [7, 8] plainNode refused .epoch) (fun _ u =>
      (told dispatch? u).map Sigma.fst =
        [.send 7 (downText plainNode 1 refused), .send 8 (downText plainNode 1 refused)] ∧
      Can troubles.surroundings (observe [7, 8] plainNode refused .epoch) (fun _ v =>
        (told dispatch? v).map Sigma.fst =
          [.edit 7 100 (downText plainNode 2 refused), .send 8 (downText plainNode 2 refused)] ∧
        Can troubles.surroundings (observe [7, 8] plainNode (.ofLatency 7) .epoch) (fun _ w =>
          (told dispatch? w).map Sigma.fst =
            [.send 7 (recoveredText plainNode ⟨0⟩), .send 8 (recoveredText plainNode ⟨0⟩)])
          (afresh v)) (afresh u)) (afresh (.founding plainNode)) := by
    refine .call ⟨_, ⟨rfl, rfl⟩, rfl⟩ (.note ?_)
    refine .call (a := Except.ok (100 : MessageId)) ⟨_, rfl, rfl⟩ ?_
    refine .call (a := Except.error (MessagingError.api 502 "")) ⟨_, rfl, rfl⟩ (.note ?_)
    refine .call ⟨_, ⟨rfl, rfl⟩, rfl⟩ (.done ⟨rfl, ?_⟩)
    refine .call ⟨_, ⟨rfl, rfl⟩, rfl⟩ ?_
    refine .call (a := Except.error (MessagingError.api 502 "")) ⟨_, rfl, rfl⟩ (.note ?_)
    refine .call (a := Except.ok (200 : MessageId)) ⟨_, rfl, rfl⟩ ?_
    refine .call ⟨_, ⟨rfl, rfl⟩, rfl⟩ (.done ⟨rfl, ?_⟩)
    refine .call ⟨_, ⟨rfl, rfl⟩, rfl⟩ (.note ?_)
    refine .call (a := Except.ok (101 : MessageId)) ⟨_, rfl, rfl⟩ ?_
    refine .call (a := Except.ok (201 : MessageId)) ⟨_, rfl, rfl⟩ (.done ?_)
    rfl
  obtain ⟨_, u, hu, htold, _, v, hv, htold', _, w, hw, htold''⟩ := hrun
  have h : Watch troubles [7, 8] (.founding plainNode) _ w :=
    .observe (o := ⟨_, _, _⟩) (.observe (o := ⟨_, _, _⟩)
      (.observe (o := ⟨_, _, _⟩) (.nil _) hu) hv) hw
  refine ⟨w, _, h, ?_, ?_⟩
  · exact congrArg₂ List.cons htold'' (congrArg₂ List.cons htold' (congrArg₂ List.cons htold rfl))
  · exact (reports_follow_outage (by decide) rfl h (List.suffix_cons _ _)).2

end PeerFleet.Health
