import PeerFleet.Health.Record
import PeerFleet.Proofs.Store.Records

/-! # Health as a function of readings

A reading is the outcome of one probe of a node. What is known of the health of a node is told
by the readings of it, the last one first, and so is what one more reading does to it.
-/

namespace PeerFleet.Health

structure Reading where
  node : Node
  probe : ProbeResult
  at_ : Instant

/-- The last readings, as far back as none of them is healthy. -/
def failing (l : List Reading) : List Reading :=
  l.takeWhile fun o => !o.probe.healthy

/-- The record of a node after a reading and those before it, without messages. -/
def recordOf (o : Reading) (earlier : List Reading) : NodeHealth where
  nodeId := o.node.id
  nodeName := o.node.name
  state := if o.probe.healthy then .up else .down
  failures := UInt32.ofNat (failing (o :: earlier)).length
  downSince := (failing (o :: earlier)).getLast?.map Reading.at_
  lastChecked := some o.at_
  lastProbe := some o.probe

def recordOf? : List Reading → Option NodeHealth
  | [] => none
  | o :: earlier => some (recordOf o earlier)

/-- The count of failures is true as long as it fits its 32 bits. -/
theorem toNat_failures_recordOf {o : Reading} {l : List Reading}
    (h : (failing (o :: l)).length < UInt32.size) :
    (recordOf o l).failures.toNat = (failing (o :: l)).length :=
  UInt32.toNat_ofNat_of_lt h

def transitionOf (o : Reading) (earlier : List Reading) : Transition :=
  match o.probe.healthy, (failing earlier).getLast? with
  | true, some first => .recovered (o.at_.elapsed first.at_)
  | true, none => if earlier.isEmpty then .cameUp else .stayedUp
  | false, some _ => .stayedDown (UInt32.ofNat (failing (o :: earlier)).length)
  | false, none => .wentDown

/-- A record without the messages that report an outage. -/
def bare (h : NodeHealth) : NodeHealth :=
  { h with reports := [] }

section failing

variable {o : Reading} {l : List Reading}

@[simp] theorem failing_nil : failing [] = [] := rfl

theorem failing_cons_of_healthy (h : o.probe.healthy = true) : failing (o :: l) = [] := by
  simp [failing, h]

theorem failing_cons_of_failed (h : o.probe.healthy = false) :
    failing (o :: l) = o :: failing l := by
  simp [failing, h]

theorem getLast?_failing_cons (h : o.probe.healthy = false) :
    (failing (o :: l)).getLast? = some ((failing l).getLast?.getD o) := by
  rw [failing_cons_of_failed h, List.getLast?_cons]

end failing

section records

variable {r : HealthRecords} {h : NodeHealth} {id j : NodeId} {o : Reading} {l : List Reading}
  {reports : Reports}

@[simp] theorem bare_remember : bare (h.remember reports) = bare h := by
  unfold NodeHealth.remember
  split <;> rfl

theorem nodeId_of_node? (hr : r.node? id = some h) : h.nodeId = id :=
  Store.toInt_eq_iff.mp (Table.find?_eq_some_iff.mp hr).2

theorem node?_insert :
    HealthRecords.node? (r.insert h) j = if h.nodeId = j then some h else r.node? j := by
  rw [HealthRecords.node?, Table.find?_insert]
  exact if_congr Store.toInt_eq_iff rfl rfl

theorem node?_remember : (r.remember id reports).node? j =
    if j = id then (r.node? j).map (·.remember reports) else r.node? j := by
  rw [HealthRecords.node?, HealthRecords.remember, Table.find?_modify]
  exact if_congr Store.toInt_eq_iff rfl rfl

theorem node?_retain {ids : List NodeId} :
    (r.retain ids).node? j = if j ∈ ids then r.node? j else none := by
  ext h
  rw [HealthRecords.node?, HealthRecords.retain, Table.find?_eq_some_iff]
  simp only [Table.filter, List.mem_filter, List.contains_iff_mem]
  constructor
  · rintro ⟨⟨hm, hi⟩, hk⟩
    obtain rfl := Store.toInt_eq_iff.mp hk
    rw [if_pos hi]
    exact Table.find?_eq_some_iff.mpr ⟨hm, hk⟩
  · intro hr
    split_ifs at hr with hi
    obtain ⟨hm, hk⟩ := Table.find?_eq_some_iff.mp hr
    rw [← nodeId_of_node? hr] at hi
    exact ⟨⟨hm, hi⟩, hk⟩

section apply

variable {at_ : Instant}

theorem apply_up (hs : h.state = .up) :
    h.apply true at_ = (.stayedUp, { h with lastChecked := some at_ }) := by
  cases h
  cases hs
  rfl

theorem apply_unknown (hs : h.state = .unknown) :
    h.apply true at_ = (.cameUp, { h with lastChecked := some at_, state := .up }) := by
  cases h
  cases hs
  rfl

theorem apply_recovered (hs : h.state = .down) :
    h.apply true at_ = (.recovered ((h.downSince.map at_.elapsed).getD ⟨0⟩),
      { h with
        lastChecked := some at_
        state := .up
        failures := 0
        downSince := none
        reports := [] }) := by
  cases h
  cases hs
  rfl

theorem apply_down (hs : h.state = .down) :
    h.apply false at_ = (.stayedDown (h.failures + 1),
      { h with lastChecked := some at_, failures := h.failures + 1 }) := by
  cases h
  cases hs
  rfl

theorem apply_wentDown (hs : h.state ≠ .down) :
    h.apply false at_ = (.wentDown,
      { h with
        lastChecked := some at_
        state := .down
        failures := 1
        downSince := some at_ }) := by
  obtain ⟨_, _, state, _, _, _, _, _⟩ := h
  cases state with
  | down => exact absurd rfl hs
  | _ => rfl

end apply

theorem nodeId_apply (healthy : Bool) (at_ : Instant) :
    (h.apply healthy at_).2.nodeId = h.nodeId := by
  unfold NodeHealth.apply
  cases h.state <;> cases healthy <;> rfl

theorem record_of_none {n : Node} {probe : ProbeResult} {at_ : Instant}
    (hr : r.node? n.id = none) : (r.record n probe at_).1 =
      NodeHealth.apply { nodeId := n.id, nodeName := n.name, lastProbe := some probe }
        probe.healthy at_ := by
  simp [HealthRecords.record, hr]

theorem record_of_some {n : Node} {probe : ProbeResult} {at_ : Instant}
    (hr : r.node? n.id = some h) : (r.record n probe at_).1 =
      { h with nodeName := n.name, lastProbe := some probe }.apply probe.healthy at_ := by
  simp [HealthRecords.record, hr]

theorem nodeId_record (n : Node) (probe : ProbeResult) (at_ : Instant) :
    (r.record n probe at_).1.2.nodeId = n.id := by
  cases hr : r.node? n.id with
  | none => rw [record_of_none hr, nodeId_apply]
  | some old =>
    rw [record_of_some hr, nodeId_apply]
    exact nodeId_of_node? (h := old) hr

theorem node?_record (n : Node) (probe : ProbeResult) (at_ : Instant) :
    (r.record n probe at_).2.node? j =
      if n.id = j then some (r.record n probe at_).1.2 else r.node? j := by
  rw [← nodeId_record (r := r) n probe at_]
  exact node?_insert

/-- A reading leaves the record that the readings tell, and does what they tell. -/
theorem record_of_readings (hr : (r.node? o.node.id).map bare = recordOf? l) :
    (r.record o.node o.probe o.at_).1.1 = transitionOf o l ∧
      bare (r.record o.node o.probe o.at_).1.2 = recordOf o l := by
  cases l with
  | nil =>
    rw [record_of_none (Option.map_eq_none_iff.mp hr)]
    cases hh : o.probe.healthy with
    | true =>
      simp [apply_unknown, transitionOf, recordOf, bare, hh, failing_cons_of_healthy]
    | false =>
      simp [apply_wentDown, transitionOf, recordOf, bare, hh, failing_cons_of_failed]
  | cons last earlier =>
    obtain ⟨old, hn, hb⟩ := Option.map_eq_some_iff.mp hr
    have hid : old.nodeId = o.node.id := nodeId_of_node? hn
    have hstate : old.state = if last.probe.healthy then .up else .down :=
      congrArg NodeHealth.state hb
    have hfailures : old.failures = UInt32.ofNat (failing (last :: earlier)).length :=
      congrArg NodeHealth.failures hb
    have hsince : old.downSince = (failing (last :: earlier)).getLast?.map Reading.at_ :=
      congrArg NodeHealth.downSince hb
    rw [record_of_some hn]
    cases hl : last.probe.healthy with
    | true =>
      rw [hl, if_pos rfl] at hstate
      rw [failing_cons_of_healthy hl] at hfailures hsince
      cases hh : o.probe.healthy with
      | true =>
        simp [apply_up, transitionOf, recordOf, bare, hh, hid, failing_cons_of_healthy, hl,
          hstate, hfailures, hsince]
      | false =>
        simp [apply_wentDown, transitionOf, recordOf, bare, hh, hid, failing_cons_of_failed,
          failing_cons_of_healthy, hl, hstate]
    | false =>
      rw [hl, if_neg Bool.false_ne_true] at hstate
      rw [getLast?_failing_cons hl] at hsince
      cases hh : o.probe.healthy with
      | true =>
        simp [apply_recovered, transitionOf, recordOf, bare, hh, hid, failing_cons_of_healthy,
          getLast?_failing_cons, hl, hstate, hsince]
      | false =>
        rw [failing_cons_of_failed hl, List.length_cons] at hfailures
        simp [apply_down, transitionOf, recordOf, bare, hh, hid, failing_cons_of_failed, hl,
          hstate, hsince, hfailures, List.getLast?_cons]

end records

end PeerFleet.Health
