import PeerFleet.Health.Monitor
import PeerFleet.Proofs.Fleet.Steps
import PeerFleet.Proofs.Health.Reading

/-! # What an observation tells

The calls of the health monitor, as the history tells them: the probes it asked for, the
messages it sent and the transitions it found, each in their order.
-/

namespace PeerFleet.Health

open Fleet Program

abbrev Dispatch := Sigma MessageCall.Answer

def dispatch? : Exchange → Option Dispatch
  | ⟨.message c, a⟩ => some ⟨c, a⟩
  | _ => none

def probed? : Exchange → Option (String × ProbeResult)
  | ⟨.probe url, a⟩ => some (url, a)
  | _ => none

def transition? : Exchange → Option Transition
  | ⟨.health (.record _ _ _), a⟩ => some (Prod.fst a)
  | _ => none

/-- Every call may fail. -/
def troubles : Conditions where
  storeFault _ _ _ := True
  connectFault _ _ _ := True
  agentFault _ _ _ _ := True
  issues _ _ _ := True

def afresh (s : State) : State :=
  { s with history := [] }

section told

variable {α : Type}

/-- What a history tells of one kind of calls, the first call first. -/
def told (f : Exchange → Option α) (s : State) : List α :=
  (s.history.filterMap f).reverse

@[simp] theorem told_record {f : Exchange → Option α} {s : State} {c : Effect} {a : c.Answer} :
    told f (s.record c a) = told f s ++ (f ⟨c, a⟩).toList := by
  rw [told, State.record, List.filterMap_cons]
  cases h : f ⟨c, a⟩ with
  | none => simp [told]
  | some x => simp [told]

end told

/-- A part of a run has told of some messages, transitions and probes, and left the store as it
was. -/
structure Tells (s u : State) (ds : List Dispatch) (ts : List Transition)
    (ps : List (String × ProbeResult)) : Prop where
  store : u.store = s.store
  dispatches : told dispatch? u = told dispatch? s ++ ds
  transitions : told transition? u = told transition? s ++ ts
  probes : told probed? u = told probed? s ++ ps

section tells

variable {s u v : State} {ds ds' : List Dispatch} {ts ts' : List Transition}
  {ps ps' : List (String × ProbeResult)}

theorem Tells.refl (s : State) : Tells s s [] [] [] := by
  constructor <;> simp

theorem Tells.trans (h : Tells s u ds ts ps) (h' : Tells u v ds' ts' ps') :
    Tells s v (ds ++ ds') (ts ++ ts') (ps ++ ps') := by
  constructor
  · rw [h'.store, h.store]
  · rw [h'.dispatches, h.dispatches, List.append_assoc]
  · rw [h'.transitions, h.transitions, List.append_assoc]
  · rw [h'.probes, h.probes, List.append_assoc]

theorem Tells.quiet (h : Tells s u ds ts ps) (h' : Tells u v [] [] []) : Tells s v ds ts ps := by
  simpa using h.trans h'

theorem tells_record {c : Effect} {a : c.Answer} (hs : u.store = s.store)
    (hh : u.history = s.history) :
    Tells s (u.record c a) (dispatch? ⟨c, a⟩).toList (transition? ⟨c, a⟩).toList
      (probed? ⟨c, a⟩).toList := by
  have htold {α : Type} (f : Exchange → Option α) : told f u = told f s := by
    rw [told, told, hh]
  constructor
  · exact hs
  · rw [told_record, htold]
  · rw [told_record, htold]
  · rw [told_record, htold]

end tells

section messages

variable {C : Conditions} {s : State} {existing reports : Reports} {text : String}
  {admins : List UserId} {admin : UserId} {n : Node}

def reportCall (existing : Reports) (text : String) (admin : UserId) : MessageCall :=
  match existing.lookup admin with
  | some id => .edit admin id text
  | none => .send admin text

def file (reports : Reports) : Dispatch → Reports
  | ⟨.edit chat id _, _⟩ => reports.set chat id
  | ⟨.send chat _, .ok id⟩ => reports.set chat id
  | ⟨.send _ _, .error _⟩ => reports

theorem pre_dispatch {c : MessageCall} {K : c.Answer → State → Prop}
    (h : ∀ a u, Tells s u [⟨c, a⟩] [] [] → u.health = s.health → K a u) :
    C.logic.pre (.message c) K s := by
  rintro a _ ⟨u, hu, rfl⟩
  obtain rfl : u = s := hu
  exact h a _ (tells_record rfl rfl) rfl

theorem reportTo_wp {Q : Reports → State → Prop}
    (h : ∀ d u, d.1 = reportCall existing text admin → Tells s u [d] [] [] →
      u.health = s.health → Q (file reports d) u) :
    (reportTo existing text reports admin).wp C.logic Q s := by
  unfold reportTo
  cases hl : existing.lookup admin with
  | some id =>
    refine pre_dispatch fun a u hu hh => ?_
    have hq := h ⟨.edit admin id text, a⟩ u (by simp [reportCall, hl]) hu hh
    cases a with
    | ok => exact hq
    | error e => exact hq
  | none =>
    refine pre_dispatch fun a u hu hh => ?_
    have hq := h ⟨.send admin text, a⟩ u (by simp [reportCall, hl]) hu hh
    cases a with
    | ok id => exact hq
    | error e => exact hq

theorem report_wp {Q : Reports → State → Prop}
    (h : ∀ ds u, ds.map Sigma.fst = admins.map (reportCall existing text) → Tells s u ds [] [] →
      u.health = s.health → Q (ds.foldl file reports) u) :
    (report existing text reports admins).wp C.logic Q s := by
  induction admins generalizing s reports with
  | nil => exact h [] s rfl (.refl s) rfl
  | cons admin admins ih =>
    rw [report, wp_bind]
    refine reportTo_wp fun d u hd hu hh => ih fun ds v hds hv hh' => ?_
    refine h (d :: ds) v ?_ (hu.trans hv) (hh'.trans hh)
    rw [List.map_cons, List.map_cons, hd, hds]

theorem announce_wp {Q : Unit → State → Prop}
    (h : ∀ ds u, ds.map Sigma.fst = admins.map (.send · text) → Tells s u ds [] [] →
      u.health = s.health → Q () u) :
    (announce n text admins).wp C.logic Q s := by
  induction admins generalizing s with
  | nil => exact h [] s rfl (.refl s) rfl
  | cons admin admins ih =>
    refine pre_dispatch fun a u hu hh => ?_
    have hw : (announce n text admins).wp C.logic Q u := by
      refine ih fun ds v hds hv hh' => ?_
      refine h (⟨.send admin text, a⟩ :: ds) v ?_ (hu.trans hv) (hh'.trans hh)
      rw [List.map_cons, List.map_cons, hds]
    cases a with
    | ok => exact hw
    | error e => exact hw

end messages

section observe

variable {C : Conditions} {s : State} {admins : List UserId} {n : Node} {probe : ProbeResult}
  {at_ : Instant}

/-- The messages that a transition calls for. -/
def callsFor (admins : List UserId) (n : Node) (probe : ProbeResult) (h : NodeHealth) :
    Transition → List MessageCall
  | .cameUp | .stayedUp => []
  | .wentDown => admins.map (reportCall [] (downText n h.failures probe))
  | .stayedDown failures => admins.map (reportCall h.reports (downText n failures probe))
  | .recovered downtime => admins.map (.send · (recoveredText n downtime))

def remembered (r : HealthRecords) (id : NodeId) (ds : List Dispatch) :
    Transition → HealthRecords
  | .wentDown | .stayedDown _ => r.remember id (ds.foldl file [])
  | _ => r

theorem remember_wp {existing : Reports} {text : String} {id : NodeId} {tr : Transition}
    {Q : Transition → State → Prop}
    (hQ : ∀ ds u, ds.map Sigma.fst = admins.map (reportCall existing text) →
      Tells s u ds [] [] → u.health = s.health.remember id (ds.foldl file []) → Q tr u) :
    (report existing text [] admins >>= fun reports =>
      askHealth (.remember id reports) >>= fun _ => pure tr).wp C.logic Q s := by
  rw [wp_bind]
  refine report_wp fun ds u hds hu hh => ?_
  rintro _ _ ⟨_, ⟨rfl, rfl⟩, rfl⟩
  refine hQ ds _ hds (hu.quiet (tells_record rfl rfl)) ?_
  rw [← hh]
  rfl

theorem observe_wp {Q : Transition → State → Prop} {tr : Transition} {h : NodeHealth}
    {r : HealthRecords} (hr : s.health.record n probe at_ = ((tr, h), r))
    (hQ : ∀ ds u, ds.map Sigma.fst = callsFor admins n probe h tr → Tells s u ds [tr] [] →
      u.health = remembered r n.id ds tr → Q tr u) :
    (observe admins n probe at_).wp C.logic Q s := by
  have hrec : Tells s ((s.setHealth r).record (.health (.record n probe at_)) (tr, h)) [] [tr] [] :=
    tells_record rfl rfl
  rintro a _ ⟨_, ⟨rfl, rfl⟩, rfl⟩
  change Program.wp C.logic (Program.bind (.done (s.health.record n probe at_).1) _) Q
    ((s.setHealth (s.health.record n probe at_).2).record (.health (.record n probe at_))
      (s.health.record n probe at_).1)
  rw [hr]
  cases tr with
  | cameUp | stayedUp => exact hQ [] _ rfl hrec rfl
  | wentDown =>
    change (report [] (downText n h.failures probe) [] admins >>= fun reports =>
      askHealth (.remember n.id reports) >>= fun _ => pure Transition.wentDown).wp C.logic Q _
    exact remember_wp fun ds u hds hu hh => hQ ds u hds (hrec.trans hu) hh
  | stayedDown failures =>
    change (report h.reports (downText n failures probe) [] admins >>= fun reports =>
      askHealth (.remember n.id reports) >>= fun _ => pure (Transition.stayedDown failures)).wp
        C.logic Q _
    exact remember_wp fun ds u hds hu hh => hQ ds u hds (hrec.trans hu) hh
  | recovered downtime =>
    change (announce n (recoveredText n downtime) admins >>= fun _ =>
      pure (Transition.recovered downtime)).wp C.logic Q _
    rw [wp_bind]
    exact announce_wp fun ds u hds hu hh => hQ ds u hds (hrec.trans hu) hh

def Knows (r : HealthRecords) (W : NodeId → List Reading) : Prop :=
  ∀ id, (r.node? id).map bare = recordOf? (W id)

theorem knows_empty : Knows .empty fun _ => [] := fun _ => rfl

theorem bare_remembered {r : HealthRecords} {id j : NodeId} {ds : List Dispatch} {tr : Transition} :
    ((remembered r id ds tr).node? j).map bare = (r.node? j).map bare := by
  have hrem : ((r.remember id (ds.foldl file [])).node? j).map bare = (r.node? j).map bare := by
    rw [node?_remember]
    split_ifs
    · rw [Option.map_map]
      exact congrArg (Option.map · _) (funext fun _ => bare_remember)
    · rfl
  cases tr with
  | wentDown | stayedDown => exact hrem
  | _ => rfl

/-- One more reading of a node. -/
theorem Knows.observe {r r' : HealthRecords} {W : NodeId → List Reading} {o : Reading}
    {tr : Transition} {h : NodeHealth} (hk : Knows r W)
    (hr : r.record o.node o.probe o.at_ = ((tr, h), r')) :
    tr = transitionOf o (W o.node.id) ∧ bare h = recordOf o (W o.node.id) ∧
      ∀ ds, Knows (remembered r' o.node.id ds tr)
        (Function.update W o.node.id (o :: W o.node.id)) := by
  obtain ⟨htr, hb⟩ := record_of_readings (hk o.node.id)
  rw [hr] at htr hb
  refine ⟨htr, hb, fun ds id => ?_⟩
  have hn := node?_record (r := r) (j := id) o.node o.probe o.at_
  rw [hr] at hn
  rw [bare_remembered, hn]
  by_cases hid : o.node.id = id
  · subst hid
    simpa [recordOf?] using hb
  · simpa [hid, Function.update_of_ne (Ne.symm hid)] using hk id

end observe

end PeerFleet.Health
