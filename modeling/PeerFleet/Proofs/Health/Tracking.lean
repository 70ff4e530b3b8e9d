import Mathlib.Data.List.TakeWhile
import PeerFleet.Proofs.Config.Acceptance
import PeerFleet.Proofs.Health.Outage

/-! # Outage messages that are kept up to date

The messages that report an outage are remembered by chat. If no admin is listed twice, a chat gets
one message about an outage, and each later observation of the outage edits it. An admin who is
listed twice is sent two messages by the first observation that fails, of which one is forgotten.
-/

namespace PeerFleet.Health

open Fleet Program
open Telegram (MessageId)

def Carried (d : Dispatch) : Prop :=
  ∃ result, d.2 = .ok result

/-- With one more failing observation of an outage, at most one message about it has reached a
chat, and those that reached it before are edited. -/
structure Tracks (x : Sighting) (out : List Sighting) : Prop where
  once : ∀ chat, (delivered chat (x :: out)).length ≤ 1
  edited : ∀ chat, ∀ id ∈ delivered chat out,
    .edit chat id (downText x.reading.node (UInt32.ofNat (out.length + 1)) x.reading.probe) ∈
      x.messages.map Sigma.fst

/-- No failing observation loses track of a message of its outage. -/
def KeepsTrack (log : List Sighting) : Prop :=
  ∀ x earlier, x :: earlier <:+ log → x.reading.probe.healthy = false →
    Tracks x (outage x.reading.node.id earlier)

section observations

variable {C : Conditions} {admins : List UserId} {log : List Sighting} {s t u : State}
  {x : Sighting} {earlier : List Sighting} {o : Reading} {id : NodeId} {a : UserId}
  {tr : Transition} {ds : List Dispatch} {text : String}

theorem exists_transition (hk : Knows t.health (readings · log))
    (hr : Runs C.surroundings (observe admins o.node o.probe o.at_) (afresh t) tr u) :
    ∃ h, (told dispatch? u).map Sigma.fst =
        callsFor admins o.node o.probe h (transitionOf o (readings o.node.id log)) ∧
      Knows u.health (readings · (⟨o, told dispatch? u⟩ :: log)) := by
  cases hrec : t.health.record o.node o.probe o.at_ with
  | mk p r =>
    obtain ⟨tr', h⟩ := p
    obtain ⟨rfl, -, hknows⟩ := hk.observe hrec
    refine hr.of_wp (Q := fun _ u => ∃ h, (told dispatch? u).map Sigma.fst =
      callsFor admins o.node o.probe h (transitionOf o (readings o.node.id log)) ∧
        Knows u.health (readings · (⟨o, told dispatch? u⟩ :: log)))
      (observe_wp hrec fun ds u hds hu hh => ⟨h, ?_, ?_⟩)
    · rw [hu.dispatches]
      exact hds
    · rw [hh, readings_cons]
      exact hknows ds

theorem recipient_mem_of_mem_callsFor {c : MessageCall} {h : NodeHealth}
    (hc : c ∈ callsFor admins o.node o.probe h tr) : recipient c ∈ admins := by
  cases tr with
  | cameUp | stayedUp => cases hc
  | wentDown | stayedDown =>
    obtain ⟨a, ha, rfl⟩ := List.mem_map.mp hc
    rwa [recipient_reportCall]
  | recovered =>
    obtain ⟨a, ha, rfl⟩ := List.mem_map.mp hc
    exact ha

theorem Watch.knows (hs : s.health = .empty) (hw : Watch C admins s log t) :
    Knows t.health (readings · log) := by
  induction hw with
  | nil =>
    rw [hs]
    exact knows_empty
  | observe _ hr ih => exact (exists_transition ih hr).choose_spec.2

theorem exists_observe (hw : Watch C admins s log t) (hx : x :: earlier <:+ log) :
    ∃ t tr u, Watch C admins s earlier t ∧ Runs C.surroundings
      (observe admins x.reading.node x.reading.probe x.reading.at_) (afresh t) tr u ∧
      x.messages = told dispatch? u := by
  induction hw with
  | nil => simp at hx
  | observe hw hr ih =>
    rcases List.suffix_cons_iff.mp hx with hx | hx
    · obtain ⟨rfl, rfl⟩ := List.cons_eq_cons.mp hx
      exact ⟨_, _, _, hw, hr, rfl⟩
    · exact ih hx

theorem Watch.recipient_mem (hs : s.health = .empty) (hw : Watch C admins s log t) :
    ∀ x ∈ log, ∀ d ∈ x.messages, recipient d.1 ∈ admins := by
  intro x hx d hd
  obtain ⟨later, earlier, rfl⟩ := List.append_of_mem hx
  obtain ⟨t, tr, u, hw, hr, hm⟩ := exists_observe hw (List.suffix_append later _)
  obtain ⟨h, hcalls, -⟩ := exists_transition (hw.knows hs) hr
  rw [hm] at hd
  exact recipient_mem_of_mem_callsFor (hcalls ▸ List.mem_map_of_mem hd)

theorem Watch.delivered_eq_nil (hs : s.health = .empty) (hw : Watch C admins s log t)
    (ha : a ∉ admins) : delivered a (outage id log) = [] := by
  rw [delivered, List.flatMap_eq_nil_iff]
  intro x hx
  have hlog : x ∈ log := by
    have hfilter := (List.takeWhile_sublist _).subset (List.mem_reverse.mp hx)
    exact (List.mem_filter.mp hfilter).1
  refine filterMap_sent?_eq_nil fun d hd => ?_
  rintro rfl
  exact ha (hw.recipient_mem hs x hlog d hd)

theorem Watch.keepsTrack (hn : admins.Nodup) (hs : s.health = .empty)
    (hw : Watch C admins s log t) : KeepsTrack log := by
  intro x earlier hx hfail
  obtain ⟨t, tr, u, hw, hr, hm⟩ := exists_observe hw hx
  have hi := hw.reported hn hs
  obtain ⟨hcalls, hi'⟩ := hi.observe hn hr
  refine ⟨fun chat => ?_, fun chat id hid => ?_⟩
  · rw [← outage_cons_of_failed hfail]
    have honce := hi'.once x.reading.node.id chat
    rwa [← hm] at honce
  · have ha : chat ∈ admins := by
      by_contra ha
      rw [hw.delivered_eq_nil hs ha] at hid
      cases hid
    have hhead : (delivered chat (outage x.reading.node.id earlier)).head? = some id := by
      obtain ⟨m, hsingle⟩ := List.length_eq_one_iff.mp <|
        le_antisymm (hi.once x.reading.node.id chat) (List.length_pos_of_mem hid)
      rw [hsingle] at hid ⊢
      rw [List.mem_singleton.mp hid]
      rfl
    rw [hm, hcalls, dueCalls, hfail]
    refine List.mem_map.mpr ⟨chat, ha, ?_⟩
    rw [hhead]

theorem outage_eq_nil (h : ∀ x ∈ log, x.reading.probe.healthy = true) : outage id log = [] := by
  rw [outage, List.eq_nil_iff_forall_not_mem]
  intro x hx
  have hlog := (List.mem_filter.mp ((List.takeWhile_sublist _).subset hx)).1
  have hfail := List.mem_takeWhile_imp hx
  rw [h x hlog] at hfail
  cases hfail

theorem exists_first_failure (hx : ∃ x ∈ log, x.reading.probe.healthy = false) :
    ∃ x earlier, x :: earlier <:+ log ∧ x.reading.probe.healthy = false ∧
      ∀ y ∈ earlier, y.reading.probe.healthy = true := by
  induction log with
  | nil => simp at hx
  | cons y log ih =>
    by_cases hlog : ∃ x ∈ log, x.reading.probe.healthy = false
    · obtain ⟨x, earlier, hsuffix, hfail⟩ := ih hlog
      exact ⟨x, earlier, hsuffix.trans (List.suffix_cons y log), hfail⟩
    · simp only [not_exists, not_and, Bool.not_eq_false] at hlog
      obtain ⟨x, hmem, hfail⟩ := hx
      obtain rfl | hmem := List.mem_cons.mp hmem
      · exact ⟨x, log, List.suffix_rfl, hfail, hlog⟩
      · rw [hlog x hmem] at hfail
        cases hfail

theorem isSome_sent? {d : Dispatch} {admin : UserId} (hd : d.1 = .send admin text)
    (hok : Carried d) : (sent? a d).isSome = (admin == a) := by
  obtain ⟨c, answer⟩ := d
  subst hd
  obtain ⟨result, hresult⟩ := hok
  cases answer with
  | error => cases hresult
  | ok id =>
    change (if admin = a then some id else none).isSome = _
    by_cases h : admin = a <;> simp [h]

theorem length_filterMap_sent? (hds : ds.map Sigma.fst = admins.map (.send · text))
    (hok : ∀ d ∈ ds, Carried d) : (ds.filterMap (sent? a)).length = admins.count a := by
  induction admins generalizing ds with
  | nil =>
    rw [List.map_eq_nil_iff.mp hds]
    rfl
  | cons admin admins ih =>
    obtain ⟨d, ds, rfl, hd, hds⟩ := List.map_eq_cons_iff.mp hds
    obtain ⟨hdok, hok⟩ := List.forall_mem_cons.mp hok
    have hsome := isSome_sent? (a := a) hd hdok
    rw [List.filterMap_cons, List.count_cons, ← ih hds hok, ← hsome]
    cases sent? a d <;> simp

/-- The first observation that fails sends a message to each admin, and to one who is listed twice
two of them. -/
theorem not_keepsTrack (hn : ¬ admins.Nodup) (hs : s.health = .empty)
    (hw : Watch C admins s log t) (hok : ∀ x ∈ log, ∀ d ∈ x.messages, Carried d)
    (hx : ∃ x ∈ log, x.reading.probe.healthy = false) : ¬ KeepsTrack log := by
  intro hk
  obtain ⟨x, earlier, hsuffix, hfail, hearlier⟩ := exists_first_failure hx
  obtain ⟨a, ha⟩ : ∃ a, 1 < admins.count a := by
    simpa [List.nodup_iff_count_le_one] using hn
  have honce := (hk x earlier hsuffix hfail).once a
  have hout : outage x.reading.node.id earlier = [] := outage_eq_nil hearlier
  obtain ⟨t, tr, u, hw, hr, hm⟩ := exists_observe hw hsuffix
  obtain ⟨h, hcalls, -⟩ := exists_transition (hw.knows hs) hr
  have htr : transitionOf x.reading (readings x.reading.node.id earlier) = .wentDown := by
    rw [transitionOf, hfail, ← map_outage, hout]
    rfl
  rw [htr, ← hm] at hcalls
  have hsent := length_filterMap_sent? (a := a) hcalls (hok x (hsuffix.subset List.mem_cons_self))
  rw [hout, delivered_cons] at honce
  have hnil : delivered a [] = [] := rfl
  rw [hnil, List.nil_append, hsent] at honce
  omega

def Smooth (s : State) : Prop :=
  ∀ d ∈ told dispatch? s, Carried d

theorem Smooth.record {c : Effect} {answer : c.Answer} (h : Smooth s)
    (hc : ∀ d ∈ dispatch? ⟨c, answer⟩, Carried d) : Smooth (s.record c answer) := by
  rw [Smooth, told_record, List.forall_mem_append]
  exact ⟨h, fun d hd => hc d (Option.mem_toList.mp hd)⟩

theorem Smooth.dispatch (h : Smooth s) (c : MessageCall) (result : c.Result)
    {K : c.Answer → State → Prop} (hK : ∀ u, Smooth u → K (.ok result) u) :
    C.surroundings.chance.pre (.message c) K s := by
  refine ⟨.ok result, _, ⟨s, rfl, rfl⟩, hK _ (h.record ?_)⟩
  rintro d ⟨⟩
  exact ⟨result, rfl⟩

theorem reportTo_chance {existing reports : Reports} (h : Smooth s) :
    (reportTo existing text reports a).wp C.surroundings.chance (fun _ u => Smooth u) s := by
  unfold reportTo
  cases existing.lookup a with
  | some id => exact h.dispatch (.edit a id text) () fun u hu => hu
  | none => exact h.dispatch (.send a text) (0 : MessageId) fun u hu => hu

theorem report_chance {existing reports : Reports} (h : Smooth s) :
    (report existing text reports admins).wp C.surroundings.chance (fun _ u => Smooth u) s := by
  induction admins generalizing s reports with
  | nil => exact h
  | cons a admins ih =>
    rw [report, wp_bind]
    exact wp_mono (fun reports u hu => ih hu) (reportTo_chance h)

theorem announce_chance {n : Node} (h : Smooth s) :
    (announce n text admins).wp C.surroundings.chance (fun _ u => Smooth u) s := by
  induction admins generalizing s with
  | nil => exact h
  | cons a admins ih => exact h.dispatch (.send a text) (0 : MessageId) fun u hu => ih hu

theorem remember_chance {existing : Reports} (h : Smooth s) :
    (report existing text [] admins >>= fun reports =>
      askHealth (.remember id reports) >>= fun _ => pure tr).wp C.surroundings.chance
        (fun _ u => Smooth u) s := by
  rw [wp_bind]
  refine wp_mono (fun reports u hu => ?_) (report_chance h)
  refine ⟨_, _, ⟨_, ⟨rfl, rfl⟩, rfl⟩, ?_⟩
  exact Smooth.record (s := u.setHealth _) hu (by rintro d ⟨⟩)

theorem observe_chance (h : Smooth s) :
    (observe admins o.node o.probe o.at_).wp C.surroundings.chance (fun _ u => Smooth u) s := by
  cases hrec : s.health.record o.node o.probe o.at_ with
  | mk p r =>
    obtain ⟨tr, health⟩ := p
    have hfiled : Smooth
        ((s.setHealth r).record (.health (.record o.node o.probe o.at_)) (tr, health)) :=
      Smooth.record (s := s.setHealth r) h (by rintro d ⟨⟩)
    refine ⟨(tr, health), _, ⟨s.setHealth r, ⟨(congrArg Prod.fst hrec).symm,
      (congrArg (s.setHealth ·.2) hrec).symm⟩, rfl⟩, ?_⟩
    cases tr with
    | cameUp | stayedUp => exact hfiled
    | wentDown => exact remember_chance hfiled
    | stayedDown failures => exact remember_chance hfiled
    | recovered downtime =>
      change (announce o.node (recoveredText o.node downtime) admins >>= fun _ =>
        pure (Transition.recovered downtime)).wp C.surroundings.chance _ _
      rw [wp_bind]
      exact announce_chance hfiled

/-- Some readings were observed, the last one first, and the messenger did what it was asked. -/
structure Observed (C : Conditions) (admins : List UserId) (s : State) (os : List Reading)
    (log : List Sighting) : Prop where
  watch : ∃ t, Watch C admins s log t
  readings : log.map Sighting.reading = os
  carried : ∀ x ∈ log, ∀ d ∈ x.messages, Carried d

theorem exists_observed (os : List Reading) : ∃ log, Observed C admins s os log := by
  induction os with
  | nil => exact ⟨[], ⟨s, .nil s⟩, rfl, by simp⟩
  | cons o os ih =>
    obtain ⟨log, ⟨t, hw⟩, rfl, hok⟩ := ih
    have hfresh : Smooth (afresh t) := by
      intro d hd
      cases hd
    have hcan : Can C.surroundings (observe admins o.node o.probe o.at_) (fun _ u => Smooth u)
        (afresh t) := .of_wp (observe_chance hfresh)
    obtain ⟨tr, u, hr, hu⟩ := hcan
    exact ⟨⟨o, told dispatch? u⟩ :: log, ⟨u, .observe hw hr⟩, rfl,
      List.forall_mem_cons.mpr ⟨hu, hok⟩⟩

end observations

theorem passed_admins (c : FleetConfig) (admins : List UserId) :
    { c with admins }.validate.passed = c.validate.passed := by
  rw [Bool.eq_iff_iff, FleetConfig.validate_passed_iff, FleetConfig.validate_passed_iff]
  constructor
  · rintro ⟨hd, hn, hw⟩
    exact ⟨hd, hn, hw⟩
  · rintro ⟨hd, hn, hw⟩
    exact ⟨hd, hn, hw⟩

/-- Whether a configuration passes its check does not depend on its admins. Whatever a new monitor
observes without a failure of the messenger, it keeps track of all messages exactly if no admin is
listed twice or nothing fails. -/
theorem keepsTrack_iff_nodup (C : Conditions) (c : FleetConfig) (os : List Reading) {s : State}
    (hs : s.health = .empty) :
    (∀ admins, { c with admins }.validate.passed = c.validate.passed) ∧
    (∃ log, Observed C c.admins s os log) ∧
    ∀ log, Observed C c.admins s os log →
      (KeepsTrack log ↔ c.admins.Nodup ∨ ∀ o ∈ os, o.probe.healthy = true) := by
  refine ⟨passed_admins c, exists_observed os, ?_⟩
  rintro log ⟨⟨t, hw⟩, rfl, hok⟩
  simp only [List.forall_mem_map]
  constructor
  · intro hk
    by_contra! h
    obtain ⟨hn, x, hx, hfail⟩ := h
    exact not_keepsTrack hn hs hw hok ⟨x, hx, Bool.eq_false_iff.mpr hfail⟩ hk
  · rintro (hn | hup)
    · exact hw.keepsTrack hn hs
    · intro x earlier hx hfail
      rw [hup x (hx.subset List.mem_cons_self)] at hfail
      cases hfail

def failure : Reading :=
  ⟨plainNode, refused, .epoch⟩

theorem keepsTrack_of_recovery : (State.founding plainNode).health = .empty ∧
    ∃ log, Observed troubles [7, 8] (.founding plainNode)
        [{ failure with probe := .ofLatency 7 }, failure, failure] log ∧ KeepsTrack log := by
  have hs : (State.founding plainNode).health = .empty := rfl
  obtain ⟨-, ⟨log, hobserved⟩, hiff⟩ := keepsTrack_iff_nodup troubles { admins := [7, 8] }
    [{ failure with probe := .ofLatency 7 }, failure, failure] hs
  exact ⟨hs, log, hobserved, (hiff log hobserved).mpr (.inl (by decide))⟩

/-- An accepted configuration lists an admin twice. A node fails two probes: the first sends two
messages, and the second edits the later of them twice. -/
theorem exists_lost_track : ∃ (c : FleetConfig) (log : List Sighting), c.validate.passed = true ∧
    Observed troubles c.admins (.founding plainNode) [failure, failure] log ∧
    log.map Sighting.messages =
      [[⟨.edit 1 101 (downText plainNode 2 refused), .ok ()⟩,
          ⟨.edit 1 101 (downText plainNode 2 refused), .ok ()⟩],
        [⟨.send 1 (downText plainNode 1 refused), .ok (100 : MessageId)⟩,
          ⟨.send 1 (downText plainNode 1 refused), .ok (101 : MessageId)⟩]] ∧
    ¬ KeepsTrack log := by
  have hrun : Can troubles.surroundings (observe [1, 1] plainNode refused .epoch) (fun _ u =>
      told dispatch? u = [⟨.send 1 (downText plainNode 1 refused), .ok (100 : MessageId)⟩,
        ⟨.send 1 (downText plainNode 1 refused), .ok (101 : MessageId)⟩] ∧
      Can troubles.surroundings (observe [1, 1] plainNode refused .epoch) (fun _ v =>
        told dispatch? v = [⟨.edit 1 101 (downText plainNode 2 refused), .ok ()⟩,
          ⟨.edit 1 101 (downText plainNode 2 refused), .ok ()⟩]) (afresh u))
      (afresh (.founding plainNode)) := by
    refine .call ⟨_, ⟨rfl, rfl⟩, rfl⟩ (.note ?_)
    refine .call (a := Except.ok (100 : MessageId)) ⟨_, rfl, rfl⟩ ?_
    refine .call (a := Except.ok (101 : MessageId)) ⟨_, rfl, rfl⟩ ?_
    refine .call ⟨_, ⟨rfl, rfl⟩, rfl⟩ (.done ⟨rfl, ?_⟩)
    refine .call ⟨_, ⟨rfl, rfl⟩, rfl⟩ ?_
    refine .call (a := Except.ok ()) ⟨_, rfl, rfl⟩ ?_
    refine .call (a := Except.ok ()) ⟨_, rfl, rfl⟩ ?_
    exact .call ⟨_, ⟨rfl, rfl⟩, rfl⟩ (.done rfl)
  obtain ⟨_, u, hu, htold, _, v, hv, htold'⟩ := hrun
  have hw : Watch troubles [1, 1] (.founding plainNode) _ v :=
    .observe (o := failure) (.observe (o := failure) (.nil _) hu) hv
  have hok : ∀ x ∈ [(⟨failure, told dispatch? v⟩ : Sighting), ⟨failure, told dispatch? u⟩],
      ∀ d ∈ x.messages, Carried d := by
    rw [htold, htold']
    simp only [List.forall_mem_cons]
    refine ⟨⟨⟨(), rfl⟩, ⟨(), rfl⟩, ?_⟩, ⟨⟨(100 : MessageId), rfl⟩, ⟨(101 : MessageId), rfl⟩, ?_⟩,
      ?_⟩
    all_goals simp
  refine ⟨{ admins := [1, 1] }, _, by decide, ⟨⟨v, hw⟩, rfl, hok⟩, ?_, ?_⟩
  · exact congrArg₂ List.cons htold' (congrArg₂ List.cons htold rfl)
  · exact not_keepsTrack (by decide) rfl hw hok ⟨_, List.mem_cons_self, rfl⟩

end PeerFleet.Health
