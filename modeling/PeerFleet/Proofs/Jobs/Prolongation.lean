import Mathlib.Logic.Relation
import PeerFleet.Proofs.Jobs.Overlap
import PeerFleet.Proofs.Time.Instant

/-! # Subscriptions that are prolonged during a pass

While an expiration pass works through what it listed, stored subscriptions are replaced by
prolonged ones. The pass looks up again where the peer of a subscription is, but neither the
status nor the end of the subscription, so it does the same to one that has been prolonged
since it was listed as to the others.
-/

namespace PeerFleet

def Store.Due (t : Store) (now : Instant) (id : SubscriptionId) : Prop :=
  ∃ sub, t.subscription? id = some sub ∧ sub.isActive = true ∧ sub.expiredAt now = true

namespace Fleet

open Program

/-- What happens while a pass is under way. -/
inductive Happening where
  | prolonged (sub : Subscription)
  /-- A call of the pass, with the store as the call found it. -/
  | called (c : Effect) (found : Store)

/-- A state with what has happened, the last first. -/
structure Watched where
  state : State
  trace : List Happening := []

/-- A stored subscription is replaced by one that is active and ends later. -/
inductive Prolongs (now : Instant) : Watched → Watched → Prop
  | replace {w : Watched} (sub : Subscription) :
      (w.state.store.subscription? sub.id).isSome → sub.status = .active → now < sub.expiresAt →
      Prolongs now w
        ⟨w.state.setStore (w.state.store.upsertSubscription sub), .prolonged sub :: w.trace⟩

/-- Before each call of a pass any number of subscriptions may be prolonged. -/
def Conditions.prolonging (C : Conditions) (now : Instant) : Environment Effects Watched :=
  fun c w a w' => ∃ v s, Relation.ReflTransGen (Prolongs now) w v ∧
    C.surroundings c v.state a s ∧ w' = ⟨s, .called c v.state.store :: v.trace⟩

def ends : Effect → Bool
  | .store (.updateStatus _ .expired) | .agent _ (.disable _ _) => true
  | _ => false

def looksUp? : Effect → Option SubscriptionId
  | .store (.getSubscription id) => some id
  | _ => none

namespace Happening

def lookedUp? (trace : List Happening) : Option SubscriptionId :=
  trace.findSome? fun
    | .called c _ => looksUp? c
    | .prolonged _ => none

/-- The subscription that a call ends: the one that it writes down as expired, or the one through
which it suspends a peer. -/
def target? (earlier : List Happening) : Effect → Option SubscriptionId
  | .store (.updateStatus id .expired) => some id
  | .agent _ (.disable _ _) => lookedUp? earlier
  | _ => none

/-- A subscription has been prolonged. -/
def Prolonged (trace : List Happening) (id : SubscriptionId) : Prop :=
  ∃ sub, .prolonged sub ∈ trace ∧ sub.id = id

end Happening

open Happening

/-- Whatever a call of the pass ended was due just then, unless it had been prolonged. -/
def Candid (now : Instant) (w : Watched) : Prop :=
  ∀ ⦃c t earlier⦄, .called c t :: earlier <:+ w.trace → ends c = true →
    ∃ id, target? earlier c = some id ∧ (t.Due now id ↔ ¬ Prolonged earlier id)

/-- The pass has been candid, and what it still has to do is due unless it has been prolonged. -/
structure Stands (now : Instant) (left : List SubscriptionId) (w : Watched) : Prop where
  candid : Candid now w
  due_iff : ∀ id ∈ left, w.state.store.Due now id ↔ ¬ Prolonged w.trace id

section steps

variable {C : Conditions} {now : Instant} {left : List SubscriptionId} {id : SubscriptionId}
  {v w : Watched} {sub : Subscription} {c : Effect} {t : Store} {trace : List Happening}

@[simp] theorem prolonged_cons_prolonged :
    Prolonged (.prolonged sub :: trace) id ↔ sub.id = id ∨ Prolonged trace id := by
  simp [Prolonged, or_and_right, exists_or]

@[simp] theorem prolonged_cons_called :
    Prolonged (.called c t :: trace) id ↔ Prolonged trace id := by
  simp [Prolonged]

@[simp] theorem lookedUp?_cons_called :
    lookedUp? (.called c t :: trace) = (looksUp? c).or (lookedUp? trace) := by
  rw [lookedUp?, List.findSome?_cons]
  dsimp only
  cases looksUp? c <;> rfl

theorem due_upsertSubscription :
    (t.upsertSubscription sub).Due now id ↔
      if sub.id = id then sub.isActive = true ∧ sub.expiredAt now = true else t.Due now id := by
  unfold Store.Due Store.subscription? Store.upsertSubscription
  rw [Table.find?_insert]
  change (∃ _, (if sub.id.toInt = id.toInt then _ else _) = _ ∧ _) ↔ _
  simp only [Store.toInt_eq_iff]
  split_ifs <;> simp

theorem due_updateStatus_of_ne {j : SubscriptionId} {status : SubscriptionStatus} (h : j ≠ id) :
    (t.updateStatus id status).2.Due now j ↔ t.Due now j := by
  unfold Store.Due Store.updateStatus
  simp only [Store.modifySubscription_subscription?, if_neg h]

theorem Prolongs.exists_id (h : Prolongs now w v) : ∃ j, ∀ id,
    (v.state.store.Due now id ↔ j ≠ id ∧ w.state.store.Due now id) ∧
      (Prolonged v.trace id ↔ j = id ∨ Prolonged w.trace id) := by
  cases h with
  | @replace sub _ _ hlater =>
    have hnot : sub.expiredAt now = false := by
      simpa [Subscription.expiredAt] using Instant.not_le.mpr hlater
    refine ⟨sub.id, fun id => ⟨?_, prolonged_cons_prolonged⟩⟩
    change (w.state.store.upsertSubscription sub).Due now id ↔ _
    rw [due_upsertSubscription]
    split_ifs with he <;> simp [he, hnot]

theorem candid_cons_prolonged :
    Candid now ⟨w.state.setStore t, .prolonged sub :: w.trace⟩ ↔ Candid now w := by
  constructor
  · intro h c t earlier hs
    exact h (hs.trans (List.suffix_cons _ _))
  · intro h c t earlier hs
    obtain hs | hs := List.suffix_cons_iff.mp hs
    · cases hs
    · exact h hs

/-- Prolonging keeps the pass candid, what is due, and the subscription that it looked up. -/
theorem Stands.prolong (hw : Stands now left w) (h : Relation.ReflTransGen (Prolongs now) w v) :
    Stands now left v ∧ lookedUp? v.trace = lookedUp? w.trace := by
  induction h with
  | refl => exact ⟨hw, rfl⟩
  | tail _ h ih =>
    obtain ⟨hv, hl⟩ := ih
    refine ⟨⟨?_, fun id hid => ?_⟩, ?_⟩
    · cases h
      exact candid_cons_prolonged.mpr hv.candid
    · obtain ⟨j, hj⟩ := h.exists_id
      rw [(hj id).1, (hj id).2, hv.due_iff id hid, not_or]
    · cases h
      exact hl

theorem not_prolonged_of_due {s : State}
    (h : Relation.ReflTransGen (Prolongs now) ⟨s, []⟩ v) (hid : v.state.store.Due now id) :
    ¬ Prolonged v.trace id := by
  induction h with
  | refl => simp [Prolonged]
  | tail _ h ih =>
    obtain ⟨j, hj⟩ := h.exists_id
    obtain ⟨hne, hdue⟩ := (hj id).1.mp hid
    rw [(hj id).2, not_or]
    exact ⟨hne, ih hdue⟩

theorem candid_cons_called {s : State} (hw : Candid now w)
    (h : ends c = true → ∃ id, target? w.trace c = some id ∧
      (t.Due now id ↔ ¬ Prolonged w.trace id)) :
    Candid now ⟨s, .called c t :: w.trace⟩ := by
  intro c' t' earlier hs hends
  obtain hs | hs := List.suffix_cons_iff.mp hs
  · cases hs
    exact h hends
  · exact hw hs hends

theorem pre_watched {K : c.Answer → Watched → Prop} (hw : Stands now left w)
    (hstore : ∀ s a u, C.effect s c a u → u.store = s.store)
    (htarget : ∀ trace, lookedUp? trace = lookedUp? w.trace → ends c = true →
      ∃ id ∈ left, target? trace c = some id)
    (hK : ∀ a v, Stands now left v →
      lookedUp? v.trace = (looksUp? c).or (lookedUp? w.trace) → K a v) :
    ((C.prolonging now).always (Candid now)).pre c K w := by
  rintro a _ ⟨v, _, hv, ⟨u, hu, rfl⟩, rfl⟩
  obtain ⟨hv, hl⟩ := hw.prolong hv
  have hc : Candid now ⟨u.record c a, .called c v.state.store :: v.trace⟩ := by
    apply candid_cons_called hv.candid
    intro hends
    obtain ⟨id, hid, ht⟩ := htarget v.trace hl hends
    exact ⟨id, ht, hv.due_iff id hid⟩
  refine ⟨hc, hK a _ ⟨hc, fun id hid => ?_⟩ (by rw [lookedUp?_cons_called, hl])⟩
  rw [prolonged_cons_called]
  change u.store.Due now id ↔ _
  rw [hstore _ a u hu]
  exact hv.due_iff id hid

end steps

section pass

variable {C : Conditions} {now : Instant} {left : List SubscriptionId} {id : SubscriptionId}
  {w : Watched} {sub : Subscription}

/-- Once a subscription that is still to do has been looked up, the other calls for its peer end
nothing else. -/
theorem pre_lookedUp {c : Effect} {K : c.Answer → Watched → Prop} (hw : Stands now left w)
    (hl : lookedUp? w.trace = some id) (hid : id ∈ left)
    (hstore : ∀ s a u, C.effect s c a u → u.store = s.store) (hc : looksUp? c = none)
    (htarget : ends c = true → ∀ trace, target? trace c = lookedUp? trace)
    (hK : ∀ a v, Stands now left v → lookedUp? v.trace = some id → K a v) :
    ((C.prolonging now).always (Candid now)).pre c K w := by
  refine pre_watched hw hstore (fun trace ht hends => ⟨id, hid, ?_⟩) fun a v hv hlv => hK a v hv ?_
  · rw [htarget hends trace, ht, hl]
  · rw [hlv, hc, hl]
    rfl

theorem disableClient_watched (hw : Stands now left w) (hid : sub.id ∈ left) :
    (disableClient sub).run.wp ((C.prolonging now).always (Candid now))
      (Outcome (fun _ => Stands now left) fun _ => Stands now left) w := by
  apply disableClient_wp_of
  rw [wp_bindingOf]
  apply pre_watched hw (by rintro s a u (⟨-, rfl⟩ | ⟨_, -, -, rfl⟩) <;> rfl) (by rintro _ _ ⟨⟩)
  rintro (_ | stored) v hv hl
  · exact hv
  change (Option.getD stored sub).binding.elim (_ : Watched → Prop) _ v
  cases (Option.getD stored sub).binding with
  | none => exact hv
  | some b =>
    change (nodeOf b.nodeId).run.wp _ _ v
    rw [wp_nodeOf]
    apply pre_lookedUp hv hl hid (by rintro s a u (⟨-, rfl⟩ | ⟨_, -, -, rfl⟩) <;> rfl) rfl
      (by rintro ⟨⟩)
    rintro (_ | _ | n) v hv hl
    · exact hv
    · exact hv
    change (clientFor n).run.wp _ _ v
    rw [wp_clientFor]
    apply pre_lookedUp hv hl hid (by rintro s a u ⟨_, -, -, rfl⟩; rfl) rfl (by rintro ⟨⟩)
    intro filed v hv hl
    have hremote (k : Client) {v : Watched} (hv : Stands now left v)
        (hl : lookedUp? v.trace = some sub.id) :
        (remote n k (.disable n.interface b.peerId)).run.wp
          ((C.prolonging now).always (Candid now))
          (Outcome (fun _ => Stands now left) fun _ => Stands now left) v := by
      rw [wp_remote]
      apply pre_lookedUp hv hl hid _ rfl fun _ _ => rfl
      · rintro (_ | _) v hv -
        · exact hv
        · exact hv
      · rintro s a u ((⟨-, -, rfl⟩ | ⟨-, -, rfl⟩) | ⟨_, -, -, rfl⟩) <;> rfl
    cases filed with
    | some k => exact hremote k hv hl
    | none =>
      apply pre_lookedUp hv hl hid (by rintro s a u ⟨_, -, -, rfl⟩; rfl) rfl (by rintro ⟨⟩)
      rintro (_ | k) v hv hl
      · exact hv
      · exact hremote k.1 hv hl

theorem updateStatus_watched {K : Except StoreError Unit → Watched → Prop}
    (hn : id ∉ left) (hw : Stands now (id :: left) w) (hK : ∀ a v, Stands now left v → K a v) :
    ((C.prolonging now).always (Candid now)).pre (.store (.updateStatus id .expired)) K w := by
  rintro a _ ⟨v, _, hv, ⟨u, hu, rfl⟩, rfl⟩
  obtain ⟨hv, -⟩ := hw.prolong hv
  have hc : Candid now ⟨u.record (.store (.updateStatus id .expired)) a,
      .called (.store (.updateStatus id .expired)) v.state.store :: v.trace⟩ := by
    apply candid_cons_called hv.candid
    intro
    exact ⟨id, rfl, hv.due_iff id List.mem_cons_self⟩
  refine ⟨hc, hK a _ ⟨hc, fun j hj => ?_⟩⟩
  rw [prolonged_cons_called, ← hv.due_iff j (List.mem_cons_of_mem _ hj)]
  obtain ⟨-, rfl⟩ | ⟨_, -, -, rfl⟩ := hu
  · exact due_updateStatus_of_ne fun h => hn (h ▸ hj)
  · exact Iff.rfl

theorem expire_watched (hn : sub.id ∉ left) (hw : Stands now (sub.id :: left) w) :
    (Expiration.expire sub).wp ((C.prolonging now).always (Candid now))
      (Outcome (fun _ => Stands now left) fun _ => Stands now left) w := by
  have hleft {v : Watched} (hv : Stands now (sub.id :: left) v) : Stands now left v :=
    ⟨hv.candid, fun id hid => hv.due_iff id (List.mem_cons_of_mem _ hid)⟩
  apply Expiration.expire_wp (U := Stands now (sub.id :: left))
  · split_ifs
    · exact hw
    · refine wp_mono (fun r v hv => ?_) (disableClient_watched hw List.mem_cons_self)
      refine hv.mono (fun _ v hv => hv) fun e v hv => ?_
      split_ifs
      · exact hv
      · exact hleft hv
  · intro v hv
    apply updateStatus_watched hn hv
    rintro (_ | _) v hv
    · exact hv
    · exact hv

theorem mem_listExpired_iff {t : Store} :
    id ∈ (t.listExpired now).map Subscription.id ↔ t.Due now id := by
  simp [Store.listExpired, Store.mem_listSubscriptions_iff, Store.Due]

theorem listExpired_watched {s : State} {K : Except StoreError (List Subscription) → Watched → Prop}
    (hok : ∀ (due : List Subscription) v, (due.map Subscription.id).Nodup →
      Stands now (due.map Subscription.id) v → K (.ok due) v) (herror : ∀ e v, K (.error e) v) :
    ((C.prolonging now).always (Candid now)).pre (.store (.listExpired now)) K ⟨s, []⟩ := by
  rintro a _ ⟨v, _, hv, ⟨u, hu, rfl⟩, rfl⟩
  have hs : Stands now [] ⟨s, []⟩ := ⟨by simp [Candid], by simp⟩
  have hc : Candid now ⟨u.record (.store (.listExpired now)) a,
      .called (.store (.listExpired now)) v.state.store :: v.trace⟩ :=
    candid_cons_called (hs.prolong hv).1.candid nofun
  refine ⟨hc, ?_⟩
  obtain ⟨rfl, rfl⟩ | ⟨e, -, rfl, rfl⟩ := hu
  · refine hok _ _ (Store.nodup_listSubscriptions _ _) ⟨hc, fun id hid => ?_⟩
    have hdue : v.state.store.Due now id := mem_listExpired_iff.mp hid
    rw [prolonged_cons_called]
    exact iff_of_true hdue (not_prolonged_of_due hv hdue)
  · exact herror e _

theorem runAt_watched (s : State) :
    (Expiration.runAt now).run.wp ((C.prolonging now).always (Candid now))
      (Outcome (fun _ => Stands now []) fun _ _ => True) ⟨s, []⟩ := by
  have h : (Expiration.runAt now).run.wp ((C.prolonging now).always (Candid now))
      (Outcome (fun _ w => ([].map Subscription.id).Nodup ∧ Stands now ([].map Subscription.id) w)
        fun _ _ => True) ⟨s, []⟩ := by
    apply Expiration.runAt_wp
      (I := fun left w =>
        (left.map Subscription.id).Nodup ∧ Stands now (left.map Subscription.id) w)
    · rintro sub subs w ⟨hn, hw⟩
      rw [List.map_cons, List.nodup_cons] at hn
      refine wp_mono (fun r v hv => ⟨hn.2, ?_⟩) (expire_watched hn.1 hw)
      cases r <;> exact hv
    · exact listExpired_watched (fun _ _ hn hv => ⟨hn, hv⟩) fun _ _ => trivial
  exact wp_mono (fun _ _ h => h.mono (fun _ _ hs => hs.2) fun _ _ _ => trivial) h

/-- Whenever an expiration pass writes a subscription down as expired, or suspends a peer through
one, the stored subscription is active and its time is up just then, if and only if it has not been
prolonged before. -/
theorem due_iff_not_prolonged {s : State} {p : Program Effects (Except StoreError ExpirationReport)}
    (hr : Reaches (C.prolonging now) (Expiration.runAt now).run ⟨s, []⟩ p w) {c : Effect}
    {t : Store} {earlier : List Happening} (hc : .called c t :: earlier <:+ w.trace)
    (hends : ends c = true) :
    ∃ id, target? earlier c = some id ∧
      (t.Due now id ↔ ∀ sub, .prolonged sub ∈ earlier → sub.id ≠ id) := by
  have hcandid : Candid now w := hr.safe (runAt_watched s) (by simp [Candid])
  simpa [Prolonged] using hcandid hc hends

end pass

theorem due_of_untouched : ∃ (p : Program Effects (Except StoreError ExpirationReport))
    (w : Watched) (t : Store) (earlier : List Happening),
    Reaches (calm.prolonging .epoch) (Expiration.runAt .epoch).run ⟨.waiting, []⟩ p w ∧
    .called (.store (.updateStatus 1 .expired)) t :: earlier <:+ w.trace ∧
    ends (.store (.updateStatus 1 .expired)) = true ∧ t.Due .epoch 1 := by
  have hrun : Visits (calm.prolonging .epoch) (Expiration.runAt .epoch).run
      (fun w => ∃ t t', w.trace = [.called (.store (.updateStatus 1 .expired)) t,
        .called (.store (.listExpired .epoch)) t']) ⟨.waiting, []⟩ := by
    refine .call (a := Except.ok [_]) ⟨_, _, .refl, ⟨_, .inl ⟨rfl, rfl⟩, rfl⟩, rfl⟩ ?_
    refine .call ⟨_, _, .refl, ⟨_, .inl ⟨rfl, rfl⟩, rfl⟩, rfl⟩ ?_
    exact .here ⟨_, _, rfl⟩
  obtain ⟨p, w, hr, t, t', hw⟩ := hrun
  have hc : .called (.store (.updateStatus 1 .expired)) t :: w.trace.tail <:+ w.trace := by
    simp [hw]
  obtain ⟨id, hid, hdue⟩ := due_iff_not_prolonged hr hc rfl
  cases hid
  exact ⟨p, w, t, _, hr, hc, rfl, hdue.mpr (by simp [hw])⟩

def longer : Subscription :=
  { id := 1, userId := 10, tariff := "month",
    expiresAt := (Instant.epoch.shiftDays? 1).getD .epoch,
    binding := some ⟨1, "p", ⟨"", "", "10.8.0.2"⟩⟩ }

/-- A subscription is prolonged just after it was listed, and the pass suspends its peer. -/
theorem exists_suspended_prolonged :
    Visits (calm.prolonging .epoch) (Expiration.runAt .epoch).run
      (fun w => ∃ c t earlier, .called c t :: earlier <:+ w.trace ∧ ends c = true ∧
        target? earlier c = some 1 ∧ ¬ t.Due .epoch 1) ⟨.serving, []⟩ := by
  refine .call (a := Except.ok [_]) ⟨_, _, .refl, ⟨_, .inl ⟨rfl, rfl⟩, rfl⟩, rfl⟩ ?_
  refine .call ⟨_, _, .single (.replace longer rfl rfl (by decide)),
    ⟨_, .inl ⟨rfl, rfl⟩, rfl⟩, rfl⟩ ?_
  refine .call ⟨_, _, .refl, ⟨_, .inl ⟨rfl, rfl⟩, rfl⟩, rfl⟩ ?_
  refine .call ⟨_, _, .refl, ⟨_, ⟨.ok (), nofun, rfl, rfl⟩, rfl⟩, rfl⟩ ?_
  refine .call ⟨_, _, .refl, ⟨_, ⟨.ok (), nofun, rfl, rfl⟩, rfl⟩, rfl⟩ (.note ?_)
  have hp : "p" ∈ State.serving.agents 1 := State.mem_addPeer_iff (x := (1, "p")).mpr (.inl rfl)
  refine .call ⟨_, _, .refl, ⟨_, .inl (.inl ⟨hp, rfl, rfl⟩), rfl⟩, rfl⟩ (.here ?_)
  refine ⟨_, _, _, List.suffix_rfl, rfl, rfl, ?_⟩
  rintro ⟨sub, hs, -, hexpired⟩
  obtain rfl : longer = sub := Option.some.inj hs
  exact absurd hexpired (by decide)

end Fleet

end PeerFleet
