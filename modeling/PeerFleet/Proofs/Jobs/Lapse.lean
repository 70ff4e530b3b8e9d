import PeerFleet.Proofs.Fleet.State

/-! # What two passes rely on

An expiration pass and a provisioning pass run at the same time. The expiration pass goes by
the copies that it listed: a subscription that was listed with a peer loses it before its
record says that it is over, and one that was listed without a peer is only written down as
over, whatever peer it may have been given meanwhile.
-/

namespace PeerFleet.Fleet

/-- What was answered when the subscriptions whose time is up were listed. -/
def State.Listed (s : State) (due : List Subscription) : Prop :=
  ∃ now, (⟨.store (.listExpired now), .ok due⟩ : Exchange) ∈ s.history

/-- A stored subscription that is over and bound to a working peer. -/
def Overdue (s : State) (id : SubscriptionId) : Prop :=
  ∃ sub b, s.store.subscription? id = some sub ∧ sub.status = .expired ∧ sub.binding = some b ∧
    s.Working b.peer

def Bare (due : List Subscription) (id : SubscriptionId) : Prop :=
  ∃ sub ∈ due, sub.id = id ∧ sub.binding = none

/-- A subscription was listed without a peer and is bound to one now. -/
def Slipped (s : State) (id : SubscriptionId) : Prop :=
  ∃ sub due, s.store.subscription? id = some sub ∧ sub.binding.isSome ∧ s.Listed due ∧ Bare due id

/-- How far the expiration pass is. -/
inductive Lapse where
  | unlisted
  /-- What was listed, what is left of it, and whether the peer of the first that is left has
  been cut off. -/
  | listed (due left : List Subscription) (cut : Bool)

namespace Lapse

@[simp] def listing : Lapse → Option (List Subscription)
  | unlisted => none
  | listed due _ _ => some due

@[simp] def due : Lapse → List Subscription
  | unlisted => []
  | listed due _ _ => due

@[simp] def left : Lapse → List Subscription
  | unlisted => []
  | listed _ left _ => left

@[simp] def cut : Lapse → Bool
  | unlisted => false
  | listed _ _ cut => cut

end Lapse

/-- How far the provisioning pass is with a subscription. -/
inductive Supply where
  | idle
  | vacant (id : SubscriptionId)
  | chosen (id : SubscriptionId) (node : NodeId)
  | created (id : SubscriptionId) (peer : NodeId × String)

namespace Supply

@[simp] def subscription? : Supply → Option SubscriptionId
  | idle => none
  | vacant id | chosen id _ | created id _ => some id

def Fits (s : State) : Supply → Prop
  | idle | vacant _ => True
  | chosen _ n => (s.store.node? n).isSome
  | created _ x => x ∈ s.issued ∧ s.Working x ∧ x ∉ s.store.bound

theorem Fits.mono {s s' : State} {p : Supply} (h : p.Fits s)
    (hnode : ∀ n, (s'.store.node? n).isSome = (s.store.node? n).isSome)
    (hissued : s'.issued = s.issued) (hbound : s'.store.bound = s.store.bound)
    (hw : ∀ {x}, x ∉ s.store.bound → s.Working x → s'.Working x) : p.Fits s' := by
  cases p with
  | idle | vacant => trivial
  | chosen _ n => exact (hnode n).trans h
  | created _ x =>
    obtain ⟨hi, hx, hnb⟩ := h
    exact ⟨hissued ▸ hi, hw hnb hx, hbound ▸ hnb⟩

end Supply

/-- What holds while both passes are under way. -/
structure Sound (s : State) (e : Lapse) (p : Supply) : Prop where
  listing : ∀ {due}, s.Listed due ↔ e.listing = some due
  issued : ∀ {x}, x ∈ s.store.bound → x ∈ s.issued
  supply : p.Fits s
  vacant : ∀ {id}, p.subscription? = some id → Vacant s id
  /-- What was listed without a peer is over once its turn was, and keeps a peer that it is
  given. -/
  bare : ∀ {id sub}, s.store.subscription? id = some sub → Bare e.due id →
    (id ∉ e.left.map Subscription.id → sub.status = .expired) ∧
      ∀ {b}, sub.binding = some b → s.Working b.peer
  /-- Everything else that is over has no working peer, and gets none. -/
  rest : ∀ {id sub}, s.store.subscription? id = some sub → ¬ Bare e.due id →
    sub.status = .expired →
    p.subscription? ≠ some id ∧ ∀ {b}, sub.binding = some b → ¬ s.Working b.peer
  /-- What was listed with a peer stays bound to it, and nothing that was listed without one
  is bound to the same. -/
  kept : ∀ {sub b}, sub ∈ e.due → sub.binding = some b →
    (∃ stored, s.store.subscription? sub.id = some stored ∧ stored.binding = some b) ∧
      ∀ {id stored c}, s.store.subscription? id = some stored → Bare e.due id →
        stored.binding = some c → c.peer ≠ b.peer
  left : e.left ⊆ e.due
  cut : e.cut → ∀ {sub b}, e.left.head? = some sub → sub.binding = some b → ¬ s.Working b.peer

theorem listed_record {s : State} {c : Effect} {a : c.Answer} {due : List Subscription}
    (hc : ∀ now, c ≠ .store (.listExpired now)) : (s.record c a).Listed due ↔ s.Listed due := by
  refine exists_congr fun now => ?_
  change _ ∈ _ :: s.history ↔ _
  rw [List.mem_cons, or_iff_right]
  intro h
  exact hc now (congrArg Sigma.fst h).symm

namespace Sound

variable {s s' : State} {e : Lapse} {p : Supply}

theorem congr (h : Sound s e p) (hsubs : s'.store.subscriptions = s.store.subscriptions)
    (hnodes : ∀ id, (s'.store.node? id).isSome = (s.store.node? id).isSome)
    (hagents : s'.agents = s.agents) (hissued : s'.issued = s.issued)
    (hlisted : ∀ {due}, s'.Listed due ↔ s.Listed due) : Sound s' e p := by
  have hs : s'.store.subscription? = s.store.subscription? := by
    funext id
    rw [Store.subscription?, hsubs, ← Store.subscription?]
  have hb : s'.store.bound = s.store.bound := Store.bound_congr hsubs
  have hw : s'.Working = s.Working := by
    funext x
    rw [State.Working, hnodes, hagents, ← State.Working]
  exact
    { listing := hlisted.trans h.listing
      issued := by
        rw [hb, hissued]
        exact h.issued
      supply := h.supply.mono hnodes hissued hb fun _ hx => hw ▸ hx
      vacant := by
        simp only [Vacant, hs]
        exact h.vacant
      bare := by
        rw [hs, hw]
        exact h.bare
      rest := by
        rw [hs, hw]
        exact h.rest
      kept := by
        rw [hs]
        exact h.kept
      left := h.left
      cut := by
        rw [hw]
        exact h.cut }

theorem start (hh : s.history = []) (hi : ∀ x ∈ s.store.bound, x ∈ s.issued)
    (h : ∀ id, ¬ Overdue s id) : Sound s .unlisted .idle where
  listing := by simp [State.Listed, hh]
  issued hx := hi _ hx
  supply := trivial
  vacant := nofun
  bare _ hb := by
    obtain ⟨_, ⟨⟩, -⟩ := hb
  rest hs _ ho := ⟨nofun, fun hb hw => h _ ⟨_, _, hs, ho, hb, hw⟩⟩
  kept := nofun
  left := List.Subset.refl _
  cut := nofun

/-- At the end, what is over has a working peer if it was listed without one. -/
theorem overdue_iff {due : List Subscription} {cut : Bool} (h : Sound s (.listed due [] cut) p)
    {id : SubscriptionId} : Overdue s id ↔ Slipped s id := by
  constructor
  · rintro ⟨sub, b, hs, ho, hb, hw⟩
    refine ⟨sub, due, hs, by simp [hb], h.listing.mpr rfl, ?_⟩
    by_contra hbare
    exact (h.rest hs hbare ho).2 hb hw
  · rintro ⟨sub, due', hs, hb, hl, hbare⟩
    cases h.listing.mp hl
    obtain ⟨b, hb⟩ := Option.isSome_iff_exists.mp hb
    obtain ⟨hover, hworks⟩ := h.bare hs hbare
    exact ⟨sub, b, hs, hover nofun, hb, hworks hb⟩

theorem record (h : Sound s e p) {c : Effect} {a : c.Answer}
    (hc : ∀ now, c ≠ .store (.listExpired now)) : Sound (s.record c a) e p :=
  h.congr rfl (fun _ => rfl) rfl rfl (listed_record hc)

theorem mem_bound (h : Sound s e p) {sub : Subscription} {b : Binding} (hm : sub ∈ e.due)
    (hb : sub.binding = some b) : b.peer ∈ s.store.bound := by
  obtain ⟨⟨stored, hs, hsb⟩, -⟩ := h.kept hm hb
  exact Store.mem_bound_iff.mpr ⟨_, stored, b, hs, hsb, rfl⟩

section lapse

variable {due left : List Subscription} {sub : Subscription} {b : Binding}

theorem of_mem_listExpired {now : Instant} (h : sub ∈ s.store.listExpired now) :
    s.store.subscription? sub.id = some sub :=
  Store.subscription?_eq_some_iff.mpr ⟨(List.mem_filter.mp h).1, rfl⟩

theorem list (h : Sound s .unlisted p) {now : Instant} :
    Sound (s.record (.store (.listExpired now)) (.ok (s.store.listExpired now)))
      (.listed (s.store.listExpired now) (s.store.listExpired now) false) p where
  listing {due} := by
    constructor
    · rintro ⟨now', hm⟩
      rcases List.mem_cons.mp hm with hm | hm
      · cases hm
        rfl
      · cases h.listing.mp ⟨now', hm⟩
    · rintro ⟨⟩
      exact ⟨now, List.mem_cons_self⟩
  issued := h.issued
  supply := h.supply.mono (fun _ => rfl) rfl rfl fun _ hx => hx
  vacant := h.vacant
  bare {id sub} hs hb := by
    obtain ⟨copy, hm, rfl, hn⟩ := hb
    obtain rfl : copy = sub := Option.some.inj ((of_mem_listExpired hm).symm.trans hs)
    refine ⟨fun hleft => absurd (List.mem_map_of_mem hm) hleft, fun hb => ?_⟩
    rw [hn] at hb
    cases hb
  rest hs _ := h.rest hs (by rintro ⟨_, ⟨⟩, _⟩)
  kept {sub b} hm hb := by
    refine ⟨⟨sub, of_mem_listExpired hm, hb⟩, fun {id stored c} hs hbare hc => ?_⟩
    obtain ⟨copy, hm', rfl, hn⟩ := hbare
    obtain rfl : copy = stored := Option.some.inj ((of_mem_listExpired hm').symm.trans hs)
    rw [hn] at hc
    cases hc
  left := List.Subset.refl _
  cut := nofun

theorem cutOff (h : Sound s (.listed due (sub :: left) false) p) (hb : sub.binding = some b)
    (hstore : s'.store = s.store) (hhistory : s'.history = s.history)
    (hissued : s'.issued = s.issued) (hw : ∀ {x}, s'.Working x ↔ s.Working x ∧ x ≠ b.peer) :
    Sound s' (.listed due (sub :: left) true) p := by
  have hmem : sub ∈ due := h.left List.mem_cons_self
  have hapart := @(h.kept hmem hb).2
  exact
    { listing := by
        intro l
        rw [State.Listed, hhistory]
        exact h.listing
      issued := by
        rw [hstore, hissued]
        exact h.issued
      supply := by
        refine h.supply.mono (fun n => by rw [hstore]) hissued (by rw [hstore]) fun hnb hx => ?_
        refine hw.mpr ⟨hx, ?_⟩
        rintro rfl
        exact hnb (h.mem_bound hmem hb)
      vacant := by
        simp only [Vacant, hstore]
        exact h.vacant
      bare := by
        intro id stored hs hbare
        rw [hstore] at hs
        obtain ⟨hover, hworks⟩ := h.bare hs hbare
        exact ⟨hover, fun hc => hw.mpr ⟨hworks hc, hapart hs hbare hc⟩⟩
      rest := by
        intro id stored hs hbare hover
        rw [hstore] at hs
        obtain ⟨hne, hworks⟩ := h.rest hs hbare hover
        exact ⟨hne, fun hc hx => hworks hc (hw.mp hx).1⟩
      kept := by
        rw [hstore]
        exact h.kept
      left := h.left
      cut := by
        rintro - _ c ⟨⟩ hc hx
        rw [hb] at hc
        cases hc
        exact (hw.mp hx).2 rfl }

/-- The first that is left has no working peer and gets none, if it was listed with one. -/
theorem not_working_of_cut {cut : Bool} (h : Sound s (.listed due (sub :: left) cut) p)
    (hcut : sub.binding = none ∨ cut = true) (hbare : ¬ Bare due sub.id) {old : Subscription}
    (ho : s.store.subscription? sub.id = some old) :
    p.subscription? ≠ some sub.id ∧ ∀ {b}, old.binding = some b → ¬ s.Working b.peer := by
  have hmem : sub ∈ due := h.left List.mem_cons_self
  obtain ⟨b, hb⟩ : ∃ b, sub.binding = some b :=
    Option.ne_none_iff_exists'.mp fun hnone => hbare ⟨sub, hmem, rfl, hnone⟩
  obtain ⟨⟨stored, hs, hsb⟩, -⟩ := h.kept hmem hb
  obtain rfl : stored = old := Option.some.inj (hs.symm.trans ho)
  refine ⟨fun hid => ?_, fun {c} hc => ?_⟩
  · obtain ⟨stored', hs', hv⟩ := h.vacant hid
    rw [hs] at hs'
    cases hs'
    rw [hsb] at hv
    cases hv
  · rw [hsb] at hc
    cases hc
    exact h.cut (hcut.resolve_left (by simp [hb])) rfl hb

theorem expire {cut : Bool} (h : Sound s (.listed due (sub :: left) cut) p)
    (hcut : sub.binding = none ∨ cut = true) :
    Sound (s.setStore (s.store.updateStatus sub.id .expired).2) (.listed due left false) p := by
  have hnode (n : NodeId) : ((s.store.updateStatus sub.id .expired).2.node? n).isSome =
      (s.store.node? n).isSome :=
    congrArg Option.isSome Store.modifySubscription_node?
  have hw {x : NodeId × String} :
      (s.setStore (s.store.updateStatus sub.id .expired).2).Working x ↔ s.Working x :=
    State.working_setStore_iff hnode
  exact
    { listing := h.listing
      issued := fun hx => h.issued (Store.bound_updateStatus (s := s.store) ▸ hx)
      supply := h.supply.mono hnode rfl Store.bound_updateStatus fun _ => hw.mpr
      vacant := by
        intro id hid
        obtain ⟨old, ho, hn⟩ := h.vacant hid
        obtain ⟨new, hnew, hb⟩ := Store.updateStatus_of_eq_some ho
        exact ⟨new, hnew, hb.trans hn⟩
      bare := by
        intro id new hn hbare
        obtain ⟨old, ho, hb, hst⟩ := Store.of_updateStatus_eq_some hn
        obtain ⟨hover, hworks⟩ := h.bare ho hbare
        refine ⟨fun hleft => ?_, fun hc => hw.mpr (hworks (hb ▸ hc))⟩
        rw [hst]
        split_ifs with hid
        · rfl
        · exact hover (by simpa [hid] using hleft)
      rest := by
        intro id new hn hbare hover
        obtain ⟨old, ho, hb, hst⟩ := Store.of_updateStatus_eq_some hn
        split_ifs at hst with hid
        · subst hid
          obtain ⟨hne, hworks⟩ := h.not_working_of_cut hcut hbare ho
          exact ⟨hne, fun hc hx => hworks (hb ▸ hc) (hw.mp hx)⟩
        · obtain ⟨hne, hworks⟩ := h.rest ho hbare (hst ▸ hover)
          exact ⟨hne, fun hc hx => hworks (hb ▸ hc) (hw.mp hx)⟩
      kept := by
        intro copy b hm hb
        obtain ⟨⟨stored, hs, hsb⟩, hapart⟩ := h.kept hm hb
        obtain ⟨new, hnew, hnb⟩ := Store.updateStatus_of_eq_some hs
        refine ⟨⟨new, hnew, hnb.trans hsb⟩, fun {id new c} hn hbare hc => ?_⟩
        obtain ⟨old, ho, hob, -⟩ := Store.of_updateStatus_eq_some hn
        exact hapart ho hbare (hob ▸ hc)
      left := fun _ hm => h.left (List.mem_cons_of_mem _ hm)
      cut := nofun }

end lapse

section supply

variable {id : SubscriptionId} {n : NodeId}

theorem giveUp (h : Sound s e p) : Sound s e .idle where
  __ := h
  supply := trivial
  vacant := nofun
  rest hs hb ho := ⟨nofun, (h.rest hs hb ho).2⟩

theorem check (h : Sound s e .idle) {stored : Subscription}
    (hs : s.store.subscription? id = some stored) (hn : stored.needsProvisioning) :
    Sound s e (.vacant id) where
  __ := h
  supply := trivial
  vacant := by
    rintro _ ⟨⟩
    exact ⟨stored, hs, (Subscription.needsProvisioning_iff.mp hn).2⟩
  rest {j sub} hs' hb ho := by
    refine ⟨?_, (h.rest hs' hb ho).2⟩
    rintro ⟨⟩
    rw [hs] at hs'
    cases hs'
    rw [(Subscription.needsProvisioning_iff.mp hn).1] at ho
    cases ho

theorem choose (h : Sound s e (.vacant id)) (hn : (s.store.node? n).isSome) :
    Sound s e (.chosen id n) where
  __ := h
  supply := hn

theorem create (h : Sound s e (.chosen id n)) {q : String} (hq : (n, q) ∉ s.issued) :
    Sound (s.addPeer n q) e (.created id (n, q)) where
  listing := h.listing
  issued hx := .inr (h.issued hx)
  supply := ⟨.inl rfl, State.working_addPeer_iff.mpr (.inl ⟨rfl, h.supply⟩),
    fun hx => hq (h.issued hx)⟩
  vacant := h.vacant
  bare hs hb :=
    ⟨(h.bare hs hb).1, fun hc => State.working_addPeer_iff.mpr (.inr ((h.bare hs hb).2 hc))⟩
  rest {j sub} hs hb ho := by
    refine ⟨(h.rest hs hb ho).1, fun {b} hc hx => ?_⟩
    rcases State.working_addPeer_iff.mp hx with ⟨hbq, -⟩ | hx
    · exact hq (hbq ▸ h.issued (Store.mem_bound_iff.mpr ⟨j, sub, b, hs, hc, rfl⟩))
    · exact (h.rest hs hb ho).2 hc hx
  kept := h.kept
  left := h.left
  cut hcut {sub b} hl hb hx := by
    rcases State.working_addPeer_iff.mp hx with ⟨hbq, -⟩ | hx
    · have hm : sub ∈ e.due := h.left (List.mem_of_mem_head? hl)
      exact hq (hbq ▸ h.issued (h.mem_bound hm hb))
    · exact h.cut hcut hl hb hx

theorem save {b : Binding} (h : Sound s e (.created id b.peer)) :
    (s.store.setBinding id (some b)).1 = .ok () ∧
      Sound (s.setStore (s.store.setBinding id (some b)).2) e .idle := by
  obtain ⟨stored, hs, hv⟩ := h.vacant rfl
  obtain ⟨hi, hx, hnb⟩ := h.supply
  have hw {x : NodeId × String} :
      (s.setStore (s.store.setBinding id (some b)).2).Working x ↔ s.Working x :=
    State.working_setStore_iff fun n => by rw [Store.setBinding_node?]
  exact ⟨Store.modifySubscription_fst hs,
    { listing := h.listing
      issued := by
        intro x hx
        change x ∈ (s.store.setBinding id (some b)).2.bound at hx
        rw [Store.bound_setBinding_some hs hv, Multiset.mem_cons] at hx
        rcases hx with rfl | hx
        · exact hi
        · exact h.issued hx
      supply := trivial
      vacant := nofun
      bare := by
        intro j new hn hbare
        obtain ⟨old, ho, hst, hb⟩ := Store.of_setBinding_eq_some hn
        obtain ⟨hover, hworks⟩ := h.bare ho hbare
        refine ⟨fun hl => hst.trans (hover hl), fun {c} hc => hw.mpr ?_⟩
        split_ifs at hb with hj
        · rw [hb] at hc
          cases hc
          exact hx
        · exact hworks (hb ▸ hc)
      rest := by
        intro j new hn hbare ho'
        obtain ⟨old, ho, hst, hb⟩ := Store.of_setBinding_eq_some hn
        obtain ⟨hne, hworks⟩ := h.rest ho hbare (hst ▸ ho')
        rw [if_neg fun hj => hne (congrArg some hj.symm)] at hb
        exact ⟨nofun, fun hc hx => hworks (hb ▸ hc) (hw.mp hx)⟩
      kept := by
        intro copy c hm hc
        obtain ⟨⟨old, ho, hob⟩, hapart⟩ := h.kept hm hc
        have hcopy : copy.id ≠ id := by
          rintro rfl
          rw [hs] at ho
          cases ho
          rw [hob] at hv
          cases hv
        refine ⟨⟨old, ?_, hob⟩, fun {j new d} hn hbare hd => ?_⟩
        · change (s.store.setBinding id (some b)).2.subscription? copy.id = some old
          rw [Store.setBinding_subscription?, if_neg hcopy, ho]
        · obtain ⟨old', ho', -, hb⟩ := Store.of_setBinding_eq_some hn
          split_ifs at hb with hj
          · rw [hb] at hd
            cases hd
            rintro heq
            exact hnb (heq ▸ h.mem_bound hm hc)
          · exact hapart ho' hbare (hb ▸ hd)
      left := h.left
      cut := fun hcut _ _ hl hb hx => h.cut hcut hl hb (hw.mp hx) }⟩

end supply

end Sound

end PeerFleet.Fleet
