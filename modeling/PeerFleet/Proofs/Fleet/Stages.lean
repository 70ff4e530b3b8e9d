import Mathlib.Data.Multiset.Bind
import PeerFleet.Proofs.Fleet.Ledger
import PeerFleet.Proofs.Program.Interleaving

/-! # Stages of errands

Errands of two kinds run at the same time: attempts to give a subscription its peer, and
removals of the peer of a subscription. The stage of an errand says what it has done and not
yet settled. The books are right if the ledger agrees with the stages of all errands, and
each errand still finds what it relies on.
-/

namespace PeerFleet.Fleet

inductive Errand where
  | provision (sub : Subscription)
  | remove (sub : Subscription)

inductive Stage where
  | begun
  | vacant
  | chosen (node : NodeId)
  | created (peer : NodeId × String)
  | counted (peer : NodeId × String)
  | resolved (peer : NodeId × String)
  | removed (peer : NodeId × String)
  | cleared (node : NodeId)
  | ended

namespace Stage

@[simp] def fresh : Stage → Multiset (NodeId × String)
  | created x => {x}
  | _ => 0

@[simp] def held : Stage → Multiset (NodeId × String)
  | counted x => {x}
  | _ => 0

@[simp] def due : Stage → Multiset NodeId
  | cleared n => {n}
  | _ => 0

@[simp] def gone : Stage → Multiset (NodeId × String)
  | removed x => {x}
  | _ => 0

/-- A stage at which nothing is unsettled. -/
def Calm (γ : Stage) : Prop :=
  γ.fresh = 0 ∧ γ.held = 0 ∧ γ.due = 0 ∧ γ.gone = 0

end Stage

def reserved : Errand × Stage → Multiset SubscriptionId
  | (.provision _, .ended) => 0
  | (.provision sub, _) => {sub.id}
  | (.remove _, _) => 0

/-- A peer that a subscription was bound to. -/
structure Traced (s : State) (id : SubscriptionId) (x : NodeId × String) : Prop where
  stored : (s.store.subscription? id).isSome
  issued : x ∈ s.issued
  registered : (s.store.node? x.1).isSome
  bound : x ∈ s.store.bound →
    ∃ sub b, s.store.subscription? id = some sub ∧ sub.binding = some b ∧ b.peer = x
  gone : x ∉ s.store.bound → x.2 ∉ s.agents x.1

def Fits (s : State) : Errand → Stage → Prop
  | _, .ended => True
  | .provision _, .begun => True
  | .provision sub, .vacant => Vacant s sub.id
  | .provision sub, .chosen n => Vacant s sub.id ∧ (s.store.node? n).isSome
  | .provision sub, .created _ => Vacant s sub.id
  | .provision sub, .counted _ => Vacant s sub.id
  | .remove sub, .begun => (s.store.subscription? sub.id).isSome
  | .remove sub, .resolved x => Traced s sub.id x
  | .remove sub, .removed x => Traced s sub.id x ∧ x.2 ∉ s.agents x.1
  | .remove _, .cleared _ => True
  | _, _ => False

/-- The ledger agrees with the stages, an id names one peer in the fleet, no two attempts are
under way for one subscription, and every errand finds what it relies on. -/
structure Books (s : State) (m : Multiset (Errand × Stage)) : Prop where
  ledger : Ledger s (m.bind (·.2.fresh)) (m.bind (·.2.held)) (m.bind (·.2.due))
    (m.bind (·.2.gone))
  unique : ∀ {n n' p}, (n, p) ∈ s.issued → (n', p) ∈ s.issued → n = n'
  exclusive : (m.bind reserved).Nodup
  fits : ∀ x ∈ m, Fits s x.1 x.2

theorem reserved_provision {sub : Subscription} {γ : Stage} (h : γ ≠ .ended) :
    reserved (.provision sub, γ) = {sub.id} := by
  cases γ with
  | ended => exact absurd rfl h
  | _ => rfl

section traced

variable {s : State} {id : SubscriptionId} {x : NodeId × String}

theorem Traced.setPeers (h : Traced s id x) {n : NodeId} {f : UInt32 → UInt32} :
    Traced (s.setStore (s.store.setPeers n f).2) id x := by
  have hb : (s.store.setPeers n f).2.bound = s.store.bound :=
    Store.bound_congr Store.setPeers_subscriptions
  refine ⟨?_, h.issued, ?_, fun hx => ?_, fun hx => h.gone fun hx' => hx ?_⟩
  · change ((s.store.setPeers n f).2.subscription? id).isSome = true
    rw [Store.setPeers_subscription?]
    exact h.stored
  · change ((s.store.setPeers n f).2.node? x.1).isSome = true
    rw [Store.setPeers_isSome]
    exact h.registered
  · change x ∈ (s.store.setPeers n f).2.bound at hx
    change ∃ sub b, (s.store.setPeers n f).2.subscription? id = some sub ∧ _
    rw [Store.setPeers_subscription?]
    exact h.bound (hb ▸ hx)
  · change x ∈ (s.store.setPeers n f).2.bound
    rw [hb]
    exact hx'

theorem Traced.addPeer (h : Traced s id x) {n : NodeId} {p : String} (hp : (n, p) ∉ s.issued) :
    Traced (s.addPeer n p) id x where
  stored := h.stored
  issued := .inr h.issued
  registered := h.registered
  bound := h.bound
  gone hx ha := by
    rcases State.mem_addPeer_iff.mp ha with rfl | ha
    · exact hp h.issued
    · exact h.gone hx ha

theorem Traced.removePeer (h : Traced s id x) {n : NodeId} {p : String} :
    Traced (s.removePeer n p) id x where
  __ := h
  gone hx ha := h.gone hx (State.mem_removePeer_iff.mp ha).2

variable {j : SubscriptionId} {sub : Subscription} {b : Binding}

/-- A change of the bindings that takes none away but that of a peer which does not exist, and
brings none but that of another peer. -/
theorem Traced.setBinding (h : Traced s id x) {c : Option Binding}
    (hsub : x ∈ (s.store.setBinding j c).2.bound → x ∈ s.store.bound)
    (hkeep : x ∈ s.store.bound → x ∉ (s.store.setBinding j c).2.bound → x.2 ∉ s.agents x.1)
    (hj : x ∈ (s.store.setBinding j c).2.bound → id ≠ j) :
    Traced (s.setStore (s.store.setBinding j c).2) id x := by
  refine ⟨?_, h.issued, ?_, fun hx => ?_, fun hx => ?_⟩
  · change ((s.store.setBinding j c).2.subscription? id).isSome = true
    rw [Store.setBinding_isSome]
    exact h.stored
  · change ((s.store.setBinding j c).2.node? x.1).isSome = true
    rw [Store.setBinding_node?]
    exact h.registered
  · change ∃ sub b, (s.store.setBinding j c).2.subscription? id = some sub ∧ _
    rw [Store.setBinding_subscription?, if_neg (hj hx)]
    exact h.bound (hsub hx)
  · by_cases hx' : x ∈ s.store.bound
    · exact hkeep hx' hx
    · exact h.gone hx'

theorem Traced.save (h : Traced s id x) (hs : s.store.subscription? j = some sub)
    (hb : sub.binding = none) (hp : b.peerId ∈ s.agents b.nodeId) (hnb : b.peer ∉ s.store.bound) :
    Traced (s.setStore (s.store.setBinding j (some b)).2) id x := by
  have hbound : (s.store.setBinding j (some b)).2.bound = b.peer ::ₘ s.store.bound :=
    Store.bound_setBinding_some hs hb
  have hsub (hx : x ∈ (s.store.setBinding j (some b)).2.bound) : x ∈ s.store.bound := by
    rw [hbound, Multiset.mem_cons] at hx
    rcases hx with rfl | hx
    · exact absurd hp (h.gone hnb)
    · exact hx
  refine h.setBinding hsub (fun hx hx' => ?_) fun hx => ?_
  · rw [hbound] at hx'
    exact absurd (Multiset.mem_cons_of_mem hx) hx'
  · rintro rfl
    obtain ⟨sub', b', hs', hb', -⟩ := h.bound (hsub hx)
    rw [hs] at hs'
    cases hs'
    rw [hb] at hb'
    cases hb'

theorem Traced.unbind (h : Traced s id x) (hs : s.store.subscription? j = some sub)
    (hb : sub.binding = some b) (hp : b.peerId ∉ s.agents b.nodeId) (hnd : s.store.bound.Nodup) :
    Traced (s.setStore (s.store.setBinding j none).2) id x := by
  have hbound : s.store.bound = b.peer ::ₘ (s.store.setBinding j none).2.bound :=
    Store.bound_setBinding_none hs hb
  rw [hbound, Multiset.nodup_cons] at hnd
  have hsub (hx : x ∈ (s.store.setBinding j none).2.bound) : x ∈ s.store.bound := by
    rw [hbound]
    exact Multiset.mem_cons_of_mem hx
  refine h.setBinding hsub (fun hx hx' => ?_) fun hx => ?_
  · rw [hbound, Multiset.mem_cons] at hx
    obtain rfl : x = b.peer := hx.resolve_right hx'
    exact hp
  · rintro rfl
    obtain ⟨sub', b', hs', hb', rfl⟩ := h.bound (hsub hx)
    rw [hs] at hs'
    cases hs'
    rw [hb] at hb'
    cases hb'
    exact hnd.1 hx

end traced

section frame

variable {s s' : State} {k : Errand} {γ : Stage}

theorem Fits.frame (h : Fits s k γ)
    (hstored : ∀ {id}, (s.store.subscription? id).isSome → (s'.store.subscription? id).isSome)
    (hvacant : ∀ {id}, id ∈ reserved (k, γ) → Vacant s id → Vacant s' id)
    (hnode : ∀ {n}, (s.store.node? n).isSome → (s'.store.node? n).isSome)
    (htraced : ∀ {id x}, Traced s id x → Traced s' id x)
    (hgone : ∀ {x}, x ∈ s.issued → x.2 ∉ s.agents x.1 → x.2 ∉ s'.agents x.1) : Fits s' k γ := by
  cases k with
  | provision sub =>
    have hres {γ : Stage} (hγ : γ ≠ .ended) : sub.id ∈ reserved (.provision sub, γ) := by
      rw [reserved_provision hγ]
      exact Multiset.mem_singleton_self _
    cases γ with
    | begun => trivial
    | vacant => exact hvacant (hres nofun) h
    | chosen n => exact ⟨hvacant (hres nofun) h.1, hnode h.2⟩
    | created x => exact hvacant (hres nofun) h
    | counted x => exact hvacant (hres nofun) h
    | ended => trivial
    | resolved | removed | cleared => exact h
  | remove sub =>
    cases γ with
    | begun => exact hstored h
    | resolved x => exact htraced h
    | removed x => exact ⟨htraced h.1, hgone h.1.issued h.2⟩
    | cleared | ended => trivial
    | vacant | chosen | created | counted => exact h

end frame

namespace Books

variable {s s' : State} {k : Errand} {γ γ' : Stage} {m o : Multiset (Errand × Stage)}

theorem move (h : Books s ((k, γ) ::ₘ o))
    (hl : Ledger s' (γ'.fresh + o.bind (·.2.fresh)) (γ'.held + o.bind (·.2.held))
      (γ'.due + o.bind (·.2.due)) (γ'.gone + o.bind (·.2.gone)))
    (hu : ∀ {n n' p}, (n, p) ∈ s'.issued → (n', p) ∈ s'.issued → n = n')
    (hr : reserved (k, γ') ≤ reserved (k, γ)) (hk : Fits s' k γ')
    (ho : ∀ x ∈ o, Fits s' x.1 x.2) : Books s' ((k, γ') ::ₘ o) where
  ledger := by simpa only [Multiset.cons_bind] using hl
  unique := hu
  exclusive := by
    have hx := h.exclusive
    rw [Multiset.cons_bind] at hx ⊢
    exact Multiset.nodup_of_le (Multiset.add_le_add_right hr) hx
  fits := Multiset.forall_mem_cons.mpr ⟨hk, ho⟩

theorem ledger_cons (h : Books s ((k, γ) ::ₘ o)) :
    Ledger s (γ.fresh + o.bind (·.2.fresh)) (γ.held + o.bind (·.2.held))
      (γ.due + o.bind (·.2.due)) (γ.gone + o.bind (·.2.gone)) := by
  simpa only [Multiset.cons_bind] using h.ledger

theorem fits_cons (h : Books s ((k, γ) ::ₘ o)) : Fits s k γ :=
  h.fits (k, γ) (Multiset.mem_cons_self _ _)

theorem fits_others (h : Books s ((k, γ) ::ₘ o)) : ∀ x ∈ o, Fits s x.1 x.2 := fun x hx =>
  h.fits x (Multiset.mem_cons_of_mem hx)

/-- What one errand keeps to itself no other one keeps to itself. -/
theorem ne_of_reserved {sub : Subscription} (h : Books s ((.provision sub, γ) ::ₘ o))
    (hγ : γ ≠ .ended) {x : Errand × Stage} (hx : x ∈ o) {id : SubscriptionId}
    (hid : id ∈ reserved x) : id ≠ sub.id := by
  rintro rfl
  have he := h.exclusive
  rw [Multiset.cons_bind, reserved_provision hγ, Multiset.singleton_add, Multiset.nodup_cons] at he
  exact he.1 (Multiset.mem_bind.mpr ⟨x, hx, hid⟩)

theorem calm (h : Books s ((k, γ) ::ₘ o)) (hγ : γ.Calm) (hγ' : γ'.Calm)
    (hr : reserved (k, γ') ≤ reserved (k, γ)) (hk : Fits s k γ') : Books s ((k, γ') ::ₘ o) := by
  refine h.move ?_ h.unique hr hk h.fits_others
  have hl := h.ledger_cons
  obtain ⟨h₁, h₂, h₃, h₄⟩ := hγ
  obtain ⟨h₁', h₂', h₃', h₄'⟩ := hγ'
  rw [h₁, h₂, h₃, h₄] at hl
  rwa [h₁', h₂', h₃', h₄']

theorem giveUp (h : Books s ((k, γ) ::ₘ o)) (hγ : γ.Calm) : Books s ((k, .ended) ::ₘ o) := by
  refine h.calm hγ ⟨rfl, rfl, rfl, rfl⟩ ?_ (by cases k <;> trivial)
  cases k <;> exact Multiset.zero_le _

theorem congr (h : Books s m) (hs : s'.store = s.store) (ha : s'.agents = s.agents)
    (hi : s'.issued = s.issued) : Books s' m where
  ledger := h.ledger.congr (by rw [hs]) (by rw [hs]) hi.ge fun x => by rw [ha]
  unique := by
    rw [hi]
    exact h.unique
  exclusive := h.exclusive
  fits x hx := by
    refine (h.fits x hx).frame ?_ ?_ ?_ (fun {id y} hy => ?_) ?_
    · rw [hs]
      exact id
    · simp only [Vacant, hs]
      exact fun _ => id
    · rw [hs]
      exact id
    · exact ⟨hs ▸ hy.stored, hi ▸ hy.issued, hs ▸ hy.registered, hs ▸ hy.bound, by
        rw [hs, ha]
        exact hy.gone⟩
    · rw [ha]
      exact fun _ => id

theorem setPeers (h : Books s ((k, γ) ::ₘ o)) {n : NodeId} {f : UInt32 → UInt32}
    (hl : Ledger (s.setStore (s.store.setPeers n f).2) (γ'.fresh + o.bind (·.2.fresh))
      (γ'.held + o.bind (·.2.held)) (γ'.due + o.bind (·.2.due)) (γ'.gone + o.bind (·.2.gone)))
    (hr : reserved (k, γ') ≤ reserved (k, γ))
    (hk : Fits (s.setStore (s.store.setPeers n f).2) k γ') :
    Books (s.setStore (s.store.setPeers n f).2) ((k, γ') ::ₘ o) := by
  refine h.move hl h.unique hr hk fun x hx => (h.fits_others x hx).frame ?_ ?_ ?_ ?_ ?_
  · intro id hid
    change ((s.store.setPeers n f).2.subscription? id).isSome = true
    rw [Store.setPeers_subscription?]
    exact hid
  · intro id _ hid
    change ∃ stored, (s.store.setPeers n f).2.subscription? id = some stored ∧ _
    rw [Store.setPeers_subscription?]
    exact hid
  · intro id hid
    change ((s.store.setPeers n f).2.node? id).isSome = true
    rw [Store.setPeers_isSome]
    exact hid
  · exact fun ht => ht.setPeers
  · exact fun _ => id

theorem create {n : NodeId} {p : String} (h : Books s ((k, .chosen n) ::ₘ o))
    (hp : ∀ n', (n', p) ∉ s.issued) : Books (s.addPeer n p) ((k, .created (n, p)) ::ₘ o) := by
  cases k with
  | remove sub => exact h.fits_cons.elim
  | provision sub =>
    obtain ⟨hv, hn⟩ := h.fits_cons
    refine h.move ?_ ?_ le_rfl hv fun x hx => (h.fits_others x hx).frame id (fun _ => id) id
      (fun ht => ht.addPeer (hp n)) ?_
    · simpa using h.ledger_cons.create (x := (n, p)) (hp n) hn
    · intro n₁ n₂ q h₁ h₂
      rcases h₁ with h₁ | h₁ <;> rcases h₂ with h₂ | h₂
      · exact (Prod.mk.inj h₁).1.trans (Prod.mk.inj h₂).1.symm
      · rw [(Prod.mk.inj h₁).2] at h₂
        exact absurd h₂ (hp n₂)
      · rw [(Prod.mk.inj h₂).2] at h₁
        exact absurd h₁ (hp n₁)
      · exact h.unique h₁ h₂
    · intro y hy hgone ha
      rcases State.mem_addPeer_iff.mp ha with rfl | ha
      · exact hp n hy
      · exact hgone ha

theorem increment {x : NodeId × String} (h : Books s ((k, .created x) ::ₘ o))
    (hlt : ∀ {n}, s.store.node? x.1 = some n → n.currentPeers.toNat + 1 < UInt32.size) :
    Books (s.setStore (s.store.setPeers x.1 Store.increased).2) ((k, .counted x) ::ₘ o) := by
  cases k with
  | remove sub => exact h.fits_cons.elim
  | provision sub =>
    refine h.setPeers ?_ le_rfl ?_
    · have hl : Ledger s (x ::ₘ o.bind (·.2.fresh)) (o.bind (·.2.held)) (o.bind (·.2.due))
          (o.bind (·.2.gone)) := by simpa using h.ledger_cons
      simpa using hl.increment hlt
    · obtain ⟨stored, hs, hb⟩ := h.fits_cons
      exact ⟨stored, Store.setPeers_subscription?.trans hs, hb⟩

theorem decrement {n : NodeId} (h : Books s ((k, .cleared n) ::ₘ o)) :
    Books (s.setStore (s.store.setPeers n Store.decreased).2) ((k, .ended) ::ₘ o) := by
  cases k with
  | provision sub => exact h.fits_cons.elim
  | remove sub =>
    refine h.setPeers ?_ le_rfl trivial
    have hl : Ledger s (o.bind (·.2.fresh)) (o.bind (·.2.held)) (n ::ₘ o.bind (·.2.due))
        (o.bind (·.2.gone)) := by simpa using h.ledger_cons
    simpa using hl.decrement

theorem save {sub : Subscription} {b : Binding}
    (h : Books s ((.provision sub, .counted b.peer) ::ₘ o)) :
    (s.store.setBinding sub.id (some b)).1 = .ok () ∧
      Books (s.setStore (s.store.setBinding sub.id (some b)).2)
        ((.provision sub, .ended) ::ₘ o) := by
  obtain ⟨stored, hs, hb⟩ := h.fits_cons
  have hl : Ledger s (o.bind (·.2.fresh)) (b.peer ::ₘ o.bind (·.2.held)) (o.bind (·.2.due))
      (o.bind (·.2.gone)) := by simpa using h.ledger_cons
  have hlive := h.ledger.live b.peer (by simp)
  have hnb : b.peer ∉ s.store.bound := by
    have hnd := hl.nodup
    rw [Multiset.add_cons, Multiset.cons_add, Multiset.nodup_cons] at hnd
    exact fun hm => hnd.1 (Multiset.mem_add.mpr (.inr hm))
  refine ⟨Store.modifySubscription_fst hs, h.move ?_ h.unique (Multiset.zero_le _) trivial
    fun x hx => (h.fits_others x hx).frame ?_ ?_ ?_ ?_ fun _ => id⟩
  · simpa using hl.save hs hb
  · intro id hid
    change ((s.store.setBinding sub.id (some b)).2.subscription? id).isSome = true
    rw [Store.setBinding_isSome]
    exact hid
  · intro id hid hv
    change ∃ stored, (s.store.setBinding sub.id (some b)).2.subscription? id = some stored ∧ _
    rw [Store.setBinding_subscription?, if_neg (h.ne_of_reserved nofun hx hid)]
    exact hv
  · intro n hn
    change ((s.store.setBinding sub.id (some b)).2.node? n).isSome = true
    rw [Store.setBinding_node?]
    exact hn
  · exact fun ht => ht.save hs hb hlive.2 hnb

theorem remove {x : NodeId × String} (h : Books s ((k, .resolved x) ::ₘ o)) :
    Books (s.removePeer x.1 x.2) ((k, .removed x) ::ₘ o) := by
  cases k with
  | provision sub => exact h.fits_cons.elim
  | remove sub =>
    have ht : Traced s sub.id x := h.fits_cons
    have hl : Ledger s (o.bind (·.2.fresh)) (o.bind (·.2.held)) (o.bind (·.2.due))
        (o.bind (·.2.gone)) := by simpa using h.ledger_cons
    have hx : x ∉ o.bind (·.2.fresh) + o.bind (·.2.held) := by
      intro hx
      by_cases hb : x ∈ s.store.bound
      · exact Multiset.disjoint_left.mp (Multiset.nodup_add.mp hl.nodup).2.2 hx hb
      · exact ht.gone hb (hl.live x hx).2
    refine h.move ?_ h.unique le_rfl ⟨ht.removePeer, fun hp => ?_⟩ fun y hy =>
      (h.fits_others y hy).frame id (fun _ => id) id (fun ht => ht.removePeer) ?_
    · simpa using hl.remove hx
    · exact (State.mem_removePeer_iff.mp hp).1 rfl
    · exact fun _ hgone hp => hgone (State.mem_removePeer_iff.mp hp).2

theorem clear {sub : Subscription} {x : NodeId × String}
    (h : Books s ((.remove sub, .removed x) ::ₘ o)) :
    ∃ cleared, (s.store.clearBindingIf sub.id x.2).1 = .ok cleared ∧
      Books (s.setStore (s.store.clearBindingIf sub.id x.2).2)
        ((.remove sub, if cleared then .cleared x.1 else .ended) ::ₘ o) := by
  obtain ⟨ht, hp⟩ := h.fits_cons
  obtain ⟨stored, hs⟩ := Option.isSome_iff_exists.mp ht.stored
  have hl : Ledger s (o.bind (·.2.fresh)) (o.bind (·.2.held)) (o.bind (·.2.due))
      (x ::ₘ o.bind (·.2.gone)) := by simpa using h.ledger_cons
  by_cases hc : stored.binding.any (·.peerId = x.2)
  · obtain ⟨b, hb, hbx⟩ := (Option.any_eq_true ..).mp hc
    have hmem : b.peer ∈ s.store.bound := Store.mem_bound_iff.mpr ⟨_, _, b, hs, hb, rfl⟩
    have hpx : b.peerId = x.2 := by simpa using hbx
    have hnx : b.nodeId = x.1 := h.unique (hpx ▸ (hl.placed _ hmem).1) ht.issued
    obtain rfl : b.peer = x := Prod.ext hnx hpx
    have hclear := Store.clearBindingIf_of_some hs hb
    refine ⟨true, congrArg Prod.fst hclear, ?_⟩
    change Books (s.setStore (s.store.clearBindingIf sub.id b.peerId).2) _
    rw [hclear]
    refine h.move ?_ h.unique le_rfl trivial fun y hy => (h.fits_others y hy).frame ?_ ?_ ?_ ?_
      fun _ => id
    · simpa [Binding.peer] using hl.unbind hs hb hp
    · intro id hid
      change ((s.store.setBinding sub.id none).2.subscription? id).isSome = true
      rw [Store.setBinding_isSome]
      exact hid
    · rintro id - ⟨v, hv, hvb⟩
      change ∃ v, (s.store.setBinding sub.id none).2.subscription? id = some v ∧ _
      rw [Store.setBinding_subscription?, hv]
      split_ifs
      · exact ⟨_, rfl, rfl⟩
      · exact ⟨v, rfl, hvb⟩
    · intro n hn
      change ((s.store.setBinding sub.id none).2.node? n).isSome = true
      rw [Store.setBinding_node?]
      exact hn
    · exact fun ht => ht.unbind hs hb hp (Multiset.nodup_add.mp hl.nodup).2.1
  · have hx : x ∉ s.store.bound := by
      intro hx
      obtain ⟨sub', b, hs', hb, rfl⟩ := ht.bound hx
      rw [hs] at hs'
      cases hs'
      simp [hb, Binding.peer] at hc
    have hclear : s.store.clearBindingIf sub.id x.2 = (.ok false, s.store) := by
      simp [Store.clearBindingIf, hs, hc]
    refine ⟨false, congrArg Prod.fst hclear, ?_⟩
    rw [hclear]
    change Books s _
    refine h.move ?_ h.unique le_rfl trivial h.fits_others
    simpa using hl.release hx

end Books

end PeerFleet.Fleet
