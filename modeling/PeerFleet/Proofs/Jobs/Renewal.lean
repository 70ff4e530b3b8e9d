import Mathlib.Data.Multiset.Bind
import PeerFleet.Proofs.Fleet.Conservation
import PeerFleet.Proofs.Fleet.Turns
import PeerFleet.Proofs.Jobs.Shape

/-! # Removals that are overtaken by a renewal

Removals of the peer of one subscription take turns with attempts to give it a new one. A
removal takes away whatever binding it finds with the id of the peer that it went for. When
two nodes use the same id, that may be a new binding: it is the one that the removal went for
exactly if no binding was stored in between.
-/

namespace PeerFleet.Fleet

open Program

/-- The record of a subscription was found bound to a peer. -/
def Found (id : SubscriptionId) (x : NodeId × String) (history : List Exchange) : Prop :=
  ∃ sub, (⟨.store (.getSubscription id), Except.ok (some sub)⟩ : Exchange) ∈ history ∧
    sub.peer? = some x

/-- A binding was stored after the record of the subscription was found bound to a peer. -/
def Renewed (id : SubscriptionId) (x : NodeId × String) (history : List Exchange) : Prop :=
  ∃ later b a earlier,
    history = later ++ ⟨.store (.setBinding id (some b)), a⟩ :: earlier ∧ Found id x earlier

section history

variable {id : SubscriptionId} {x : NodeId × String} {history : List Exchange} {c : Effect}
  {a : c.Answer}

theorem Found.mono {history' : List Exchange} (h : Found id x history) (hs : history ⊆ history') :
    Found id x history' := by
  obtain ⟨sub, hm, hx⟩ := h
  exact ⟨sub, hs hm, hx⟩

theorem Renewed.found (h : Renewed id x history) : Found id x history := by
  obtain ⟨later, b, a, earlier, rfl, sub, hm, hx⟩ := h
  exact ⟨sub, List.mem_append_right _ (List.mem_cons_of_mem _ hm), hx⟩

theorem found_cons_iff (hc : c ≠ .store (.getSubscription id)) :
    Found id x (⟨c, a⟩ :: history) ↔ Found id x history := by
  constructor
  · rintro ⟨sub, hm, hx⟩
    rcases List.mem_cons.mp hm with hm | hm
    · exact absurd (congrArg Sigma.fst hm).symm hc
    · exact ⟨sub, hm, hx⟩
  · exact fun h => h.mono (List.subset_cons_self _ _)

theorem found_cons_look_iff {current : Option Subscription} :
    Found id x (⟨.store (.getSubscription id), Except.ok current⟩ :: history) ↔
      current.bind Subscription.peer? = some x ∨ Found id x history := by
  constructor
  · rintro ⟨sub, hm, hx⟩
    rcases List.mem_cons.mp hm with hm | hm
    · cases hm
      exact .inl hx
    · exact .inr ⟨sub, hm, hx⟩
  · rintro (hx | h)
    · obtain ⟨sub, rfl, hx⟩ := Option.bind_eq_some_iff.mp hx
      exact ⟨sub, List.mem_cons_self, hx⟩
    · exact h.mono (List.subset_cons_self _ _)

theorem renewed_cons_iff (hc : ∀ b, c ≠ .store (.setBinding id (some b))) :
    Renewed id x (⟨c, a⟩ :: history) ↔ Renewed id x history := by
  constructor
  · rintro ⟨later, b, r, earlier, he, hf⟩
    cases later with
    | nil => exact absurd (congrArg Sigma.fst (List.cons.inj he).1) (hc b)
    | cons e later => exact ⟨later, b, r, earlier, (List.cons.inj he).2, hf⟩
  · rintro ⟨later, b, r, earlier, rfl, hf⟩
    exact ⟨_ :: later, b, r, earlier, rfl, hf⟩

theorem renewed_cons_save_iff {b : Binding} {a : Except StoreError Unit} :
    Renewed id x (⟨.store (.setBinding id (some b)), a⟩ :: history) ↔ Found id x history := by
  constructor
  · rintro ⟨later, b', r, earlier, he, hf⟩
    cases later with
    | nil => exact (List.cons.inj he).2 ▸ hf
    | cons e later =>
      rw [(List.cons.inj he).2]
      exact Renewed.found ⟨later, b', r, earlier, rfl, hf⟩
  · exact fun h => ⟨[], b, a, history, rfl, h⟩

end history

/-- What is known of the binding of a subscription and of the peers that are about to become
its binding. -/
structure Turnover (s : State) (id : SubscriptionId) (made : Multiset (NodeId × String)) :
    Prop where
  stored : (s.store.subscription? id).isSome
  issued : ∀ {x}, s.store.boundTo id = some x → x ∈ s.issued
  found : ∀ {x}, Found id x s.history → x ∈ s.issued
  /-- A binding that was found stays until it is taken away for good. -/
  current : ∀ {x y}, Found id x s.history → s.store.boundTo id = some y →
    (y = x ↔ ¬ Renewed id x s.history)
  fresh : ∀ x ∈ made, x ∈ s.issued ∧ ¬ Found id x s.history ∧ s.store.boundTo id ≠ some x
  nodup : made.Nodup

namespace Turnover

variable {s s' : State} {id : SubscriptionId} {made : Multiset (NodeId × String)}

theorem congr (h : Turnover s id made)
    (hsubs : s'.store.subscription? id = s.store.subscription? id) (hissued : s'.issued = s.issued)
    (hhistory : s'.history = s.history) : Turnover s' id made := by
  have hb : s'.store.boundTo id = s.store.boundTo id := by rw [Store.boundTo, hsubs, Store.boundTo]
  constructor
  · rw [hsubs]
    exact h.stored
  · rw [hb, hissued]
    exact h.issued
  · rw [hhistory, hissued]
    exact h.found
  · rw [hhistory, hb]
    exact h.current
  · rw [hhistory, hb, hissued]
    exact h.fresh
  · exact h.nodup

theorem record (h : Turnover s id made) {c : Effect} {a : c.Answer}
    (hlook : c ≠ .store (.getSubscription id))
    (hsave : ∀ b, c ≠ .store (.setBinding id (some b))) : Turnover (s.record c a) id made where
  stored := h.stored
  issued := h.issued
  found hf := h.found ((found_cons_iff hlook).mp hf)
  current hf hy :=
    (h.current ((found_cons_iff hlook).mp hf) hy).trans (not_congr (renewed_cons_iff hsave).symm)
  fresh x hx := by
    obtain ⟨hi, hf, hb⟩ := h.fresh x hx
    exact ⟨hi, fun hf' => hf ((found_cons_iff hlook).mp hf'), hb⟩
  nodup := h.nodup

theorem look (h : Turnover s id made) :
    Turnover (s.record (.store (.getSubscription id)) (Except.ok (s.store.subscription? id))) id
      made where
  stored := h.stored
  issued := h.issued
  found hf := by
    rcases found_cons_look_iff.mp hf with hx | hf
    · exact h.issued hx
    · exact h.found hf
  current {x y} hf hy := by
    refine Iff.trans ?_ (not_congr (renewed_cons_iff (by rintro _ ⟨⟩)).symm)
    rcases found_cons_look_iff.mp hf with hx | hf
    · have hyx : y = x := Option.some.inj (hy.symm.trans hx)
      refine iff_of_true hyx fun hr => ?_
      exact (h.current hr.found hy).mp hyx hr
    · exact h.current hf hy
  fresh x hx := by
    obtain ⟨hi, hf, hb⟩ := h.fresh x hx
    refine ⟨hi, fun hf' => ?_, hb⟩
    rcases found_cons_look_iff.mp hf' with hx | hf'
    · exact hb hx
    · exact hf hf'
  nodup := h.nodup

theorem create (h : Turnover s id made) {n : NodeId} {p : String} (hp : (n, p) ∉ s.issued) :
    Turnover (s.addPeer n p) id ((n, p) ::ₘ made) where
  stored := h.stored
  issued hx := .inr (h.issued hx)
  found hf := .inr (h.found hf)
  current := h.current
  fresh x hx := by
    rcases Multiset.mem_cons.mp hx with rfl | hx
    · exact ⟨.inl rfl, fun hf => hp (h.found hf), fun hb => hp (h.issued hb)⟩
    · obtain ⟨hi, hfb⟩ := h.fresh x hx
      exact ⟨.inr hi, hfb⟩
  nodup := Multiset.nodup_cons.mpr ⟨fun hm => hp (h.fresh _ hm).1, h.nodup⟩

theorem boundTo_setBinding (hs : (s.store.subscription? id).isSome) (b : Option Binding) :
    (s.store.setBinding id b).2.boundTo id = b.map Binding.peer := by
  obtain ⟨sub, hsub⟩ := Option.isSome_iff_exists.mp hs
  rw [Store.boundTo, Store.setBinding_subscription?, if_pos rfl, hsub]
  rfl

theorem save (h : Turnover s id (b.peer ::ₘ made)) {a : Except StoreError Unit} :
    Turnover ((s.setStore (s.store.setBinding id (some b)).2).record
      (.store (.setBinding id (some b))) a) id made := by
  obtain ⟨hi, hf, -⟩ := h.fresh b.peer (Multiset.mem_cons_self _ _)
  obtain ⟨hnew, hnd⟩ := Multiset.nodup_cons.mp h.nodup
  have hbound : (s.store.setBinding id (some b)).2.boundTo id = some b.peer :=
    boundTo_setBinding h.stored (some b)
  have hfound {x : NodeId × String} :
      Found id x (⟨.store (.setBinding id (some b)), a⟩ :: s.history) ↔ Found id x s.history :=
    found_cons_iff (by rintro ⟨⟩)
  constructor
  · exact Store.setBinding_isSome.trans h.stored
  · intro x hx
    obtain rfl := Option.some.inj (hbound.symm.trans hx)
    exact hi
  · exact fun hx => h.found (hfound.mp hx)
  · intro x y hx hy
    obtain rfl := Option.some.inj (hbound.symm.trans hy)
    have hx := hfound.mp hx
    refine iff_of_false ?_ (not_not.mpr (renewed_cons_save_iff.mpr hx))
    rintro rfl
    exact hf hx
  · intro x hx
    obtain ⟨hxi, hxf, -⟩ := h.fresh x (Multiset.mem_cons_of_mem hx)
    refine ⟨hxi, fun hx' => hxf (hfound.mp hx'), fun hx' => ?_⟩
    obtain rfl := Option.some.inj (hbound.symm.trans hx')
    exact hnew hx
  · exact hnd

theorem clear (h : Turnover s id made) (p : String) :
    Turnover (s.setStore (s.store.clearBindingIf id p).2) id made := by
  obtain ⟨sub, hsub⟩ := Option.isSome_iff_exists.mp h.stored
  by_cases hp : sub.binding.any (·.peerId = p)
  · have hc : (s.store.clearBindingIf id p).2 = (s.store.setBinding id none).2 := by
      simp [Store.clearBindingIf, hsub, hp]
    have hbound : (s.store.setBinding id none).2.boundTo id = none :=
      boundTo_setBinding h.stored none
    rw [hc]
    constructor
    · exact Store.setBinding_isSome.trans h.stored
    · intro x hx
      cases hbound.symm.trans hx
    · exact h.found
    · intro x y _ hy
      cases hbound.symm.trans hy
    · intro x hx
      obtain ⟨hi, hf, -⟩ := h.fresh x hx
      refine ⟨hi, hf, fun hb => ?_⟩
      cases hbound.symm.trans hb
    · exact h.nodup
  · have hc : (s.store.clearBindingIf id p).2 = s.store := by
      simp [Store.clearBindingIf, hsub, hp]
    exact h.congr (congrArg (·.subscription? id) hc) rfl rfl

end Turnover

/-- The store does not fail. Channels and agents may fail at any time, and an agent never issues
an id twice, but two of them may issue the same one. -/
def strays : Conditions where
  storeFault _ _ _ := False
  connectFault _ _ _ := True
  agentFault _ _ _ _ := True
  issues s n p := (n, p) ∉ s.issued

def Errand.id : Errand → SubscriptionId
  | .provision sub | .remove sub => sub.id

def renewals (id : SubscriptionId) : Workload Effects State {k : Errand // k.id = id} where
  Result k := k.1.Result
  program k := errands.program k.1
  admits _ _ _ := True

/-- How far an errand is. -/
inductive Swap where
  | begun
  | created (peer : NodeId × String)
  | resolved (peer : NodeId × String)
  | cleared (node : NodeId)
  | ended

namespace Swap

@[simp] def made : Swap → Multiset (NodeId × String)
  | created x => {x}
  | _ => 0

def Fits (id : SubscriptionId) (history : List Exchange) : Swap → Prop
  | resolved x => Found id x history
  | _ => True

def Allows (γ : Swap) (c : Effect) : Prop :=
  (∀ n, γ = .cleared n → c = .store (.decrement n)) ∧
    ∀ j p, c = .store (.clearBindingIf j p) → ∃ n, γ = .resolved (n, p)

def Moves : (c : Effect) → c.Answer → Swap → Swap → Prop
  | .store (.clearBindingIf _ _), a, .resolved x, γ => a = Except.ok true → γ = .cleared x.1
  | _, _, _, _ => True

end Swap

def swapping (id : SubscriptionId) : Discipline (renewals id) Swap where
  start _ := .begun
  Final _ γ := γ = .ended
  Guard c _ γ := γ.Allows c
  Moves _ γ c a γ' := Swap.Moves c a γ γ'
  Inv s m := Turnover s id (m.bind (·.2.made)) ∧ ∀ x ∈ m, x.2.Fits id s.history

section turns

variable {id : SubscriptionId} {k : {k : Errand // k.id = id}} {γ γ' : Swap} {s s' : State}
  {o : Multiset ({k : Errand // k.id = id} × Swap)} {sub : Subscription} {n : Node}

theorem Swap.Fits.mono {history history' : List Exchange} (h : γ.Fits id history)
    (hs : history ⊆ history') : γ.Fits id history' := by
  cases γ with
  | resolved x => exact Found.mono h hs
  | begun | created | cleared | ended => trivial

theorem swap_of (hi : (swapping id).Inv s ((k, γ) ::ₘ o)) (hh : s.history ⊆ s'.history)
    (hf : γ'.Fits id s'.history)
    (h : ∀ {made}, Turnover s id (γ.made + made) → Turnover s' id (γ'.made + made)) :
    (swapping id).Inv s' ((k, γ') ::ₘ o) := by
  obtain ⟨ht, hfits⟩ := hi
  rw [Multiset.cons_bind] at ht
  constructor
  · rw [Multiset.cons_bind]
    exact h ht
  · refine Multiset.forall_mem_cons.mpr ⟨hf, fun x hx => ?_⟩
    exact (hfits x (Multiset.mem_cons_of_mem hx)).mono hh

def Idle : Effect → Prop
  | .store (.getSubscription _) | .store (.setBinding _ _) | .store (.clearBindingIf _ _) => False
  | _ => True

section idle

variable {c : Effect} {a : c.Answer}

theorem Turnover.record_of_idle {made : Multiset (NodeId × String)} (h : Turnover s id made)
    (hc : Idle c) : Turnover (s.record c a) id made := by
  refine h.record ?_ fun b => ?_
  · rintro rfl
    exact hc
  · rintro rfl
    exact hc

theorem allows_of_idle (hc : Idle c) (hγ : ∀ n, γ ≠ .cleared n) : γ.Allows c := by
  refine ⟨fun n hn => absurd hn (hγ n), ?_⟩
  rintro j p rfl
  exact hc.elim

theorem moves_of_idle (hc : Idle c) : Swap.Moves c a γ γ' := by
  cases c with
  | store c =>
    cases c with
    | clearBindingIf j p => exact hc.elim
    | _ => trivial
  | _ => trivial

theorem passes_of_idle (hc : Idle c) (hγ : ∀ n, γ ≠ .cleared n) : (swapping id).Passes k γ c where
  guard := allows_of_idle hc hγ
  moves _ := moves_of_idle hc
  inv hi :=
    ⟨hi.1.record_of_idle hc, fun x hx => (hi.2 x hx).mono (List.subset_cons_self _ _)⟩

theorem passesPool_swap (hγ : ∀ n, γ ≠ .cleared n) : (swapping id).PassesPool k γ where
  guard _ := allows_of_idle trivial hγ
  moves _ _ := trivial
  inv := by
    intro s m q c a hi
    have hi' : (swapping id).Inv (s.setPool q) m := ⟨hi.1.congr rfl rfl rfl, hi.2⟩
    exact (passes_of_idle (k := k) (c := .pool c) trivial hγ).inv hi'

end idle

theorem idle_turn {c : Effect} {K : c.Answer → Swap → Prop} (hc : Idle c) (hg : γ.Allows c)
    (h : ∀ s a u, strays.effect s c a u → u.store.subscription? id = s.store.subscription? id ∧
      u.issued = s.issued ∧ u.history = s.history ∧ (K a γ ∨ γ.made = 0 ∧ K a .ended)) :
    ((swapping id).turns strays.surroundings k).pre c K γ := by
  refine turn_of hg fun o s a u hi he => ?_
  obtain ⟨hsubs, hissued, hhistory, hk⟩ := h s a u he
  have hrecord {made : Multiset (NodeId × String)} (ht : Turnover s id made) :
      Turnover (u.record c a) id made := (ht.congr hsubs hissued hhistory).record_of_idle hc
  have hsub : s.history ⊆ (u.record c a).history := by
    rw [← hhistory]
    exact List.subset_cons_self _ _
  rcases hk with hk | ⟨hγ, hk⟩
  · have hf : γ.Fits id s.history := hi.2 _ (Multiset.mem_cons_self _ _)
    exact ⟨γ, swap_of hi hsub (hf.mono hsub) hrecord, moves_of_idle hc, hk⟩
  · refine ⟨.ended, swap_of hi hsub trivial fun ht => ?_, moves_of_idle hc, hk⟩
    rw [hγ] at ht
    exact hrecord ht

theorem idle_store {c : StoreCall} {K : c.Answer → Swap → Prop} (hc : Idle (.store c))
    (hg : γ.Allows (.store c))
    (hs : ∀ s : Store, (s.perform c).2.subscription? id = s.subscription? id)
    (h : ∀ s : Store, K (s.perform c).1 γ ∨ γ.made = 0 ∧ K (s.perform c).1 .ended) :
    ((swapping id).turns strays.surroundings k).pre (.store c) K γ := by
  refine idle_turn hc hg fun s a u he => ?_
  rcases he with ⟨rfl, rfl⟩ | ⟨_, he, -⟩
  · exact ⟨hs s.store, rfl, rfl, h s.store⟩
  · exact he.elim

theorem clientFor_swap (hγ : ∀ n, γ ≠ .cleared n) (hmade : γ.made = 0)
    {S : Client → Swap → Prop} {F : FleetError → Swap → Prop}
    (hS : ∀ c, c.nodeId = n.id → S c γ) (hF : ∀ e, F e .ended) :
    (clientFor n).run.wp ((swapping id).turns strays.surroundings k) (Outcome S F) γ := by
  refine clientFor_turn_of (fun h => h) (passesPool_swap hγ) hS fun o s e hi _ => ?_
  refine ⟨.ended, swap_of hi (List.Subset.refl _) trivial fun ht => ?_, fun _ _ => trivial, hF _⟩
  rwa [hmade] at ht

theorem look_swap (hi : (swapping id).Inv s ((k, γ) ::ₘ o)) (hγ : γ.made = 0) (hγ' : γ'.made = 0)
    (hf : γ'.Fits id (s.record (.store (.getSubscription id))
      (Except.ok (s.store.subscription? id))).history) :
    (swapping id).Inv (s.record (.store (.getSubscription id))
      (Except.ok (s.store.subscription? id))) ((k, γ') ::ₘ o) := by
  refine swap_of hi (List.subset_cons_self _ _) hf fun ht => ?_
  rw [hγ']
  rw [hγ] at ht
  exact ht.look

theorem check_swap (hid : sub.id = id) {S S' : Swap → Prop} {F : StoreError → Swap → Prop}
    (hneeds : S .begun) (hidle : S' .ended) :
    ((swapping id).turns strays.surroundings k).pre (.store (.getSubscription sub.id))
      (Outcome (fun (current : Option Subscription) γ =>
        if current.any Subscription.needsProvisioning then S γ else S' γ) F) .begun := by
  subst hid
  refine turn_store_of (fun _ _ _ h => h) ⟨nofun, nofun⟩ fun o s hi => ?_
  change ∃ γ', _ ∧ _ ∧
    if (s.store.subscription? sub.id).any Subscription.needsProvisioning then S γ' else S' γ'
  split_ifs
  · exact ⟨.begun, look_swap hi rfl rfl trivial, trivial, hneeds⟩
  · exact ⟨.ended, look_swap hi rfl rfl trivial, trivial, hidle⟩

theorem selectNode_swap {S : Node → Swap → Prop} {F : FleetError → Swap → Prop}
    (hS : ∀ n, S n .begun) (hF : ∀ e, F e .ended) :
    selectNode.run.wp ((swapping id).turns strays.surroundings k) (Outcome S F) .begun := by
  rw [selectNode]
  refine wp_run_bind_of (wp_fromStore_of (idle_store trivial (allows_of_idle trivial ?_)
    (fun _ => rfl) fun s => ?_))
  · rintro _ ⟨⟩
  change Outcome S F (pickLeastLoaded s.listEligible) .begun ∨
    _ ∧ Outcome S F (pickLeastLoaded s.listEligible) .ended
  cases pickLeastLoaded s.listEligible with
  | error e => exact .inr ⟨rfl, hF e⟩
  | ok n => exact .inl (hS n)

theorem create_swap {c : Client} {i q : String} (hc : c.nodeId = n.id)
    {S : CreatedPeer → Swap → Prop} {F : FleetError → Swap → Prop}
    (hS : ∀ peer, S peer (.created (n.id, peer.peerId))) (hF : ∀ e, F e .ended) :
    (remote n c (.create i q)).run.wp ((swapping id).turns strays.surroundings k) (Outcome S F)
      .begun := by
  rw [wp_remote]
  refine turn_of (allows_of_idle trivial nofun) fun o s a u hi he => ?_
  rcases he with ⟨peer, hp, rfl, rfl⟩ | ⟨_, -, rfl, rfl⟩
  · rw [hc] at hp ⊢
    refine ⟨.created (n.id, peer.peerId), ?_, trivial, hS peer⟩
    refine swap_of hi (List.subset_cons_self _ _) trivial fun ht => ?_
    simp only [Swap.made, Multiset.singleton_add, zero_add] at ht ⊢
    exact (ht.create hp).record_of_idle trivial
  · refine ⟨.ended, swap_of hi (List.subset_cons_self _ _) trivial fun ht => ?_, trivial, hF _⟩
    exact ht.record_of_idle trivial

theorem save_swap (hid : sub.id = id) {b : Binding} {S : Unit → Swap → Prop}
    {F : FleetError → Swap → Prop} (hS : S () .ended) :
    (Provisioning.save sub b).run.wp ((swapping id).turns strays.surroundings k) (Outcome S F)
      (.created b.peer) := by
  subst hid
  rw [Provisioning.wp_save]
  refine turn_store_of (fun _ _ _ h => h) ⟨nofun, nofun⟩ fun o s hi => ?_
  refine ⟨.ended, swap_of hi (List.subset_cons_self _ _) trivial fun ht => ?_, trivial, ?_⟩
  · simp only [Swap.made, Multiset.singleton_add, zero_add] at ht ⊢
    exact ht.save
  · obtain ⟨stored, hs⟩ := Option.isSome_iff_exists.mp hi.1.stored
    change Outcome _ _ (s.store.setBinding sub.id (some b)).1 _
    rw [show (s.store.setBinding sub.id (some b)).1 = .ok () from Store.modifySubscription_fst hs]
    exact hS

theorem provision_swap (hid : sub.id = id) :
    (Provisioning.provision sub).run.wp ((swapping id).turns strays.surroundings k)
      (fun _ γ => γ = .ended) .begun := by
  rw [← outcome_eta fun _ γ => γ = Swap.ended]
  refine Provisioning.provision_wp (check_swap hid ?_ rfl)
  refine createClient_wp_of (selectNode_swap (fun n => ?_) fun _ => rfl)
  refine clientFor_swap (by rintro _ ⟨⟩) rfl (fun c hc => ?_) fun _ => rfl
  refine turn_pass_of (passes_of_idle trivial nofun) (fun _ _ _ h => h) fun suffix => ?_
  refine create_swap hc (fun peer => ?_) fun _ => rfl
  refine idle_store trivial (allows_of_idle trivial nofun)
    (fun _ => Store.setPeers_subscription?) fun _ => .inl ?_
  refine save_swap hid (b := ⟨n.id, peer.peerId, _⟩) fun text => ?_
  exact turn_pass_of (passes_of_idle trivial nofun) (fun _ _ _ h => h) fun _ => rfl

theorem bindingOf_swap (hid : sub.id = id) {S : Binding → Swap → Prop}
    {F : FleetError → Swap → Prop} (hS : ∀ b, S b (.resolved b.peer)) (hF : ∀ e, F e .ended) :
    (bindingOf sub).run.wp ((swapping id).turns strays.surroundings k) (Outcome S F) .begun := by
  subst hid
  rw [wp_bindingOf]
  refine turn_store_of (fun _ _ _ h => h) ⟨nofun, nofun⟩ fun o s hi => ?_
  obtain ⟨stored, hs⟩ := Option.isSome_iff_exists.mp hi.1.stored
  change ∃ γ', _ ∧ _ ∧
    ((s.store.subscription? sub.id).getD sub).binding.elim (_ : Swap → Prop) _ γ'
  rw [hs, Option.getD_some]
  cases hb : stored.binding with
  | none => exact ⟨.ended, look_swap hi rfl rfl trivial, trivial, hF _⟩
  | some b =>
    have hfound : Swap.Fits sub.id (s.record (.store (.getSubscription sub.id))
        (Except.ok (s.store.subscription? sub.id))).history (.resolved b.peer) := by
      refine found_cons_look_iff.mpr (.inl ?_)
      simp [hs, Subscription.peer?, hb]
    exact ⟨.resolved b.peer, look_swap hi rfl rfl hfound, trivial, hS b⟩

theorem nodeOf_swap {x : NodeId × String} {i : NodeId} {S : Node → Swap → Prop}
    {F : FleetError → Swap → Prop} (hS : ∀ n, n.id = i → S n (.resolved x))
    (hF : ∀ e, F e .ended) :
    (nodeOf i).run.wp ((swapping id).turns strays.surroundings k) (Outcome S F)
      (.resolved x) := by
  rw [wp_nodeOf]
  refine idle_store trivial (allows_of_idle trivial nofun) (fun _ => rfl) fun s => ?_
  change (s.node? i).elim (_ : Swap → Prop) _ _ ∨ _ ∧ (s.node? i).elim (_ : Swap → Prop) _ _
  cases hn : s.node? i with
  | none => exact .inr ⟨rfl, hF _⟩
  | some n => exact .inl (hS n (Store.node?_id hn))

theorem removePeer_swap {c : Client} {p : String} {x : NodeId × String} {S : Unit → Swap → Prop}
    {F : FleetError → Swap → Prop} (hS : S () (.resolved x)) (hF : ∀ e, F e .ended) :
    (removePeer n c p).run.wp ((swapping id).turns strays.surroundings k) (Outcome S F)
      (.resolved x) := by
  rw [wp_removePeer]
  refine idle_turn trivial (allows_of_idle trivial nofun) fun s a u he => ?_
  have hu : u.store.subscription? id = s.store.subscription? id ∧ u.issued = s.issued ∧
      u.history = s.history := by
    rcases he with (⟨-, -, rfl⟩ | ⟨-, -, rfl⟩) | ⟨_, -, -, rfl⟩
    · exact ⟨rfl, rfl, rfl⟩
    · exact ⟨rfl, rfl, rfl⟩
    · exact ⟨rfl, rfl, rfl⟩
  refine ⟨hu.1, hu.2.1, hu.2.2, ?_⟩
  rcases a with e | _
  · simp only [outcome_error]
    split_ifs
    · exact .inl hS
    · exact .inr ⟨rfl, hF _⟩
  · exact .inl hS

theorem clear_swap (hid : sub.id = id) {x : NodeId × String} {S : Bool → Swap → Prop}
    {F : StoreError → Swap → Prop} (hyes : S true (.cleared x.1)) (hno : S false .ended) :
    ((swapping id).turns strays.surroundings k).pre (.store (.clearBindingIf sub.id x.2))
      (Outcome S F) (.resolved x) := by
  subst hid
  have hallows : Swap.Allows (.resolved x) (.store (.clearBindingIf sub.id x.2)) := by
    refine ⟨nofun, fun j p hc => ⟨x.1, ?_⟩⟩
    cases hc
    rfl
  refine turn_store_of (fun _ _ _ h => h) hallows fun o s hi => ?_
  obtain ⟨stored, hs⟩ := Option.isSome_iff_exists.mp hi.1.stored
  have hfst := Store.clearBindingIf_fst (p := x.2) hs
  have hclear {γ' : Swap} (hf : γ'.Fits sub.id s.history) (hmade : γ'.made = 0) :
      (swapping sub.id).Inv ((s.setStore (s.store.perform (.clearBindingIf sub.id x.2)).2).record
        (.store (.clearBindingIf sub.id x.2)) (s.store.perform (.clearBindingIf sub.id x.2)).1)
        ((k, γ') ::ₘ o) := by
    refine swap_of hi (List.subset_cons_self _ _) (hf.mono (List.subset_cons_self _ _)) fun ht => ?_
    rw [hmade]
    exact (ht.clear x.2).record (by rintro ⟨⟩) (by rintro _ ⟨⟩)
  cases hany : stored.binding.any (·.peerId = x.2) with
  | true =>
    rw [hany] at hfst
    refine ⟨.cleared x.1, hclear trivial rfl, fun _ => rfl, ?_⟩
    change Outcome S F (s.store.clearBindingIf sub.id x.2).1 _
    rw [hfst]
    exact hyes
  | false =>
    rw [hany] at hfst
    refine ⟨.ended, hclear trivial rfl, fun ht => ?_, ?_⟩
    · change (s.store.clearBindingIf sub.id x.2).1 = .ok true at ht
      rw [hfst] at ht
      cases ht
    · change Outcome S F (s.store.clearBindingIf sub.id x.2).1 _
      rw [hfst]
      exact hno

theorem deleteClient_swap (hid : sub.id = id) :
    (deleteClient sub).run.wp ((swapping id).turns strays.surroundings k)
      (fun _ γ => γ = .ended) .begun := by
  rw [← outcome_eta fun _ γ => γ = Swap.ended]
  refine deleteClient_wp_of (bindingOf_swap hid (fun b => ?_) fun _ => rfl)
  refine nodeOf_swap (fun n hn => ?_) fun _ => rfl
  refine clientFor_swap (by rintro _ ⟨⟩) rfl (fun c _ => ?_) fun _ => rfl
  refine removePeer_swap ?_ fun _ => rfl
  apply clear_swap (x := b.peer) hid
  · rw [if_pos rfl, hn]
    have hallows : Swap.Allows (.cleared b.nodeId) (.store (.decrement b.nodeId)) := by
      refine ⟨?_, nofun⟩
      rintro _ ⟨⟩
      rfl
    exact idle_store trivial hallows (fun _ => Store.setPeers_subscription?) fun _ =>
      .inr ⟨rfl, rfl⟩
  · rw [if_neg Bool.false_ne_true]

end turns

def State.lopsided : State :=
  let s := ((founding { Node.create 1 "node-1" "10.0.0.1:7443" 10 with currentPeers := 2 }).addPeer
    1 "q").addPeer 1 "p"
  s.setStore <| (s.store.upsertNode (.create 2 "node-2" "10.0.0.2:7443" 10)).upsertSubscription
    { id := 1, userId := 10, tariff := "month", expiresAt := .epoch,
      binding := some ⟨1, "p", ⟨"", "", "10.8.0.2"⟩⟩ }

section runs

variable {s₀ s : State} {id : SubscriptionId} {k : {k : Errand // k.id = id}}
  {ts : (renewals id).Threads} {p : String}

theorem renewals_keep : (swapping id).Keeps strays.surroundings where
  begins := by
    intro M s k hM _
    obtain ⟨ht, hf⟩ := hM.inv
    refine ⟨?_, Multiset.forall_mem_cons.mpr ⟨trivial, hf⟩⟩
    rw [Multiset.cons_bind]
    simpa [swapping] using ht
  follows := by
    rintro ⟨k, hk⟩
    cases k with
    | provision sub => exact wp_mono (fun _ _ h => ⟨h, trivial⟩) (provision_swap hk)
    | remove sub => exact wp_mono (fun _ _ h => ⟨h, trivial⟩) (deleteClient_swap hk)

/-- Any number of removals and attempts for one subscription take turns. The binding that a
removal takes away names the peer that the removal went for, and the place that is freed is on
the node of that peer. The binding is on the same node exactly if no binding was stored since
the record was found. -/
theorem clear_matches_iff (hh : s₀.history = []) (hs : (s₀.store.subscription? id).isSome)
    (hi : ∀ x, s₀.store.boundTo id = some x → x ∈ s₀.issued)
    {rest : Except StoreError Bool → Program Effects ((renewals id).Result k)}
    (hr : (renewals id).Reaches strays.surroundings (0, s₀)
      (⟨k, .call (.store (.clearBindingIf id p)) rest⟩ ::ₘ ts, s))
    (hc : (s.store.clearBindingIf id p).1 = .ok true) :
    ∃ n m, (rest (.ok true)).next? = some (.store (.decrement n)) ∧ Found id (n, p) s.history ∧
      s.store.boundTo id = some (m, p) ∧ (s.store.clearBindingIf id p).2.boundTo id = none ∧
      (n, p) ∈ s.issued ∧ (m, p) ∈ s.issued ∧ (m = n ↔ ¬ Renewed id (n, p) s.history) := by
  have hstart : (swapping id).Staged strays.surroundings (W := renewals id) 0 s₀ := by
    have hnone {x : NodeId × String} : ¬ Found id x s₀.history := by
      rintro ⟨sub, hm, -⟩
      rw [hh] at hm
      cases hm
    refine ⟨⟨⟨hs, fun hx => hi _ hx, ?_, ?_, ?_, Multiset.nodup_zero⟩, ?_⟩, ?_⟩
    · exact fun hf => absurd hf hnone
    · exact fun hf => absurd hf hnone
    · exact fun x hx => absurd hx (Multiset.notMem_zero x)
    · exact fun x hx => absurd hx (Multiset.notMem_zero x)
    · exact fun x hx => absurd hx (Multiset.notMem_zero x)
  obtain ⟨M, hM', hM⟩ := hstart.reaches renewals_keep hr
  obtain ⟨γ, M, rfl, rfl⟩ := Discipline.exists_cons_of_map_eq_cons hM'
  have hinv : (swapping id).Inv s ((k, γ) ::ₘ Discipline.stages M) := by
    simpa [Discipline.stages] using hM.inv
  obtain ⟨⟨-, hresolved⟩, hcall⟩ := hM.follows _ (Multiset.mem_cons_self _ _)
  obtain ⟨n, rfl⟩ := hresolved id p rfl
  obtain ⟨γ', -, hmoves, hrest⟩ :=
    hcall _ s (.ok true) _ hinv ⟨_, .inl ⟨hc.symm, rfl⟩, rfl⟩
  obtain rfl : γ' = .cleared n := hmoves rfl
  have hnext : (rest (.ok true)).next? = some (.store (.decrement n)) := by
    have hf : (swapping id).Follows strays.surroundings ⟨k, rest (.ok true)⟩ (.cleared n) := hrest
    cases hn : (rest (.ok true)).next? with
    | none => cases hf.final hn
    | some c => rw [(hf.guard hn).1 n rfl]
  obtain ⟨ht, hfits⟩ := hinv
  have hfound : Found id (n, p) s.history := hfits _ (Multiset.mem_cons_self _ _)
  obtain ⟨sub, hsub⟩ := Option.isSome_iff_exists.mp ht.stored
  rw [Store.clearBindingIf_fst hsub] at hc
  obtain ⟨b, hb, hbp⟩ := (Option.any_eq_true ..).mp (Except.ok.inj hc)
  obtain rfl : b.peerId = p := of_decide_eq_true hbp
  have hbound : s.store.boundTo id = some b.peer := by
    simp [Store.boundTo, hsub, Subscription.peer?, hb]
  have hfree : (s.store.clearBindingIf id b.peerId).2.boundTo id = none := by
    rw [Store.clearBindingIf_of_some hsub hb]
    exact Turnover.boundTo_setBinding ht.stored none
  refine ⟨n, b.nodeId, hnext, hfound, hbound, hfree, ht.found hfound, ht.issued hbound, ?_⟩
  exact Iff.trans (by simp [Binding.peer]) (ht.current hfound hbound)

theorem exists_renewal : (renewals 1).Can strays.surroundings (0, .lopsided) fun x =>
    ∃ k rest ts, x.1 = ⟨k, .call (.store (.clearBindingIf 1 "p")) rest⟩ ::ₘ ts ∧
      (x.2.store.clearBindingIf 1 "p").1 = .ok true ∧
      (rest (.ok true)).next? = some (.store (.decrement 1)) ∧
      x.2.store.boundTo 1 = some (2, "p") := by
  let sub : Subscription := { id := 1, userId := 10, tariff := "month", expiresAt := .epoch }
  have hp : "p" ∈ State.lopsided.agents 1 := State.mem_addPeer_iff (x := (1, "p")).mpr (.inl rfl)
  -- One removal finds the peer and gets as far as its request to the agent.
  refine .start (k := ⟨.remove sub, rfl⟩) trivial ?_
  refine .call ⟨_, .inl ⟨rfl, rfl⟩, rfl⟩ ?_
  refine .call ⟨_, .inl ⟨rfl, rfl⟩, rfl⟩ ?_
  refine .call ⟨_, ⟨.ok (), nofun, rfl, rfl⟩, rfl⟩ ?_
  refine .call ⟨_, ⟨.ok (), nofun, rfl, rfl⟩, rfl⟩ (.note ?_)
  -- Another one removes the peer.
  refine .start (k := ⟨.remove sub, rfl⟩) trivial ?_
  refine .call ⟨_, .inl ⟨rfl, rfl⟩, rfl⟩ ?_
  refine .call ⟨_, .inl ⟨rfl, rfl⟩, rfl⟩ ?_
  refine .call ⟨_, ⟨.ok (), nofun, rfl, rfl⟩, rfl⟩ ?_
  refine .call (a := .ok ()) ⟨_, .inl (.inl ⟨hp, rfl, rfl⟩), rfl⟩ ?_
  refine .call ⟨_, .inl ⟨rfl, rfl⟩, rfl⟩ ?_
  refine .call ⟨_, .inl ⟨rfl, rfl⟩, rfl⟩ (.note ?_)
  -- The subscription is given a peer on the other node.
  refine .swap ?_
  refine .start (k := ⟨.provision sub, rfl⟩) trivial ?_
  refine .call ⟨_, .inl ⟨rfl, rfl⟩, rfl⟩ ?_
  refine .call ⟨_, .inl ⟨rfl, rfl⟩, rfl⟩ ?_
  refine .call ⟨_, ⟨.ok (), nofun, rfl, rfl⟩, rfl⟩ ?_
  refine .call ⟨_, ⟨.ok (), nofun, rfl, rfl⟩, rfl⟩ (.note ?_)
  refine .call (a := "12345678") ⟨_, rfl, rfl⟩ ?_
  have hfresh : ((2 : NodeId), "p") ∉ (State.lopsided.removePeer 1 "p").issued := by
    rintro (h | h | h)
    · exact absurd (Prod.mk.inj h).1 (by decide)
    · exact absurd (Prod.mk.inj h).1 (by decide)
    · exact h
  refine .call ⟨_, .inl ⟨⟨"p", "", "", "10.8.0.2"⟩, hfresh, rfl, rfl⟩, rfl⟩ ?_
  refine .call ⟨_, .inl ⟨rfl, rfl⟩, rfl⟩ (.note ?_)
  refine .call ⟨_, .inl ⟨rfl, rfl⟩, rfl⟩ (.note ?_)
  -- The first removal learns that its peer is gone.
  refine .swap ?_
  have hgone : "p" ∉ ((State.lopsided.removePeer 1 "p").addPeer 2 "p").agents 1 := by
    intro h
    rcases State.mem_addPeer_iff (x := (1, "p")).mp h with h | h
    · exact absurd (Prod.mk.inj h).1 (by decide)
    · exact (State.mem_removePeer_iff (x := (1, "p")).mp h).1 rfl
  refine .call (a := .error (.status .deletePeer 404 ""))
    ⟨_, .inl (.inr ⟨hgone, ⟨_, rfl⟩, rfl⟩), rfl⟩ (.note ?_)
  change (renewals 1).Can _ (⟨_, .call (.store (.clearBindingIf 1 "p")) _⟩ ::ₘ _, _) _
  refine .here ?_
  dsimp only
  refine ⟨_, _, _, rfl, ?_, ?_, ?_⟩
  · rfl
  · rfl
  · rfl

theorem issued_lopsided {x : NodeId × String} (h : State.lopsided.store.boundTo 1 = some x) :
    x ∈ State.lopsided.issued := by
  obtain rfl : ((1 : NodeId), "p") = x := Option.some.inj h
  exact .inl rfl

theorem renewed_of_mismatch : ∃ (s : State) (k : {k : Errand // k.id = 1})
    (rest : Except StoreError Bool → Program Effects ((renewals 1).Result k))
    (ts : (renewals 1).Threads), State.lopsided.history = [] ∧
    (State.lopsided.store.subscription? 1).isSome ∧
    (∀ x, State.lopsided.store.boundTo 1 = some x → x ∈ State.lopsided.issued) ∧
    (renewals 1).Reaches strays.surroundings (0, .lopsided)
      (⟨k, .call (.store (.clearBindingIf 1 "p")) rest⟩ ::ₘ ts, s) ∧
    (s.store.clearBindingIf 1 "p").1 = .ok true ∧ Renewed 1 (1, "p") s.history := by
  obtain ⟨⟨_, s⟩, hr, k, rest, ts, rfl, hc, hn, hb⟩ := exists_renewal
  have hi : ∀ x, State.lopsided.store.boundTo 1 = some x → x ∈ State.lopsided.issued :=
    fun _ => issued_lopsided
  refine ⟨s, k, rest, ts, rfl, rfl, hi, hr, hc, ?_⟩
  obtain ⟨n, m, hn', -, hb', -, -, -, hm⟩ := clear_matches_iff rfl rfl hi hr hc
  cases hn.symm.trans hn'
  cases hb.symm.trans hb'
  by_contra hrenewed
  exact absurd (hm.mpr hrenewed) (by decide)

/-- The removal takes away the binding to a peer on one node and frees a place on another. -/
theorem exists_mismatch : ∃ (s : State) (k : {k : Errand // k.id = 1})
    (rest : Except StoreError Bool → Program Effects ((renewals 1).Result k))
    (ts : (renewals 1).Threads) (n m : NodeId), State.lopsided.history = [] ∧
    (State.lopsided.store.subscription? 1).isSome ∧
    (∀ x, State.lopsided.store.boundTo 1 = some x → x ∈ State.lopsided.issued) ∧
    (renewals 1).Reaches strays.surroundings (0, .lopsided)
      (⟨k, .call (.store (.clearBindingIf 1 "p")) rest⟩ ::ₘ ts, s) ∧
    (s.store.clearBindingIf 1 "p").1 = .ok true ∧
    (rest (.ok true)).next? = some (.store (.decrement n)) ∧
    s.store.boundTo 1 = some (m, "p") ∧ m ≠ n := by
  obtain ⟨⟨_, s⟩, hr, k, rest, ts, rfl, hc, hn, hb⟩ := exists_renewal
  exact ⟨s, k, rest, ts, 1, 2, rfl, rfl, fun _ => issued_lopsided, hr, hc, hn, hb, by decide⟩

end runs

end PeerFleet.Fleet
