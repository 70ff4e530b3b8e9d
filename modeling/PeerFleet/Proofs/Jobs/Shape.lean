import PeerFleet.Jobs.Expiration
import PeerFleet.Jobs.PeerCount
import PeerFleet.Jobs.Provisioning
import PeerFleet.Proofs.Fleet.Shape

/-! # The calls of the passes

The weakest preconditions of what a pass does for one record, and for each pass a rule for
its loop: a condition that speaks of the records that are left and that every turn keeps
holds at the end.
-/

namespace PeerFleet

open Fleet Program

variable {τ : Type*} {L : CallLogic Effects τ}

namespace Provisioning

@[simp] theorem wp_undo (b : Binding) (Q : Unit → τ → Prop) :
    (undo b).wp L Q = (discardBinding b).run.wp L fun _ => Q () := by
  rw [undo, wp_bind]
  refine congrArg _ (funext fun r => ?_)
  cases r <;> rfl

@[simp] theorem wp_save (sub : Subscription) (b : Binding)
    (Q : Except FleetError Unit → τ → Prop) :
    (save sub b).run.wp L Q = L.pre (.store (.setBinding sub.id (some b)))
      (Outcome (fun _ => Q (.ok ()))
        fun e => (discardBinding b).run.wp L fun _ => Q (.error (.store e))) := by
  refine congrArg (L.pre _) (funext fun r => ?_)
  cases r with
  | ok => rfl
  | error e => exact wp_bind (undo b) _ Q ▸ wp_undo b _

def letter (sub : Subscription) (b : Binding) : MessageCall :=
  .send sub.userId
    s!"Your VPN access is ready.\nAddress: {b.artifact.clientIp}\n\n{b.artifact.config}"

@[simp] theorem wp_deliver (sub : Subscription) (b : Binding) (Q : Unit → τ → Prop) :
    (deliver sub b).wp L Q = L.pre (.message (letter sub b)) fun _ => Q () := by
  refine congrArg (L.pre (.message (letter sub b))) (funext fun r => ?_)
  cases r <;> rfl

/-- What is done for a listed subscription: it is looked up, and one that still needs a peer
is given a peer, its binding and a message. -/
theorem provision_wp {sub : Subscription} {S : Bool → τ → Prop} {F : FleetError → τ → Prop} {x : τ}
    (h : L.pre (.store (.getSubscription sub.id))
      (Outcome (fun (current : Option Subscription) y =>
        if current.any Subscription.needsProvisioning then
          (createClient sub.userId).run.wp L (Outcome (fun b => (save sub b).run.wp L
            (Outcome (fun _ z => ∀ text,
              L.pre (.message (.send sub.userId text)) (fun _ => S true) z) F)) F) y
        else S false y) fun e => F (.store e)) x) :
    (provision sub).run.wp L (Outcome S F) x := by
  rw [provision]
  refine wp_run_bind_of (wp_fromStore_of (L.mono (fun r y hy => ?_) h))
  cases r with
  | error e => exact hy
  | ok current =>
    change if Option.any Subscription.needsProvisioning current = true then _ else _ at hy
    change Program.wp L (ExceptT.run (ite _ _ _)) _ y
    split_ifs at hy ⊢ with hc
    · refine wp_run_bind_of (wp_mono (fun r z hz => ?_) hy)
      refine hz.mono (fun b v hv => ?_) fun e v hv => hv
      refine wp_run_bind_of (wp_mono (fun r w hw => ?_) hv)
      refine hw.mono (fun _ u hu => ?_) fun e u hu => hu
      rw [wp_run_bind, wp_run_lift, wp_info, outcome_ok, wp_run_bind, wp_run_lift, wp_deliver]
      exact hu _
    · exact hy

theorem provisionAll_wp {I : List Subscription → τ → Prop}
    (hI : ∀ sub subs x, I (sub :: subs) x → (provision sub).run.wp L (fun _ => I subs) x)
    (report : ProvisioningReport) (subs : List Subscription) {x : τ} (hx : I subs x) :
    (provisionAll report subs).wp L (fun _ y => ∃ left, I left y) x := by
  induction subs generalizing report x with
  | nil => exact ⟨[], hx⟩
  | cons sub subs ih =>
    rw [provisionAll, wp_bind]
    refine wp_mono (fun r y hy => ?_) (hI sub subs x hx)
    rcases r with e | provisioned
    · change Program.wp L (ite _ _ _) _ y
      split_ifs
      · exact ⟨subs, hy⟩
      · exact ih _ hy
    · cases provisioned <;> exact ih _ hy

theorem runOnce_wp {I : List Subscription → τ → Prop}
    (hI : ∀ sub subs x, I (sub :: subs) x → (provision sub).run.wp L (fun _ => I subs) x)
    {F : StoreError → τ → Prop} {x : τ}
    (h : L.pre (.store .listUnprovisioned) (Outcome I F) x) :
    runOnce.run.wp L (Outcome (fun _ y => ∃ left, I left y) F) x := by
  refine wp_run_bind_of (wp_listFrom_of (L.mono (fun r y hy => ?_) h))
  refine hy.mono (fun subs z hz => ?_) fun e z hz => hz
  rw [wp_run_lift]
  exact provisionAll_wp hI {} subs hz

end Provisioning

namespace Expiration

theorem suspend_wp {sub : Subscription} {F U : τ → Prop} {x : τ}
    (hx : if sub.binding.isNone then U x
      else (disableClient sub).run.wp L
        (Outcome (fun _ => U) fun e y => if e.isPeerGone then U y else F y) x) :
    (suspend sub).wp L (Outcome (fun _ => U) fun _ => F) x := by
  rw [suspend]
  split_ifs at hx ⊢ with hb
  · exact hx
  · rw [wp_bind]
    refine wp_mono (fun r y hy => ?_) hx
    rcases r with e | _
    · change Program.wp L (ite _ _ _) _ y
      rw [outcome_error] at hy
      split_ifs at hy ⊢ with he
      · exact hy
      · exact hy
    · exact hy

/-- What is done for a subscription whose time is up: its peer is suspended if it has one,
and unless the peer still works the record says that it is over. -/
theorem expire_wp {sub : Subscription} {S F U : τ → Prop} {x : τ}
    (hx : if sub.binding.isNone then U x
      else (disableClient sub).run.wp L
        (Outcome (fun _ => U) fun e y => if e.isPeerGone then U y else F y) x)
    (hU : ∀ y, U y → L.pre (.store (.updateStatus sub.id .expired))
      (Outcome (fun _ => S) fun _ => F) y) :
    (expire sub).wp L (Outcome (fun _ => S) fun _ => F) x := by
  rw [expire, wp_bind]
  refine wp_mono (fun r y hy => ?_) (suspend_wp hx)
  rcases r with reason | _
  · exact hy
  · refine L.mono (fun r z hz => ?_) (hU y hy)
    cases r <;> exact hz

theorem expireAll_wp {I : List Subscription → τ → Prop}
    (hI : ∀ sub subs x, I (sub :: subs) x → (expire sub).wp L (fun _ => I subs) x)
    (report : ExpirationReport) (subs : List Subscription) {x : τ} (hx : I subs x) :
    (expireAll report subs).wp L (fun _ => I []) x := by
  induction subs generalizing report x with
  | nil => exact hx
  | cons sub subs ih =>
    rw [expireAll, wp_bind]
    refine wp_mono (fun r y hy => ?_) (hI sub subs x hx)
    cases r <;> exact ih _ hy

theorem runAt_wp {I : List Subscription → τ → Prop}
    (hI : ∀ sub subs x, I (sub :: subs) x → (expire sub).wp L (fun _ => I subs) x)
    {now : Instant} {F : StoreError → τ → Prop} {x : τ}
    (h : L.pre (.store (.listExpired now)) (Outcome I F) x) :
    (runAt now).run.wp L (Outcome (fun _ => I []) F) x := by
  refine wp_run_bind_of (wp_listFrom_of (L.mono (fun r y hy => ?_) h))
  refine hy.mono (fun subs z hz => ?_) fun e z hz => hz
  rw [wp_run_lift]
  exact expireAll_wp hI {} subs hz

end Expiration

namespace PeerCount

theorem recountAll_wp {I : τ → Prop} {x : τ} (ns : List Node)
    (hI : ∀ n ∈ ns, ∀ x, I x → (syncPeerCount n).run.wp L (fun _ => I) x) (hx : I x) :
    (recountAll ns).wp L (fun _ => I) x := by
  induction ns generalizing x with
  | nil => exact hx
  | cons n ns ih =>
    rw [recountAll, wp_bind]
    have hns := fun m hm => hI m (List.mem_cons_of_mem _ hm)
    refine wp_mono (fun r y hy => ?_) (hI n List.mem_cons_self x hx)
    cases r with
    | ok count =>
      change Program.wp L (_ >>= _) _ y
      rw [wp_bind]
      exact ih hns hy
    | error e => exact ih hns hy

theorem runOnce_wp {I : τ → Prop} (hI : ∀ n x, I x → (syncPeerCount n).run.wp L (fun _ => I) x)
    {F : StoreError → τ → Prop} {x : τ}
    (h : L.pre (.store .listEligible) (Outcome (fun _ => I) F) x) :
    runOnce.run.wp L (Outcome (fun _ => I) F) x := by
  refine wp_run_bind_of (wp_listFrom_of (L.mono (fun r y hy => ?_) h))
  refine hy.mono (fun ns z hz => ?_) fun e z hz => hz
  rw [wp_run_lift]
  exact recountAll_wp ns (fun n _ => hI n) hz

end PeerCount

end PeerFleet
