import PeerFleet.Fleet.Lifecycle
import PeerFleet.Proofs.Program.Weakest

/-! # The calls of the fleet's operations

The weakest precondition of every operation, in any logic of calls, in terms of its calls in
their order. Log lines leave no trace in it.
-/

namespace PeerFleet.Fleet

open Program

variable {τ : Type*} {L : CallLogic Effects τ}

@[simp] theorem wp_info (text : String) (Q : Unit → τ → Prop) : (info text).wp L Q = Q () := rfl

@[simp] theorem wp_warn (text : String) (Q : Unit → τ → Prop) : (warn text).wp L Q = Q () := rfl

@[simp] theorem wp_error (text : String) (Q : Unit → τ → Prop) : (error text).wp L Q = Q () := rfl

@[simp] theorem wp_askStore (c : StoreCall) (Q : c.Answer → τ → Prop) :
    (askStore c).wp L Q = L.pre (.store c) Q := rfl

@[simp] theorem wp_nameSuffix (Q : String → τ → Prop) :
    nameSuffix.wp L Q = L.pre .suffix Q := rfl

@[simp] theorem wp_fromStore (c : StoreCall) (Q : Except FleetError c.Result → τ → Prop) :
    (fromStore c).run.wp L Q = L.pre (.store c)
      (Outcome (fun r => Q (.ok r)) fun e => Q (.error (.store e))) := by
  refine congrArg (L.pre (.store c)) (funext fun r => ?_)
  cases r <;> rfl

theorem wp_fromStore_of {c : StoreCall} {S : c.Result → τ → Prop} {F : FleetError → τ → Prop}
    {x : τ} (h : L.pre (.store c) (Outcome S fun e => F (.store e)) x) :
    (fromStore c).run.wp L (Outcome S F) x := by
  rw [wp_fromStore]
  exact h

theorem wp_listFrom_of {c : StoreCall} {S : c.Result → τ → Prop} {F : StoreError → τ → Prop}
    {x : τ} (h : L.pre (.store c) (Outcome S F) x) :
    (listFrom c).run.wp L (Outcome S F) x := h

@[simp] theorem wp_clientOf (n : Node) (Q : Except AgentError Client → τ → Prop) :
    (clientOf n).wp L Q = L.pre (.pool (.lookup n.id)) fun filed : Option Client =>
      filed.elim
        (L.pre (.pool (.establish n))
          (Outcome (fun c : Client × Bool => Q (.ok c.1)) fun e => Q (.error e)))
        fun c => Q (.ok c) := by
  refine congrArg (L.pre (.pool (.lookup n.id))) (funext fun filed => ?_)
  cases filed with
  | some c => rfl
  | none =>
    refine congrArg (L.pre (.pool (.establish n))) (funext fun r => ?_)
    cases r with
    | error e => rfl
    | ok c =>
      obtain ⟨c, fresh⟩ := c
      cases fresh <;> rfl

@[simp] theorem wp_clientFor (n : Node) (Q : Except FleetError Client → τ → Prop) :
    (clientFor n).run.wp L Q = L.pre (.pool (.lookup n.id)) fun filed : Option Client =>
      filed.elim
        (L.pre (.pool (.establish n))
          (Outcome (fun c : Client × Bool => Q (.ok c.1))
            fun e => Q (.error (.clientConstruction n.id e))))
        fun c => Q (.ok c) := by
  have h : (clientFor n).run.wp L Q = (clientOf n).wp L
      (Outcome (fun c => Q (.ok c)) fun e => Q (.error (.clientConstruction n.id e))) := by
    refine (wp_bind _ _ _).trans (congrArg _ (funext fun r => ?_))
    cases r <;> rfl
  rw [h, wp_clientOf]
  rfl

@[simp] theorem wp_release (c : Client) (Q : Unit → τ → Prop) :
    (release c).wp L Q = L.pre (.close c) fun _ => Q () := by
  refine congrArg (L.pre (.close c)) (funext fun r => ?_)
  cases r <;> rfl

@[simp] theorem wp_evict (id : NodeId) (Q : Bool → τ → Prop) :
    (evict id).wp L Q = L.pre (.pool (.remove id)) fun found : Option Client =>
      found.elim (Q false) fun c => L.pre (.close c) fun _ => Q true := by
  refine congrArg (L.pre (.pool (.remove id))) (funext fun found => ?_)
  cases found with
  | none => rfl
  | some c =>
    refine (wp_bind (release c) _ _).trans ?_
    rw [wp_release]
    rfl

theorem releaseAll_wp {J : List Client → τ → Prop}
    (hJ : ∀ c cs x, J (c :: cs) x → L.pre (.close c) (fun _ => J cs) x) {cs : List Client} {x : τ}
    (hx : J cs x) : (releaseAll cs).wp L (fun _ => J []) x := by
  induction cs generalizing x with
  | nil => exact hx
  | cons c cs ih =>
    rw [releaseAll, wp_bind, wp_release]
    exact L.mono (fun _ y hy => ih hy) (hJ c cs x hx)

@[simp] theorem wp_remote (n : Node) (k : Client) (c : Agent.Call)
    (Q : Except FleetError c.Result → τ → Prop) :
    (remote n k c).run.wp L Q = L.pre (.agent k c)
      (Outcome (fun r => Q (.ok r)) fun e => Q (.error (.remoteCall n.id c.operation e))) := by
  refine congrArg (L.pre (.agent k c)) (funext fun r => ?_)
  cases r <;> rfl

theorem wp_remote_of {n : Node} {k : Client} {c : Agent.Call} {S : c.Result → τ → Prop}
    {F : FleetError → τ → Prop} {x : τ}
    (h : L.pre (.agent k c) (Outcome S fun e => F (.remoteCall n.id c.operation e)) x) :
    (remote n k c).run.wp L (Outcome S F) x := by
  rw [wp_remote]
  exact h

@[simp] theorem wp_removePeer (n : Node) (k : Client) (p : String)
    (Q : Except FleetError Unit → τ → Prop) :
    (removePeer n k p).run.wp L Q = L.pre (.agent k (.delete n.interface p))
      (Outcome (fun _ => Q (.ok ())) fun e =>
        if e.isNotFound then Q (.ok ()) else Q (.error (.remoteCall n.id .deletePeer e))) := by
  refine congrArg (L.pre (.agent k (.delete n.interface p))) (funext fun r => ?_)
  cases r with
  | ok => rfl
  | error e =>
    change Program.wp L (ite _ _ _) Q = ite _ _ _
    split_ifs <;> rfl

@[simp] theorem wp_count (c : StoreCall) (report : StoreError → String) (Q : Unit → τ → Prop) :
    (count c report).wp L Q = L.pre (.store c) fun _ => Q () := by
  refine congrArg (L.pre (.store c)) (funext fun r => ?_)
  cases r <;> rfl

@[simp] theorem wp_bindingOf (sub : Subscription) (Q : Except FleetError Binding → τ → Prop) :
    (bindingOf sub).run.wp L Q = L.pre (.store (.getSubscription sub.id))
      (Outcome (fun stored : Option Subscription => (stored.getD sub).binding.elim
        (Q (.error (.bindingMissing sub.id))) fun b => Q (.ok b))
        fun e => Q (.error (.store e))) := by
  rw [bindingOf, wp_run_bind, wp_fromStore]
  refine congrArg (L.pre _) (funext fun r => ?_)
  cases r with
  | error e => rfl
  | ok stored =>
    dsimp only [Outcome]
    cases (Option.getD stored sub).binding <;> rfl

@[simp] theorem wp_nodeOf (id : NodeId) (Q : Except FleetError Node → τ → Prop) :
    (nodeOf id).run.wp L Q = L.pre (.store (.getNode id))
      (Outcome (fun found : Option Node => found.elim (Q (.error (.nodeMissing id)))
        fun n => Q (.ok n)) fun e => Q (.error (.store e))) := by
  rw [nodeOf, wp_run_bind, wp_fromStore]
  refine congrArg (L.pre _) (funext fun r => ?_)
  cases r with
  | error e => rfl
  | ok found => cases found <;> rfl

theorem createClient_wp_of {user : UserId} {S : Binding → τ → Prop} {F : FleetError → τ → Prop}
    {x : τ} (h : selectNode.run.wp L (Outcome (fun n => (clientFor n).run.wp L (Outcome
      (fun k => L.pre .suffix fun suffix : String =>
        (remote n k (.create n.interface (peerName user suffix))).run.wp L (Outcome
          (fun peer : CreatedPeer => L.pre (.store (.increment n.id)) fun _ =>
            S ⟨n.id, peer.peerId, ⟨peer.config, peer.qrCode, peer.clientIp⟩⟩) F)) F)) F) x) :
    (createClient user).run.wp L (Outcome S F) x := by
  rw [createClient]
  refine wp_run_bind_of (wp_mono (fun _ y hy => ?_) h)
  refine hy.mono (fun n z hz => ?_) fun e z hz => hz
  refine wp_run_bind_of (wp_mono (fun _ v hv => ?_) hz)
  refine hv.mono (fun k w hw => ?_) fun e w hw => hw
  rw [wp_run_bind, wp_run_lift, wp_nameSuffix]
  refine L.mono (fun suffix _ hs => wp_run_bind_of (wp_mono (fun _ _ hr => ?_) hs)) hw
  refine hr.mono (fun peer _ hp => ?_) fun e _ hp => hp
  rw [wp_run_bind, wp_run_lift, wp_count]
  exact hp

theorem disableClient_wp_of {sub : Subscription} {S : Unit → τ → Prop} {F : FleetError → τ → Prop}
    {x : τ} (h : (bindingOf sub).run.wp L (Outcome (fun b => (nodeOf b.nodeId).run.wp L (Outcome
      (fun n => (clientFor n).run.wp L (Outcome
        (fun k => (remote n k (.disable n.interface b.peerId)).run.wp L (Outcome S F))
        F)) F)) F) x) :
    (disableClient sub).run.wp L (Outcome S F) x := by
  rw [disableClient, resolve]
  refine wp_run_bind_of (wp_run_bind_of (wp_mono (fun _ y hy => ?_) h))
  refine hy.mono (fun b z hz => ?_) fun e z hz => hz
  refine wp_run_bind_of (wp_mono (fun _ v hv => ?_) hz)
  refine hv.mono (fun n w hw => ?_) fun e w hw => hw
  refine wp_run_bind_of (wp_mono (fun _ v hv => ?_) hw)
  refine hv.mono (fun k w hw => ?_) fun e w hw => hw
  exact wp_run_bind_of (wp_mono (fun _ v hv => hv.mono (fun _ _ hu => hu) fun _ _ hu => hu) hw)

theorem deleteClient_wp_of {sub : Subscription} {S : Unit → τ → Prop} {F : FleetError → τ → Prop}
    {x : τ} (h : (bindingOf sub).run.wp L (Outcome (fun b => (nodeOf b.nodeId).run.wp L (Outcome
      (fun n => (clientFor n).run.wp L (Outcome
        (fun k => (removePeer n k b.peerId).run.wp L (Outcome
          (fun _ => L.pre (.store (.clearBindingIf sub.id b.peerId)) (Outcome
            (fun cleared : Bool =>
              if cleared then L.pre (.store (.decrement n.id)) fun _ => S () else S ())
            fun e => F (.store e))) F)) F)) F)) F) x) :
    (deleteClient sub).run.wp L (Outcome S F) x := by
  rw [deleteClient, resolve]
  refine wp_run_bind_of (wp_run_bind_of (wp_mono (fun _ y hy => ?_) h))
  refine hy.mono (fun b z hz => ?_) fun e z hz => hz
  refine wp_run_bind_of (wp_mono (fun _ v hv => ?_) hz)
  refine hv.mono (fun n w hw => ?_) fun e w hw => hw
  refine wp_run_bind_of (wp_mono (fun _ v hv => ?_) hw)
  refine hv.mono (fun k w hw => ?_) fun e w hw => hw
  refine wp_run_bind_of (wp_mono (fun _ v hv => ?_) hw)
  refine hv.mono (fun _ w hw => ?_) fun e w hw => hw
  refine wp_run_bind_of (wp_fromStore_of (L.mono (fun _ v hv => ?_) hw))
  refine hv.mono (fun cleared w hw => ?_) fun e w hw => hw
  cases cleared with
  | false => exact hw
  | true =>
    refine wp_run_bind_of ?_
    rw [wp_run_lift, wp_count]
    exact hw

theorem syncPeerCount_wp_of {n : Node} {S : UInt32 → τ → Prop} {F : FleetError → τ → Prop} {x : τ}
    (h : (clientFor n).run.wp L (Outcome (fun k =>
      (remote n k (.list n.interface)).run.wp L (Outcome
        (fun infos : List PeerInfo => L.pre (.store (.setPeerCount n.id (countOf infos)))
          (Outcome (fun _ => S (countOf infos)) fun e => F (.store e))) F)) F) x) :
    (syncPeerCount n).run.wp L (Outcome S F) x := by
  rw [syncPeerCount]
  refine wp_run_bind_of (wp_mono (fun _ y hy => ?_) h)
  refine hy.mono (fun k z hz => ?_) fun e z hz => hz
  refine wp_run_bind_of (wp_mono (fun _ v hv => ?_) hz)
  refine hv.mono (fun infos w hw => ?_) fun e w hw => hw
  have hset : (do
      fromStore (.setPeerCount n.id (countOf infos))
      return countOf infos : Attempt UInt32).run.wp L (Outcome S F) w :=
    wp_run_bind_of (wp_fromStore_of hw)
  dsimp only
  split_ifs
  · exact hset
  · exact hset

end PeerFleet.Fleet
