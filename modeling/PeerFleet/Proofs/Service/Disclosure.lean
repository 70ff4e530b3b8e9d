import Mathlib.Data.Set.Insert
import PeerFleet.Proofs.Jobs.Overlap
import PeerFleet.Proofs.Json.Lossless
import PeerFleet.Service.Status

/-! # What the status API discloses

Registries that are alike but for the tokens of their nodes get the same answers, except to a
request for the eligible nodes: each of these is written with all its fields, and its text tells
the node, so that the answers are the same exactly if the eligible nodes have the same tokens.
-/

namespace PeerFleet

open Fleet Program

namespace Node

def withoutToken (n : Node) : Node :=
  { n with authToken := none }

theorem ext_token {n m : Node} (h : n.withoutToken = m.withoutToken)
    (ht : n.authToken = m.authToken) : n = m := by
  cases n
  cases m
  simp_all [withoutToken]

end Node

namespace Store

variable {s s' : Store}

/-- The registered nodes differ in nothing but their tokens. -/
def AlikeButTokens (s s' : Store) : Prop :=
  s.listNodes.map Node.withoutToken = s'.listNodes.map Node.withoutToken

theorem AlikeButTokens.listEligible (h : AlikeButTokens s s') :
    s.listEligible.map Node.withoutToken = s'.listEligible.map Node.withoutToken := by
  have hfilter (l : List Node) : (l.filter Node.eligible).map Node.withoutToken =
      (l.map Node.withoutToken).filter Node.eligible := by
    rw [List.filter_map]
    rfl
  rw [Store.listEligible, Store.listEligible, hfilter, hfilter, h]

theorem AlikeButTokens.listEligible_eq_iff (h : AlikeButTokens s s') :
    s.listEligible = s'.listEligible ↔
      s.listEligible.map Node.authToken = s'.listEligible.map Node.authToken := by
  refine ⟨congrArg _, fun ht => ?_⟩
  have hparts (l : List Node) : l.map (fun n => (n.withoutToken, n.authToken)) =
      (l.map Node.withoutToken).zip (l.map Node.authToken) := by
    rw [List.zip_map']
  have hinj : Function.Injective fun n : Node => (n.withoutToken, n.authToken) :=
    fun n m hnm => Node.ext_token (Prod.mk.inj hnm).1 (Prod.mk.inj hnm).2
  refine List.map_injective_iff.mpr hinj ?_
  rw [hparts, hparts, h.listEligible, ht]

end Store

namespace Status

def Route.content (v : View) (s : Store) : Route → Response
  | .alive => { status := 200 }
  | .nodes => { status := 200, body := some (.array (s.listEligible.map Node.toJson)) }
  | .health => { status := 200, body := some (healthJson (v.health.getD [])) }
  | .workers => { status := 200, body := some (.array (v.workers.map WorkerStatus.toJson)) }

def reply (v : View) (method target : String) (s : Store) : Response :=
  match Route.ofTarget? target with
  | none => { status := 404 }
  | some route =>
    if method = "GET" then route.content v s
    else if method = "HEAD" then { route.content v s with body := none }
    else { status := 405 }

def Response.written (r : Response) : ℕ × Option String :=
  (r.status, r.body.map Json.render)

/-- What may be written in answer to a request. -/
def answersTo (C : Conditions) (v : View) (method target : String) (s : State) :
    Set (ℕ × Option String) :=
  {w | ∃ r s', Runs C.surroundings (respond v method target) s r s' ∧ r.written = w}

variable {C : Conditions} {v : View} {method target : String} {s s' : State}

theorem answer_wp (hC : ∀ s e, ¬ C.storeFault s .listEligible e) (route : Route) :
    (route.answer v).wp C.surroundings.surely (fun r _ => r = route.content v s.store) s := by
  cases route with
  | alive | health | workers => rfl
  | nodes =>
    refine ⟨⟨_, _, _, .inl ⟨rfl, rfl⟩, rfl⟩, ?_⟩
    rintro a t ⟨u, ⟨rfl, rfl⟩ | ⟨e, he, -⟩, rfl⟩
    · rfl
    · exact absurd he (hC s e)

theorem respond_wp (hC : ∀ s e, ¬ C.storeFault s .listEligible e) :
    (respond v method target).wp C.surroundings.surely
      (fun r _ => r = reply v method target s.store) s := by
  unfold respond reply
  cases Route.ofTarget? target with
  | none => rfl
  | some route =>
    simp only [wp_ite]
    split_ifs with hget hhead
    · exact answer_wp hC route
    · rw [wp_bind]
      exact wp_mono (fun r _ hr => by rw [hr]; rfl) (answer_wp hC route)
    · rfl

theorem answers_eq (hC : ∀ s e, ¬ C.storeFault s .listEligible e) :
    answersTo C v method target s = {(reply v method target s.store).written} := by
  obtain ⟨⟨r, t, hr⟩, hall⟩ := runs_of_surely
    (respond_wp hC : (respond v method target).wp C.surroundings.surely _ s)
  ext w
  constructor
  · rintro ⟨r', t', hr', rfl⟩
    exact congrArg Response.written (hall r' t' hr')
  · rintro rfl
    exact ⟨r, t, hr, congrArg Response.written (hall r t hr)⟩

/-- The eligible nodes are listed in full. -/
def ListsNodes (method target : String) : Prop :=
  method = "GET" ∧ Route.ofTarget? target = some .nodes

theorem reply_congr (h : ¬ ListsNodes method target) (s s' : Store) :
    reply v method target s = reply v method target s' := by
  unfold reply
  cases hroute : Route.ofTarget? target with
  | none => rfl
  | some route =>
    cases route with
    | alive | health | workers => rfl
    | nodes =>
      have hget : method ≠ "GET" := fun hm => h ⟨hm, hroute⟩
      simp only [if_neg hget]
      rfl

theorem reply_of_listsNodes (h : ListsNodes method target) (s : Store) :
    reply v method target s =
      { status := 200, body := some (.array (s.listEligible.map Node.toJson)) } := by
  rw [reply, h.2]
  exact if_pos h.1

/-- The text of a listing tells the listed nodes. -/
theorem render_nodes_inj {ns ns' : List Node} :
    (Json.array (ns.map Node.toJson)).render = (Json.array (ns'.map Node.toJson)).render ↔
      ns = ns' := by
  have hsound (l : List Node) : (Json.array (l.map Node.toJson)).Sound :=
    .array (List.forall_mem_map.mpr fun n _ => Node.restores.sound n)
  rw [Json.render_inj (hsound ns) (hsound ns'), Json.array.injEq]
  exact (List.map_injective_iff.mpr Node.restores.injective).eq_iff

/-- Every request has one answer. Registries that are alike but for their tokens are told apart
by it exactly if it lists the eligible nodes and these have different tokens. -/
theorem answers_eq_iff_tokens (hC : ∀ s e, ¬ C.storeFault s .listEligible e)
    (h : s.store.AlikeButTokens s'.store) :
    (∃ w, answersTo C v method target s = {w}) ∧
      (answersTo C v method target s = answersTo C v method target s' ↔
        (ListsNodes method target →
          s.store.listEligible.map Node.authToken = s'.store.listEligible.map Node.authToken)) := by
  refine ⟨⟨_, answers_eq hC⟩, ?_⟩
  rw [answers_eq hC, answers_eq hC, Set.singleton_eq_singleton_iff]
  by_cases hl : ListsNodes method target
  · have hwritten :
        (reply v method target s.store).written = (reply v method target s'.store).written ↔
          s.store.listEligible = s'.store.listEligible := by
      rw [reply_of_listsNodes hl, reply_of_listsNodes hl, ← render_nodes_inj]
      simp [Response.written]
    rw [hwritten, h.listEligible_eq_iff]
    exact ⟨fun ht _ => ht, fun ht => ht hl⟩
  · exact ⟨fun _ hl' => absurd hl' hl, fun _ => congrArg _ (reply_congr hl _ _)⟩

def guarded (archived : Bool) (authToken : String) : State :=
  .founding { Node.create 1 "node-1" "10.0.0.1:7443" 10 with archived, authToken }

theorem answers_of_archived : (∀ s e, ¬ calm.storeFault s .listEligible e) ∧
    (guarded true "s3cret").store.AlikeButTokens (guarded true "changed").store ∧
    answersTo calm ⟨none, []⟩ "GET" "/v1/nodes" (guarded true "s3cret") =
      answersTo calm ⟨none, []⟩ "GET" "/v1/nodes" (guarded true "changed") := by
  have hC : ∀ s e, ¬ calm.storeFault s .listEligible e := fun _ _ h => h
  have halike : (guarded true "s3cret").store.AlikeButTokens (guarded true "changed").store := rfl
  exact ⟨hC, halike, (answers_eq_iff_tokens hC halike).2.mpr fun _ => by decide⟩

/-- Two registries that differ in the token of their only node get different answers. -/
theorem exists_token_disclosed : ∃ s s' : State, s.store.AlikeButTokens s'.store ∧
    answersTo calm ⟨none, []⟩ "GET" "/v1/nodes" s ≠
      answersTo calm ⟨none, []⟩ "GET" "/v1/nodes" s' := by
  refine ⟨guarded false "s3cret", guarded false "changed", rfl, fun h => ?_⟩
  have hl : ListsNodes "GET" "/v1/nodes" := ⟨rfl, by decide⟩
  rw [answers_eq fun _ _ h => h, answers_eq fun _ _ h => h, Set.singleton_eq_singleton_iff,
    reply_of_listsNodes hl, reply_of_listsNodes hl] at h
  have hns := render_nodes_inj.mp (Option.some.inj (Prod.mk.inj h).2)
  exact absurd hns (by decide)

end Status

end PeerFleet
