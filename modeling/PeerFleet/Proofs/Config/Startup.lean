import PeerFleet.Agent.Channel
import PeerFleet.Proofs.Config.Acceptance
import PeerFleet.Proofs.Program.Run
import PeerFleet.Proofs.Store.Records
import PeerFleet.Proofs.Worker.Callers
import PeerFleet.Service.Serve

/-! # Starting with an accepted configuration

What the check of a configuration is there for: the service that is started with one that
passes can make its schedules, start its workers and store its nodes, and never finds half a
pair of client files.
-/

namespace PeerFleet

theorem Manager.map_fst_numbered (names : List String) :
    (numbered names).map Prod.fst = List.range names.length := by
  rw [numbered, List.map_map]
  change (List.zipIdx _).map Prod.snd = _
  rw [List.zipIdx_map_snd, List.range_eq_range']

abbrev Crew := ℕ → WorkerState

namespace Crew

def idle : Crew :=
  fun _ => {}

/-- The loops that have been spawned take turns. -/
def Proceeds : Crew → Crew → Prop :=
  Relation.ReflTransGen fun s u => ∃ i n t w, (s i).go? n t = some w ∧ u = Function.update s i w

/-- The workers that do some jobs. Before one of them is started, the loops of those that were
started before may go on. None is told to stop. -/
def surroundings (jobs : List (Job × Schedule)) : Environment Workers Crew
  | .start i, s, a, s' => ∃ j u, jobs[i]? = some j ∧ s.Proceeds u ∧
      a = ((u i).start j.1.name j.2).1 ∧
      s' = Function.update u i ((u i).start j.1.name j.2).2
  | .stop _, _, _, _ => False

variable {s u : Crew} {jobs : List (Job × Schedule)} {names : List (ℕ × String)}

theorem Proceeds.slot (h : s.Proceeds u) (i : ℕ) : (u i).slot = (s i).slot := by
  induction h with
  | refl => rfl
  | tail _ hs ih =>
    obtain ⟨j, n, t, w, hw, rfl⟩ := hs
    rw [← ih]
    by_cases hi : i = j
    · subst hi
      rw [Function.update_self, (WorkerState.onward_go hw).slot]
    · rw [Function.update_of_ne hi]

theorem startAll_surely (hv : ∀ j ∈ jobs, j.2.validate = .ok ())
    (hl : ∀ x ∈ names, x.1 < jobs.length) (hd : (names.map Prod.fst).Nodup)
    (hs : ∀ x ∈ names, (s x.1).slot = none) :
    (Manager.startAll names).wp (surroundings jobs).surely
      (fun r s' => r = .ok () ∧ (∀ x ∈ names, (s' x.1).slot.isSome) ∧
        ∀ i, (s i).slot.isSome → (s' i).slot.isSome) s := by
  induction names generalizing s with
  | nil => exact ⟨rfl, by simp, fun _ h => h⟩
  | cons x names ih =>
    obtain ⟨i, name⟩ := x
    obtain ⟨hi, hl⟩ := List.forall_mem_cons.mp hl
    obtain ⟨hi', hs⟩ := List.forall_mem_cons.mp hs
    obtain ⟨hnot, hd⟩ := List.nodup_cons.mp hd
    have hj : jobs[i]? = some jobs[i] := List.getElem?_eq_getElem hi
    refine ⟨⟨_, _, jobs[i], s, hj, .refl, rfl, rfl⟩, ?_⟩
    rintro _ _ ⟨j, u, hj, hu, rfl, rfl⟩
    have ha : (u i).Admits j.2 := ⟨(hu.slot i).trans hi', hv j (List.mem_of_getElem? hj)⟩
    rw [WorkerState.start_fst_of_admits ha]
    have hslot : ((u i).start j.1.name j.2).2.slot.isSome := by
      rw [WorkerState.start_of_admits ha]
      rfl
    have hne {x : ℕ × String} (hx : x ∈ names) : x.1 ≠ i := by
      intro hi
      have hm : x.1 ∈ names.map Prod.fst := List.mem_map_of_mem hx
      exact hnot (hi ▸ hm)
    refine Program.wp_mono (fun r s' hr => ?_) (ih hl hd fun x hx => ?_)
    · obtain ⟨rfl, hnames, hkept⟩ := hr
      have hi : (s' i).slot.isSome := hkept i (by rwa [Function.update_self])
      refine ⟨rfl, List.forall_mem_cons.mpr ⟨hi, hnames⟩, fun k hk => ?_⟩
      by_cases hki : k = i
      · exact hki ▸ hi
      · refine hkept k ?_
        rwa [Function.update_of_ne hki, hu.slot]
    · rw [Function.update_of_ne (hne hx), hu.slot]
      exact hs x hx

theorem start_surely (hv : ∀ j ∈ jobs, j.2.validate = .ok ()) :
    (Manager.start (jobs.map (·.1.name))).wp (surroundings jobs).surely
      (fun r s => r = .ok () ∧ ∀ i < jobs.length, (s i).slot.isSome) idle := by
  have hfst : (Manager.numbered (jobs.map (·.1.name))).map Prod.fst = List.range jobs.length := by
    rw [Manager.map_fst_numbered, List.length_map]
  refine Program.wp_mono (fun r s hr => ?_) (startAll_surely hv (fun x hx => ?_) ?_ fun _ _ => rfl)
  · obtain ⟨rfl, hnames, -⟩ := hr
    refine ⟨rfl, fun i hi => ?_⟩
    have hm : i ∈ (Manager.numbered (jobs.map (·.1.name))).map Prod.fst := by
      rw [hfst]
      exact List.mem_range.mpr hi
    obtain ⟨x, hx, rfl⟩ := List.mem_map.mp hm
    exact hnames x hx
  · have hm := List.mem_map_of_mem (f := Prod.fst) hx
    rw [hfst] at hm
    exact List.mem_range.mp hm
  · rw [hfst]
    exact List.nodup_range

end Crew

theorem WorkerSettings.Accepted.schedules {w : WorkerSettings} (h : w.Accepted) :
    ∃ e n, w.expirationSchedule = .ok e ∧ w.notificationSchedule = .ok n ∧
      ∀ s ∈ [e, n, w.healthSchedule, w.provisioningSchedule, w.peerCountSchedule],
        s.validate = .ok () := by
  obtain ⟨e, he⟩ := h.expiration
  obtain ⟨n, hn⟩ := h.notification
  refine ⟨e, n, he, hn, ?_⟩
  simp only [List.forall_mem_cons]
  exact ⟨Schedule.validate_of_parseDaily he, Schedule.validate_of_parseDaily hn,
    (Schedule.validate_every_iff _).mpr h.health,
    (Schedule.validate_every_iff _).mpr h.provisioning,
    (Schedule.validate_every_iff _).mpr h.peerCount, by simp⟩

theorem FleetConfig.jobs_of_accepted {c : FleetConfig} (h : c.Accepted) :
    ∃ jobs, c.jobs = .ok jobs ∧ ∀ j ∈ jobs, j.2.validate = .ok () := by
  obtain ⟨e, n, he, hn, hall⟩ := h.workers.schedules
  have hjobs : c.jobs = .ok ([(.expiration, e), (.reminder c.workers.notifyDays, n),
      (.health c.admins, c.workers.healthSchedule),
      (.provisioning, c.workers.provisioningSchedule)] ++
      if c.workers.peerCountEnabled then [(.peerCount, c.workers.peerCountSchedule)] else []) := by
    simp only [jobs, he, hn]
    cases c.workers.peerCountEnabled <;> rfl
  refine ⟨_, hjobs, ?_⟩
  simp only [List.forall_mem_cons] at hall
  obtain ⟨he, hn, hh, hp, hc, -⟩ := hall
  cases c.workers.peerCountEnabled <;> simp [he, hn, hh, hp, hc]

namespace Agent.Channel

variable {s : Surroundings} {text : String}

theorem bind_ne_error {ε α β : Type} {x : Except ε α} {f : α → Except ε β} {e : ε}
    (hx : x ≠ .error e) (hf : ∀ a, f a ≠ .error e) : (x >>= f) ≠ .error e := by
  cases x with
  | ok a => exact hf a
  | error e' =>
    rintro ⟨⟩
    exact hx rfl

theorem contents_ne_config {path : String} : contents s path ≠ .error (.config text) := by
  unfold contents
  split <;> simp

theorem checkAuthorities_ne_config {path : String} :
    checkAuthorities s path ≠ .error (.config text) := by
  refine bind_ne_error contents_ne_config fun octets => ?_
  split
  · nofun
  · split_ifs <;> nofun

theorem checkIdentity_ne_config {certPath keyPath : String} :
    checkIdentity s certPath keyPath ≠ .error (.config text) := by
  refine bind_ne_error contents_ne_config fun key => ?_
  refine bind_ne_error contents_ne_config fun cert => ?_
  dsimp only
  split_ifs <;> nofun

/-- Only half a pair of client files is a fault of the settings. -/
theorem checkFiles_ne_config {tls : TlsSettings} (h : tls.halfConfigured = false) :
    checkFiles s tls ≠ .error (.config text) := by
  unfold checkFiles
  unfold TlsSettings.halfConfigured at h
  cases hc : tls.clientCert <;> cases hk : tls.clientKey <;> simp [hc, hk] at h
  · cases tls.caCert with
    | none => nofun
    | some path => exact bind_ne_error checkAuthorities_ne_config fun _ => nofun
  · cases tls.caCert with
    | none => exact checkIdentity_ne_config
    | some path => exact bind_ne_error checkAuthorities_ne_config fun _ => checkIdentity_ne_config

end Agent.Channel

namespace FleetConfig

/-- What the check lets pass does not fail where the check is meant to prevent it: schedules can
be made and used, all workers start, no node is lost, and no channel finds half a pair of files. -/
theorem passed_protects {c : FleetConfig} (h : c.validate.passed = true) :
    (∃ e n, c.workers.expirationSchedule = .ok e ∧ c.workers.notificationSchedule = .ok n ∧
      ∀ s ∈ [e, n, c.workers.healthSchedule, c.workers.provisioningSchedule,
        c.workers.peerCountSchedule], s.validate = .ok ()) ∧
    (∃ jobs, c.jobs = .ok jobs ∧
      (∃ r s,
        Program.Runs (Crew.surroundings jobs) (Manager.start (jobs.map (·.1.name))) .idle r s) ∧
      ∀ r s,
        Program.Runs (Crew.surroundings jobs) (Manager.start (jobs.map (·.1.name))) .idle r s →
        r = .ok () ∧ ∀ i < jobs.length, (s i).slot.isSome) ∧
    ((Store.ofNodes c.nodes).listNodes.Perm c.nodes ∧
      (Store.ofNodes c.nodes).listNodes.Pairwise (fun a b => a.id < b.id) ∧
      ∀ n ∈ (Store.ofNodes c.nodes).listNodes, 0 < n.maxPeers) ∧
    ∀ n ∈ c.nodes, ∀ s, Agent.Channel.checkFiles s n.tls ≠
      .error (.config "client certificate and key must be configured together") := by
  have ha := validate_passed_iff.mp h
  refine ⟨ha.workers.schedules, ?_, ⟨?_, Store.listNodes_ascending _, fun n hn => ?_⟩,
    fun n hn s => ?_⟩
  · obtain ⟨jobs, hjobs, hv⟩ := jobs_of_accepted ha
    exact ⟨jobs, hjobs, Program.runs_of_surely (Crew.start_surely hv)⟩
  · exact Store.listNodes_ofNodes ha.distinct
  · have hm := (Store.listNodes_ofNodes ha.distinct).mem_iff.mp hn
    exact UInt32.pos_iff_ne_zero.mpr (ha.nodes n hm).capacity
  · exact Agent.Channel.checkFiles_ne_config (ha.nodes n hn).paired

def pair : FleetConfig where
  nodes := [
    { Node.create 2 "node-2" "10.0.0.2:7443" 20 with
      tls := { enabled := true, clientCert := some "client.pem", clientKey := some "client.key" } },
    .create 1 "node-1" "10.0.0.1:7443" 10]

theorem passed_protects_pair : pair.validate.passed = true ∧
    ∃ jobs, pair.jobs = .ok jobs ∧
      ∃ s, Program.Runs (Crew.surroundings jobs) (Manager.start (jobs.map (·.1.name))) .idle
        (.ok ()) s := by
  have h : pair.validate.passed = true := by decide
  obtain ⟨-, ⟨jobs, hjobs, ⟨r, s, hr⟩, hall⟩, -⟩ := passed_protects h
  obtain ⟨rfl, -⟩ := hall r s hr
  exact ⟨h, jobs, hjobs, s, hr⟩

end FleetConfig

end PeerFleet
