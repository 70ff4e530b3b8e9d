import Mathlib.Data.List.Nodup
import PeerFleet.Config.Validation

/-! # Accepted configurations

What the check of a configuration lets pass, said without its findings: the ids of the nodes
differ, every node has room, an address and a whole pair of client files or none, both times of
day can be read, and no interval is empty.
-/

namespace PeerFleet

namespace Schedule

variable {s : Schedule} {text : String}

theorem daily_of_parseDaily (h : parseDaily text = .ok s) :
    ∃ hour minute, s = .daily hour minute ∧ s.validate = .ok () := by
  unfold parseDaily at h
  split at h
  · cases h
  next hour minute _ =>
    cases hv : (daily hour minute).validate with
    | error e =>
      simp only [hv] at h
      cases h
    | ok =>
      simp only [hv] at h
      cases h
      exact ⟨hour, minute, rfl, hv⟩

theorem validate_of_parseDaily (h : parseDaily text = .ok s) : s.validate = .ok () := by
  obtain ⟨_, _, -, hv⟩ := daily_of_parseDaily h
  exact hv

theorem validate_every_iff (secs : UInt64) :
    (every (.ofSeconds secs.toNat)).validate = .ok () ↔ secs ≠ 0 := by
  have hz : (Span.ofSeconds secs.toNat).nanos = 0 ↔ secs = 0 := by
    rw [← UInt64.toNat_inj]
    change secs.toNat * 1000000000 = 0 ↔ secs.toNat = 0
    omega
  simp [validate, hz]

end Schedule

def Harmless (fs : List Finding) : Prop :=
  ∀ f ∈ fs, f.severity ≠ .error

theorem harmless_append {fs gs : List Finding} :
    Harmless (fs ++ gs) ↔ Harmless fs ∧ Harmless gs :=
  List.forall_mem_append

theorem Verdict.passed_ofFindings {fs : List Finding} :
    (ofFindings fs).passed = true ↔ Harmless fs := by
  have hfold (v : Verdict) : (fs.foldl add v).passed = true ↔ v.passed = true ∧ Harmless fs := by
    induction fs generalizing v with
    | nil => simp [Harmless]
    | cons f fs ih => simp [ih, add, Harmless, and_assoc]
  exact (hfold {}).trans (and_iff_right rfl)

namespace FleetConfig

theorem harmless_findIf {b : Bool} {f : Finding} :
    Harmless (findIf b f) ↔ (b = true → f.severity ≠ .error) := by
  cases b <;> simp [Harmless, findIf]

theorem harmless_checkDaily {code text : String} :
    Harmless (checkDaily code text) ↔ ∃ s, Schedule.parseDaily text = .ok s := by
  cases h : Schedule.parseDaily text <;> simp [checkDaily, h, Harmless]

theorem harmless_checkSeconds {code setting : String} {secs : UInt64} :
    Harmless (checkSeconds code setting secs) ↔ secs ≠ 0 := by
  simp [checkSeconds, harmless_findIf]

end FleetConfig

structure Node.Accepted (n : Node) : Prop where
  capacity : n.maxPeers ≠ 0
  address : Text.isBlankText n.rpcAddress = false
  paired : n.tls.halfConfigured = false

structure WorkerSettings.Accepted (w : WorkerSettings) : Prop where
  expiration : ∃ s, w.expirationSchedule = .ok s
  notification : ∃ s, w.notificationSchedule = .ok s
  health : w.healthIntervalSecs ≠ 0
  timeout : w.healthTimeoutSecs ≠ 0
  provisioning : w.provisioningIntervalSecs ≠ 0
  peerCount : w.peerCountIntervalSecs ≠ 0

structure FleetConfig.Accepted (c : FleetConfig) : Prop where
  distinct : (c.nodes.map Node.id).Nodup
  nodes : ∀ n ∈ c.nodes, n.Accepted
  workers : c.workers.Accepted

namespace FleetConfig

theorem harmless_checkNode {seen : List NodeId} {n : Node} :
    Harmless (checkNode seen n) ↔ n.id ∉ seen ∧ n.Accepted := by
  simp only [checkNode, harmless_append, harmless_findIf]
  constructor
  · rintro ⟨⟨⟨⟨⟨hs, hc⟩, -⟩, ha⟩, hp⟩, -⟩
    exact ⟨by simpa using hs, by simpa using hc, by simpa using ha, by simpa using hp⟩
  · rintro ⟨hs, hc, ha, hp⟩
    simp [hs, hc, ha, hp]

/-- The nodes of a list are checked against one another and against those before them. -/
theorem harmless_checkNodes {seen : List NodeId} {ns : List Node} :
    Harmless (checkNodes seen ns) ↔
      (ns.map Node.id).Nodup ∧ (∀ n ∈ ns, n.id ∉ seen) ∧ ∀ n ∈ ns, n.Accepted := by
  induction ns generalizing seen with
  | nil => simp [checkNodes, Harmless]
  | cons n ns ih =>
    have hsplit : (∀ m ∈ ns, m.id ∉ n.id :: seen) ↔
        n.id ∉ ns.map Node.id ∧ ∀ m ∈ ns, m.id ∉ seen := by
      simp only [List.mem_cons, not_or, List.mem_map, not_exists, not_and]
      exact ⟨fun h => ⟨fun m hm => (h m hm).1, fun m hm => (h m hm).2⟩,
        fun h m hm => ⟨h.1 m hm, h.2 m hm⟩⟩
    rw [checkNodes, harmless_append, harmless_checkNode, ih, hsplit, List.map_cons,
      List.nodup_cons, List.forall_mem_cons, List.forall_mem_cons]
    tauto

theorem harmless_checkWorkers {w : WorkerSettings} : Harmless (checkWorkers w) ↔ w.Accepted := by
  simp only [checkWorkers, harmless_append, harmless_findIf, harmless_checkDaily,
    harmless_checkSeconds]
  constructor
  · rintro ⟨⟨⟨⟨⟨⟨⟨he, hn⟩, hh⟩, ht⟩, hp⟩, hc⟩, -⟩, -⟩
    exact ⟨he, hn, hh, ht, hp, hc⟩
  · rintro ⟨he, hn, hh, ht, hp, hc⟩
    exact ⟨⟨⟨⟨⟨⟨⟨he, hn⟩, hh⟩, ht⟩, hp⟩, hc⟩, by simp⟩, by simp⟩

theorem validate_passed_iff {c : FleetConfig} : c.validate.passed = true ↔ c.Accepted := by
  simp only [validate, Verdict.passed_ofFindings, harmless_append, harmless_findIf,
    harmless_checkNodes, harmless_checkWorkers]
  constructor
  · rintro ⟨⟨⟨⟨hd, -, hn⟩, hw⟩, -⟩, -⟩
    exact ⟨hd, hn, hw⟩
  · rintro ⟨hd, hn, hw⟩
    exact ⟨⟨⟨⟨hd, by simp, hn⟩, hw⟩, by simp⟩, by simp⟩

end FleetConfig

end PeerFleet
