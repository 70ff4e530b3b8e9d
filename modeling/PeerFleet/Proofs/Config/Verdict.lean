import Mathlib.Data.Finset.Card
import PeerFleet.Proofs.Config.Acceptance

/-! # What the check of a configuration says

The flag of a verdict agrees with its findings at every point of the check. What it comes to
depends only on what the nodes and the workers are set to, in whatever order the nodes stand, and
every node that repeats an id is reported once.
-/

namespace PeerFleet

namespace Verdict

variable {v : Verdict}

def Told (v : Verdict) : Prop :=
  v.passed = !v.hasErrors

theorem Told.add (h : v.Told) (f : Finding) : (v.add f).Told := by
  unfold Told hasErrors at h ⊢
  rw [Verdict.add, h, List.any_append, Bool.not_or]
  cases hs : f.severity <;> simp [hs]

theorem told_foldl_add (h : v.Told) (fs : List Finding) : (fs.foldl add v).Told := by
  induction fs generalizing v with
  | nil => exact h
  | cons f fs ih => exact ih (h.add f)

theorem findings_foldl_add (fs : List Finding) :
    (fs.foldl add v).findings = v.findings ++ fs := by
  induction fs generalizing v with
  | nil => simp
  | cons f fs ih => rw [List.foldl_cons, ih, add, List.append_assoc, List.singleton_append]

theorem told_ofFindings (fs : List Finding) : (ofFindings fs).Told :=
  told_foldl_add (v := {}) rfl fs

theorem findings_ofFindings (fs : List Finding) : (ofFindings fs).findings = fs :=
  findings_foldl_add fs

end Verdict

namespace FleetConfig

def repetitions (fs : List Finding) : ℕ :=
  fs.countP (·.code = "DUPLICATE_NODE_ID")

theorem repetitions_append {fs gs : List Finding} :
    repetitions (fs ++ gs) = repetitions fs + repetitions gs :=
  List.countP_append

theorem repetitions_findIf {b : Bool} {f : Finding} :
    repetitions (findIf b f) = if b ∧ f.code = "DUPLICATE_NODE_ID" then 1 else 0 := by
  cases b <;> simp [findIf, repetitions, List.countP_cons]

theorem repetitions_checkNode {seen : List NodeId} {n : Node} :
    repetitions (checkNode seen n) = if n.id ∈ seen then 1 else 0 := by
  simp [checkNode, repetitions_append, repetitions_findIf]

theorem repetitions_checkNodes (seen : List NodeId) (ns : List Node) :
    repetitions (checkNodes seen ns) + (ns.map Node.id ++ seen).toFinset.card =
      ns.length + seen.toFinset.card := by
  induction ns generalizing seen with
  | nil => simp [checkNodes, repetitions]
  | cons n ns ih =>
    have hmove : (n.id :: ns.map Node.id ++ seen).toFinset =
        (ns.map Node.id ++ n.id :: seen).toFinset := by
      ext id
      simp
    have hseen : (n.id :: seen).toFinset.card + (if n.id ∈ seen then 1 else 0) =
        seen.toFinset.card + 1 := by
      rw [List.toFinset_cons, Finset.card_insert_eq_ite]
      simp only [List.mem_toFinset]
      split_ifs <;> rfl
    have hrest := ih (n.id :: seen)
    rw [checkNodes, repetitions_append, repetitions_checkNode, List.map_cons, hmove,
      List.length_cons]
    omega

theorem repetitions_checkDaily {code text : String} (h : code ≠ "DUPLICATE_NODE_ID") :
    repetitions (checkDaily code text) = 0 := by
  unfold checkDaily
  split <;> simp [repetitions, h]

theorem repetitions_checkWorkers {w : WorkerSettings} : repetitions (checkWorkers w) = 0 := by
  simp [checkWorkers, checkSeconds, repetitions_append, repetitions_findIf,
    repetitions_checkDaily]

theorem repetitions_validate {c : FleetConfig} :
    repetitions c.validate.findings = c.nodes.length - (c.nodes.map Node.id).toFinset.card := by
  have hnodes := repetitions_checkNodes [] c.nodes
  rw [List.append_nil, List.toFinset_nil, Finset.card_empty] at hnodes
  have hall : repetitions c.validate.findings = repetitions (checkNodes [] c.nodes) := by
    rw [validate, Verdict.findings_ofFindings]
    simp [repetitions_append, repetitions_findIf, repetitions_checkWorkers]
  omega

end FleetConfig

theorem Schedule.exists_parseDaily_iff {text : String} : (∃ s, parseDaily text = .ok s) ↔
    ∃ hour minute, parseDaily text = .ok (.daily hour minute) := by
  constructor
  · rintro ⟨s, hs⟩
    obtain ⟨hour, minute, rfl, -⟩ := daily_of_parseDaily hs
    exact ⟨hour, minute, hs⟩
  · rintro ⟨hour, minute, hs⟩
    exact ⟨_, hs⟩

theorem Node.accepted_iff {n : Node} : n.Accepted ↔ 0 < n.maxPeers ∧
    Text.isBlankText n.rpcAddress = false ∧
      (n.tls.clientCert.isSome = true ↔ n.tls.clientKey.isSome = true) := by
  have hroom : n.maxPeers ≠ 0 ↔ 0 < n.maxPeers := UInt32.pos_iff_ne_zero.symm
  have hpair : n.tls.halfConfigured = false ↔
      (n.tls.clientCert.isSome = true ↔ n.tls.clientKey.isSome = true) := by
    rw [TlsSettings.halfConfigured, bne_eq_false_iff_eq, Bool.eq_iff_iff]
  constructor
  · rintro ⟨hc, ha, hp⟩
    exact ⟨hroom.mp hc, ha, hpair.mp hp⟩
  · rintro ⟨hc, ha, hp⟩
    exact ⟨hroom.mpr hc, ha, hpair.mpr hp⟩

theorem WorkerSettings.accepted_iff {w : WorkerSettings} : w.Accepted ↔
    (∃ hour minute, w.expirationSchedule = .ok (.daily hour minute)) ∧
      (∃ hour minute, w.notificationSchedule = .ok (.daily hour minute)) ∧
      w.healthIntervalSecs ≠ 0 ∧ w.healthTimeoutSecs ≠ 0 ∧
      w.provisioningIntervalSecs ≠ 0 ∧ w.peerCountIntervalSecs ≠ 0 := by
  constructor
  · rintro ⟨he, hn, hh, ht, hp, hc⟩
    exact ⟨Schedule.exists_parseDaily_iff.mp he, Schedule.exists_parseDaily_iff.mp hn, hh, ht, hp,
      hc⟩
  · rintro ⟨he, hn, hh, ht, hp, hc⟩
    exact ⟨Schedule.exists_parseDaily_iff.mpr he, Schedule.exists_parseDaily_iff.mpr hn, hh, ht,
      hp, hc⟩

theorem WorkerSettings.accepted_notifyDays {w : WorkerSettings} {days : List UInt32} :
    { w with notifyDays := days }.Accepted ↔ w.Accepted := by
  rw [accepted_iff, accepted_iff]
  rfl

namespace FleetConfig

variable {c c' : FleetConfig}

theorem accepted_iff : c.Accepted ↔
    (c.nodes.map Node.id).Nodup ∧ (∀ n ∈ c.nodes, n.Accepted) ∧ c.workers.Accepted :=
  ⟨fun ⟨hd, hn, hw⟩ => ⟨hd, hn, hw⟩, fun ⟨hd, hn, hw⟩ => ⟨hd, hn, hw⟩⟩

theorem accepted_congr (hn : c'.nodes.Perm c.nodes)
    (hw : c'.workers.Accepted ↔ c.workers.Accepted) : c'.Accepted ↔ c.Accepted := by
  rw [accepted_iff, accepted_iff, (hn.map Node.id).nodup_iff, hw]
  simp only [hn.mem_iff]

/-- The verdict on a configuration, from the configuration alone. It is the same for every order
of the nodes, and whatever else is changed but the nodes and what the workers go by. -/
theorem validate_exact (c : FleetConfig) :
    (c.validate.passed = true ↔
      (c.nodes.map Node.id).Nodup ∧
      (∀ n ∈ c.nodes, 0 < n.maxPeers ∧ Text.isBlankText n.rpcAddress = false ∧
        (n.tls.clientCert.isSome = true ↔ n.tls.clientKey.isSome = true)) ∧
      (∃ hour minute, c.workers.expirationSchedule = .ok (.daily hour minute)) ∧
      (∃ hour minute, c.workers.notificationSchedule = .ok (.daily hour minute)) ∧
      c.workers.healthIntervalSecs ≠ 0 ∧ c.workers.healthTimeoutSecs ≠ 0 ∧
      c.workers.provisioningIntervalSecs ≠ 0 ∧ c.workers.peerCountIntervalSecs ≠ 0) ∧
    c.validate.passed = !c.validate.hasErrors ∧
    c.validate.codes.count "DUPLICATE_NODE_ID" =
      c.nodes.length - (c.nodes.map Node.id).toFinset.card ∧
    ∀ c' : FleetConfig, c'.nodes.Perm c.nodes →
      (∃ days, c'.workers = { c.workers with notifyDays := days }) →
      c'.validate.passed = c.validate.passed := by
  refine ⟨?_, Verdict.told_ofFindings _, ?_, ?_⟩
  · rw [validate_passed_iff, accepted_iff, WorkerSettings.accepted_iff]
    simp only [Node.accepted_iff]
  · rw [← repetitions_validate, Verdict.codes, repetitions, List.count, List.countP_map]
    exact List.countP_congr fun f _ => by simp
  · rintro c' hn ⟨days, hw⟩
    rw [Bool.eq_iff_iff, validate_passed_iff, validate_passed_iff]
    exact accepted_congr hn (hw ▸ WorkerSettings.accepted_notifyDays)

theorem validate_exact_swapped :
    let n : Node := .create 1 "node-1" "10.0.0.1:7443" 10
    let m : Node := .create 2 "node-2" "10.0.0.2:7443" 20
    let c : FleetConfig := { nodes := [n, m] }
    let c' : FleetConfig := { nodes := [m, n], admins := [7], workers := { notifyDays := [] } }
    c'.validate.passed = true ∧ c.validate.passed = true ∧
      c.validate.codes.count "DUPLICATE_NODE_ID" = 0 := by
  intro n m c c'
  obtain ⟨-, -, hcount, hsame⟩ := validate_exact c
  have hc : c.validate.passed = true := by decide
  exact ⟨(hsame c' (.swap n m []) ⟨[], rfl⟩).trans hc, hc, hcount⟩

end FleetConfig

end PeerFleet
