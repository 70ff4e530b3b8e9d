import Mathlib.Data.List.Forall2
import PeerFleet.Proofs.Agent.Address
import PeerFleet.Proofs.Agent.Resources

/-! # Sessions with an agent

A session is a channel that is called again and again, with whatever the agent replies, until it is
closed. What the agent has to expect of it is written down without the channel: the line of each
request, and what a caller may conclude from the reply.
-/

namespace PeerFleet.Agent

open Url

variable {s : Surroundings} {n : Node} {ch : Channel} {c : Call}

def escaped (name : String) : String :=
  segmentOf name.toList

namespace Call

/-- The line that a call is to the agent. -/
def contract : Call → Method × String
  | .create i _ => (.post, "/v1/interfaces/" ++ escaped i ++ "/peers")
  | .enable i p => (.post, "/v1/interfaces/" ++ escaped i ++ "/peers/" ++ escaped p ++ "/enable")
  | .disable i p => (.post, "/v1/interfaces/" ++ escaped i ++ "/peers/" ++ escaped p ++ "/disable")
  | .delete i p => (.delete, "/v1/interfaces/" ++ escaped i ++ "/peers/" ++ escaped p)
  | .get i p => (.get, "/v1/interfaces/" ++ escaped i ++ "/peers/" ++ escaped p)
  | .list i => (.get, "/v1/interfaces/" ++ escaped i ++ "/peers")

def written : Call → List String
  | .create i _ | .list i => ["v1", "interfaces", escaped i, "peers"]
  | .delete i p | .get i p => ["v1", "interfaces", escaped i, "peers"] ++ [escaped p]
  | .enable i p => ["v1", "interfaces", escaped i, "peers"] ++ [escaped p] ++ ["enable"]
  | .disable i p => ["v1", "interfaces", escaped i, "peers"] ++ [escaped p] ++ ["disable"]

theorem contract_eq (c : Call) : c.contract = (c.method, "/" ++ "/".intercalate c.written) := by
  cases c <;> refine Prod.ext rfl (String.toList_injective ?_) <;>
    simp [contract, written, String.toList_append]

/-- The value that is read of a body, or that there is none. -/
def Decoded {α : Type} (operation : Operation) (read : Json → Option α) (body : List UInt8)
    (answer : Except AgentError α) : Prop :=
  (∃ json v, Json.parseOctets body = some json ∧ read json = some v ∧ answer = .ok v) ∨
    ((∀ json, Json.parseOctets body = some json → read json = none) ∧
      ∃ cause, answer = .error (.malformed operation cause))

/-- What comes of a body with a status from 200 to 299. -/
def Accepted : (c : Call) → List UInt8 → c.Answer → Prop
  | .create _ _, body, answer => Decoded .createPeer CreatedPeer.read? body answer
  | .get _ _, body, answer => Decoded .getPeer PeerInfo.read? body answer
  | .list _, body, answer => Decoded .listPeers (Read.list PeerInfo.read?) body answer
  | .enable _ _, _, answer | .disable _ _, _, answer | .delete _ _, _, answer => answer = .ok ()

/-- A call that brings back an answer because of a reply, or because there was none. -/
structure Settled (c : Call) (reply : Option Reply) (answer : c.Answer) : Prop where
  unanswered : reply = none → ∃ cause, answer = .error (.transport c.operation cause)
  refused : ∀ r ∈ reply, r.status < 200 ∨ 299 < r.status →
    answer = .error (.status c.operation r.status r.text)
  accepted : ∀ r ∈ reply, 200 ≤ r.status → r.status ≤ 299 → c.Accepted r.body answer
  not_found : (∃ e, answer = .error e ∧ e.isNotFound = true) ↔ ∃ r ∈ reply, r.status = 404
  tagged : ∀ e, answer = .error e → e.operation? = some c.operation

variable {body : List UInt8} {answer : c.Answer} {r : Reply}

theorem Accepted.cases (h : c.Accepted body answer) :
    (∃ result, answer = .ok result) ∨ ∃ cause, answer = .error (.malformed c.operation cause) := by
  have hdecoded {α : Type} {operation : Operation} {read : Json → Option α}
      {answer : Except AgentError α} (h : Decoded operation read body answer) :
      (∃ result, answer = .ok result) ∨ ∃ cause, answer = .error (.malformed operation cause) := by
    rcases h with ⟨-, v, -, -, h⟩ | ⟨-, h⟩
    · exact .inl ⟨v, h⟩
    · exact .inr h
  cases c with
  | create | get | list => exact hdecoded h
  | enable | disable | delete => exact .inl ⟨(), h⟩

theorem decoded_of_bind {α : Type} {operation : Operation} {read : Json → Option α}
    {answer : Except AgentError α}
    (hok : ∀ v, (Json.parseOctets body).bind read = some v → answer = .ok v)
    (hno : (Json.parseOctets body).bind read = none →
      ∃ cause, answer = .error (.malformed operation cause)) :
    Decoded operation read body answer := by
  cases hv : (Json.parseOctets body).bind read with
  | some v =>
    obtain ⟨json, hj, hr⟩ := Option.bind_eq_some_iff.mp hv
    exact .inl ⟨json, v, hj, hr, hok v hv⟩
  | none => exact .inr ⟨fun json hj => Option.bind_eq_none_iff.mp hv json hj, hno hv⟩

theorem settle_of_read {result : c.Result} (h : r.isSuccess = true)
    (hr : c.read? r.body = some result) : c.settle (some r) = .ok result := by
  simp only [settle, h, if_true, hr]

theorem settle_of_unread (h : r.isSuccess = true) (hr : c.read? r.body = none) :
    ∃ cause, c.settle (some r) = .error (.malformed c.operation cause) := by
  simp only [settle, h, if_true, hr]
  exact ⟨_, rfl⟩

theorem accepted_settle (h : r.isSuccess = true) : c.Accepted r.body (c.settle (some r)) := by
  cases c with
  | create | get | list =>
    exact decoded_of_bind (fun v hv => settle_of_read h hv) (fun hv => settle_of_unread h hv)
  | enable | disable | delete => exact settle_of_read h rfl

theorem settle_of_refused (h : r.isSuccess = false) :
    c.settle (some r) = .error (.status c.operation r.status r.text) := by
  simp only [settle, h, Bool.false_eq_true, if_false]

theorem isSuccess_iff : r.isSuccess = true ↔ 200 ≤ r.status ∧ r.status ≤ 299 := by
  simp only [Reply.isSuccess, Bool.and_eq_true, decide_eq_true_eq, UInt16.lt_iff_toNat_lt,
    UInt16.le_iff_toNat_le, UInt16.reduceToNat]
  omega

theorem isNotFound_status {operation : Operation} {code : UInt16} {text : String} :
    (AgentError.status operation code text).isNotFound = true ↔ code = 404 := by
  rw [AgentError.isNotFound.eq_def]
  split <;> simp_all

theorem settled_of_accepted (hl : 200 ≤ r.status) (hu : r.status ≤ 299)
    (h : c.Accepted r.body answer) : c.Settled (some r) answer := by
  simp only [UInt16.le_iff_toNat_le, UInt16.reduceToNat] at hl hu
  refine ⟨by simp, fun r' hr' hout => ?_, fun r' hr' _ _ => Option.mem_some.mp hr' ▸ h, ?_, ?_⟩
  · cases hr'
    simp only [UInt16.lt_iff_toNat_lt, UInt16.reduceToNat] at hout
    omega
  · constructor
    · rintro ⟨e, he, hn⟩
      rcases h.cases with ⟨result, h⟩ | ⟨cause, h⟩ <;> cases h.symm.trans he
      cases hn
    · rintro ⟨r', hr', hstatus⟩
      cases hr'
      rw [hstatus] at hu
      exact absurd hu (by decide)
  · intro e he
    rcases h.cases with ⟨result, h⟩ | ⟨cause, h⟩ <;> cases h.symm.trans he
    rfl

theorem settled_of_refused (h : ¬ (200 ≤ r.status ∧ r.status ≤ 299)) :
    c.Settled (some r) (.error (.status c.operation r.status r.text)) := by
  refine ⟨by simp, fun r' hr' _ => by rw [Option.mem_some.mp hr'], fun r' hr' hl hu => ?_, ?_, ?_⟩
  · cases hr'
    exact absurd ⟨hl, hu⟩ h
  · constructor
    · rintro ⟨e, he, hn⟩
      cases he
      exact ⟨r, rfl, isNotFound_status.mp hn⟩
    · rintro ⟨r', hr', hstatus⟩
      cases hr'
      exact ⟨_, rfl, isNotFound_status.mpr hstatus⟩
  · rintro e ⟨⟩
    rfl

theorem settled_of_none (cause : String) :
    c.Settled none (.error (.transport c.operation cause)) := by
  refine ⟨fun _ => ⟨_, rfl⟩, by simp, by simp, by simp [AgentError.isNotFound], ?_⟩
  rintro e ⟨⟩
  rfl

theorem settled_settle (c : Call) (reply : Option Reply) : c.Settled reply (c.settle reply) := by
  cases reply with
  | none => exact settled_of_none _
  | some r =>
    cases hs : r.isSuccess with
    | true =>
      obtain ⟨hl, hu⟩ := isSuccess_iff.mp hs
      exact settled_of_accepted hl hu (accepted_settle hs)
    | false =>
      rw [settle_of_refused hs]
      refine settled_of_refused fun h => ?_
      rw [isSuccess_iff.mpr h] at hs
      cases hs

end Call

/-- A base that is a bare host, or one with a second slash behind it. -/
def Rooted (base : Url) : Prop :=
  (base.path = [""] ∨ base.path = ["", ""]) ∧ base.query = none

theorem withoutTrailingSlash_eq_iff {path : List String} :
    withoutTrailingSlash path = [""] ↔ path = [""] ∨ path = ["", ""] := by
  rw [withoutTrailingSlash]
  rcases path with _ | ⟨a, _ | ⟨b, _ | ⟨d, path⟩⟩⟩
  · simp
  · simp
  · by_cases hb : b = "" <;> simp [hb]
  · split_ifs <;> simp

theorem root_eq_nil_iff {base : Url} (hb : base.Segmented) :
    root base = [] ↔ base.path = [""] ∨ base.path = ["", ""] := by
  have hne : withoutTrailingSlash base.path ≠ [] := by
    have hpath := hb.ne_nil
    rw [withoutTrailingSlash]
    split_ifs with h
    · rw [← List.length_pos_iff, List.length_dropLast]
      omega
    · exact hpath
  rw [root, ← withoutTrailingSlash_eq_iff]
  split_ifs with h
  · simp [h]
  · simp [h, hne]

variable {front : List String} {interface peerId : String}

theorem plain_iff {cs : List Char} (h : traceOf interface = .kept cs) :
    segmentOf cs = escaped interface ↔ Plain interface := by
  rw [escaped, segmentOf_injective.eq_iff, ← traceOf_eq_kept_iff, h, Trace.kept.injEq]

theorem collection_eq_iff : collection (traceOf interface) =
    ["v1", "interfaces", escaped interface, "peers"] ↔ Plain interface := by
  cases h : traceOf interface with
  | nothing | parent =>
    have hplain : ¬ Plain interface := by
      rw [← traceOf_eq_kept_iff, h]
      simp
    simp [collection, Trace.extend, hplain]
  | kept cs => simp [collection, Trace.extend, plain_iff h]

theorem member_eq_iff : member (traceOf interface) (traceOf peerId) =
    ["v1", "interfaces", escaped interface, "peers"] ++ [escaped peerId] ↔
      Plain interface ∧ Plain peerId := by
  cases h : traceOf peerId with
  | nothing | parent =>
    have hplain : ¬ Plain peerId := by
      rw [← traceOf_eq_kept_iff, h]
      simp
    cases traceOf interface <;> simp [member, collection, Trace.extend, hplain]
  | kept cs =>
    rw [member, Trace.extend, ← collection_eq_iff, ← plain_iff h]
    constructor
    · intro h
      obtain ⟨hi, hp⟩ := List.append_inj' h rfl
      exact ⟨hi, (List.cons.inj hp).1⟩
    · rintro ⟨hi, hp⟩
      rw [hi, hp]

theorem within_plain_iff : c.Within {name | Plain name} ↔
    Plain c.interface ∧ ∀ peerId ∈ c.peerId?, Plain peerId :=
  ⟨fun h => ⟨h.interface_mem, h.peerId_mem⟩, fun h => ⟨h.1, h.2⟩⟩

theorem segments_eq_written_iff : c.segments = c.written ↔ c.Within {name | Plain name} := by
  rw [within_plain_iff]
  cases c with
  | create i n | list i =>
    simp only [Call.segments, Call.written, collection_eq_iff, Call.interface, Call.peerId?]
    simp
  | delete i p | get i p =>
    simp only [Call.segments, Call.written, member_eq_iff, Call.interface, Call.peerId?]
    simp
  | enable i p | disable i p =>
    simp only [Call.segments, Call.written, List.append_left_inj, member_eq_iff, Call.interface,
      Call.peerId?]
    simp

theorem exists_segments (c : Call) :
    ∃ x rest, c.segments = "v1" :: x :: rest ∧ (x = "interfaces" ∨ x = "") := by
  have hcollection (i : Trace) : ∃ x, ∃ s rest, collection i = "v1" :: x :: s :: rest ∧
      (x = "interfaces" ∨ x = "") := by
    cases i
    · exact ⟨_, _, _, rfl, .inl rfl⟩
    · exact ⟨_, _, _, rfl, .inr rfl⟩
    · exact ⟨_, _, _, rfl, .inl rfl⟩
  have hmember (i p : Trace) : ∃ x rest, member i p = "v1" :: x :: rest ∧
      (x = "interfaces" ∨ x = "") := by
    obtain ⟨x, s, rest, hi, hx⟩ := hcollection i
    rw [member, hi]
    cases p
    · exact ⟨_, _, rfl, hx⟩
    · exact ⟨_, _, rfl, hx⟩
    · exact ⟨_, _, rfl, hx⟩
  cases c with
  | create i n | list i =>
    obtain ⟨x, s, rest, hi, hx⟩ := hcollection (traceOf i)
    exact ⟨x, s :: rest, hi, hx⟩
  | delete i p | get i p => exact hmember _ _
  | enable i p | disable i p =>
    obtain ⟨x, rest, hp, hx⟩ := hmember (traceOf i) (traceOf p)
    rw [Call.segments, hp]
    exact ⟨_, _, rfl, hx⟩

theorem front_eq_nil (h : front ++ c.segments = c.written) : front = [] := by
  obtain ⟨x, rest, hs, hx⟩ := exists_segments c
  rw [hs] at h
  -- Behind a front the first word would stand in the place of another one.
  cases c <;> rcases front with _ | ⟨_, _ | ⟨_, _ | ⟨_, _ | ⟨_, _ | ⟨_, _ | ⟨_, front⟩⟩⟩⟩⟩⟩ <;>
    simp_all [Call.written]

theorem segmented_written (ch : Channel) (c : Call) :
    ({ ch.base with path := c.written, query := none } : Url).Segmented where
  ne_nil := by cases c <;> simp [Call.written]
  slash_not_mem := by
    have hname (name : String) : '/' ∉ (escaped name).toList := slash_not_mem_segmentOf _
    cases c <;> simp [Call.written, hname]

theorem query_not_mem_contract (c : Call) : '?' ∉ c.contract.2.toList := by
  have hname (name : String) : '?' ∉ (escaped name).toList := by
    rw [escaped, segmentOf, String.toList_ofList]
    exact not_mem_percentEncode (by decide) (by decide) (by decide)
  cases c <;> simp [Call.contract, String.toList_append, hname]

/-- A request is what the contract has exactly if the base is a bare host and the names are
plain. -/
theorem line_eq_contract_iff (hb : ch.base.Segmented) : (c.request ch).line = c.contract ↔
    Rooted ch.base ∧ c.Within {name | Plain name} := by
  have hv := segmented_written ch c
  have htarget : ({ ch.base with path := c.written, query := none } : Url).target =
      c.contract.2 := by
    rw [Call.contract_eq, target_eq, Option.map_none, Option.getD_none, String.append_empty]
    rfl
  have hline : (c.request ch).line = c.contract ↔
      (c.request ch).url.target = c.contract.2 := by
    rw [Request.line, Prod.ext_iff, Call.contract_eq]
    exact and_iff_right rfl
  rw [hline, Rooted, ← root_eq_nil_iff hb, ← segments_eq_written_iff]
  constructor
  · intro h
    have hq : ch.base.query = none := by
      cases hq : ch.base.query with
      | none => rfl
      | some q =>
        refine absurd ?_ (query_not_mem_contract c)
        rw [← h, target_eq, query_request, hq]
        simp [String.toList_append]
    have hpath := path_eq_of_target (segmented_request hb c) hv hq (h.trans htarget.symm)
    rw [path_request] at hpath
    have hroot := front_eq_nil hpath
    rw [hroot, List.nil_append] at hpath
    exact ⟨⟨hroot, hq⟩, hpath⟩
  · rintro ⟨⟨hroot, hq⟩, hs⟩
    have hpath : (c.request ch).url.path = c.written := by
      rw [path_request, hroot, List.nil_append, hs]
    rw [← htarget, target_eq, target_eq, pathText, pathText, hpath, query_request, hq]

/-- What is done with a channel: a call, to which the agent replies or not, or its end. -/
inductive Act where
  | call (c : Call) (reply : Option Reply)
  | close

/-- A call as it went: the request that was sent, if one was, and the answer. -/
structure Event where
  call : Call
  sent : Option Request
  answer : call.Answer

/-- The calls of a session, one after the other. -/
def session (ch : Channel) : List Act → List Event
  | [] => []
  | .call c reply :: acts =>
    ⟨c, (ch.perform c reply).1, (ch.perform c reply).2⟩ :: session ch acts
  | .close :: acts => session ch.close acts

def Act.isCall : Act → Bool
  | .call _ _ => true
  | .close => false

def attempts (acts : List Act) : List (Call × Option Reply) :=
  acts.filterMap fun
    | .call c reply => some (c, reply)
    | .close => none

def opening (acts : List Act) : List (Call × Option Reply) :=
  attempts (acts.takeWhile Act.isCall)

def ending (acts : List Act) : List (Call × Option Reply) :=
  attempts (acts.dropWhile Act.isCall)

/-- One request went out, with the line of the contract, and the reply to it settled the call. -/
def Exchanged (x : Call × Option Reply) (e : Event) : Prop :=
  ∃ request answer, e = ⟨x.1, some request, answer⟩ ∧ request.line = x.1.contract ∧
    x.1.Settled x.2 answer

/-- No request went out, and the call failed because the channel is closed. -/
def Rejected (x : Call × Option Reply) (e : Event) : Prop :=
  e = ⟨x.1, none, .error (.closed x.1.operation)⟩

/-- A session keeps to the contract up to its end, and is silent from then on. -/
def Obeys (acts : List Act) (events : List Event) : Prop :=
  ∃ opened shut, events = opened ++ shut ∧ List.Forall₂ Exchanged (opening acts) opened ∧
    List.Forall₂ Rejected (ending acts) shut

def exchange (ch : Channel) (x : Call × Option Reply) : Event :=
  ⟨x.1, some (x.1.request ch), x.1.settle x.2⟩

def rejection (x : Call × Option Reply) : Event :=
  ⟨x.1, none, .error (.closed x.1.operation)⟩

variable {acts : List Act}

theorem session_of_closed (h : ch.closed = true) (acts : List Act) :
    session ch acts = (attempts acts).map rejection := by
  induction acts generalizing ch with
  | nil => rfl
  | cons a acts ih =>
    cases a with
    | close => exact ih rfl
    | call c reply =>
      rw [session, ih h, Channel.perform, if_pos h]
      rfl

/-- A session is the exchanges before its end and the rejections after it. -/
theorem session_eq (h : ch.closed = false) (acts : List Act) :
    session ch acts = (opening acts).map (exchange ch) ++ (ending acts).map rejection := by
  induction acts with
  | nil => rfl
  | cons a acts ih =>
    cases a with
    | close => exact session_of_closed rfl acts
    | call c reply =>
      rw [session, ih, Channel.perform, if_neg (by simp [h])]
      rfl

theorem exchanged_iff (x : Call × Option Reply) :
    Exchanged x (exchange ch x) ↔ (x.1.request ch).line = x.1.contract := by
  constructor
  · rintro ⟨request, answer, he, hline, -⟩
    cases he
    exact hline
  · intro h
    exact ⟨_, _, rfl, h, x.1.settled_settle x.2⟩

theorem obeys_session_iff (h : ch.closed = false) (acts : List Act) :
    Obeys acts (session ch acts) ↔ ∀ x ∈ opening acts, (x.1.request ch).line = x.1.contract := by
  have hexchanged : List.Forall₂ Exchanged (opening acts) ((opening acts).map (exchange ch)) ↔
      ∀ x ∈ opening acts, (x.1.request ch).line = x.1.contract := by
    rw [List.forall₂_map_right_iff, List.forall₂_same]
    simp only [exchanged_iff]
  have hrejected : List.Forall₂ Rejected (ending acts) ((ending acts).map rejection) := by
    rw [List.forall₂_map_right_iff, List.forall₂_same]
    exact fun x _ => rfl
  rw [session_eq h, ← hexchanged]
  constructor
  · rintro ⟨opened, shut, heq, hopened, -⟩
    have hlen : ((opening acts).map (exchange ch)).length = opened.length := by
      rw [List.length_map, hopened.length_eq]
    rwa [(List.append_inj heq hlen).1]
  · exact fun hopened => ⟨_, _, rfl, hopened, hrejected⟩

theorem of_connect (h : Channel.connect s n = .ok ch) (hp : n.tls.mode = .plain) :
    parseAddress s.toAscii? n.rpcAddress false = .ok ch.base ∧ ch.closed = false := by
  have hsecured : (n.tls.mode != .plain) = false := by rw [hp]; rfl
  rw [Channel.connect] at h
  simp only [hsecured] at h
  obtain ⟨base, hbase, h⟩ := exists_of_bind_eq_ok h
  obtain ⟨auth, -, h⟩ := exists_of_bind_eq_ok h
  cases h
  exact ⟨hbase, rfl⟩

/-- A session on a plain channel keeps to the contract, whatever the agent replies, exactly if
no call is made before its end on a base other than a bare host or with names that are not plain. -/
theorem obeys_iff (h : Channel.connect s n = .ok ch) (hp : n.tls.mode = .plain) (acts : List Act) :
    Obeys acts (session ch acts) ↔
      ∀ x ∈ opening acts, Rooted ch.base ∧ x.1.Within {name | Plain name} := by
  obtain ⟨hbase, hopen⟩ := of_connect h hp
  have hb : ch.base.Segmented := segmented_of_parse (of_parseAddress hbase).1
  rw [obeys_session_iff hopen]
  simp only [line_eq_contract_iff hb]

def localNode : Node where
  id := 1
  name := "local"
  endpoint := "127.0.0.1:51820"
  rpcAddress := "127.0.0.1:7443"
  maxPeers := 10

/-- A machine without files, on which no host is found. -/
def bareMachine : Surroundings where
  contents _ := .error "not found"
  resolve _ := .error "not found"
  toAscii? := .dotted

def slashedSession : List Act :=
  [.call (.create "wg0" "alice") (some ⟨201, []⟩), .call (.get "wg0" "ab/c+d=") (some ⟨404, []⟩),
    .call (.delete "wg0" "ab/c+d=") none, .close, .call (.list "wg0") none]

theorem obeys_slashedSession :
    Channel.connect bareMachine localNode = .ok ⟨1, loopback, none, false⟩ ∧
      localNode.tls.mode = .plain ∧
      Obeys slashedSession (session ⟨1, loopback, none, false⟩ slashedSession) := by
  refine ⟨rfl, rfl, (obeys_iff (s := bareMachine) (n := localNode) rfl rfl slashedSession).mpr ?_⟩
  have hnames : ∀ x ∈ opening slashedSession,
      Plain x.1.interface ∧ ∀ peerId ∈ x.1.peerId?, Plain peerId := by decide
  exact fun x hx => ⟨⟨.inl rfl, rfl⟩, within_plain_iff.mpr (hnames x hx)⟩

/-- A tab in the id of a peer is left out of the request for it. -/
theorem exists_not_obeys : ∃ (ch : Channel) (c : Call),
    Channel.connect bareMachine localNode = .ok ch ∧ localNode.tls.mode = .plain ∧
      c = .get "wg0" "a\tb" ∧ (c.request ch).url.target = "/v1/interfaces/wg0/peers/ab" ∧
      ¬ Obeys [.call c none] (session ch [.call c none]) := by
  refine ⟨⟨1, loopback, none, false⟩, _, rfl, rfl, rfl, by decide, ?_⟩
  rw [obeys_session_iff rfl]
  exact fun h => absurd (h _ List.mem_cons_self) (by decide)

end PeerFleet.Agent
