import PeerFleet.Messaging.Telegram
import PeerFleet.Proofs.Json.Fields
import PeerFleet.Proofs.Text.Split

/-! # Replies of the bot interface

What comes of a message for every status and every body. The status and the envelope may
disagree in any way: a message counts as sent only if both accept it, and a refusal keeps its
status whatever the body is. A refused edit is done all the same if it would change nothing.
-/

namespace PeerFleet

namespace Record

variable {α : Type} {Means : Json → α → Prop} {read : Json → Option α}

/-- An optional field is left out or null, or has a value that means something. -/
inductive Holds (Means : Json → α → Prop) : Option Json → Option α → Prop
  | missing : Holds Means none none
  | null : Holds Means (some .null) none
  | value {j : Json} {a : α} (hj : j ≠ .null) (h : Means j a) : Holds Means (some j) (some a)

theorem isNull_iff {j : Json} : j.isNull = true ↔ j = .null := by
  cases j <;> simp [Json.isNull]

theorem optional_eq_some_iff (hread : ∀ j a, read j = some a ↔ Means j a) {r : Record Json}
    {name : String} {v : Option α} :
    r.optional name read = some v ↔ Holds Means (r.find? name) v := by
  rw [optional_eq]
  cases r.find? name with
  | none =>
    constructor
    · rintro ⟨⟩
      exact .missing
    · rintro ⟨⟩
      rfl
  | some j =>
    by_cases hj : j = .null
    · subst hj
      constructor
      · rintro ⟨⟩
        exact .null
      · rintro (_ | _ | ⟨hne, -⟩)
        · rfl
        · exact absurd rfl hne
    · have hn : j.isNull = false := eq_false_of_ne_true (isNull_iff.not.mpr hj)
      simp only [given, hn, Bool.false_eq_true, if_false, Option.map_eq_some_iff, hread]
      constructor
      · rintro ⟨a, ha, rfl⟩
        exact .value hj ha
      · rintro (_ | _ | ⟨-, ha⟩)
        · exact absurd rfl hj
        · exact ⟨_, ha, rfl⟩

end Record

namespace Telegram

open Record (Holds)

variable {α : Type} {Means : Json → α → Prop} {result? : Json → Option α} {status : UInt16}
  {body : String} {e e' : Envelope α}

def Succeeds (status : UInt16) : Prop :=
  200 ≤ status ∧ status < 300

instance : Decidable (Succeeds status) :=
  inferInstanceAs (Decidable (200 ≤ status ∧ status < 300))

/-- The fields of an envelope: whether the request was accepted, a result and a description.
A record that is a list must not leave out the result. -/
structure Envelope.Reads (Means : Json → α → Prop) (r : Record Json) (e : Envelope α) : Prop where
  ok : r.find? "ok" = some (.bool e.ok)
  result : Holds Means (r.find? "result") e.result
  description : Holds (fun j t => j = .string t) (r.find? "description") e.description
  listed : ∀ items, r.fields = .listed items → r.find? "result" ≠ none

def IsEnvelope (Means : Json → α → Prop) (body : String) (e : Envelope α) : Prop :=
  ∃ j r, Json.parse body = some j ∧ Record.of? ["ok", "result", "description"] j = some r ∧
    e.Reads Means r

/-- A result that tells the id of a message that was sent. -/
def Sent (j : Json) (id : MessageId) : Prop :=
  ∃ r, Record.of? ["message_id"] j = some r ∧ r.find? "message_id" = some (Json.ofInt64 id)

/-- A result that can be kept, whatever it is. -/
def Kept (j v : Json) : Prop :=
  v = j ∧ isWhole maxDepth j = true

/-- What is reported of a refusal: what the envelope says, or how the body begins. -/
inductive Reports (Means : Json → α → Prop) (body : String) : String → Prop
  | described {e : Envelope α} (he : IsEnvelope Means body e) :
      Reports Means body (e.description.getD "Unknown error")
  | excerpt {text : String} (hn : ∀ e, ¬ IsEnvelope Means body e)
      (ht : text.toList = body.toList.take 200) : Reports Means body text

theorem text_eq_some_iff {j : Json} {t : String} : Read.text j = some t ↔ j = .string t := by
  cases j <;> simp [Read.text, Notation.text?, Json.text?]

theorem bool_eq_some_iff {j : Json} {b : Bool} : Read.bool j = some b ↔ j = .bool b := by
  cases j <;> simp [Read.bool, Notation.bool?, Json.bool?]

theorem int64_eq_some_iff {j : Json} {n : Int64} :
    Read.int64 j = some n ↔ j = Json.ofInt64 n := by
  constructor
  · intro h
    obtain ⟨k, hk, hn⟩ := Option.bind_eq_some_iff.mp h
    split_ifs at hn with hr
    obtain rfl := Option.some.inj hn
    have hj : j = .integer k := by
      cases j <;> simp_all [Notation.signed?, Json.integer?]
    rw [hj, Json.ofInt64, Int64.toInt_ofInt_of_le hr.1 (Int.lt_add_one_of_le hr.2)]
  · rintro rfl
    exact Json.restores_int64.read? n

theorem sentId?_eq_some_iff (j : Json) (id : MessageId) : sentId? j = some id ↔ Sent j id := by
  simp only [sentId?, Sent, Record.required, Option.bind_eq_bind, Option.bind_eq_some_iff,
    int64_eq_some_iff, exists_eq_right]

theorem whole?_eq_some_iff (j v : Json) : whole? j = some v ↔ Kept j v := by
  simp only [whole?, Kept, Option.ite_none_right_eq_some, Option.some.injEq]
  rw [and_comm, eq_comm]

theorem nullable_eq_some_iff (hread : ∀ j a, result? j = some a ↔ Means j a) {r : Record Json}
    {name : String} {v : Option α} : r.nullable name result? = some v ↔
      Holds Means (r.find? name) v ∧ ∀ items, r.fields = .listed items → r.find? name ≠ none := by
  rw [← Record.optional_eq_some_iff hread]
  unfold Record.nullable
  split
  next items hf hn => simp [hf, hn]
  next h =>
    refine (and_iff_left ?_).symm
    intro items hf hn
    exact h items hf hn

theorem Envelope.read?_eq_some_iff (hread : ∀ j a, result? j = some a ↔ Means j a) {j : Json} :
    Envelope.read? result? j = some e ↔
      ∃ r, Record.of? ["ok", "result", "description"] j = some r ∧ e.Reads Means r := by
  simp only [Envelope.read?, Record.required, Option.bind_eq_bind, Option.bind_eq_some_iff,
    bool_eq_some_iff, exists_eq_right, nullable_eq_some_iff hread,
    Record.optional_eq_some_iff fun _ _ => text_eq_some_iff, Option.some.injEq]
  constructor
  · rintro ⟨r, hr, ok, hok, result, ⟨hres, hl⟩, description, hd, rfl⟩
    exact ⟨r, hr, hok, hres, hd, hl⟩
  · rintro ⟨r, hr, hok, hres, hd, hl⟩
    exact ⟨r, hr, e.ok, hok, e.result, ⟨hres, hl⟩, e.description, hd, rfl⟩

theorem envelope?_eq_some_iff (hread : ∀ j a, result? j = some a ↔ Means j a) :
    envelope? result? body = some e ↔ IsEnvelope Means body e := by
  simp only [envelope?, IsEnvelope, Option.bind_eq_bind, Option.bind_eq_some_iff,
    Envelope.read?_eq_some_iff hread, exists_and_left]

theorem IsEnvelope.unique (hread : ∀ j a, result? j = some a ↔ Means j a)
    (h : IsEnvelope Means body e) (h' : IsEnvelope Means body e') : e = e' :=
  Option.some.inj <|
    ((envelope?_eq_some_iff hread).mpr h).symm.trans ((envelope?_eq_some_iff hread).mpr h')

theorem accept_of_isEnvelope (hread : ∀ j a, result? j = some a ↔ Means j a)
    (he : IsEnvelope Means body e) : accept result? status body =
      if Succeeds status ∧ e.ok = true then .ok e
      else .error (.api status (e.description.getD "Unknown error")) := by
  rw [accept, (envelope?_eq_some_iff hread).mpr he]
  rfl

theorem accept_of_not_isEnvelope (hread : ∀ j a, result? j = some a ↔ Means j a)
    (hn : ∀ e, ¬ IsEnvelope Means body e) : accept result? status body =
      if Succeeds status then .error (.unreadable "unexpected reply")
      else .error (.api status (excerpt body)) := by
  have hnone : envelope? result? body = none := by
    apply Option.eq_none_iff_forall_ne_some.mpr
    intro e he
    exact hn e ((envelope?_eq_some_iff hread).mp he)
  rw [accept, hnone]
  rfl

theorem accept_cases (hread : ∀ j a, result? j = some a ↔ Means j a) (status : UInt16)
    (body : String) :
    (∃ e, IsEnvelope Means body e ∧ accept result? status body =
      if Succeeds status ∧ e.ok = true then .ok e
      else .error (.api status (e.description.getD "Unknown error"))) ∨
    ((∀ e, ¬ IsEnvelope Means body e) ∧ accept result? status body =
      if Succeeds status then .error (.unreadable "unexpected reply")
      else .error (.api status (excerpt body))) := by
  by_cases h : ∃ e, IsEnvelope Means body e
  · obtain ⟨e, he⟩ := h
    exact .inl ⟨e, he, accept_of_isEnvelope hread he⟩
  · have hn := not_exists.mp h
    exact .inr ⟨hn, accept_of_not_isEnvelope hread hn⟩

/-- Outside the successes every reply is refused with its status and what it reports. -/
theorem accept_of_not_succeeds (hread : ∀ j a, result? j = some a ↔ Means j a) (body : String)
    (hs : ¬ Succeeds status) :
    ∃ text, Reports Means body text ∧ accept result? status body = .error (.api status text) := by
  obtain ⟨e, he, h⟩ | ⟨hn, h⟩ := accept_cases hread status body
  · exact ⟨_, .described he, h.trans (if_neg fun hsucc => hs hsucc.1)⟩
  · exact ⟨_, .excerpt hn (by simp [excerpt]), h.trans (if_neg hs)⟩

theorem Reports.unique (hread : ∀ j a, result? j = some a ↔ Means j a) {text text' : String}
    (h : Reports Means body text) (h' : Reports Means body text') : text = text' := by
  cases h with
  | described he =>
    cases h' with
    | described he' => rw [he.unique hread he']
    | excerpt hn' => exact absurd he (hn' _)
  | excerpt hn ht =>
    cases h' with
    | described he' => exact absurd he' (hn _)
    | excerpt _ ht' => exact String.toList_inj.mp (ht.trans ht'.symm)

theorem accept_eq_ok_iff (hread : ∀ j a, result? j = some a ↔ Means j a) :
    accept result? status body = .ok e ↔
      Succeeds status ∧ IsEnvelope Means body e ∧ e.ok = true := by
  constructor
  · intro h
    obtain ⟨e', he, h'⟩ | ⟨-, h'⟩ := accept_cases hread status body
    · rw [h'] at h
      split_ifs at h with hs
      cases h
      exact ⟨hs.1, he, hs.2⟩
    · rw [h'] at h
      split_ifs at h
  · rintro ⟨hs, he, hok⟩
    rw [accept_of_isEnvelope hread he, if_pos ⟨hs, hok⟩]

theorem accept_eq_api_iff (hread : ∀ j a, result? j = some a ↔ Means j a) {code : UInt16}
    {text : String} (hc : ¬ Succeeds code) :
    accept result? status body = .error (.api code text) ↔
      status = code ∧ Reports Means body text := by
  constructor
  · intro h
    have hcode : status = code := by
      obtain ⟨e, -, h'⟩ | ⟨-, h'⟩ := accept_cases hread status body <;>
        · rw [h'] at h
          split_ifs at h <;> cases h
          rfl
    subst hcode
    obtain ⟨text', ht', h'⟩ := accept_of_not_succeeds hread body hc
    cases h.symm.trans h'
    exact ⟨rfl, ht'⟩
  · rintro ⟨rfl, ht⟩
    obtain ⟨text', ht', h'⟩ := accept_of_not_succeeds hread body hc
    rw [h', ht.unique hread ht']

theorem accept_eq_unreadable_iff (hread : ∀ j a, result? j = some a ↔ Means j a) :
    (∃ cause, accept result? status body = .error (.unreadable cause)) ↔
      Succeeds status ∧ ∀ e, ¬ IsEnvelope Means body e := by
  constructor
  · rintro ⟨cause, h⟩
    obtain ⟨e, -, h'⟩ | ⟨hn, h'⟩ := accept_cases hread status body
    · rw [h'] at h
      split_ifs at h
      cases h
    · rw [h'] at h
      split_ifs at h with hs
      · exact ⟨hs, hn⟩
      · cases h
  · rintro ⟨hs, hn⟩
    exact ⟨_, by rw [accept_of_not_isEnvelope hread hn, if_pos hs]⟩

theorem settleSend_eq_ok_iff {id : MessageId} : settleSend status body = .ok id ↔
    Succeeds status ∧ ∃ e, IsEnvelope Sent body e ∧ e.ok = true ∧ e.result = some id := by
  have haccept : settleSend status body = .ok id ↔
      ∃ e, accept sentId? status body = .ok e ∧ e.result = some id := by
    unfold settleSend
    cases accept sentId? status body with
    | error err => simp [bind, Except.bind]
    | ok e => cases h : e.result <;> simp [bind, Except.bind, pure, Except.pure, throw, throwThe,
        MonadExceptOf.throw, h]
  simp only [haccept, accept_eq_ok_iff sentId?_eq_some_iff, and_assoc, exists_and_left]

theorem settleSend_of_error {err : MessagingError} (h : accept sentId? status body = .error err) :
    settleSend status body = .error err := by
  rw [settleSend, h]
  rfl

theorem settleSend_eq_unreadable_iff :
    (∃ cause, settleSend status body = .error (.unreadable cause)) ↔
      Succeeds status ∧ ((∀ e, ¬ IsEnvelope Sent body e) ∨
        ∃ e, IsEnvelope Sent body e ∧ e.ok = true ∧ e.result = none) := by
  have haccept : (∃ cause, settleSend status body = .error (.unreadable cause)) ↔
      (∃ cause, accept sentId? status body = .error (.unreadable cause)) ∨
        ∃ e, accept sentId? status body = .ok e ∧ e.result = none := by
    unfold settleSend
    cases accept sentId? status body with
    | error err => simp [bind, Except.bind]
    | ok e => cases h : e.result <;> simp [bind, Except.bind, pure, Except.pure, throw, throwThe,
        MonadExceptOf.throw, h]
  simp only [haccept, accept_eq_unreadable_iff sentId?_eq_some_iff,
    accept_eq_ok_iff sentId?_eq_some_iff, and_assoc, exists_and_left, and_or_left]

theorem isUnchanged_iff {err : MessagingError} : isUnchanged err = true ↔
    ∃ text, err = .api 400 text ∧ "message is not modified".toList <:+: text.toList := by
  unfold isUnchanged
  split
  next text => simp [Text.occurs_iff]
  next h =>
    constructor
    · simp
    · rintro ⟨text, rfl, -⟩
      exact absurd rfl (h text)

theorem settleEdit_of_error {err : MessagingError} (h : accept whole? status body = .error err) :
    settleEdit status body = if isUnchanged err then .ok () else .error err := by
  rw [settleEdit, h]

theorem settleEdit_eq_ok_iff : settleEdit status body = .ok () ↔
    (Succeeds status ∧ ∃ e, IsEnvelope Kept body e ∧ e.ok = true) ∨
      (status = 400 ∧ ∃ text, Reports Kept body text ∧
        "message is not modified".toList <:+: text.toList) := by
  have haccept : settleEdit status body = .ok () ↔ (∃ e, accept whole? status body = .ok e) ∨
      ∃ text, accept whole? status body = .error (.api 400 text) ∧
        "message is not modified".toList <:+: text.toList := by
    unfold settleEdit
    cases accept whole? status body with
    | ok e => simp
    | error err =>
      have hun : isUnchanged err = true ↔ _ := isUnchanged_iff
      cases hb : isUnchanged err <;> simp_all
  have hc : ¬ Succeeds 400 := by decide
  simp only [haccept, accept_eq_ok_iff whole?_eq_some_iff, accept_eq_api_iff whole?_eq_some_iff hc,
    and_assoc, exists_and_left]

theorem settleEdit_eq_unreadable_iff :
    (∃ cause, settleEdit status body = .error (.unreadable cause)) ↔
      Succeeds status ∧ ∀ e, ¬ IsEnvelope Kept body e := by
  have haccept : ∀ cause, settleEdit status body = .error (.unreadable cause) ↔
      accept whole? status body = .error (.unreadable cause) := by
    intro cause
    unfold settleEdit
    cases accept whole? status body with
    | ok e => simp
    | error err =>
      cases hb : isUnchanged err with
      | false => simp [hb]
      | true =>
        obtain ⟨text, rfl, -⟩ := isUnchanged_iff.mp hb
        simp [hb]
  simp only [haccept, accept_eq_unreadable_iff whole?_eq_some_iff]

/-- A reply is classified by its status and its envelope. A message is sent with an id if and only
if the status is a success and the envelope accepts it and tells the id. An edit is done if and only
if the status is a success and the envelope accepts it, or the reply is a 400 that reports that
nothing is modified. Without a success no message is sent, and whatever is not done is an error with
that status and with what the reply reports. A reply is unreadable only with a success: if it is no
envelope or, of a message, if the envelope accepts it and has no result. -/
theorem replies_classified (status : UInt16) (body : String) :
    (∀ id, settleSend status body = .ok id ↔
      Succeeds status ∧ ∃ e, IsEnvelope Sent body e ∧ e.ok = true ∧ e.result = some id) ∧
    (settleEdit status body = .ok () ↔
      (Succeeds status ∧ ∃ e, IsEnvelope Kept body e ∧ e.ok = true) ∨
        (status = 400 ∧ ∃ text, Reports Kept body text ∧
          "message is not modified".toList <:+: text.toList)) ∧
    (¬ Succeeds status →
      (∃ text, Reports Sent body text ∧ settleSend status body = .error (.api status text)) ∧
      (settleEdit status body ≠ .ok () →
        ∃ text, Reports Kept body text ∧ settleEdit status body = .error (.api status text))) ∧
    ((∃ cause, settleSend status body = .error (.unreadable cause)) ↔
      Succeeds status ∧ ((∀ e, ¬ IsEnvelope Sent body e) ∨
        ∃ e, IsEnvelope Sent body e ∧ e.ok = true ∧ e.result = none)) ∧
    ((∃ cause, settleEdit status body = .error (.unreadable cause)) ↔
      Succeeds status ∧ ∀ e, ¬ IsEnvelope Kept body e) := by
  refine ⟨fun _ => settleSend_eq_ok_iff, settleEdit_eq_ok_iff, ?_, settleSend_eq_unreadable_iff,
    settleEdit_eq_unreadable_iff⟩
  intro hs
  constructor
  · obtain ⟨text, ht, h⟩ := accept_of_not_succeeds sentId?_eq_some_iff body hs
    exact ⟨text, ht, settleSend_of_error h⟩
  · intro hne
    obtain ⟨text, ht, h⟩ := accept_of_not_succeeds whole?_eq_some_iff body hs
    rw [settleEdit_of_error h] at hne ⊢
    split_ifs at hne ⊢ with hun
    · exact absurd rfl hne
    · exact ⟨text, ht, rfl⟩

theorem replies_classified_proxy_page :
    (∃ text, Reports Sent "<h1>Bad Gateway</h1>" text ∧
      settleSend 502 "<h1>Bad Gateway</h1>" = .error (.api 502 text)) ∧
    ∃ text, Reports Kept "<h1>Bad Gateway</h1>" text ∧
      settleEdit 502 "<h1>Bad Gateway</h1>" = .error (.api 502 text) := by
  obtain ⟨-, -, h, -⟩ := replies_classified 502 "<h1>Bad Gateway</h1>"
  obtain ⟨hsend, hedit⟩ := h (by decide)
  exact ⟨hsend, hedit (by decide)⟩

end Telegram

end PeerFleet
