import PeerFleet.Agent.Peer
import PeerFleet.Proofs.Json.Fields
import PeerFleet.Subscription

/-! # Lossless records

Nodes, subscriptions and what agents tell of peers are read from their JSON text as what they
were. A field that is left out when it is absent is read as absent, and no value of a field is
written as null.
-/

namespace PeerFleet

open Json Record

theorem TlsSettings.restores : Restores toJson read? := by
  refine restores_of_fills fieldNames (fun _ => rfl)
    (fun _ => (Fills.single (.bool _)).append ((((Fills.optional .string).append
      (.optional .string)).append (.optional .string)).append (.optional .string)))
    (fun _ => rfl) (by decide) fun t hof => ?_
  rw [read?, hof]
  simp [optional_eq, defaulted, restores_bool.read?, given_map restores_text fun _ => rfl]

theorem Node.restores : Restores toJson read? := by
  refine restores_of_fills fieldNames (fun _ => rfl)
    (fun _ => ((Fills.all ?_).append (.optional .string)).append (.optional .string))
    (fun _ => rfl) (by decide) fun t hof => ?_
  · simp [restores_int64.sound, restores_uint32.sound, restores_texts.sound, Sound.string,
      Sound.bool, TlsSettings.restores.sound]
  · rw [read?, hof, Option.bind_eq_bind, Option.bind_some]
    simp only [required, optional_eq, defaulted, List.cons_append, List.nil_append, find?_cons,
      find?_append, find?_optional, String.reduceEq, ↓reduceIte, Option.none_or, Option.or_none]
    simp only [Option.bind_eq_bind, Option.bind_some, restores_bool.read?, restores_text.read?,
      restores_int64.read?, restores_uint32.read?, restores_texts.read?, TlsSettings.restores.read?,
      given_map restores_text fun _ => rfl]

theorem SubscriptionStatus.restores : Restores toJson read? where
  sound _ := .string _
  read? s := by cases s <;> decide

theorem Artifact.restores : Restores toJson read? := by
  refine restores_of_fills ["config", "qr_code", "client_ip"] (fun _ => rfl)
    (fun _ => Fills.all ?_) (fun _ => rfl) (by decide) fun a hof => ?_
  · simp [Sound.string]
  · rw [read?, hof]
    simp [required, restores_text.read?]

theorem Binding.restores : Restores toJson read? := by
  refine restores_of_fills ["node_id", "peer_id", "artifact"] (fun _ => rfl)
    (fun _ => Fills.all ?_) (fun _ => rfl) (by decide) fun b hof => ?_
  · simp [restores_int64.sound, Sound.string, Artifact.restores.sound]
  · rw [read?, hof]
    simp [required, restores_text.read?, restores_int64.read?, Artifact.restores.read?]

theorem Subscription.restores : Restores toJson read? := by
  refine restores_of_fills ["id", "user_id", "tariff", "status", "expires_at", "binding"]
    (fun _ => rfl) (fun _ => (Fills.all ?_).append (.optional Binding.restores.sound))
    (fun _ => rfl) (by decide) fun s hof => ?_
  · simp [restores_int64.sound, Sound.string, SubscriptionStatus.restores.sound,
      restores_instant.sound]
  · rw [read?, hof]
    simp [required, optional_eq, restores_text.read?, restores_int64.read?,
      SubscriptionStatus.restores.read?, restores_instant.read?,
      given_map Binding.restores fun _ => rfl]

theorem CreatedPeer.restores : Restores toJson read? := by
  refine restores_of_fills ["peer_id", "config", "qr_code", "client_ip"] (fun _ => rfl)
    (fun _ => Fills.all ?_) (fun _ => rfl) (by decide) fun p hof => ?_
  · simp [Sound.string]
  · rw [read?, hof]
    simp [required, defaulted, restores_text.read?]

theorem PeerInfo.restores : Restores toJson read? := by
  refine restores_of_fills
    ["peer_id", "name", "enabled", "allowed_ips", "latest_handshake", "rx_bytes", "tx_bytes"]
    (fun _ => rfl) (fun _ => (Fills.single (.string _)).append ((((Fills.optional .string).append
      (.all ?_)).append (.optional restores_instant.sound)).append (.all ?_)))
    (fun _ => rfl) (by decide) fun p hof => ?_
  · simp [Sound.bool, restores_texts.sound]
  · simp [restores_uint64.sound]
  · rw [read?, hof]
    simp [required, optional_eq, defaulted, restores_bool.read?, restores_text.read?,
      restores_texts.read?, restores_uint64.read?, given_map restores_text fun _ => rfl,
      given_map restores_instant fun _ => rfl]

/-- The text of a value is read as that value, and of what was read from any text the same is
read again. -/
structure Json.Lossless {α : Type} (write : α → Json) (read? : Json → Option α) : Prop where
  read_written (a : α) : (parse (write a).render).bind read? = some a
  read_again (text : String) (a : α) (h : (parse text).bind read? = some a) :
    (parse (write a).render).bind read? = some a

theorem Json.Restores.lossless {α : Type} {write : α → Json} {read? : Json → Option α}
    (h : Restores write read?) : Lossless write read? := by
  have hread (a : α) : (parse (write a).render).bind read? = some a := by
    rw [parse_render (h.sound a), Option.bind_some, h.read?]
  exact ⟨hread, fun _ a _ => hread a⟩

theorem lossless_records : Lossless Node.toJson Node.read? ∧
    Lossless Subscription.toJson Subscription.read? ∧
    Lossless CreatedPeer.toJson CreatedPeer.read? ∧ Lossless PeerInfo.toJson PeerInfo.read? :=
  ⟨Node.restores.lossless, Subscription.restores.lossless, CreatedPeer.restores.lossless,
    PeerInfo.restores.lossless⟩

end PeerFleet
