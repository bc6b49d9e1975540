import AddMessenger.RelayServer

/-!
# The blind tag of a recipient

A client computes the tag of a recipient from its own clock (`relay_routing_tag` of
`client/src/main.rs`), the relay compares it with the tag of its own epoch.
-/

namespace RecipientTags

open ByteStrings RelayMailbox RelayServer

/-- The client's tag; an empty secret counts as none. -/
def relayRoutingTag (cfg : RelayMailbox.Config) (secret : Option String) (recipientNid : String)
    (now : UInt64) : Option String :=
  (secret.filter fun s => !s.isEmpty).map fun s =>
    let epoch := now / 3600
    hexEncode (cfg.hmac (recipientNid ++ "|" ++ toString epoch) s)

variable (cfg : ServerConfig)

/-- What the client sends: nothing stands for no tag. -/
def clientTag (secret nid : String) (tc : UInt64) : String :=
  (relayRoutingTag cfg.mail (some secret) nid tc).getD ""

/-- The tag the relay expects. -/
def relayTag (secret nid : String) (tr : UInt64) : String :=
  computeHmac cfg.mail (nid ++ "|" ++ toString (routingEpoch tr)) secret

/-- The client's tag passes, and another one is refused without a panic. -/
def Agrees (secret nid : String) (tc tr : UInt64) (other : String) : Prop :=
  verifyRecipientTag cfg nid (routingEpoch tr) (clientTag cfg secret nid tc) = .ok () ∧
    (other ≠ "" → other ≠ clientTag cfg secret nid tc →
      ∃ text, verifyRecipientTag cfg nid (routingEpoch tr) other = .error (.error text))

variable {cfg} {secret nid : String} {tc tr : UInt64}

theorem clientTag_of_empty (empty : secret = "") : clientTag cfg secret nid tc = "" := by
  subst empty
  rfl

/-- The two computations are the same function of the epoch. -/
theorem clientTag_of_ne (nonempty : secret ≠ "") :
    clientTag cfg secret nid tc = relayTag cfg secret nid tc := by
  have kept : (some secret).filter (fun s => !s.isEmpty) = some secret := by
    simp [Option.filter, nonempty]
  rw [clientTag, relayRoutingTag, kept]
  rfl

theorem relayTag_ne_empty : relayTag cfg secret nid tr ≠ "" := by
  intro empty
  have long := hexEncode_toList_length
    (cfg.mail.hmac (nid ++ "|" ++ toString (routingEpoch tr)) secret).val
  rw [(cfg.mail.hmac (nid ++ "|" ++ toString (routingEpoch tr)) secret).property] at long
  rw [relayTag, computeHmac] at empty
  rw [empty] at long
  simp at long

variable (configured : cfg.mail.sharedSecret = some secret)
include configured

theorem verifyRecipientTag_eq (tag : String) :
    verifyRecipientTag cfg nid (routingEpoch tr) tag =
      if tag.isEmpty then .ok ()
      else if relayTag cfg secret nid tr ≠ tag then
        if cfg.warns && !isCharBoundary tag (min 8 (asBytes tag).length) then .error .panic
        else .error (.error "recipient_tag verification failed")
      else .ok () := by
  unfold verifyRecipientTag
  rw [configured]
  rfl

theorem verifyRecipientTag_ok_iff (tag : String) :
    verifyRecipientTag cfg nid (routingEpoch tr) tag = .ok () ↔
      tag = "" ∨ tag = relayTag cfg secret nid tr := by
  rw [verifyRecipientTag_eq configured]
  by_cases empty : tag = ""
  · simp [empty]
  · rw [if_neg (by simpa using empty)]
    by_cases same : relayTag cfg secret nid tr = tag
    · simp [same]
    · rw [if_pos same]
      have other : tag ≠ relayTag cfg secret nid tr := fun eq => same eq.symm
      split <;> simp [empty, other]

theorem verifyRecipientTag_error_iff {tag : String} (nonempty : tag ≠ "")
    (other : tag ≠ relayTag cfg secret nid tr) :
    (∃ text, verifyRecipientTag cfg nid (routingEpoch tr) tag = .error (.error text)) ↔
      cfg.warns = false ∨ isCharBoundary tag (min 8 (asBytes tag).length) = true := by
  rw [verifyRecipientTag_eq configured, if_neg (by simpa using nonempty),
    if_pos (Ne.symm other)]
  cases cfg.warns <;> cases isCharBoundary tag (min 8 (asBytes tag).length) <;> simp

/-- Client and relay agree exactly if the tags of their two epochs do, and a refused
tag can be cut after its first eight bytes for the warning. -/
theorem tags_agree_iff (nid : String) (tc tr : UInt64) (other : String) :
    Agrees cfg secret nid tc tr other ↔
      (secret = "" ∨ relayTag cfg secret nid tc = relayTag cfg secret nid tr) ∧
      (other ≠ "" → other ≠ clientTag cfg secret nid tc →
        other ≠ relayTag cfg secret nid tr ∧
          (cfg.warns = false ∨ isCharBoundary other (min 8 (asBytes other).length) = true)) := by
  refine and_congr ?_ (imp_congr_right fun nonempty => imp_congr_right fun _ => ?_)
  · rw [verifyRecipientTag_ok_iff configured]
    by_cases empty : secret = ""
    · simp [empty, clientTag_of_empty]
    · rw [clientTag_of_ne empty]
      simp [empty, relayTag_ne_empty]
  · constructor
    · rintro ⟨text, refused⟩
      have different : other ≠ relayTag cfg secret nid tr := by
        intro same
        have passes := (verifyRecipientTag_ok_iff configured other).mpr (Or.inr same)
        rw [passes] at refused
        exact nomatch refused
      exact ⟨different,
        (verifyRecipientTag_error_iff configured nonempty different).mp ⟨text, refused⟩⟩
    · rintro ⟨different, cut⟩
      exact (verifyRecipientTag_error_iff configured nonempty different).mpr cut

omit configured

/-- Within an hour the client's tag passes, and an ASCII text is refused. -/
theorem tags_agree_iff_sameHour :
    Agrees (smallConfig (some "secret")) "secret" "NN-R" 3600 3900 "0123456789" := by
  refine (tags_agree_iff rfl "NN-R" 3600 3900 "0123456789").mpr
    ⟨Or.inr (by decide +kernel), fun _ _ => ⟨by decide +kernel, Or.inr (by decide +kernel)⟩⟩

/-- One second over the hour the client's tag is refused, and a tag with a two-byte
character across its eighth byte stops the handler with a panic. -/
theorem tags_disagree_across_the_hour :
    ¬ Agrees (smallConfig (some "secret")) "secret" "NN-R" 3599 3600 "0123456789" ∧
      ¬ Agrees (smallConfig (some "secret")) "secret" "NN-R" 3600 3900 "0123456é" := by
  constructor
  · rintro ⟨passes, -⟩
    revert passes
    rw [verifyRecipientTag_ok_iff rfl]
    decide +kernel
  · rintro ⟨-, refused⟩
    have boundary := (verifyRecipientTag_error_iff rfl (by decide) (by decide +kernel)).mp
      (refused (by decide) (by decide +kernel))
    revert boundary
    decide +kernel

end RecipientTags
