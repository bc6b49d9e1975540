import AddMessenger.JsonText

/-!
# What the signature of an envelope is made over

`signing_context` and `signing_data` in `protocol/src/envelope.rs`: five texts with bars between
them, of which the payload and the message id may have bars of their own. The text of a value
and the text of a time are parameters.
-/

namespace EnvelopeSigning

open ByteStrings Delimited JsonText Protocol Tables

/-- An envelope with all that is signed. -/
structure SignedEnvelope (Time : Type) extends WireEnvelope where
  msgId : String
  ts : Time

/-- The types with a context of their own. -/
def signingContexts : List (String × String) := [
  ("dht-put", "add-dht-put-v1"),
  ("dht-get", "add-dht-get-v1"),
  ("dht-found", "add-dht-found-v1"),
  ("dht-error", "add-dht-error-v1"),
  ("dht-addr-record", "add-dht-addr-record-v1"),
  ("p2p-hello", "add-p2p-hello-v1"),
  ("p2p-hello-ack", "add-p2p-hello-ack-v1"),
  ("relay-store", "add-relay-store-v1"),
  ("relay-fetch", "add-relay-fetch-v1"),
  ("relay-ack", "add-relay-ack-v1"),
  ("relay-delete", "add-relay-delete-v1"),
  ("relay-purge", "add-relay-purge-v1"),
  ("relay-read-receipt", "add-relay-read-receipt-v1"),
  ("route-advertise", "add-fed-route-advertise-v1"),
  ("peer-auth", "add-fed-peer-auth-v1"),
  ("peer-auth-reply", "add-fed-peer-auth-reply-v1"),
  ("relay-forward", "add-fed-relay-forward-v1"),
  ("relay-forward-ack", "add-fed-relay-forward-ack-v1")]

def signingContext (msgType : String) : String :=
  (signingContexts.lookup msgType).getD "add-unknown-v1"

variable {Time : Type} (displayValue : Json → String) (displayTime : Time → String)

def SignedEnvelope.signingData (env : SignedEnvelope Time) : String :=
  signingContext env.msgType ++ "|" ++ env.msgType ++ "|" ++ displayValue env.payload ++ "|" ++
    env.msgId ++ "|" ++ displayTime env.ts

/-- The text of a value ends where it does, if a bar comes behind it. -/
def SelfDelimiting : Prop :=
  ∀ v w a b, (displayValue v).toList ++ '|' :: a = (displayValue w).toList ++ '|' :: b →
    displayValue v = displayValue w

structure DisplayLaws : Prop where
  value_injective : Function.Injective displayValue
  value_delimited : SelfDelimiting displayValue
  time_injective : Function.Injective displayTime
  time_plain : ∀ ts, '|' ∉ (displayTime ts).toList

/-- A type from the list, or one without a bar. -/
def PlainType (msgType : String) : Prop :=
  msgType ∈ signingContexts.map Prod.fst ∨ '|' ∉ msgType.toList

/-- All that is signed is the same. -/
def SameSigned (e₁ e₂ : SignedEnvelope Time) : Prop :=
  e₁.msgType = e₂.msgType ∧ e₁.payload = e₂.payload ∧ e₁.msgId = e₂.msgId ∧ e₁.ts = e₂.ts

theorem contexts_plain :
    ∀ entry ∈ signingContexts, '|' ∉ entry.1.toList ∧ '|' ∉ entry.2.toList := by
  decide +kernel

theorem signingContext_plain (msgType : String) : '|' ∉ (signingContext msgType).toList := by
  unfold signingContext
  cases found : signingContexts.lookup msgType with
  | none => decide +kernel
  | some context =>
    exact (contexts_plain _ (mem_of_lookup found)).2

theorem PlainType.no_bar {msgType : String} (plain : PlainType msgType) :
    '|' ∉ msgType.toList := by
  rcases plain with listed | plain
  · obtain ⟨entry, member, rfl⟩ := List.mem_map.mp listed
    exact (contexts_plain entry member).1
  · exact plain

variable {displayValue displayTime}

theorem signingData_toList (env : SignedEnvelope Time) :
    (env.signingData displayValue displayTime).toList =
      (signingContext env.msgType).toList ++ '|' :: (env.msgType.toList ++ '|' ::
        ((displayValue env.payload).toList ++ '|' ::
          (env.msgId.toList ++ '|' :: (displayTime env.ts).toList))) := by
  simp [SignedEnvelope.signingData, String.toList_append]

/-- What is signed determines the envelope but for its signature: context and type end at the
first bars, the payload where its text does, and the time begins behind the last bar. -/
theorem signing_data_unambiguous (laws : DisplayLaws displayValue displayTime)
    (e₁ e₂ : SignedEnvelope Time) (plain₁ : PlainType e₁.msgType) (plain₂ : PlainType e₂.msgType)
    (same : e₁.signingData displayValue displayTime = e₂.signingData displayValue displayTime) :
    SameSigned e₁ e₂ := by
  have texts := congrArg String.toList same
  rw [signingData_toList, signingData_toList] at texts
  obtain ⟨-, afterContext⟩ := separator_append_inj (signingContext_plain _)
    (signingContext_plain _) texts
  obtain ⟨types, afterType⟩ := separator_append_inj plain₁.no_bar plain₂.no_bar afterContext
  have values := laws.value_delimited _ _ _ _ afterType
  rw [values] at afterType
  have afterValue := (List.cons.inj (List.append_cancel_left afterType)).2
  obtain ⟨ids, times⟩ := append_separator_inj (laws.time_plain e₁.ts) (laws.time_plain e₂.ts)
    afterValue
  exact ⟨String.toList_inj.mp types, laws.value_injective values, String.toList_inj.mp ids,
    laws.time_injective (String.toList_inj.mp times)⟩

def compact (numberText : Number → List Char) (v : Json) : String :=
  String.ofList (textOf numberText v)

/-- The compact text has what is asked of it, whatever stands for the numbers. -/
theorem compact_delimited {numberText : Number → List Char} (laws : NumberTexts numberText) :
    Function.Injective (compact numberText) ∧ SelfDelimiting (compact numberText) := by
  have bar : ∀ a, Follows ('|' :: a) := fun a => startsWith_cons.mpr rfl
  constructor
  · intro v w same
    exact (textOf_delimits laws).injective (bar []) (String.ofList_injective same)
  · intro v w a b same
    unfold compact at same
    rw [String.toList_ofList, String.toList_ofList] at same
    rw [(textOf_delimits laws v w _ _ (bar a) (bar b) same).1]

/-- Compact values and decimal times. -/
theorem decimal_display_laws : DisplayLaws (compact decimalText) (fun ts : Nat => toString ts) where
  value_injective := (compact_delimited decimalText_laws).1
  value_delimited := (compact_delimited decimalText_laws).2
  time_injective := fun _ _ same => Nat.repr_injective same
  time_plain := fun _ member => absurd (isDigit_of_mem_toString member) (by decide)

def ackWith (sig : String) : SignedEnvelope Nat where
  msgType := "relay-ack"
  payload := .object [("id", .string "a|b")]
  sig
  msgId := "m|7"
  ts := 12

/-- Two envelopes that differ in their signature only, with bars in a value and in the id. -/
theorem signing_data_unambiguous_bars : SameSigned (ackWith "s") (ackWith "t") :=
  signing_data_unambiguous decimal_display_laws (ackWith "s") (ackWith "t")
    (.inl (by decide)) (.inl (by decide)) rfl

end EnvelopeSigning
