import AddMessenger.ByteStrings

/-!
# The wire protocol

`protocol/src`: JSON values, the envelope a frame is wrapped in, the limits of the
DHT and the Argon2id proof of work. Reading and writing JSON text is a parameter.
Only the fields of an envelope that a handler reads are kept.
-/

namespace Protocol

open ByteStrings

/-- A number of `serde_json`. A float is kept as its 64 bits. -/
inductive Number where
  | posInt (n : UInt64)
  | negInt (n : Int64)
  | float (bits : UInt64)
  deriving DecidableEq

/-- `serde_json::Value`. -/
inductive Json where
  | null
  | bool (b : Bool)
  | number (n : Number)
  | string (text : String)
  | array (items : List Json)
  | object (fields : List (String × Json))

namespace Json

/-- `Value::get` of a field name; also `as_object()?.get`. -/
def get (key : String) : Json → Option Json
  | object fields => fields.lookup key
  | _ => none

def asStr : Json → Option String
  | string text => some text
  | _ => none

def asBool : Json → Option Bool
  | bool b => some b
  | _ => none

def asU64 : Json → Option UInt64
  | number (.posInt n) => some n
  | _ => none

def asArray : Json → Option (List Json)
  | array items => some items
  | _ => none

def asI64 : Json → Option Int64
  | number (.posInt n) => if n.toNat < 2 ^ 63 then some (Int64.ofNat n.toNat) else none
  | number (.negInt n) => some n
  | _ => none

end Json

/-- The two directions of `serde_json`: `Display` of a value and `from_str`. -/
structure SerdeJson where
  display : Json → String
  fromStr : String → Except String Json

structure WireEnvelope where
  msgType : String
  payload : Json
  sig : String

namespace WireEnvelope

def payloadField (env : WireEnvelope) (key : String) : Option Json := env.payload.get key

def payloadStr (env : WireEnvelope) (key : String) : Option String :=
  (env.payloadField key).bind Json.asStr

def payloadI64 (env : WireEnvelope) (key : String) : Option Int64 :=
  (env.payloadField key).bind Json.asI64

end WireEnvelope

/-- One day. -/
def storeTtl : Int64 := 86400

/-- Seven days. -/
def maxTtl : Int64 := 604800

def maxKeySize : Nat := 256

def maxValueSize : Nat := 16384

def maxTotalKeys : Int64 := 1000000

def dhtPowDifficulty : Nat := 16

def minPowDifficulty : Nat := 8

def addrPowDifficulty : Nat := 8

def powSalt : String := "add-dht-pow"

inductive PowError where
  | argon2Params (text : String)
  | argon2Hash (text : String)
  | difficultyTooHigh
  | timeout
  | difficultyTooLow (got least : Nat)
  deriving DecidableEq

/-- Argon2id with the parameters of the DHT: a secret and a salt to 32 bytes. -/
abbrev Argon2id := Bytes → Bytes → Except String {b : Bytes // b.length = 32}

/-- The inner loop: a byte is shifted left until its top bit is set. -/
def shiftsToTop : Nat → UInt8 → Nat
  | 0, _ => 0
  | fuel + 1, b => if 0 < b ∧ b &&& 0x80 = 0 then 1 + shiftsToTop fuel (b <<< 1) else 0

def leadingZeroBits : Bytes → Nat
  | [] => 0
  | byte :: rest => if byte = 0 then 8 + leadingZeroBits rest else shiftsToTop 8 byte

def nodePowSalt (nodeSecret : Bytes) : Bytes := asBytes powSalt ++ nodeSecret

def powCheck (argon2id : Argon2id) (data : String) (nonce : UInt64) (difficulty : Nat)
    (nodeSecret : Bytes) : Except PowError Bool :=
  if difficulty < minPowDifficulty then .error (.difficultyTooLow difficulty minPowDifficulty)
  else
    match argon2id (asBytes s!"{data}:{nonce}") (nodePowSalt nodeSecret) with
    | .error text => .error (.argon2Hash text)
    | .ok raw => .ok (decide (difficulty ≤ leadingZeroBits raw.val))

mutual

def compact : Json → String
  | .null => "null"
  | .bool b => toString b
  | .number (.posInt n) => toString n
  | .number (.negInt n) => toString n
  | .number (.float bits) => toString bits ++ "e0"
  | .string text => "\"" ++ text ++ "\""
  | .array items => "[" ++ ",".intercalate (compactItems items) ++ "]"
  | .object fields => "\x7b" ++ ",".intercalate (compactFields fields) ++ "\x7d"
termination_by structural j => j

def compactItems : List Json → List String
  | [] => []
  | item :: rest => compact item :: compactItems rest
termination_by structural l => l

def compactFields : List (String × Json) → List String
  | [] => []
  | field :: rest => compactField field :: compactFields rest
termination_by structural l => l

def compactField : String × Json → String
  | (name, value) => "\"" ++ name ++ "\":" ++ compact value
termination_by structural p => p

end

/-- The texts of the given values are read back; strings need no escapes in them. -/
def knownJson (known : List Json) : SerdeJson where
  display := compact
  fromStr text :=
    match known.find? fun value => compact value == text with
    | some value => .ok value
    | none => .error "EOF while parsing a value"

theorem knownJson_fromStr (value : Json) (rest : List Json) :
    (knownJson (value :: rest)).fromStr (compact value) = .ok value := by
  simp [knownJson]

theorem knownJson_fromStr_second {first : Json} (value : Json) (rest : List Json)
    (differ : compact first ≠ compact value) :
    (knownJson (first :: value :: rest)).fromStr (compact value) = .ok value := by
  simp [knownJson, differ]

end Protocol
