import Mathlib.Logic.Basic

/-! # Typed values as text

Typed activities, orchestrations and events carry their values as text. A value whose JSON form is a string travels as
that string, without quotes; every other value travels as its JSON text. What `serde_json` does for a type is a
parameter.
-/

namespace Duroxide.TypedCodec

/-- `serde_json::Value`. -/
inductive Value where
  | null
  | bool (value : Bool)
  | number (text : String)
  | string (text : String)
  | array (items : List Value)
  | object (fields : List (String × Value))

/-- What the codec uses of `serde_json` for a type. -/
structure Serde (T : Type) where
  toValue : T → Except String Value
  fromValue : Value → Except String T
  toString : Value → Except String String
  fromStr : String → Except String T

variable {T In Out : Type}

/-- A JSON string is returned raw, to preserve historic behavior. -/
def encode (serde : Serde T) (value : T) : Except String String :=
  match serde.toValue value with
  | .ok (.string text) => .ok text
  | .ok form => serde.toString form
  | .error error => .error error

/-- JSON first, then the raw string. -/
def decode (serde : Serde T) (text : String) : Except String T :=
  match serde.fromStr text with
  | .ok value => .ok value
  | .error _ => serde.fromValue (.string text)

/-- `register_typed`: a typed function as a handler of texts. -/
def registerTyped (serdeIn : Serde In) (serdeOut : Serde Out) (handler : In → Except String Out) (input : String) :
    Except String String := do
  let input ← decode serdeIn input
  let output ← handler input
  encode serdeOut output

/-- `schedule_activity_typed`: a handler of texts as a typed function. -/
def scheduleTyped (serdeIn : Serde In) (serdeOut : Serde Out) (handler : String → Except String String) (input : In) :
    Except String Out := do
  let payload ← encode serdeIn input
  let result ← handler payload
  decode serdeOut result

end Duroxide.TypedCodec
