/-!
# JSON values

The JSON an RPC endpoint returns (`serde_json::Value`), with the accessors the
decoders use.
-/

namespace Observatory

/-- A JSON value. -/
inductive Json where
  | null
  | bool (b : Bool)
  /-- A number, by its literal. -/
  | number (literal : String)
  | string (s : String)
  | array (items : List Json)
  /-- An object: the first value of a key is its value. -/
  | object (fields : List (String × Json))

namespace Json

/-- `Value::get` with a key: absent for everything that is not an object. -/
def get (j : Json) (key : String) : Option Json :=
  match j with
  | .object fields => (fields.find? (fun p => p.1 == key)).map Prod.snd
  | _ => none

/-- `Value::as_str`. -/
def asStr : Json → Option String
  | .string s => some s
  | _ => none

/-- `Value::as_array`. -/
def asArray : Json → Option (List Json)
  | .array items => some items
  | _ => none

/-- `Value::as_u64`: a literal with a sign, a fraction or an exponent is not one, and neither is
one that does not fit. -/
def asU64 : Json → Option UInt64
  | .number literal =>
      if literal.toList.all Char.isDigit then
        let n := literal.toList.foldl (fun n c => 10 * n + (c.toNat - '0'.toNat)) 0
        if h : n < UInt64.size then some (UInt64.ofNatLT n h) else none
      else none
  | _ => none

/-- The string under a key. -/
def getStr (j : Json) (key : String) : Option String := (j.get key).bind asStr

end Json

end Observatory
