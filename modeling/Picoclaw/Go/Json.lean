import Picoclaw.Go.Float
import Picoclaw.Go.Map

/-!
# Dynamic values and JSON values

The program passes `interface{}` values around (tool input schemas, call arguments, JSON-RPC
ids, params and results) and crosses process boundaries with `encoding/json`. `Any` is such a
value, with the shapes this program builds or decodes: an `int` and an `int64` stay apart, as a
type switch tells them apart, and a `float64` is any finite one (`Go.Float`).

A JSON value is `Json`, a number kept as its literal. `Any.toJson` is `json.Marshal` of an
`interface{}`, `Json.toAny` is `json.Unmarshal` into one, where every number becomes a float64
(`parseFloat64`), and `Json.render` is the compact text `Marshal` writes, with its HTML-safe
string escapes. The text parser is not modelled: the code that reads JSON text takes it as a
parameter.

A number past the largest float64 is decoded to nil, as `Unmarshal` leaves it; the error it then
returns at the end is not modelled.
-/

namespace Picoclaw.Go

/-- A Go `interface{}` value, in the shapes this program builds or decodes. -/
inductive Any where
  | null
  | bool (b : Bool)
  /-- An `int`, 64 bits wide on the platforms the program is built for. -/
  | int (n : Int)
  | int64 (n : Int)
  | float64 (f : Float64)
  | string (s : String)
  | slice (xs : List Any)
  | map (kvs : List (String × Any))
  deriving Inhabited

/-- Whether an `interface{}` is nil. -/
def Any.isNull : Any → Bool
  | .null => true
  | _ => false

theorem Any.eq_null_of_isNull {a : Any} (h : a.isNull = true) : a = .null := by
  cases a <;> simp_all [Any.isNull]

/-! ## JSON values -/

/-- A JSON value as `encoding/json` writes and reads it, a number by its literal. -/
inductive Json where
  | null
  | bool (b : Bool)
  | number (literal : String)
  | string (s : String)
  | array (xs : List Json)
  | object (kvs : List (String × Json))
  deriving Inhabited

/-- The word a `json.UnmarshalTypeError` uses for a value. -/
def Json.kind : Json → String
  | .null => "null"
  | .bool _ => "bool"
  | .number _ => "number"
  | .string _ => "string"
  | .array _ => "array"
  | .object _ => "object"

/-- The value stored under `key` in an object, the first one when it repeats. -/
def Json.field? (j : Json) (key : String) : Option Json :=
  match j with
  | .object kvs => kvs.lookup key
  | _ => none

mutual
/-- `json.Marshal` of an `interface{}` value. Entries are written in the order held: Go structs
are built here with their fields in declaration order, and map literals with their keys sorted,
as `Marshal` writes them. -/
def Any.toJson : Any → Json
  | .null => .null
  | .bool b => .bool b
  | .int n => .number (formatInt n)
  | .int64 n => .number (formatInt n)
  | .float64 f => .number (formatFloat64 f)
  | .string s => .string s
  | .slice xs => .array (Any.toJsonList xs)
  | .map kvs => .object (Any.toJsonFields kvs)

/-- `Any.toJson` on each element. -/
def Any.toJsonList : List Any → List Json
  | [] => []
  | a :: as => a.toJson :: Any.toJsonList as

/-- `Any.toJson` on each value. -/
def Any.toJsonFields : List (String × Any) → List (String × Json)
  | [] => []
  | (k, a) :: kvs => (k, a.toJson) :: Any.toJsonFields kvs
end

mutual
/-- `json.Unmarshal` into an `interface{}`: a number becomes a `float64` (nil past the largest
one), an object a map in which a repeated key keeps its last value. -/
def Json.toAny : Json → Any
  | .null => .null
  | .bool b => .bool b
  | .number lit =>
    match parseFloat64 lit with
    | some f => .float64 f
    | none => .null
  | .string s => .string s
  | .array xs => .slice (Json.toAnyList xs)
  | .object kvs => .map ((Json.toAnyFields kvs).foldl (fun m kv => GoMap.upsert kv.1 kv.2 m) [])

/-- `Json.toAny` on each element. -/
def Json.toAnyList : List Json → List Any
  | [] => []
  | j :: js => j.toAny :: Json.toAnyList js

/-- `Json.toAny` on each value. -/
def Json.toAnyFields : List (String × Json) → List (String × Any)
  | [] => []
  | (k, j) :: kvs => (k, j.toAny) :: Json.toAnyFields kvs
end

/-! ## JSON text -/

/-- How `json.Marshal` writes a character inside a string: quotes, backslashes and control
characters escaped, and `<`, `>`, `&`, U+2028 and U+2029 as `\u` escapes. -/
def escapeChar (c : Char) : List Char :=
  if c = '"' then ['\\', '"']
  else if c = '\\' then ['\\', '\\']
  else if c = '\n' then ['\\', 'n']
  else if c = '\r' then ['\\', 'r']
  else if c = '\t' then ['\\', 't']
  else if c = '\x08' then ['\\', 'b']
  else if c = '\x0c' then ['\\', 'f']
  else if c.toNat < 0x20 ∨ c = '<' ∨ c = '>' ∨ c = '&' then
    ['\\', 'u', '0', '0', Nat.digitChar (c.toNat / 16), Nat.digitChar (c.toNat % 16)]
  else if c = '\u2028' then "\\u2028".data
  else if c = '\u2029' then "\\u2029".data
  else [c]

/-- A string as `json.Marshal` writes it. -/
def quote (s : String) : String := "\"" ++ String.mk (s.data.flatMap escapeChar) ++ "\""

mutual
/-- `json.Marshal`'s compact text of a value. -/
def Json.render : Json → String
  | .null => "null"
  | .bool b => if b then "true" else "false"
  | .number lit => lit
  | .string s => quote s
  | .array xs => "[" ++ (Json.renderList xs).drop 1 ++ "]"
  | .object kvs => "\x7b" ++ (Json.renderFields kvs).drop 1 ++ "\x7d"

/-- The elements, each after a comma. -/
def Json.renderList : List Json → String
  | [] => ""
  | j :: js => "," ++ j.render ++ Json.renderList js

/-- The members, each after a comma. -/
def Json.renderFields : List (String × Json) → String
  | [] => ""
  | (k, j) :: kvs => "," ++ quote k ++ ":" ++ j.render ++ Json.renderFields kvs
end

end Picoclaw.Go
