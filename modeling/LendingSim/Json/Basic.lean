/-!
# JSON values

States, actions and answers are exchanged as JSON documents. A value is null, a boolean, a
number, a string, an array or an object; an object keeps its fields in the order given, and
when a name repeats, the last field of that name is the one read. Integers are kept exactly.
A number written with a fraction or an exponent is kept as its text: no document of this
library reads one, so all a reader does with it is refuse it or skip it. Likewise text holding
a UTF-16 surrogate without its partner, in a string or in a key of an object, is kept only as
the fact that it is there: a reader that needs the text refuses it, and one that skips the
value accepts it. A value is written compactly, with `"` and `\` escaped in strings and
control characters written as escapes.
-/

namespace LendingSim

/-- A JSON value. -/
inductive Json where
  | null
  | bool (value : Bool)
  /-- A number written as an integer: an optional minus and digits. -/
  | number (value : Int)
  /-- A number written with a fraction or an exponent, or as `-0`, kept as its text. -/
  | decimal (text : String)
  | string (value : String)
  /-- A string, or an object with a key, holding an unpaired UTF-16 surrogate. -/
  | unpaired
  | array (items : List Json)
  | object (fields : List (String × Json))

namespace Json

instance : Inhabited Json := ⟨.null⟩

/-- The escape of one character inside a string literal. -/
def escapeChar (c : Char) : String :=
  if c = '"' then "\\\""
  else if c = '\\' then "\\\\"
  else if c = '\n' then "\\n"
  else if c = '\r' then "\\r"
  else if c = '\t' then "\\t"
  else if c.toNat < 0x20 then
    "\\u" ++ String.ofList (List.replicate (4 - (Nat.toDigits 16 c.toNat).length) '0' ++
      Nat.toDigits 16 c.toNat)
  else c.toString

/-- A string literal: the text between quotes, escaped. -/
def quote (s : String) : String :=
  "\"" ++ String.join (s.toList.map escapeChar) ++ "\""

mutual

/-- The compact text of a value. -/
def render : Json → String
  | .null => "null"
  | .bool b => if b then "true" else "false"
  | .number n => toString n
  | .decimal text => text
  | .string s => quote s
  | .unpaired => quote "\uFFFD"
  | .array items => "[" ++ ",".intercalate (renderItems items) ++ "]"
  | .object fields => "\x7b" ++ ",".intercalate (renderFields fields) ++ "\x7d"

/-- The texts of array items. -/
def renderItems : List Json → List String
  | [] => []
  | item :: rest => render item :: renderItems rest

/-- The texts of object fields. -/
def renderFields : List (String × Json) → List String
  | [] => []
  | (key, value) :: rest => (quote key ++ ":" ++ render value) :: renderFields rest

end

/-- The value of the last field named `key` of an object; `none` for a missing field and for
a value that is not an object. -/
def field? (j : Json) (key : String) : Option Json :=
  match j with
  | .object fields => (fields.reverse.find? (·.1 == key)).map Prod.snd
  | _ => none

/-- The key of an object whose fields all have one key, with the value of its last field; such
an object names one case of a choice. `none` for any other value. -/
def soleField? : Json → Option (String × Json)
  | .object ((key, value) :: rest) =>
    if rest.all (·.1 == key) then some (key, ((rest.getLast?).map Prod.snd).getD value) else none
  | _ => none

/-- The value of field `key`, where a missing field reads as `null`. -/
def fieldOrNull (j : Json) (key : String) : Json := (j.field? key).getD .null

/-- Whether the value is `null`. -/
def isNull : Json → Bool
  | .null => true
  | _ => false

end Json

end LendingSim
