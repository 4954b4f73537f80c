import LendingSim.Json.Basic
import LendingSim.Numeral

/-!
# Reading JSON

A recursive-descent reader over the characters of a document, to the letter of the JSON
grammar: whitespace is space, tab, line feed and carriage return; a number has no leading zero
and no plus sign, and a fraction or an exponent needs a digit; a string holds no raw control
character and only the escapes `\" \\ \/ \b \f \n \r \t \uXXXX`; nothing but whitespace may
follow the document. A `\u` escape of a UTF-16 surrogate pairs with the escape after it when
that is its partner; a surrogate left without a partner makes the string (or the object whose
key holds it) an `unpaired` value, which only a reader skipping it accepts.

Each reader returns the value and the characters after it. Nesting is bounded by a fuel argument
that `Json.parse?` sets from the length of the text: every nested value and every array item or
object field consumes at least one character, so the fuel never runs out on a well-formed
document.
-/

namespace LendingSim.Json

/-- Whether a character is JSON whitespace. -/
def isBlank (c : Char) : Bool := c = ' ' || c = '\n' || c = '\r' || c = '\t'

/-- The characters after leading whitespace. -/
def skipBlank : List Char → List Char
  | c :: rest => if isBlank c then skipBlank rest else c :: rest
  | [] => []

/-- The value of four hexadecimal digits. -/
def hex4? (a b c d : Char) : Option Nat := Numeral.ofHexDigits? [a, b, c, d]

/-- The character of a one-letter escape. -/
def unescape? (e : Char) : Option Char :=
  if e = '"' then some '"' else if e = '\\' then some '\\' else if e = '/' then some '/'
  else if e = 'b' then some '\x08' else if e = 'f' then some '\x0c'
  else if e = 'n' then some '\n' else if e = 'r' then some '\r'
  else if e = 't' then some '\t' else none

/-- Whether a UTF-16 unit is a surrogate, the first or second half of a pair. -/
def isSurrogate (unit : Nat) : Bool := 0xD800 ≤ unit && unit < 0xE000

/-- The character of a UTF-16 unit outside a pair: itself, or U+FFFD for a surrogate. -/
def unitChar (unit : Nat) : Char := if isSurrogate unit then '�' else Char.ofNat unit

/-- Reads the rest of a string literal after its opening quote, escapes resolved; `paired`
stays true while every surrogate escape has had its partner. An unpaired surrogate stands as
U+FFFD in the text. -/
def readString (acc : List Char) (paired : Bool) : List Char → Option ((String × Bool) × List Char)
  | [] => none
  | '"' :: rest => some ((String.ofList acc.reverse, paired), rest)
  | '\\' :: 'u' :: a :: b :: c :: d :: '\\' :: 'u' :: e :: f :: g :: h :: rest =>
    match hex4? a b c d, hex4? e f g h with
    | some high, some low =>
      if 0xD800 ≤ high ∧ high < 0xDC00 ∧ 0xDC00 ≤ low ∧ low < 0xE000 then
        readString (Char.ofNat (0x10000 + (high - 0xD800) * 0x400 + (low - 0xDC00)) :: acc)
          paired rest
      else
        readString (unitChar high :: acc) (paired && !isSurrogate high)
          ('\\' :: 'u' :: e :: f :: g :: h :: rest)
    | _, _ => none
  | '\\' :: 'u' :: a :: b :: c :: d :: rest =>
    match hex4? a b c d with
    | some unit => readString (unitChar unit :: acc) (paired && !isSurrogate unit) rest
    | none => none
  | '\\' :: e :: rest =>
    match unescape? e with
    | some c => readString (c :: acc) paired rest
    | none => none
  | c :: rest => if c.toNat < 0x20 then none else readString (c :: acc) paired rest
termination_by cs => cs.length

/-- The leading decimal digits and the characters after them. -/
def spanDigits : List Char → List Char × List Char
  | c :: rest =>
    if c.isDigit then
      let (digits, after) := spanDigits rest
      (c :: digits, after)
    else ([], c :: rest)
  | [] => ([], [])

/-- Reads the part of an exponent after `e` or `E`: an optional sign and at least one digit. -/
def readExponent (cs : List Char) : Option (List Char × List Char) :=
  let (sign, body) : List Char × List Char := match cs with
    | '+' :: rest => (['+'], rest)
    | '-' :: rest => (['-'], rest)
    | _ => ([], cs)
  match spanDigits body with
  | ([], _) => none
  | (digits, after) => some (sign ++ digits, after)

/-- Reads a fraction, if the text has one: a point and at least one digit. -/
def readFraction : List Char → Option (List Char × List Char)
  | '.' :: rest =>
    match spanDigits rest with
    | ([], _) => none
    | (digits, after) => some ('.' :: digits, after)
  | cs => some ([], cs)

/-- Reads an exponent, if the text has one. -/
def readExponentPart : List Char → Option (List Char × List Char)
  | e :: rest =>
    if e = 'e' || e = 'E' then (readExponent rest).map fun (x, after) => (e :: x, after)
    else some ([], e :: rest)
  | [] => some ([], [])

/-- Reads a number: an optional minus, an integer part without leading zeros, then optionally a
fraction and an exponent. Written as an integer it is a `number`; otherwise, and for `-0`, a
`decimal` keeping its text. -/
def readNumber (cs : List Char) : Option (Json × List Char) :=
  let (sign, body) : List Char × List Char := match cs with
    | '-' :: rest => (['-'], rest)
    | _ => ([], cs)
  let (digits, afterInteger) := spanDigits body
  match digits with
  | [] => none
  | '0' :: _ :: _ => none
  | _ =>
    match readFraction afterInteger with
    | none => none
    | some (fraction, afterFraction) =>
      match readExponentPart afterFraction with
      | none => none
      | some (exponent, after) =>
        let magnitude := (Numeral.readDigits Numeral.decimalDigit? 10 0 digits).getD 0
        if fraction.isEmpty && exponent.isEmpty && !(sign == ['-'] && magnitude == 0) then
          some (.number (if sign.isEmpty then (magnitude : Int) else -(magnitude : Int)), after)
        else some (.decimal (String.ofList (sign ++ digits ++ fraction ++ exponent)), after)

mutual

/-- Reads one value after optional whitespace. -/
def readValue : Nat → List Char → Option (Json × List Char)
  | 0, _ => none
  | fuel + 1, cs =>
    match skipBlank cs with
    | 'n' :: 'u' :: 'l' :: 'l' :: rest => some (.null, rest)
    | 't' :: 'r' :: 'u' :: 'e' :: rest => some (.bool true, rest)
    | 'f' :: 'a' :: 'l' :: 's' :: 'e' :: rest => some (.bool false, rest)
    | '"' :: rest =>
      (readString [] true rest).map fun ((s, paired), after) =>
        (if paired then .string s else .unpaired, after)
    | '[' :: rest =>
      match skipBlank rest with
      | ']' :: after => some (.array [], after)
      | _ => (readItems fuel [] rest).map fun (items, after) => (.array items, after)
    | '\x7b' :: rest =>
      match skipBlank rest with
      | '\x7d' :: after => some (.object [], after)
      | _ =>
        (readFields fuel true [] rest).map fun ((fields, paired), after) =>
          (if paired then .object fields else .unpaired, after)
    | other => readNumber other

/-- Reads array items up to the closing bracket; `acc` holds the items read, last first. -/
def readItems : Nat → List Json → List Char → Option (List Json × List Char)
  | 0, _, _ => none
  | fuel + 1, acc, cs =>
    match readValue fuel cs with
    | none => none
    | some (item, after) =>
      match skipBlank after with
      | ',' :: rest => readItems fuel (item :: acc) rest
      | ']' :: rest => some ((item :: acc).reverse, rest)
      | _ => none

/-- Reads object fields up to the closing brace; `acc` holds the fields read, last first, and
`paired` whether every key read so far is free of unpaired surrogates. -/
def readFields : Nat → Bool → List (String × Json) → List Char →
    Option ((List (String × Json) × Bool) × List Char)
  | 0, _, _, _ => none
  | fuel + 1, paired, acc, cs =>
    match skipBlank cs with
    | '"' :: rest =>
      match readString [] true rest with
      | none => none
      | some ((key, keyPaired), afterKey) =>
        match skipBlank afterKey with
        | ':' :: afterColon =>
          match readValue fuel afterColon with
          | none => none
          | some (value, after) =>
            let paired := paired && keyPaired
            match skipBlank after with
            | ',' :: more => readFields fuel paired ((key, value) :: acc) more
            | '\x7d' :: more => some ((((key, value) :: acc).reverse, paired), more)
            | _ => none
        | _ => none
    | _ => none

end

/-- Reads a whole document: one value and nothing but whitespace after it. -/
def parse? (text : String) : Option Json :=
  let cs := text.toList
  match readValue (2 * cs.length + 2) cs with
  | some (value, rest) => if (skipBlank rest).isEmpty then some value else none
  | none => none

end LendingSim.Json
