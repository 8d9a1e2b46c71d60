import SignedOrders.Binary64.Shortest
import SignedOrders.Json.Value
import SignedOrders.Text.Quoted

/-!
# JSON texts

A value is written with nothing between the tokens, and the fields of an object as
they stand.  A character that the text does not keep is escaped by a letter where
JSON has one for it, and otherwise by its UTF-16 code units.

The **canonical** text keeps the printable part of ASCII alone, and it is one for
equal values: the fields are sorted by key first, code point by code point.
-/

namespace SignedOrders.Json

/-- The characters that a text keeps, apart from quotes and backslashes. -/
inductive Charset where
  /-- The printable characters of ASCII. -/
  | ascii
  /-- All but control characters. -/
  | unicode
  deriving DecidableEq, Repr

/-- `c` is kept as it is. -/
def Charset.keeps (charset : Charset) (c : Char) : Bool :=
  match charset with
  | ascii => 32 ≤ c.toNat && c.toNat ≤ 126
  | unicode => 32 ≤ c.toNat

/-- The escape of one UTF-16 code unit. -/
def unitEscape (n : Nat) : List Char := '\\' :: 'u' :: Text.hexDigits 4 n

/-- `c` as it stands in a text. -/
def escaped (charset : Charset) (c : Char) : List Char :=
  if c = '"' ∨ c = '\\' then ['\\', c]
  else if c = '\n' then ['\\', 'n']
  else if c = '\r' then ['\\', 'r']
  else if c = '\t' then ['\\', 't']
  else if c.toNat = 8 then ['\\', 'b']
  else if c.toNat = 12 then ['\\', 'f']
  else if charset.keeps c then [c]
  else if c.toNat < 0x10000 then unitEscape c.toNat
  else
    unitEscape (0xd800 + (c.toNat - 0x10000) / 0x400) ++
      unitEscape (0xdc00 + (c.toNat - 0x10000) % 0x400)

/-- A text in double quotes. -/
def textChars (charset : Charset) (s : String) : List Char :=
  '"' :: (s.toList.flatMap (escaped charset) ++ ['"'])

/-- An integer in decimal digits. -/
def intChars (n : Int) : List Char := Decimal.signText (n < 0) ++ Decimal.digits n.natAbs

/-- Pieces with a comma between neighbours. -/
def commaSeparated : List (List Char) → List Char
  | [] => []
  | [piece] => piece
  | piece :: rest => piece ++ ',' :: commaSeparated rest

/-- A field whose value has the given text. -/
def fieldText (charset : Charset) (key : String) (value : List Char) : List Char :=
  textChars charset key ++ ':' :: value

mutual

/-- The text of a value, as characters. -/
def chars (charset : Charset) : Json → List Char
  | .null => "null".toList
  | .bool true => "true".toList
  | .bool false => "false".toList
  | .int n => intChars n
  | .float x => x.chars
  | .str s => textChars charset s
  | .arr items => '[' :: (commaSeparated (itemChars charset items) ++ [']'])
  | .obj fields => '\x7b' :: (commaSeparated (fieldChars charset fields) ++ ['\x7d'])
  | .unrepresentable => []

/-- The texts of the items of an array. -/
def itemChars (charset : Charset) : List Json → List (List Char)
  | [] => []
  | v :: rest => v.chars charset :: itemChars charset rest

/-- The texts of the fields of an object. -/
def fieldChars (charset : Charset) : List (String × Json) → List (List Char)
  | [] => []
  | (key, v) :: rest => fieldText charset key (v.chars charset) :: fieldChars charset rest

end

/-! ## Sorting -/

/-- A field in its place among sorted ones, before those with the same key. -/
def insertByKey (field : String × α) : List (String × α) → List (String × α)
  | [] => [field]
  | other :: rest =>
    if field.1 ≤ other.1 then field :: other :: rest else other :: insertByKey field rest

/-- Fields sorted by key. -/
def sortedByKey (fields : List (String × α)) : List (String × α) :=
  fields.foldr insertByKey []

mutual

/-- The value with the fields of every object sorted by key. -/
def sorted : Json → Json
  | .arr items => .arr (sortedItems items)
  | .obj fields => .obj (sortedByKey (sortedFields fields))
  | v => v

/-- The items of an array, each sorted. -/
def sortedItems : List Json → List Json
  | [] => []
  | v :: rest => v.sorted :: sortedItems rest

/-- The fields of an object in their order, the value of each sorted. -/
def sortedFields : Fields → Fields
  | [] => []
  | (key, v) :: rest => (key, v.sorted) :: sortedFields rest

end

/-- The canonical text of a value. -/
def render (v : Json) : String := String.ofList (v.sorted.chars .ascii)

end SignedOrders.Json
