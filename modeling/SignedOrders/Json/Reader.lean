import SignedOrders.Json.Value
import SignedOrders.Octets
import SignedOrders.Decimal.Reader

/-!
# Reading JSON text

A reader for lines of JSON.  It is used on text that a JSON printer has written,
and so it does not look for every fault: a number is whatever its characters can
be read as.  When a key is repeated, its last value counts.
-/

namespace SignedOrders.Json

/-- `s` without the blanks it starts with. -/
def skipBlanks (s : List Char) : List Char :=
  s.dropWhile fun c => c = ' ' || c = '\n' || c = '\t' || c = '\r'

/-- The code unit written by four hexadecimal digits. -/
def codeUnit? (a b c d : Char) : Option Nat := do
  return 4096 * (← Octets.hexValue? a) + 256 * (← Octets.hexValue? b) +
    16 * (← Octets.hexValue? c) + (← Octets.hexValue? d)

/-- The characters of a sequence of code points in which a character beyond the
sixteen-bit range may be given by its two code units. -/
def joinPairs : List Nat → List Char
  | [] => []
  | [n] => [Char.ofNat n]
  | high :: low :: rest =>
    if 0xd800 ≤ high ∧ high < 0xdc00 ∧ 0xdc00 ≤ low ∧ low < 0xe000 then
      Char.ofNat (0x10000 + (high - 0xd800) * 0x400 + (low - 0xdc00)) :: joinPairs rest
    else Char.ofNat high :: joinPairs (low :: rest)

/-- The code points, or halves of them, that a text holds up to its closing quote,
and what follows it. -/
def readPoints : List Char → Option (List Nat × List Char)
  | [] => none
  | '"' :: s => some ([], s)
  | '\\' :: 'u' :: a :: b :: c :: d :: s =>
    match codeUnit? a b c d with
    | none => none
    | some n => (readPoints s).map fun (t, rest) => (n :: t, rest)
  | '\\' :: c :: s =>
    let plain :=
      if c = 'n' then 10 else if c = 't' then 9 else if c = 'r' then 13
      else if c = 'b' then 8 else if c = 'f' then 12 else c.toNat
    (readPoints s).map fun (t, rest) => (plain :: t, rest)
  | c :: s => (readPoints s).map fun (t, rest) => (c.toNat :: t, rest)

/-- What a text holds up to its closing quote, and what follows it. -/
def readText (s : List Char) : Option (List Char × List Char) :=
  (readPoints s).map fun (t, rest) => (joinPairs t, rest)

/-- A character that can occur in a number. -/
def isNumberChar (c : Char) : Bool :=
  c.isDigit || c = '-' || c = '+' || c = '.' || c = 'e' || c = 'E'

/-- The number that `s` writes: an integer if it has digits only. -/
def number? (s : List Char) : Option Json :=
  let (negative, digits) := Decimal.takeSign s
  if digits.all Char.isDigit then
    if digits = [] then none
    else
      let n : Int := Text.digitsValue digits
      some (.int (if negative then -n else n))
  else (Decimal.unsigned? negative digits).map fun d => .float (.ofDecimal d)

/-- The words that are values. -/
def words : List (List Char × Json) :=
  [("null".toList, .null), ("true".toList, .bool true), ("false".toList, .bool false),
    ("NaN".toList, .float .nan), ("Infinity".toList, .float (.infinite false)),
    ("-Infinity".toList, .float (.infinite true))]

/-- A word or a number, and what follows it. -/
def readScalar (s : List Char) : Option (Json × List Char) :=
  match words.find? fun word => word.1.isPrefixOf s with
  | some (word, v) => some (v, s.drop word.length)
  | none => (number? (s.takeWhile isNumberChar)).map fun v => (v, s.dropWhile isNumberChar)

mutual

/-- The value that `s` starts with, and what follows it.  Every step down or along
costs one of `fuel`. -/
def readValue (fuel : Nat) (s : List Char) : Option (Json × List Char) :=
  match fuel with
  | 0 => none
  | fuel + 1 =>
    match skipBlanks s with
    | '"' :: s => (readText s).map fun (t, rest) => (.str (String.ofList t), rest)
    | '[' :: s =>
      match skipBlanks s with
      | ']' :: s => some (.arr [], s)
      | s => (readItems fuel s).map fun (items, rest) => (.arr items, rest)
    | '\x7b' :: s =>
      match skipBlanks s with
      | '\x7d' :: s => some (.obj [], s)
      | s => (readFields fuel [] s).map fun (fields, rest) => (.obj fields, rest)
    | s => readScalar s

/-- The items of an array up to its closing bracket, and what follows it. -/
def readItems (fuel : Nat) (s : List Char) : Option (List Json × List Char) :=
  match fuel with
  | 0 => none
  | fuel + 1 =>
    match readValue fuel s with
    | none => none
    | some (v, s) =>
      match skipBlanks s with
      | ',' :: s => (readItems fuel s).map fun (items, rest) => (v :: items, rest)
      | ']' :: s => some ([v], s)
      | _ => none

/-- The fields of an object up to its closing brace, after those in `fields`, and
what follows it. -/
def readFields (fuel : Nat) (fields : Fields) (s : List Char) : Option (Fields × List Char) :=
  match fuel with
  | 0 => none
  | fuel + 1 =>
    match skipBlanks s with
    | '"' :: s =>
      match readText s with
      | none => none
      | some (key, s) =>
        match skipBlanks s with
        | ':' :: s =>
          match readValue fuel s with
          | none => none
          | some (v, s) =>
            let fields := Fields.set fields (String.ofList key) v
            match skipBlanks s with
            | ',' :: s => readFields fuel fields s
            | '\x7d' :: s => some (fields, s)
            | _ => none
        | _ => none
    | _ => none

end

/-- The value that the characters of a text write. -/
def readChars? (s : List Char) : Option Json :=
  match readValue (2 * s.length + 2) s with
  | some (v, rest) => if skipBlanks rest = [] then some v else none
  | none => none

/-- The value that a text writes. -/
def read? (s : String) : Option Json := readChars? s.toList

end SignedOrders.Json
