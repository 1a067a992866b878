import Monotype.Json
import Monotype.Text.Hex

/-!
JSON texts. The reader goes from left to right and stops at the first thing that is out of place.
Besides the standard it takes `NaN`, `Infinity` and `-Infinity` for numbers.
-/

namespace Monotype

inductive JsonError where
  | expectingValue
  | extraData
  | expectingComma
  | expectingColon
  | expectingName
  | unterminatedString
  | controlCharacter
  | invalidEscape
  | invalidUnicodeEscape
  | byteOrderMark
deriving Repr, DecidableEq, Inhabited

def JsonError.message : JsonError → String
  | .expectingValue => "Expecting value"
  | .extraData => "Extra data"
  | .expectingComma => "Expecting ',' delimiter"
  | .expectingColon => "Expecting ':' delimiter"
  | .expectingName => "Expecting property name enclosed in double quotes"
  | .unterminatedString => "Unterminated string starting at"
  | .controlCharacter => "Invalid control character at"
  | .invalidEscape => "Invalid \\escape"
  | .invalidUnicodeEscape => "Invalid \\uXXXX escape"
  | .byteOrderMark => "Unexpected UTF-8 BOM (decode using utf-8-sig)"

namespace Json.Reader

def skip (cs : List Char) : List Char :=
  cs.dropWhile fun c => c = ' ' ∨ c = '\t' ∨ c = '\n' ∨ c = '\r'

/-! ### Strings -/

def hex4? (a b c d : Char) : Option Nat := do
  return (((← Text.hexValue? a) * 16 + (← Text.hexValue? b)) * 16 + (← Text.hexValue? c)) * 16
    + (← Text.hexValue? d)

def escape? : Char → Option Char
  | '"' => some '"'
  | '\\' => some '\\'
  | '/' => some '/'
  | 'b' => some '\x08'
  | 'f' => some '\x0c'
  | 'n' => some '\n'
  | 'r' => some '\r'
  | 't' => some '\t'
  | _ => none

def isHighSurrogate (n : Nat) : Bool := 0xD800 ≤ n && n < 0xDC00

def isLowSurrogate (n : Nat) : Bool := 0xDC00 ≤ n && n < 0xE000

/-- The character of a code point. Half of a pair that stands alone is no character, and the
replacement character takes its place. -/
def point (n : Nat) : Char := if n.isValidChar then Char.ofNat n else '\ufffd'

/-- The characters of code points, in which a pair of halves makes up one character. -/
def join : List Nat → List Char
  | [] => []
  | [n] => [point n]
  | n :: m :: rest =>
    if isHighSurrogate n && isLowSurrogate m then
      point (0x10000 + (n - 0xD800) * 0x400 + (m - 0xDC00)) :: join rest
    else point n :: join (m :: rest)

/-- Reads the code points of a string behind its opening quote. An escape by number must not end
the text. -/
def codes (read : List Nat) : List Char → Except JsonError (List Nat × List Char)
  | [] => .error .unterminatedString
  | '"' :: rest => .ok (read.reverse, rest)
  | '\\' :: 'u' :: a :: b :: c :: d :: rest =>
    match hex4? a b c d with
    | none => .error .invalidUnicodeEscape
    | some n => if rest.isEmpty then .error .invalidUnicodeEscape else codes (n :: read) rest
  | '\\' :: 'u' :: _ => .error .invalidUnicodeEscape
  | '\\' :: [] => .error .unterminatedString
  | '\\' :: c :: rest =>
    match escape? c with
    | none => .error .invalidEscape
    | some e => codes (e.toNat :: read) rest
  | c :: rest => if c < ' ' then .error .controlCharacter else codes (c.toNat :: read) rest

def string (cs : List Char) : Except JsonError (String × List Char) := do
  let (ns, rest) ← codes [] cs
  return (String.ofList (join ns), rest)

/-! ### Numbers -/

def isDigit (c : Char) : Bool := '0' ≤ c && c ≤ '9'

def digits (cs : List Char) : List Char × List Char := (cs.takeWhile isDigit, cs.dropWhile isDigit)

def natOfDigits (ds : List Char) : Nat := ds.foldl (fun n d => n * 10 + (d.toNat - 48)) 0

/-- The digits of a whole number, which has no needless zeros in front. -/
def whole : List Char → Except JsonError (List Char × List Char)
  | '0' :: rest => .ok (['0'], rest)
  | cs => match digits cs with
    | ([], _) => .error .expectingValue
    | found => .ok found

def fraction : List Char → List Char × List Char
  | '.' :: rest => match digits rest with
    | ([], _) => ([], '.' :: rest)
    | (ds, rest) => ('.' :: ds, rest)
  | cs => ([], cs)

def exponent (cs : List Char) : List Char × List Char :=
  match cs with
  | e :: rest =>
    if e = 'e' ∨ e = 'E' then
      let (sign, rest) := match rest with
        | '+' :: rest => (['+'], rest)
        | '-' :: rest => (['-'], rest)
        | rest => ([], rest)
      match digits rest with
      | ([], _) => ([], cs)
      | (ds, rest) => (e :: sign ++ ds, rest)
    else ([], cs)
  | [] => ([], [])

def number (cs : List Char) : Except JsonError (Json × List Char) := do
  let (sign, rest) := match cs with
    | '-' :: rest => (['-'], rest)
    | cs => ([], cs)
  let (ds, rest) ← whole rest
  let (point, rest) := fraction rest
  let (power, rest) := exponent rest
  if point.isEmpty ∧ power.isEmpty then
    let n : Int := natOfDigits ds
    return (.int (if sign.isEmpty then n else -n), rest)
  return (.real (String.ofList (sign ++ ds ++ point ++ power)), rest)

/-! ### Values -/

mutual

/-- Reads a value that starts at once. `fuel` bounds the steps. -/
def value : (fuel : Nat) → List Char → Except JsonError (Json × List Char)
  | 0, _ => .error .expectingValue
  | fuel + 1, cs =>
    match cs with
    | '"' :: rest => do
      let (s, rest) ← string rest
      return (.string s, rest)
    | '\x7b' :: rest => match skip rest with
      | '\x7d' :: rest => .ok (.object [], rest)
      | rest => members fuel [] rest
    | '[' :: rest => match skip rest with
      | ']' :: rest => .ok (.array [], rest)
      | rest => elements fuel [] rest
    | 'n' :: 'u' :: 'l' :: 'l' :: rest => .ok (.null, rest)
    | 't' :: 'r' :: 'u' :: 'e' :: rest => .ok (.bool true, rest)
    | 'f' :: 'a' :: 'l' :: 's' :: 'e' :: rest => .ok (.bool false, rest)
    | 'N' :: 'a' :: 'N' :: rest => .ok (.real "NaN", rest)
    | 'I' :: 'n' :: 'f' :: 'i' :: 'n' :: 'i' :: 't' :: 'y' :: rest => .ok (.real "Infinity", rest)
    | '-' :: 'I' :: 'n' :: 'f' :: 'i' :: 'n' :: 'i' :: 't' :: 'y' :: rest =>
      .ok (.real "-Infinity", rest)
    | cs => number cs

/-- Reads the fields of an object, of which there is at least one more. Of two fields with one name
the later one counts. -/
def members : (fuel : Nat) → List (String × Json) → List Char → Except JsonError (Json × List Char)
  | 0, _, _ => .error .expectingValue
  | fuel + 1, read, cs =>
    match cs with
    | '"' :: rest => do
      let (key, rest) ← string rest
      match skip rest with
      | ':' :: rest => do
        let (v, rest) ← value fuel (skip rest)
        let read := put key v read
        match skip rest with
        | '\x7d' :: rest => .ok (.object read, rest)
        | ',' :: rest => members fuel read (skip rest)
        | _ => .error .expectingComma
      | _ => .error .expectingColon
    | _ => .error .expectingName

def elements : (fuel : Nat) → List Json → List Char → Except JsonError (Json × List Char)
  | 0, _, _ => .error .expectingValue
  | fuel + 1, read, cs => do
    let (v, rest) ← value fuel cs
    match skip rest with
    | ']' :: rest => .ok (.array (v :: read).reverse, rest)
    | ',' :: rest => elements fuel (v :: read) (skip rest)
    | _ => .error .expectingComma

end

end Json.Reader

/-- The value that a text spells. Every two steps of the reader use up a character. -/
def Json.parse (text : String) : Except JsonError Json := do
  let cs := text.toList
  if cs.head? = some '\ufeff' then .error .byteOrderMark
  let (v, rest) ← Reader.value (2 * cs.length + 2) (Reader.skip cs)
  if (Reader.skip rest).isEmpty then return v else .error .extraData

def Json.read (text : String) : Except String Json := (Json.parse text).mapError JsonError.message

end Monotype
