import Monotype.Encoding.Units

/-!
Encodings of texts: their names and how bytes are decoded. A mark of the byte order at the start of
a text is used and dropped by the encodings whose name does not fix the order.
-/

namespace Monotype

/-- An encoding that is known by name. The last three turn bytes into bytes, or texts into texts,
and decode nothing. -/
inductive Encoding where
  | utf8
  | utf8Signed
  | latin1
  | ascii
  | utf16
  | utf16Little
  | utf16Big
  | utf32
  | utf32Little
  | utf32Big
  | hex
  | base64
  | rot13
deriving Repr, DecidableEq, Inhabited

namespace Encoding

def name : Encoding → String
  | .utf8 => "utf-8"
  | .utf8Signed => "utf-8-sig"
  | .latin1 => "iso8859-1"
  | .ascii => "ascii"
  | .utf16 => "utf-16"
  | .utf16Little => "utf-16-le"
  | .utf16Big => "utf-16-be"
  | .utf32 => "utf-32"
  | .utf32Little => "utf-32-le"
  | .utf32Big => "utf-32-be"
  | .hex => "hex"
  | .base64 => "base64"
  | .rot13 => "rot-13"

/-- The normal form of an encoding's own name. -/
def ownName : Encoding → String
  | .utf8 => "utf_8"
  | .utf8Signed => "utf_8_sig"
  | .latin1 => "latin_1"
  | .ascii => "ascii"
  | .utf16 => "utf_16"
  | .utf16Little => "utf_16_le"
  | .utf16Big => "utf_16_be"
  | .utf32 => "utf_32"
  | .utf32Little => "utf_32_le"
  | .utf32Big => "utf_32_be"
  | .hex => "hex_codec"
  | .base64 => "base64_codec"
  | .rot13 => "rot_13"

def aliases : Encoding → List String
  | .utf8 => ["utf8", "utf", "u8", "cp65001", "utf8_ucs2", "utf8_ucs4"]
  | .utf8Signed => []
  | .latin1 =>
    ["latin1", "latin", "l1", "8859", "cp819", "csisolatin1", "ibm819", "iso8859", "iso8859_1",
      "iso_8859_1", "iso_8859_1_1987", "iso_ir_100"]
  | .ascii =>
    ["us_ascii", "us", "646", "ansi_x3.4_1968", "ansi_x3_4_1968", "ansi_x3.4_1986", "cp367",
      "csascii", "ibm367", "iso646_us", "iso_646.irv_1991", "iso_ir_6"]
  | .utf16 => ["utf16", "u16"]
  | .utf16Little => ["utf_16le", "unicodelittleunmarked"]
  | .utf16Big => ["utf_16be", "unicodebigunmarked"]
  | .utf32 => ["utf32", "u32"]
  | .utf32Little => ["utf_32le"]
  | .utf32Big => ["utf_32be"]
  | .hex => ["hex"]
  | .base64 => ["base64", "base_64"]
  | .rot13 => ["rot13"]

def all : List Encoding :=
  [.utf8, .utf8Signed, .latin1, .ascii, .utf16, .utf16Little, .utf16Big, .utf32, .utf32Little,
    .utf32Big, .hex, .base64, .rot13]

/-- The normal form of a name: letters in lower case, digits and dots, with a low line for every
run of other characters between them. -/
def normalForm (name : String) : String :=
  let isKept := fun c : Char => c.isAlphanum || c == '.'
  let runs := name.toList.splitBy fun a b => isKept a == isKept b
  let words := runs.filter (·.all isKept)
  "_".intercalate (words.map fun word => String.ofList (word.map Char.toLower))

/-- The encoding with a name. A low line in one of its other names may also be written as a dot. -/
def ofName? (name : String) : Option Encoding :=
  let form := normalForm name
  let dotless := form.map fun c => if c = '.' then '_' else c
  all.find? fun e => form = e.ownName || form ∈ e.aliases || dotless ∈ e.aliases

def utf8? (bytes : List UInt8) : Option String := String.fromUTF8? ⟨bytes.toArray⟩

/-- The text of bytes, if they have one. No bytes are the empty text in every encoding. -/
def decode? : List UInt8 → Encoding → Option String
  | [], _ => some ""
  | bytes, .utf8 => utf8? bytes
  | bytes, .utf8Signed =>
    match bytes with
    | 0xEF :: 0xBB :: 0xBF :: rest => utf8? rest
    | _ => utf8? bytes
  | bytes, .latin1 => bytewise? 256 bytes
  | bytes, .ascii => bytewise? 128 bytes
  | bytes, .utf16 =>
    match bytes with
    | 0xFF :: 0xFE :: rest => text16? .little rest
    | 0xFE :: 0xFF :: rest => text16? .big rest
    | _ => text16? .little bytes
  | bytes, .utf16Little => text16? .little bytes
  | bytes, .utf16Big => text16? .big bytes
  | bytes, .utf32 =>
    match bytes with
    | 0xFF :: 0xFE :: 0 :: 0 :: rest => text32? .little rest
    | 0 :: 0 :: 0xFE :: 0xFF :: rest => text32? .big rest
    | _ => text32? .little bytes
  | bytes, .utf32Little => text32? .little bytes
  | bytes, .utf32Big => text32? .big bytes
  | _, .hex | _, .base64 | _, .rot13 => none

end Encoding

/-- The text of bytes in the encoding with this name, or else the name of the encoding at fault:
its own name if it is known, and the given one otherwise. -/
def Encoding.decodeAs (name : String) (bytes : List UInt8) : Except String String :=
  match ofName? name with
  | none => .error name
  | some encoding =>
    match encoding.decode? bytes with
    | some text => .ok text
    | none => .error encoding.name

end Monotype
