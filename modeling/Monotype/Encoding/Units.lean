/-!
Texts as sequences of bytes, and of 16-bit and 32-bit units in either byte order.
-/

namespace Monotype.Encoding

inductive ByteOrder where
  | little
  | big
deriving Repr, DecidableEq, Inhabited

def character? (n : Nat) : Option Char := if n.isValidChar then some (Char.ofNat n) else none

def pair (order : ByteOrder) (a b : UInt8) : Nat :=
  match order with
  | .little => a.toNat + 256 * b.toNat
  | .big => 256 * a.toNat + b.toNat

/-- Cuts bytes into 16-bit units. A byte that is left over is an error. -/
def units16 (order : ByteOrder) : List UInt8 → Option (List Nat)
  | [] => some []
  | [_] => none
  | a :: b :: bytes => (units16 order bytes).map (pair order a b :: ·)

/-- Cuts bytes into 32-bit units. Bytes that are left over are an error. -/
def units32 (order : ByteOrder) : List UInt8 → Option (List Nat)
  | [] => some []
  | a :: b :: c :: d :: bytes =>
    let unit := match order with
      | .little => pair .little a b + 65536 * pair .little c d
      | .big => 65536 * pair .big a b + pair .big c d
    (units32 order bytes).map (unit :: ·)
  | _ => none

/-- The characters of 16-bit units. A high surrogate must be followed by a low one, and a low one
stands nowhere else. -/
def decode16 : List Nat → Option (List Char)
  | [] => some []
  | u :: units =>
    if 0xD800 ≤ u ∧ u < 0xDC00 then
      match units with
      | v :: rest =>
        if 0xDC00 ≤ v ∧ v < 0xE000 then do
          let c ← character? (0x10000 + (u - 0xD800) * 0x400 + (v - 0xDC00))
          return c :: (← decode16 rest)
        else none
      | [] => none
    else do
      let c ← character? u
      return c :: (← decode16 units)

def text16? (order : ByteOrder) (bytes : List UInt8) : Option String :=
  return .ofList (← decode16 (← units16 order bytes))

def text32? (order : ByteOrder) (bytes : List UInt8) : Option String :=
  return .ofList (← (← units32 order bytes).mapM character?)

/-- The text of bytes that are code points below a limit. -/
def bytewise? (limit : Nat) (bytes : List UInt8) : Option String :=
  return .ofList (← bytes.mapM fun b => if b.toNat < limit then character? b.toNat else none)

end Monotype.Encoding
