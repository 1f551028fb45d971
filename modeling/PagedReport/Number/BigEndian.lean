/-!
# Big-endian fields

Numbers of a fixed width inside of bytes, most significant byte first.
-/

namespace PagedReport

namespace BigEndian

/-- The number in `width` bytes from an offset on, if they are all there. -/
def nat? (bytes : ByteArray) : (width offset : Nat) → Option Nat
  | 0, _ => some 0
  | width + 1, offset => do
    let high ← nat? bytes width offset
    let low ← bytes[offset + width]?
    return high * 256 + low.toNat

def word? (bytes : ByteArray) (offset : Nat) : Option Nat := nat? bytes 2 offset

def long? (bytes : ByteArray) (offset : Nat) : Option Nat := nat? bytes 4 offset

/-- A word in two's complement. -/
def signed (n : Nat) : Int := if n < 0x8000 then n else (n : Int) - 0x10000

def signedWord? (bytes : ByteArray) (offset : Nat) : Option Int :=
  (word? bytes offset).map signed

/-- A part of bytes, if it is all there. -/
def slice? (bytes : ByteArray) (offset size : Nat) : Option ByteArray :=
  if offset + size ≤ bytes.size then some (bytes.extract offset (offset + size)) else none

/-- The bytes of a number, most significant first. -/
def bytes (n : Nat) : (width : Nat) → List UInt8
  | 0 => []
  | width + 1 => bytes (n / 256) width ++ [UInt8.ofNat n]

end BigEndian

end PagedReport
