/-!
# UTF-8

Decoding stops at the first byte where no character can begin or go on.
-/

namespace PagedReport

/-- Where a text stops being UTF-8: after `validUpTo` bytes, with `length` bytes that can never be
right, or with the beginning of a character that the text breaks off in. -/
structure Utf8Error where
  validUpTo : Nat
  length : Option Nat
deriving DecidableEq, Repr

def Utf8Error.message (e : Utf8Error) : String :=
  match e.length with
  | some n => s!"invalid utf-8 sequence of {n} bytes from index {e.validUpTo}"
  | none => s!"incomplete utf-8 byte sequence from index {e.validUpTo}"

namespace Utf8

/-- How many bytes follow a first byte, and the range of the second. -/
def header (b : UInt8) : Option (Nat × UInt8 × UInt8) :=
  if b < 0x80 then some (0, 0, 0)
  else if 0xC2 ≤ b && b ≤ 0xDF then some (1, 0x80, 0xBF)
  else if b == 0xE0 then some (2, 0xA0, 0xBF)
  else if b == 0xED then some (2, 0x80, 0x9F)
  else if 0xE1 ≤ b && b ≤ 0xEF then some (2, 0x80, 0xBF)
  else if b == 0xF0 then some (3, 0x90, 0xBF)
  else if 0xF1 ≤ b && b ≤ 0xF3 then some (3, 0x80, 0xBF)
  else if b == 0xF4 then some (3, 0x80, 0x8F)
  else none

/-- Takes the bytes after a first one; a failure says how many bytes are bad, or that they end. -/
def tail (low high : UInt8) (seen : Nat) :
    Nat → List UInt8 → Nat → Except (Option Nat) (Nat × List UInt8)
  | 0, bytes, n => .ok (n, bytes)
  | _ + 1, [], _ => .error none
  | more + 1, b :: bytes, n =>
    if low ≤ b && b ≤ high then tail 0x80 0xBF (seen + 1) more bytes (n * 64 + (b.toNat - 0x80))
    else .error (some seen)

/-- The bits of a first byte that belong to the character. -/
def lead (b : UInt8) : Nat → Nat
  | 0 => b.toNat
  | 1 => b.toNat - 0xC0
  | 2 => b.toNat - 0xE0
  | _ => b.toNat - 0xF0

/-- Decodes at most `fuel` characters, `index` bytes in; `acc` is reversed. -/
def decodeFrom : Nat → Nat → List Char → List UInt8 → Except Utf8Error (List Char)
  | _, _, acc, [] => .ok acc.reverse
  | 0, index, _, _ => .error ⟨index, none⟩
  | fuel + 1, index, acc, b :: bytes =>
    match header b with
    | none => .error ⟨index, some 1⟩
    | some (more, low, high) =>
      match tail low high 1 more bytes (lead b more) with
      | .error bad => .error ⟨index, bad⟩
      | .ok (n, rest) => decodeFrom fuel (index + 1 + more) (Char.ofNat n :: acc) rest

def decode (bytes : ByteArray) : Except Utf8Error String :=
  (decodeFrom bytes.size 0 [] bytes.toList).map String.ofList

end Utf8

end PagedReport
