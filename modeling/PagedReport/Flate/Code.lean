/-!
# Prefix codes

A code gives every symbol a length; symbols of one length have consecutive codewords in the order of
the symbols.  The tables of the format are here too: how lengths and distances of repetitions are
split into a symbol and extra bits.
-/

namespace PagedReport

namespace Flate

/-- For each length the number of codewords, and the symbols in the order of their codewords. -/
structure Code where
  counts : Array Nat
  symbols : Array Nat

def longest : Nat := 15

/-- The code in which symbol `i` has the `i`-th length; zero means no codeword. -/
def Code.ofLengths (lengths : Array Nat) : Code :=
  let ofLength := fun (n : Nat) ↦ (Array.range lengths.size).filter fun s ↦ lengths[s]? == some n
  let groups := (List.range longest).map fun i ↦ ofLength (i + 1)
  ⟨(0 :: groups.map (·.size)).toArray, groups.foldl (· ++ ·) #[]⟩

/-- How many codewords of the greatest length are left over; negative if there are too many. -/
def Code.free (c : Code) : Int :=
  ((List.range longest).map (· + 1)).foldl (fun left n ↦ left * 2 - (c.counts.getD n 0 : Int)) 1

/-! ## Tables -/

/-- Base and extra bits of the symbols from 257 on. -/
def lengthTable : Array (Nat × Nat) := #[
  (3, 0), (4, 0), (5, 0), (6, 0), (7, 0), (8, 0), (9, 0), (10, 0), (11, 1), (13, 1), (15, 1),
  (17, 1), (19, 2), (23, 2), (27, 2), (31, 2), (35, 3), (43, 3), (51, 3), (59, 3), (67, 4),
  (83, 4), (99, 4), (115, 4), (131, 5), (163, 5), (195, 5), (227, 5), (258, 0)]

/-- Base and extra bits of the symbols for distances. -/
def distanceTable : Array (Nat × Nat) := #[
  (1, 0), (2, 0), (3, 0), (4, 0), (5, 1), (7, 1), (9, 2), (13, 2), (17, 3), (25, 3), (33, 4),
  (49, 4), (65, 5), (97, 5), (129, 6), (193, 6), (257, 7), (385, 7), (513, 8), (769, 8),
  (1025, 9), (1537, 9), (2049, 10), (3073, 10), (4097, 11), (6145, 11), (8193, 12), (12289, 12),
  (16385, 13), (24577, 13)]

/-- The order in which lengths of the code for lengths are written. -/
def lengthOrder : List Nat := [16, 17, 18, 0, 8, 7, 9, 6, 10, 5, 11, 4, 12, 3, 13, 2, 14, 1, 15]

/-- The lengths of the fixed code for literals and lengths. -/
def fixedLiterals : Array Nat :=
  Array.replicate 144 8 ++ Array.replicate 112 9 ++ Array.replicate 24 7 ++ Array.replicate 8 8

def fixedDistances : Array Nat := Array.replicate 32 5

/-- The check at the end of compressed data. -/
def adler (data : ByteArray) : Nat :=
  let (a, b) := data.foldl (fun (a, b) byte ↦
    let a := (a + byte.toNat) % 65521
    (a, (b + a) % 65521)) (1, 0)
  b * 65536 + a

end Flate

end PagedReport
