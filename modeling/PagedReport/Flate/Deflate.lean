import PagedReport.Flate.Code
import PagedReport.Flate.Lengths
import PagedReport.Flate.Matching

/-!
# Compression

Data are written as one block.  A short block uses the fixed code and any other one a code of its
own, whose lengths are written before it as a list with runs cut short.
-/

namespace PagedReport

namespace Flate

/-! ## Bits -/

/-- Bytes, and the bits after them that do not yet fill one. -/
structure BitWriter where
  bytes : ByteArray := .empty
  pending : Nat := 0
  count : Nat := 0

namespace BitWriter

/-- Moves whole bytes out, at most `n` of them. -/
def flush : Nat → BitWriter → BitWriter
  | 0, w => w
  | n + 1, w =>
    if w.count < 8 then w
    else flush n ⟨w.bytes.push (UInt8.ofNat w.pending), w.pending / 256, w.count - 8⟩

/-- Appends a number of `length` bits, least significant first. -/
def put (value length : Nat) (w : BitWriter) : BitWriter :=
  let w := ⟨w.bytes, w.pending + value * Nat.pow 2 w.count, w.count + length⟩
  flush (length / 8 + 1) w

def finish (w : BitWriter) : ByteArray :=
  if w.count = 0 then w.bytes else w.bytes.push (UInt8.ofNat w.pending)

end BitWriter

/-! ## Codewords -/

def reverseBits : Nat → Nat → Nat
  | 0, _ => 0
  | length + 1, word => word % 2 * Nat.pow 2 length + reverseBits length (word / 2)

/-- For every symbol its codeword, first bit least significant, and the length of that. -/
def codewords (lengths : Array Nat) : Array (Nat × Nat) :=
  let code := Code.ofLengths lengths
  let starts := (List.range longest).foldl (fun (starts : Array Nat) i ↦
    starts.push (2 * (starts.getD i 0 + code.counts.getD i 0))) #[0]
  (lengths.foldl (fun ((words : Array (Nat × Nat)), (next : Array Nat)) length ↦
    if length = 0 then (words.push (0, 0), next)
    else (words.push (reverseBits length (next.getD length 0), length), next.modify length (· + 1)))
    (#[], starts)).1

/-- The last symbol whose base is not above a number, with the rest and its number of bits. -/
def symbolIn (table : Array (Nat × Nat)) (n : Nat) : Nat × Nat × Nat :=
  let last := (List.range table.size).reverse.find? fun s ↦ (table.getD s (0, 0)).1 ≤ n
  let s := last.getD 0
  let (base, extra) := table.getD s (0, 0)
  (s, n - base, extra)

/-- Writes the codeword of a symbol. -/
def putSymbol (words : Array (Nat × Nat)) (symbol : Nat) (w : BitWriter) : BitWriter :=
  let (word, length) := words.getD symbol (0, 0)
  w.put word length

def putToken (literals distances : Array (Nat × Nat)) (w : BitWriter) : Token → BitWriter
  | .literal byte => putSymbol literals byte.toNat w
  | .copy length distance =>
    let (ls, lrest, lbits) := symbolIn lengthTable length
    let (ds, drest, dbits) := symbolIn distanceTable distance
    let w := (putSymbol literals (257 + ls) w).put lrest lbits
    (putSymbol distances ds w).put drest dbits

/-- The symbol at the end of a block. -/
def endSymbol : Nat := 256

def putTokens (literals distances : Array (Nat × Nat)) (ts : Array Token) (w : BitWriter) :
    BitWriter :=
  putSymbol literals endSymbol (ts.foldl (putToken literals distances) w)

/-! ## Frequencies -/

def count (ts : Array Token) : Array Nat × Array Nat :=
  let start := ((Array.replicate 286 0).setIfInBounds endSymbol 1, Array.replicate 30 0)
  ts.foldl (fun (literals, distances) t ↦
    match t with
    | .literal byte => (literals.modify byte.toNat (· + 1), distances)
    | .copy length distance =>
      (literals.modify (257 + (symbolIn lengthTable length).1) (· + 1),
        distances.modify (symbolIn distanceTable distance).1 (· + 1))) start

/-! ## Lists of lengths -/

/-- A length in a list: as it is, or a run with the bits that say how long it is. -/
structure RunCode where
  symbol : Nat
  extra : Nat := 0
  bits : Nat := 0

/-- A run of zeros. -/
def zeroRun (n : Nat) : List RunCode :=
  if n < 3 then List.replicate n ⟨0, 0, 0⟩
  else if n ≤ 10 then [⟨17, n - 3, 3⟩]
  else [⟨18, n - 11, 7⟩]

/-- More of the length before. -/
def againRun (length n : Nat) : List RunCode :=
  if n < 3 then List.replicate n ⟨length, 0, 0⟩ else [⟨16, n - 3, 2⟩]

/-- Cuts lengths into runs, after `zeros` zeros or `again` more of the length `last`. -/
def runsFrom : (zeros again last : Nat) → List Nat → List RunCode
  | zeros, again, last, [] => if again = 0 then zeroRun zeros else againRun last again
  | zeros, again, last, length :: rest =>
    if length = 0 then
      if zeros + 1 = 138 then againRun last again ++ zeroRun 138 ++ runsFrom 0 0 0 rest
      else againRun last again ++ runsFrom (zeros + 1) 0 0 rest
    else if length ≠ last then
      zeroRun zeros ++ againRun last again ++ ⟨length, 0, 0⟩ :: runsFrom 0 0 length rest
    else if again + 1 = 6 then zeroRun zeros ++ againRun last 6 ++ runsFrom 0 0 length rest
    else zeroRun zeros ++ runsFrom 0 (again + 1) length rest

def putRun (words : Array (Nat × Nat)) (w : BitWriter) (r : RunCode) : BitWriter :=
  (putSymbol words r.symbol w).put r.extra r.bits

/-- Lengths without the zeros at the end, but at least `least` of them. -/
def trimZeros (least : Nat) (lengths : Array Nat) : List Nat :=
  let used := (lengths.toList.reverse.dropWhile (· == 0)).length
  lengths.toList.take (max least used)

/-- Writes the lengths of two codes. -/
def putLengths (literals distances : Array Nat) (w : BitWriter) : BitWriter :=
  let ls := trimZeros 257 literals
  let ds := trimZeros 1 distances
  let runs := runsFrom 0 0 0xFF (ls ++ ds)
  let frequencies := runs.foldl (fun fs r ↦ fs.modify r.symbol (· + 1)) (Array.replicate 19 0)
  let lengths := lengthsOf 7 frequencies
  let ordered := trimZeros 4 (lengthOrder.map fun s ↦ lengths.getD s 0).toArray
  let w := ((w.put (ls.length - 257) 5).put (ds.length - 1) 5).put (ordered.length - 4) 4
  let w := ordered.foldl (fun w length ↦ w.put length 3) w
  runs.foldl (putRun (codewords lengths)) w

/-! ## Blocks -/

/-- Data shorter than this use the fixed code. -/
def fixedBelow : Nat := 48

/-- Compresses data, with a header before them and a check after them. -/
def deflate (data : ByteArray) : ByteArray :=
  let ts := tokens data
  let w : BitWriter := { bytes := ⟨#[0x78, 0xDA]⟩ }
  let w := w.put 1 1
  let w :=
    if data.size < fixedBelow then
      putTokens (codewords fixedLiterals) (codewords fixedDistances) ts (w.put 1 2)
    else
      let (literals, distances) := count ts
      let literals := lengthsOf longest literals
      let distances := lengthsOf longest distances
      putTokens (codewords literals) (codewords distances) ts
        (putLengths literals distances (w.put 2 2))
  let check := adler data
  let bytes := [check / 16777216, check / 65536, check / 256, check].map UInt8.ofNat
  w.finish ++ ⟨bytes.toArray⟩

end Flate

end PagedReport
