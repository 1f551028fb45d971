import PagedReport.Flate.Code

/-!
# Decompression

Compressed data are blocks of literal bytes and of repetitions of what came before.
-/

namespace PagedReport

namespace Flate

/-- Why data cannot be decompressed. -/
inductive InflateFault where
  /-- The data end too early. -/
  | cutOff
  | badHeader
  | badBlockType
  | badStoredLength
  | badCode
  | badSymbol
  | badDistance
deriving DecidableEq, Repr

/-- Bits of bytes, least significant first, from a position on. -/
structure Bits where
  data : ByteArray
  position : Nat := 0

namespace Bits

def next (b : Bits) : Except InflateFault (Nat × Bits) :=
  match b.data[b.position / 8]? with
  | none => .error .cutOff
  | some byte =>
    .ok ((byte.toNat >>> (b.position % 8)) % 2, { b with position := b.position + 1 })

/-- A number of `n` bits. -/
def take : Nat → Bits → Except InflateFault (Nat × Bits)
  | 0, b => .ok (0, b)
  | n + 1, b => do
    let (bit, b) ← b.next
    let (rest, b) ← take n b
    return (bit + 2 * rest, b)

/-- The next whole byte. -/
def align (b : Bits) : Bits := { b with position := (b.position + 7) / 8 * 8 }

/-- A codeword of at least `length` bits, of which `word` has been read; `first` is the least
codeword of this length and `index` counts the shorter ones. -/
def symbolFrom (code : Code) : Nat → (length word first index : Nat) → Bits →
    Except InflateFault (Nat × Bits)
  | 0, _, _, _, _, _ => .error .badSymbol
  | more + 1, length, word, first, index, b => do
    let (bit, b) ← b.next
    let word := 2 * word + bit
    let count := code.counts.getD length 0
    if word < first + count then return (code.symbols.getD (index + (word - first)) 0, b)
    symbolFrom code more (length + 1) word (2 * (first + count)) (index + count) b

def symbol (code : Code) (b : Bits) : Except InflateFault (Nat × Bits) :=
  symbolFrom code longest 1 0 0 0 b

end Bits

/-- Repeats `length` bytes from `distance` bytes back. -/
def repeatBytes (distance : Nat) : Nat → ByteArray → ByteArray
  | 0, out => out
  | length + 1, out => repeatBytes distance length (out.push (out[out.size - distance]?.getD 0))

/-- A number from a table of bases and extra bits. -/
def extended (table : Array (Nat × Nat)) (symbol : Nat) (b : Bits) :
    Except InflateFault (Nat × Bits) :=
  match table[symbol]? with
  | none => .error .badSymbol
  | some (base, extra) => do
    let (more, b) ← b.take extra
    return (base + more, b)

/-- The symbols of a block, fewer than `fuel`. -/
def blockFrom (literals distances : Code) : Nat → Bits → ByteArray →
    Except InflateFault (Bits × ByteArray)
  | 0, _, _ => .error .cutOff
  | fuel + 1, b, out => do
    let (symbol, b) ← b.symbol literals
    if symbol < 256 then blockFrom literals distances fuel b (out.push (UInt8.ofNat symbol))
    else if symbol = 256 then return (b, out)
    else
      let (length, b) ← extended lengthTable (symbol - 257) b
      let (s, b) ← b.symbol distances
      let (distance, b) ← extended distanceTable s b
      if out.size < distance then throw .badDistance
      blockFrom literals distances fuel b (repeatBytes distance length out)

/-- The code lengths of a block, until there are `count` of them; there are fewer than `fuel`
symbols. -/
def lengthsFrom (code : Code) (count : Nat) : Nat → Array Nat → Bits →
    Except InflateFault (Array Nat × Bits)
  | 0, _, _ => .error .badCode
  | fuel + 1, lengths, b =>
    if count ≤ lengths.size then
      if count < lengths.size then .error .badCode else .ok (lengths, b)
    else do
      let (symbol, b) ← b.symbol code
      if symbol < 16 then lengthsFrom code count fuel (lengths.push symbol) b
      else if symbol = 16 then
        match lengths.back? with
        | none => throw .badCode
        | some last =>
          let (more, b) ← b.take 2
          lengthsFrom code count fuel (lengths ++ Array.replicate (3 + more) last) b
      else if symbol = 17 then
        let (more, b) ← b.take 3
        lengthsFrom code count fuel (lengths ++ Array.replicate (3 + more) 0) b
      else
        let (more, b) ← b.take 7
        lengthsFrom code count fuel (lengths ++ Array.replicate (11 + more) 0) b

/-- The lengths of the code for lengths, in the order of `lengthOrder`. -/
def orderedLengths : Nat → List Nat → Array Nat → Bits → Except InflateFault (Array Nat × Bits)
  | 0, _, lengths, b => .ok (lengths, b)
  | _, [], lengths, b => .ok (lengths, b)
  | n + 1, place :: order, lengths, b => do
    let (length, b) ← b.take 3
    orderedLengths n order (lengths.setIfInBounds place length) b

/-- The two codes that a block starts with. -/
def codes (b : Bits) : Except InflateFault (Code × Code × Bits) := do
  let (literals, b) ← b.take 5
  let (distances, b) ← b.take 5
  let (ordered, b) ← b.take 4
  let (lengths, b) ← orderedLengths (ordered + 4) lengthOrder (Array.replicate 19 0) b
  let (all, b) ←
    lengthsFrom (.ofLengths lengths) (literals + 257 + distances + 1) 321 #[] b
  let l := Code.ofLengths (all.extract 0 (literals + 257))
  let d := Code.ofLengths (all.extract (literals + 257) all.size)
  if l.free < 0 || d.free < 0 then throw .badCode
  return (l, d, b)

/-- A block of bytes as they are. -/
def storedBlock (b : Bits) (out : ByteArray) : Except InflateFault (Bits × ByteArray) := do
  let b := b.align
  let (size, b) ← b.take 16
  let (complement, b) ← b.take 16
  if size + complement ≠ 0xFFFF then throw .badStoredLength
  let start := b.position / 8
  if b.data.size < start + size then throw .cutOff
  return ({ b with position := 8 * (start + size) }, out ++ b.data.extract start (start + size))

/-- Blocks up to the last one, fewer than `fuel`; no block has more than `size` symbols. -/
def blocksFrom (size : Nat) : Nat → Bits → ByteArray → Except InflateFault ByteArray
  | 0, _, _ => .error .cutOff
  | fuel + 1, b, out => do
    let (last, b) ← b.take 1
    let (kind, b) ← b.take 2
    let (b, out) ← match kind with
      | 0 => storedBlock b out
      | 1 => blockFrom (.ofLengths fixedLiterals) (.ofLengths fixedDistances) size b out
      | 2 => do
        let (literals, distances, b) ← codes b
        blockFrom literals distances size b out
      | _ => throw .badBlockType
    if last = 1 then return out else blocksFrom size fuel b out

/-- Decompresses data with a header of two bytes; the check at the end is not looked at. -/
def inflate (data : ByteArray) : Except InflateFault ByteArray :=
  match data[0]?, data[1]? with
  | some method, some flags =>
    if method % 16 ≠ 8 || 0x80 ≤ method || (method.toNat * 256 + flags.toNat) % 31 ≠ 0 ||
        flags / 32 % 2 = 1 then .error .badHeader
    else
      let size := 8 * data.size + 1
      blocksFrom size size ⟨data, 16⟩ .empty
  | _, _ => .error .cutOff

end Flate

end PagedReport
