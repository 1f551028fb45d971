/-!
# Repetitions

Data as literal bytes and repetitions of earlier bytes.  At every place the longest repetition is
looked for among the earlier places where the same three bytes begin, the nearest of equal ones
first; it is put off by a byte if the next place has a longer one.
-/

namespace PagedReport

namespace Flate

inductive Token where
  | literal (byte : UInt8)
  | copy (length distance : Nat)
deriving Repr

def shortestCopy : Nat := 3

def longestCopy : Nat := 258

def windowSize : Nat := 32768

/-- Where the three bytes of a place are filed. -/
def hashAt (data : ByteArray) (i : Nat) : Nat :=
  let byte := fun (j : Nat) ↦ ((data[j]?).getD 0).toNat
  (byte i * 1024 ^^^ byte (i + 1) * 32 ^^^ byte (i + 2)) % windowSize

/-- For every place the last place before it that is filed with it; zero stands for none. -/
def chains (data : ByteArray) : Array Nat :=
  ((List.range (data.size - 2)).foldl (fun (last, chain) i ↦
    let h := hashAt data i
    (last.setIfInBounds h i, chain.push (last.getD h 0)))
    (Array.replicate windowSize 0, #[])).2

/-- How many bytes from two places on are equal, up to `limit`. -/
def commonLength (data : ByteArray) (i j : Nat) : Nat → Nat
  | 0 => 0
  | limit + 1 =>
    if data[i]? == data[j]? then commonLength data (i + 1) (j + 1) limit + 1 else 0

/-- Places tried in one round of a search. -/
def roundSize : Nat := 3

/-- Rounds of a search, fewer if there is a good repetition already. -/
def roundsFor (length : Nat) : Nat := if 32 ≤ length then 64 else 256

/-- Goes back along a chain from `at_`, at most `fuel` places, for a repetition at `i` that is
longer than the best one so far.  A round ends with a place that looks better. -/
def searchFrom (data : ByteArray) (chain : Array Nat) (i limit reach : Nat) :
    Nat → (rounds left at_ : Nat) → (best : Nat × Nat) → Nat × Nat
  | 0, _, _, _, best => best
  | fuel + 1, rounds, left, at_, best =>
    let (rounds, left) := if left = 0 then (rounds - 1, roundSize) else (rounds, left)
    if rounds = 0 then best
    else
      let place := chain.getD at_ 0
      if place = 0 ∨ reach < i - place then best
      else
        let length := best.1
        let better :=
          data[place + length - 1]? == data[i + length - 1]? &&
            data[place + length]? == data[i + length]?
        if better then
          let found := commonLength data place i limit
          if length < found then
            if found = limit then (found, i - place)
            else searchFrom data chain i limit reach fuel rounds 0 place (found, i - place)
          else searchFrom data chain i limit reach fuel rounds 0 place best
        else searchFrom data chain i limit reach fuel rounds (left - 1) place best

/-- The longest repetition at a place, as length and distance, if it is longer than `length`. -/
def search (data : ByteArray) (chain : Array Nat) (i length : Nat) : Option (Nat × Nat) :=
  let limit := min longestCopy (data.size - i)
  if limit ≤ length then none
  else
    let reach := min i (windowSize - limit)
    let (found, distance) :=
      searchFrom data chain i limit reach i (roundsFor length + 1) 0 i (length, 0)
    if distance = 0 ∨ found = shortestCopy ∧ 8192 ≤ distance then none else some (found, distance)

/-- A repetition that is put off: the byte before the next place, its length and its distance. -/
structure Deferred where
  byte : UInt8
  length : Nat
  distance : Nat

/-- A repetition this long is never put off. -/
def longEnough : Nat := 128

/-- The tokens from a place on, in at most `fuel` steps; `acc` is in order. -/
def tokensFrom (data : ByteArray) (chain : Array Nat) :
    Nat → Nat → Option Deferred → Array Token → Array Token
  | 0, _, _, acc => acc
  | fuel + 1, i, deferred, acc =>
    match data[i]? with
    | none => acc
    | some byte =>
      match deferred with
      | none =>
        match search data chain i (shortestCopy - 1) with
        | none => tokensFrom data chain fuel (i + 1) none (acc.push (.literal byte))
        | some (length, distance) =>
          if longEnough ≤ length then
            tokensFrom data chain fuel (i + length) none (acc.push (.copy length distance))
          else tokensFrom data chain fuel (i + 1) (some ⟨byte, length, distance⟩) acc
      | some d =>
        match search data chain i d.length with
        | none =>
          tokensFrom data chain fuel (i + d.length - 1) none (acc.push (.copy d.length d.distance))
        | some (length, distance) =>
          let acc := acc.push (.literal d.byte)
          if longEnough ≤ length then
            tokensFrom data chain fuel (i + length) none (acc.push (.copy length distance))
          else tokensFrom data chain fuel (i + 1) (some ⟨byte, length, distance⟩) acc

def tokens (data : ByteArray) : Array Token :=
  tokensFrom data (chains data) (data.size + 1) 0 none #[]

end Flate

end PagedReport
