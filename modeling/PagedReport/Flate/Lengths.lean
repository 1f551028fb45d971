/-!
# Lengths of codewords

The lengths of a code that is shortest for given frequencies, no codeword being longer than a limit.
-/

namespace PagedReport

namespace Flate

/-- A part of a tree: how often it is used, and how deep its leaves are. -/
structure Branch where
  weight : Nat
  depths : List Nat

def Branch.join (a b : Branch) : Branch :=
  ⟨a.weight + b.weight, (a.depths ++ b.depths).map (· + 1)⟩

/-- Takes the lighter of two first branches; of equal ones the leaf. -/
def takeLightest : List Branch → List Branch → Option (Branch × List Branch × List Branch)
  | [], [] => none
  | leaf :: leaves, [] => some (leaf, leaves, [])
  | [], inner :: inners => some (inner, [], inners)
  | leaf :: leaves, inner :: inners =>
    if inner.weight < leaf.weight then some (inner, leaf :: leaves, inners)
    else some (leaf, leaves, inner :: inners)

/-- Joins the two lightest branches until one is left, in at most `fuel` steps. -/
def joinAll : Nat → List Branch → List Branch → List Nat
  | 0, _, _ => []
  | fuel + 1, leaves, inners =>
    match takeLightest leaves inners with
    | none => []
    | some (a, leaves, inners) =>
      match takeLightest leaves inners with
      | none => a.depths
      | some (b, leaves, inners) => joinAll fuel leaves (inners ++ [a.join b])

/-- How many codewords have each length, given frequencies in order; a lone codeword has one bit. -/
def countsOf (weights : List Nat) : Array Nat :=
  let depths :=
    match weights with
    | [_] => [1]
    | _ => joinAll (weights.length + 1) (weights.map (⟨·, [0]⟩)) []
  depths.foldl (fun counts d ↦ counts.modify d (· + 1)) (Array.replicate (weights.length + 2) 0)

/-- Makes one codeword that is too many possible: a longest one goes next to the longest shorter
one. -/
def lengthen (limit : Nat) (counts : Array Nat) : Array Nat :=
  let counts := counts.modify limit (· - 1)
  match (List.range (limit - 1)).reverse.find? fun i ↦ counts.getD (i + 1) 0 ≠ 0 with
  | some i => (counts.modify (i + 1) (· - 1)).modify (i + 2) (· + 2)
  | none => counts

def lengthenTimes (limit : Nat) : Nat → Array Nat → Array Nat
  | 0, counts => counts
  | n + 1, counts => lengthenTimes limit n (lengthen limit counts)

/-- Moves what is longer than the limit to the limit and makes room for it. -/
def limitCounts (limit : Nat) (counts : Array Nat) : Array Nat :=
  let long := (counts.toList.drop (limit + 1)).foldl (· + ·) 0
  let padded := counts ++ Array.replicate (limit + 1) 0
  let counts := (padded.extract 0 (limit + 1)).modify limit (· + long)
  let used := (List.range limit).foldl
    (fun total i ↦ total + counts.getD (i + 1) 0 * Nat.pow 2 (limit - 1 - i)) 0
  if (counts.toList.drop 1).foldl (· + ·) 0 ≤ 1 then counts
  else lengthenTimes limit (used - Nat.pow 2 limit) counts

/-- Gives lengths to symbols from the most frequent one on. -/
def assign (counts : Array Nat) : (length : Nat) → Nat → List Nat → Array Nat → Array Nat
  | _, 0, _, lengths => lengths
  | length, more + 1, symbols, lengths =>
    let n := counts.getD length 0
    let lengths := (symbols.take n).foldl (fun ls s ↦ ls.setIfInBounds s length) lengths
    assign counts (length + 1) more (symbols.drop n) lengths

/-- The lengths of all symbols; one that does not occur has length zero. -/
def lengthsOf (limit : Nat) (frequencies : Array Nat) : Array Nat :=
  let used := (List.range frequencies.size).filter fun s ↦ frequencies.getD s 0 ≠ 0
  let ordered := used.mergeSort fun a b ↦ frequencies.getD a 0 ≤ frequencies.getD b 0
  let counts := limitCounts limit (countsOf (ordered.map fun s ↦ frequencies.getD s 0))
  assign counts 1 limit ordered.reverse (Array.replicate frequencies.size 0)

end Flate

end PagedReport
