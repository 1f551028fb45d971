import PagedReport.Number.Scalar

/-!
# Line breaking

Lines are filled greedily with words.  A newline always breaks, and a word that is wider than a line
is cut between characters.
-/

namespace PagedReport

structure WrappedLine where
  text : List Char
  /-- The line ends a paragraph. -/
  hardBreak : Bool
deriving DecidableEq, Repr

namespace Wrap

/-- Paragraphs end at newlines, each without one carriage return at its end. -/
def paragraphs (text : List Char) : List (List Char) :=
  (text.splitOn '\n').map fun p ↦ if p.getLast? = some '\r' then p.dropLast else p

/-- Maximal runs without spaces. -/
def words (paragraph : List Char) : List (List Char) :=
  (paragraph.splitOn ' ').filter (!·.isEmpty)

section

variable {K : Type} [Scalar K] (max : K) (width : List Char → K)

/-- Cuts a word: the whole lines it fills after `current`, and what is left. -/
def cut : List Char → List Char → List (List Char) × List Char
  | current, [] => ([], current)
  | current, c :: cs =>
    let next := current ++ [c]
    if max < width next ∧ current ≠ [] then
      let (lines, last) := cut [c] cs
      (current :: lines, last)
    else cut next cs

/-- Adds a word to a line: the lines that this completes, and the line begun. -/
def addWord (current word : List Char) : List (List Char) × List Char :=
  let candidate := if current.isEmpty then word else current ++ ' ' :: word
  if width candidate ≤ max then ([], candidate)
  else
    let done := if current.isEmpty then [] else [current]
    if width word ≤ max then (done, word)
    else
      let (lines, last) := cut max width [] word
      (done ++ lines, last)

/-- Fills lines with words: the completed lines, and the last one. -/
def fill : List Char → List (List Char) → List (List Char) × List Char
  | current, [] => ([], current)
  | current, word :: rest =>
    let (done, current) := addWord max width current word
    let (lines, last) := fill current rest
    (done ++ lines, last)

/-- The lines of a paragraph; with no room at all it is one line as it stands. -/
def paragraphLines (paragraph : List Char) : List WrappedLine :=
  if max ≤ 0 then [⟨paragraph, true⟩]
  else
    let (lines, last) := fill max width [] (words paragraph)
    lines.map (⟨·, false⟩) ++ [⟨last, true⟩]

/-- The lines of a text, none wider than `max` unless it is a single character. -/
def lines (text : List Char) : List WrappedLine :=
  (paragraphs text).flatMap (paragraphLines max width)

end

end Wrap

end PagedReport
