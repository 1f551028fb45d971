import PagedReport.Number.Reading
import PagedReport.Pdf.UnicodeMap

/-!
# Unicode maps are read back

A viewer reads a map line by line: a line that announces entries, as many lines with an entry each,
and a line that ends them.  What stands outside of such blocks is passed over.  Read like this, the
text of a map gives exactly the map.
-/

namespace PagedReport

namespace Pdf

namespace UnicodeMap

/-! ## Reading -/

/-- A number in hexadecimal. -/
def hexNumber? (cs : List Char) : Option Nat :=
  cs.foldlM (fun n c ↦ (digitValue 16 c).map (16 * n + ·)) 0

/-- A character of one unit or two in UTF-16. -/
def ofUnits? : List Nat → Option Char
  | [u] => if u < 0xD800 ∨ 0xDFFF < u ∧ u < 0x10000 then some (Char.ofNat u) else none
  | [u, v] =>
    if 0xD800 ≤ u ∧ u < 0xDC00 ∧ 0xDC00 ≤ v ∧ v < 0xE000 then
      some (Char.ofNat (0x10000 + (u - 0xD800) * 0x400 + (v - 0xDC00)))
    else none
  | _ => none

/-- A glyph and a character, both between angle brackets. -/
def entry? : List Char → Option (UInt16 × Char)
  | ['<', a, b, c, d, '>', ' ', '<', e, f, g, h, '>'] => do
    let glyph ← hexNumber? [a, b, c, d]
    let unit ← hexNumber? [e, f, g, h]
    return (UInt16.ofNat glyph, ← ofUnits? [unit])
  | ['<', a, b, c, d, '>', ' ', '<', e, f, g, h, i, j, k, l, '>'] => do
    let glyph ← hexNumber? [a, b, c, d]
    let first ← hexNumber? [e, f, g, h]
    let second ← hexNumber? [i, j, k, l]
    return (UInt16.ofNat glyph, ← ofUnits? [first, second])
  | _ => none

def blockOpening : List Char := " beginbfchar".toList

def blockClosing : List Char := "endbfchar".toList

/-- How many entries a line announces. -/
def announced? (line : List Char) : Option Nat :=
  let digits := line.takeWhile Char.isDigit
  if line = digits ++ blockOpening ∧ digits ≠ [] then some (Nat.ofDigitChars 10 digits 0) else none

/-- Reads lines, inside of a block with so many entries to come or outside of blocks.  A block with
more or fewer entries than announced, or with none or more than a hundred, is refused. -/
def readLines : Option Nat → List (List Char) → Option UnicodeMap
  | none, [] => some []
  | some _, [] => none
  | none, line :: rest =>
    match announced? line with
    | some n => if 1 ≤ n ∧ n ≤ 100 then readLines (some n) rest else none
    | none => readLines none rest
  | some 0, line :: rest => if line = blockClosing then readLines none rest else none
  | some (n + 1), line :: rest => do
    let e ← entry? line
    return e :: (← readLines (some n) rest)

/-- Reads the text of a map. -/
def read? (text : String) : Option UnicodeMap := readLines none (text.toList.splitOn '\n')

/-! ## Entries -/

theorem digitValue_hexDigit {n : Nat} (hn : n < 16) : digitValue 16 (hexDigit n) = some n := by
  have hall : ∀ i : Fin 16, digitValue 16 (hexDigit i) = some i.val := by decide
  exact hall ⟨n, hn⟩

theorem hexNumber?_word {n : Nat} (hn : n < 0x10000) :
    hexNumber? [hexDigit (n / 4096 % 16), hexDigit (n / 256 % 16), hexDigit (n / 16 % 16),
      hexDigit (n % 16)] = some n := by
  simp only [hexNumber?, List.foldlM_cons, List.foldlM_nil,
    digitValue_hexDigit (Nat.mod_lt _ (by decide : 0 < 16)), Option.map_some, Option.bind_eq_bind,
    Option.bind_some, Option.pure_def, Option.some.injEq]
  omega

theorem toNat_isValid (c : Char) :
    c.toNat < 0xD800 ∨ 0xDFFF < c.toNat ∧ c.toNat < 0x110000 := c.valid

theorem ofUnits?_units (c : Char) : ofUnits? (units c) = some c := by
  have hvalid := toNat_isValid c
  unfold units
  dsimp only
  split
  · next hsmall =>
      have hunit : c.toNat < 0xD800 ∨ 0xDFFF < c.toNat ∧ c.toNat < 0x10000 := by omega
      rw [ofUnits?, if_pos hunit, Char.ofNat_toNat]
  · next hlarge =>
      have hpair : 0x10000 + (0xD800 + (c.toNat - 0x10000) / 0x400 - 0xD800) * 0x400 +
          (0xDC00 + (c.toNat - 0x10000) % 0x400 - 0xDC00) = c.toNat := by omega
      rw [ofUnits?, if_pos (by omega), hpair, Char.ofNat_toNat]

theorem units_lt {c : Char} {u : Nat} (hu : u ∈ units c) : u < 0x10000 := by
  have hvalid := toNat_isValid c
  unfold units at hu
  dsimp only at hu
  split at hu
  · obtain rfl := List.mem_singleton.mp hu
    omega
  · rcases List.mem_cons.mp hu with hfirst | hu
    · omega
    · have hsecond := List.mem_singleton.mp hu
      omega

/-- The line of an entry without its end. -/
def entryChars (e : UInt16 × Char) : List Char :=
  '<' :: (hexWord e.1.toNat).toList ++ ['>', ' ', '<'] ++
    (units e.2).flatMap (fun u ↦ (hexWord u).toList) ++ ['>']

theorem entryLine_toList (e : UInt16 × Char) : (entryLine e).toList = entryChars e ++ ['\n'] := by
  simp [entryLine, entryChars, String.toList_join, List.flatMap_map]

theorem entry?_entryChars (e : UInt16 × Char) : entry? (entryChars e) = some e := by
  obtain ⟨glyph, c⟩ := e
  have hglyph : glyph.toNat < 0x10000 := glyph.toNat_lt
  have hunits := ofUnits?_units c
  have hsmall : ∀ u ∈ units c, u < 0x10000 := fun u hu ↦ units_lt hu
  -- one unit or two
  obtain ⟨u, hu⟩ | ⟨u, v, huv⟩ : (∃ u, units c = [u]) ∨ ∃ u v, units c = [u, v] := by
    unfold units
    dsimp only
    split
    · exact .inl ⟨_, rfl⟩
    · exact .inr ⟨_, _, rfl⟩
  · rw [hu] at hunits hsmall
    have hnumber := hexNumber?_word (hsmall u (by simp))
    simp [entryChars, hexWord, hu, entry?, hexNumber?_word hglyph, hnumber, hunits]
  · rw [huv] at hunits hsmall
    have hfirst := hexNumber?_word (hsmall u (by simp))
    have hsecond := hexNumber?_word (hsmall v (by simp))
    simp [entryChars, hexWord, huv, entry?, hexNumber?_word hglyph, hfirst, hsecond, hunits]

/-! ## Lines -/

/-- Lines with their ends. -/
def ended (lines : List (List Char)) : List Char := lines.flatMap (· ++ ['\n'])

theorem ended_append (xs ys : List (List Char)) : ended (xs ++ ys) = ended xs ++ ended ys :=
  List.flatMap_append

theorem splitOn_ended {lines : List (List Char)} (h : ∀ line ∈ lines, '\n' ∉ line) :
    (ended lines).splitOn '\n' = lines ++ [[]] := by
  induction lines with
  | nil => rfl
  | cons line lines ih =>
      obtain ⟨hline, hrest⟩ := List.forall_mem_cons.mp h
      have hends : ∀ c ∈ line, (c == '\n') = false := by
        intro c hc
        exact beq_eq_false_iff_ne.mpr fun heq ↦ hline (heq ▸ hc)
      rw [ended, List.flatMap_cons, List.append_assoc, List.singleton_append, List.splitOn,
        List.splitOnP_append_cons_of_forall_mem hends '\n' (by decide)]
      exact congrArg (line :: ·) (ih hrest)

theorem hexDigit_ne_end {n : Nat} (hn : n < 16) : '\n' ≠ hexDigit n := by
  have hall : ∀ i : Fin 16, '\n' ≠ hexDigit i := by decide
  exact hall ⟨n, hn⟩

theorem not_mem_hexWord (n : Nat) : '\n' ∉ (hexWord n).toList := by
  simp [hexWord, hexDigit_ne_end (Nat.mod_lt _ (by decide : 0 < 16))]

theorem not_mem_entryChars (e : UInt16 × Char) : '\n' ∉ entryChars e := by
  simp [entryChars, not_mem_hexWord]

/-! ## Blocks -/

def announcement (n : Nat) : List Char := Nat.toDigits 10 n ++ blockOpening

def blockLines (b : UnicodeMap) : List (List Char) :=
  announcement b.length :: b.map entryChars ++ [blockClosing]

theorem blockText_toList (b : UnicodeMap) : (blockText b).toList = ended (blockLines b) := by
  have hentries : (b.map entryLine).flatMap String.toList = ended (b.map entryChars) := by
    rw [ended, List.flatMap_map, List.flatMap_map, List.flatMap_def, List.flatMap_def]
    exact congrArg List.flatten (List.map_congr_left fun e _ ↦ entryLine_toList e)
  have hopening : " beginbfchar\n".toList = blockOpening ++ ['\n'] := by decide
  have hclosing : "endbfchar\n".toList = blockClosing ++ ['\n'] := by decide
  simp only [blockText, String.toList_append, String.toList_join, hentries, hopening, hclosing,
    Nat.toString_eq_ofList_toDigits, String.toList_ofList]
  simp only [blockLines, ended, announcement, List.cons_append, List.flatMap_cons,
    List.flatMap_append, List.flatMap_nil, List.append_assoc, List.append_nil]

theorem announced?_announcement (n : Nat) : announced? (announcement n) = some n := by
  have hdigits : (announcement n).takeWhile Char.isDigit = Nat.toDigits 10 n := by
    rw [announcement, List.takeWhile_append_of_pos fun c hc ↦
      Nat.isDigit_of_mem_toDigits (by decide) (by decide) hc]
    exact List.append_nil _
  rw [announced?, hdigits, if_pos ⟨rfl, Nat.toDigits_ne_nil⟩, Nat.ofDigitChars_ten_toDigits]

theorem readLines_entries (b : UnicodeMap) (rest : List (List Char)) :
    readLines (some b.length) (b.map entryChars ++ blockClosing :: rest) =
      (readLines none rest).map (b ++ ·) := by
  induction b with
  | nil => simp [readLines]
  | cons e b ih =>
      rw [List.map_cons, List.cons_append, List.length_cons, readLines, entry?_entryChars, ih]
      cases readLines none rest <;> rfl

theorem readLines_block {b : UnicodeMap} (hb : b ≠ [] ∧ b.length ≤ blockSize)
    (rest : List (List Char)) :
    readLines none (blockLines b ++ rest) = (readLines none rest).map (b ++ ·) := by
  have hlength : 1 ≤ b.length ∧ b.length ≤ 100 := ⟨List.length_pos_iff.mpr hb.1, hb.2⟩
  rw [blockLines, List.append_assoc, List.cons_append, readLines, announced?_announcement]
  simp only [if_pos hlength]
  exact readLines_entries b rest

theorem readLines_blocks {bs : List UnicodeMap} (hbs : ∀ b ∈ bs, b ≠ [] ∧ b.length ≤ blockSize)
    (rest : List (List Char)) :
    readLines none (bs.flatMap blockLines ++ rest) =
      (readLines none rest).map (bs.flatten ++ ·) := by
  induction bs with
  | nil => simp
  | cons b bs ih =>
      obtain ⟨hb, hmore⟩ := List.forall_mem_cons.mp hbs
      rw [List.flatMap_cons, List.append_assoc, readLines_block hb, ih hmore]
      cases readLines none rest <;> simp

theorem blocksFrom_flatten (fuel : Nat) (m : UnicodeMap) (hm : m.length < fuel) :
    (blocksFrom fuel m).flatten = m ∧
      ∀ b ∈ blocksFrom fuel m, b ≠ [] ∧ b.length ≤ blockSize := by
  induction fuel generalizing m with
  | zero => exact absurd hm (Nat.not_lt_zero _)
  | succ fuel ih =>
      cases m with
      | nil => exact ⟨rfl, nofun⟩
      | cons e m =>
          have hshorter : ((e :: m).drop blockSize).length < fuel := by
            simp only [List.length_drop, List.length_cons, blockSize] at hm ⊢
            omega
          obtain ⟨hflat, hblocks⟩ := ih _ hshorter
          refine ⟨?_, ?_⟩
          · rw [blocksFrom, if_neg (by simp), List.flatten_cons, hflat, List.take_append_drop]
          · rw [blocksFrom, if_neg (by simp)]
            refine List.forall_mem_cons.mpr ⟨⟨by simp [blockSize], ?_⟩, hblocks⟩
            exact List.length_take_le _ _

/-! ## Whole maps -/

def openingLines : List (List Char) := (opening.toList.splitOn '\n').dropLast

def closingLines : List (List Char) := (closing.toList.splitOn '\n').dropLast

theorem frame_lines : opening.toList = ended openingLines ∧ closing.toList = ended closingLines ∧
    ∀ line ∈ openingLines ++ closingLines, '\n' ∉ line ∧ announced? line = none := by
  decide +kernel

theorem readLines_skip {lines : List (List Char)} (h : ∀ line ∈ lines, announced? line = none)
    (rest : List (List Char)) : readLines none (lines ++ rest) = readLines none rest := by
  induction lines with
  | nil => rfl
  | cons line lines ih =>
      obtain ⟨hline, hmore⟩ := List.forall_mem_cons.mp h
      rw [List.cons_append, readLines, hline]
      exact ih hmore

def textLines (m : UnicodeMap) : List (List Char) :=
  openingLines ++ (m.blocks.flatMap blockLines ++ closingLines)

theorem text_toList (m : UnicodeMap) : m.text.toList = ended m.textLines := by
  obtain ⟨hopening, hclosing, -⟩ := frame_lines
  have hblocks : (m.blocks.map blockText).flatMap String.toList =
      ended (m.blocks.flatMap blockLines) := by
    rw [ended, List.flatMap_map, List.flatMap_assoc, List.flatMap_def, List.flatMap_def]
    exact congrArg List.flatten (List.map_congr_left fun b _ ↦ blockText_toList b)
  rw [text, textLines, ended_append, ended_append, ← hopening, ← hclosing, ← hblocks,
    String.toList_append, String.toList_append, String.toList_join, List.append_assoc]

theorem not_mem_blockLines {b : UnicodeMap} : ∀ line ∈ blockLines b, '\n' ∉ line := by
  intro line hline
  rcases List.mem_append.mp hline with hline | hline
  · rcases List.mem_cons.mp hline with rfl | hline
    · intro hend
      rcases List.mem_append.mp hend with hdigit | hword
      · have hclass := Nat.isDigit_of_mem_toDigits (by decide) (by decide) hdigit
        cases hclass
      · revert hword
        decide
    · obtain ⟨e, -, rfl⟩ := List.mem_map.mp hline
      exact not_mem_entryChars e
  · obtain rfl := List.mem_singleton.mp hline
    decide

theorem splitOn_text (m : UnicodeMap) : m.text.toList.splitOn '\n' = m.textLines ++ [[]] := by
  obtain ⟨-, -, hframe⟩ := frame_lines
  have hlines : ∀ line ∈ m.textLines, '\n' ∉ line := by
    intro line hline
    rcases List.mem_append.mp hline with hline | hline
    · exact (hframe line (List.mem_append_left _ hline)).1
    · rcases List.mem_append.mp hline with hline | hline
      · obtain ⟨b, -, hline⟩ := List.mem_flatMap.mp hline
        exact not_mem_blockLines line hline
      · exact (hframe line (List.mem_append_right _ hline)).1
  rw [text_toList, splitOn_ended hlines]

theorem blocks_flatten (m : UnicodeMap) :
    m.blocks.flatten = m ∧ ∀ b ∈ m.blocks, b ≠ [] ∧ b.length ≤ blockSize :=
  blocksFrom_flatten (m.length + 1) m (Nat.lt_succ_self _)

/-- The text of a map is read back as the map. -/
theorem read?_text (m : UnicodeMap) : read? m.text = some m := by
  obtain ⟨-, -, hframe⟩ := frame_lines
  obtain ⟨hflat, hblocks⟩ := m.blocks_flatten
  have hclosed : readLines none (closingLines ++ [[]]) = some [] :=
    readLines_skip (fun line hline ↦ (hframe line (List.mem_append_right _ hline)).2) _
  rw [read?, splitOn_text, textLines, List.append_assoc, List.append_assoc,
    readLines_skip fun line hline ↦ (hframe line (List.mem_append_left _ hline)).2,
    readLines_blocks hblocks, hclosed, hflat, Option.map_some, List.append_nil]

end UnicodeMap

end Pdf

end PagedReport
