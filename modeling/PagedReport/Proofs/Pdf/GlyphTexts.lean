import PagedReport.Proofs.Pdf.ReadBack

/-!
# Texts as glyphs

The map that a font comes with is a list of blocks, each with the number of its entries, and the
entries of all blocks are the map in the order of its glyphs.  A font that notes what it encodes has
in the end a map by which all of its texts are read, up to the characters that have no glyph.
-/

namespace PagedReport

namespace Pdf

/-! ## Blocks of a map -/

namespace UnicodeMap

/-- Reads the blocks of a map line by line, inside of a block or outside of all: each with the
number that its first line declares and with the entries up to its last line. -/
def readBlocks : Option (Nat × UnicodeMap) → List (List Char) → Option (List (Nat × UnicodeMap))
  | none, [] => some []
  | some _, [] => none
  | none, line :: rest => readBlocks ((announced? line).map fun n ↦ (n, [])) rest
  | some (n, entries), line :: rest =>
    if line = blockClosing then (readBlocks none rest).map ((n, entries) :: ·)
    else do
      let e ← entry? line
      readBlocks (some (n, entries ++ [e])) rest

/-- The blocks that the text of a map is made of, with the numbers that they declare. -/
def declaredBlocks? (text : String) : Option (List (Nat × UnicodeMap)) :=
  readBlocks none (text.toList.splitOn '\n')

theorem readBlocks_skip {lines : List (List Char)} (h : ∀ line ∈ lines, announced? line = none)
    (rest : List (List Char)) : readBlocks none (lines ++ rest) = readBlocks none rest := by
  induction lines with
  | nil => rfl
  | cons line lines ih =>
      obtain ⟨hline, hmore⟩ := List.forall_mem_cons.mp h
      rw [List.cons_append, readBlocks, hline]
      exact ih hmore

theorem entryChars_ne_closing (e : UInt16 × Char) : entryChars e ≠ blockClosing := by
  intro heq
  have hhead : '<' = 'e' := (List.cons.inj heq).1
  revert hhead
  decide

theorem readBlocks_entries (n : Nat) (entries b : UnicodeMap) (rest : List (List Char)) :
    readBlocks (some (n, entries)) (b.map entryChars ++ blockClosing :: rest) =
      (readBlocks none rest).map ((n, entries ++ b) :: ·) := by
  induction b generalizing entries with
  | nil => simp [readBlocks]
  | cons e b ih =>
      rw [List.map_cons, List.cons_append, readBlocks, if_neg (entryChars_ne_closing e),
        entry?_entryChars]
      simp [ih]

theorem readBlocks_block (b : UnicodeMap) (rest : List (List Char)) :
    readBlocks none (blockLines b ++ rest) =
      (readBlocks none rest).map ((b.length, b) :: ·) := by
  rw [blockLines, List.append_assoc, List.cons_append, readBlocks, announced?_announcement]
  exact readBlocks_entries b.length [] b rest

theorem readBlocks_blocks (bs : List UnicodeMap) (rest : List (List Char)) :
    readBlocks none (bs.flatMap blockLines ++ rest) =
      (readBlocks none rest).map (bs.map (fun b ↦ (b.length, b)) ++ ·) := by
  induction bs with
  | nil => simp
  | cons b bs ih =>
      rw [List.flatMap_cons, List.append_assoc, readBlocks_block, ih]
      cases readBlocks none rest <;> rfl

/-- Every block of a text declares as many entries as it has. -/
theorem declaredBlocks?_text (m : UnicodeMap) :
    declaredBlocks? m.text = some (m.blocks.map fun b ↦ (b.length, b)) := by
  obtain ⟨-, -, hframe⟩ := frame_lines
  have hclosed : readBlocks none (closingLines ++ [[]]) = some [] :=
    readBlocks_skip (fun line hline ↦ (hframe line (List.mem_append_right _ hline)).2) _
  rw [declaredBlocks?, splitOn_text, textLines, List.append_assoc, List.append_assoc,
    readBlocks_skip fun line hline ↦ (hframe line (List.mem_append_left _ hline)).2,
    readBlocks_blocks, hclosed, Option.map_some, List.append_nil]

theorem mem_glyphs_note (g : UInt16) (c : Char) (m : UnicodeMap) (g' : UInt16) :
    g' ∈ (note g c m).map Prod.fst ↔ g' = g ∨ g' ∈ m.map Prod.fst := by
  fun_induction note g c m <;> grind

end UnicodeMap

/-! ## Texts of a font -/

namespace EmbeddedFont

/-- The bytes of texts that are encoded one after another, and the font with the glyphs of all
noted. -/
def encodeAll (f : EmbeddedFont) : List String → List (List UInt8) × EmbeddedFont
  | [] => ([], f)
  | text :: texts =>
    let (bytes, f) := f.encode text
    let (more, f) := f.encodeAll texts
    (bytes :: more, f)

theorem encodeAll_eq (f : EmbeddedFont) (texts : List String) : f.encodeAll texts =
    (texts.map fun text ↦ (text.toList.map f.program.glyph).flatMap glyphBytes,
      (texts.flatMap String.toList).foldl use f) := by
  induction texts generalizing f with
  | nil => rfl
  | cons text texts ih =>
      have hprogram : (f.encode text).2.program = f.program := f.foldl_use_program text.toList
      rw [encodeAll]
      dsimp only
      rw [ih, hprogram, List.flatMap_cons, List.foldl_append, List.map_cons, List.flatMap_map]
      rfl

/-- The glyphs noted are those of the characters that were drawn, but for the missing glyph. -/
theorem mem_glyphs_foldl_use (f : EmbeddedFont) (cs : List Char) (g : UInt16) :
    g ∈ (cs.foldl use f).used.map Prod.fst ↔
      g ∈ f.used.map Prod.fst ∨ g ≠ 0 ∧ ∃ c ∈ cs, f.program.glyph c = g := by
  induction cs generalizing f with
  | nil => simp
  | cons c cs ih =>
      have hprogram : (f.use c).program = f.program := f.foldl_use_program [c]
      rw [List.foldl_cons, ih, hprogram, use_used]
      simp only [List.mem_cons, exists_eq_or_imp]
      split
      · next hmissing => grind
      · next hglyph =>
          rw [UnicodeMap.mem_glyphs_note]
          grind

theorem lookup_missing {f : EmbeddedFont} (hf : f.used = []) (cs : List Char) :
    (cs.foldl use f).used.lookup 0 = none := by
  have hmissing : (0 : UInt16) ∉ (cs.foldl use f).used.map Prod.fst := by
    simp [mem_glyphs_foldl_use, hf]
  refine List.lookup_eq_none_iff.mpr fun e he ↦ ?_
  have hother : e.1 ≠ 0 := fun heq ↦ hmissing (List.mem_map.mpr ⟨e, he, heq⟩)
  simpa using hother.symm

/-- The text of a map consists of blocks of one to a hundred entries, as many as each declares,
whose entries are the map in the order of its glyphs.  And if all of the characters drawn in a font
that share a glyph are the same, then every text is read by the map that the font has in the end: a
character that has a glyph as itself, and no other. -/
theorem glyphs_read_back (m : UnicodeMap) (hm : m.Sorted) (name : String) (program : TrueType)
    (texts : List String)
    (hown : ∀ c ∈ texts.flatMap String.toList, program.glyph c ≠ 0 →
      ∀ c' ∈ texts.flatMap String.toList, program.glyph c' = program.glyph c → c' = c) :
    (∃ blocks, UnicodeMap.declaredBlocks? m.text = some blocks ∧
      (∀ b ∈ blocks, b.1 = b.2.length ∧ 1 ≤ b.1 ∧ b.1 ≤ 100) ∧
      blocks.flatMap Prod.snd = m ∧
      (blocks.flatMap Prod.snd).Pairwise fun e e' ↦ e.1 < e'.1) ∧
    ∃ operands final map, ({ name, program } : EmbeddedFont).encodeAll texts = (operands, final) ∧
      map.Sorted ∧ final.object.unicodeMap? = some map ∧
      operands.map (fun bytes ↦ (Object.codes? bytes).map (·.map fun code ↦ map.lookup code)) =
        texts.map fun text ↦
          some (text.toList.map fun c ↦ if program.glyph c = 0 then none else some c) := by
  constructor
  · obtain ⟨hflat, hblocks⟩ := m.blocks_flatten
    have hentries : (m.blocks.map fun b ↦ (b.length, b)).flatMap Prod.snd = m := by
      rw [List.flatMap_map, List.flatMap_id', hflat]
    refine ⟨_, m.declaredBlocks?_text, ?_, hentries, hentries.symm ▸ hm⟩
    intro b hb
    obtain ⟨entries, hmem, rfl⟩ := List.mem_map.mp hb
    obtain ⟨hne, hsize⟩ := hblocks entries hmem
    exact ⟨rfl, List.length_pos_iff.mpr hne, hsize⟩
  · let blank : EmbeddedFont := { name, program }
    let final := (texts.flatMap String.toList).foldl use blank
    refine ⟨_, final, final.used, blank.encodeAll_eq texts, ?_, final.unicodeMap?_object, ?_⟩
    · exact foldl_use_sorted (f := blank) List.Pairwise.nil _
    · rw [List.map_map]
      refine List.map_congr_left fun text htext ↦ ?_
      rw [Function.comp_apply, Object.codes?_glyphBytes, Option.map_some, List.map_map]
      refine congrArg some (List.map_congr_left fun c hc ↦ ?_)
      have hdrawn : c ∈ texts.flatMap String.toList := List.mem_flatMap.mpr ⟨text, htext, hc⟩
      rw [Function.comp_apply]
      split
      · next hmissing => rw [hmissing]; exact lookup_missing (f := blank) rfl _
      · next hglyph => exact lookup_drawn (f := blank) rfl hdrawn hglyph (hown c hdrawn hglyph)

/-- A font file with the letters `A` and `B`, 1229 and 1365 of 2048 units wide, and a missing glyph
of 512 units: one block of bytes is its header, its horizontal header and its profile. -/
def capitalsFile : ByteArray :=
  let record := fun (tag offset size : Nat) ↦
    BigEndian.bytes tag 4 ++ List.replicate 4 0 ++ BigEndian.bytes offset 4 ++
      BigEndian.bytes size 4
  let words := fun (ws : List Nat) ↦ ws.flatMap (BigEndian.bytes · 2)
  let directory := BigEndian.bytes 0x00010000 4 ++ BigEndian.bytes 5 2 ++ List.replicate 6 0 ++
    record TrueType.tagHead 92 54 ++ record TrueType.tagHorizontal 92 54 ++
    record TrueType.tagProfile 92 54 ++ record TrueType.tagMap 146 26 ++
    record TrueType.tagAdvances 172 12
  let block := BigEndian.bytes 0x00010000 4 ++ BigEndian.bytes 3 2 ++ List.replicate 12 0 ++
    BigEndian.bytes 2048 2 ++ List.replicate 14 0 ++ BigEndian.bytes 3 2 ++ List.replicate 18 0
  let map := words [0, 1, 0, 3, 0, 12, 6, 14, 0, 0x41, 2, 1, 2]
  let advances := words [512, 0, 1229, 0, 1365, 0]
  ⟨(directory ++ block ++ map ++ advances).toArray⟩

/-- The program of the file. -/
def capitals : TrueType := (TrueType.read capitalsFile).toOption.get (by decide +kernel)

theorem capitals_glyphs :
    capitals.glyph 'A' = 1 ∧ capitals.glyph 'B' = 2 ∧ capitals.glyph '?' = 0 := by decide +kernel

theorem glyphs_read_back_capitals :
    (∃ blocks, UnicodeMap.declaredBlocks? (UnicodeMap.text [(3, 'A'), (7, '😀')]) = some blocks ∧
      blocks.flatMap Prod.snd = [(3, 'A'), (7, '😀')]) ∧
    ∃ operands final map,
      ({ name := "Capitals", program := capitals } : EmbeddedFont).encodeAll ["AB", "B?A"] =
        (operands, final) ∧
      final.object.unicodeMap? = some map ∧
      operands.map (fun bytes ↦ (Object.codes? bytes).map (·.map fun code ↦ map.lookup code)) =
        [some [some 'A', some 'B'], some [some 'B', none, some 'A']] := by
  have hsorted : UnicodeMap.Sorted [(3, 'A'), (7, '😀')] := by
    simp [UnicodeMap.Sorted]
  have hown : ∀ c ∈ ["AB", "B?A"].flatMap String.toList, capitals.glyph c ≠ 0 →
      ∀ c' ∈ ["AB", "B?A"].flatMap String.toList,
        capitals.glyph c' = capitals.glyph c → c' = c := by
    simp [capitals_glyphs]
  have hchars : ["AB", "B?A"].map (fun text : String ↦
      some (text.toList.map fun c ↦ if capitals.glyph c = 0 then none else some c)) =
        [some [some 'A', some 'B'], some [some 'B', none, some 'A']] := by
    simp [capitals_glyphs]
  obtain ⟨⟨blocks, hblocks, -, hentries, -⟩, operands, final, map, hall, -, hmap, hread⟩ :=
    glyphs_read_back _ hsorted "Capitals" capitals ["AB", "B?A"] hown
  exact ⟨⟨blocks, hblocks, hentries⟩, operands, final, map, hall, hmap, hread.trans hchars⟩

end EmbeddedFont

end Pdf

end PagedReport
