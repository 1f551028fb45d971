import PagedReport.Proofs.Template.Decoding

/-!
# Decoders along the schema

Every part of a template is read by what its site says: its own values and those of the child
elements that are read, whatever else stands between them.
-/

namespace PagedReport

namespace Template

open Report

/-! ## Colours -/

theorem color_decodes : Decodes .color color := by
  refine Decodes.of_values rfl fun h ↦ ?_
  refine .bind (.value integer_decides h.attributes "r") fun red ↦
    .bind (.value integer_decides h.attributes "g") fun green ↦
      .bind (.value integer_decides h.attributes "b") fun blue ↦ (?_ : Decode [] _ _)
  dsimp only
  split
  · exact (Decode.say _ _).returns _
  · exact .pure _

/-! ## Elements -/

theorem Alike.element {C : Type} {site : Site} {e e' : Xml.Element} {ss : List Slot}
    {d d' : Decoder C} (h : Alike site e e') (hd : Decode ss d d') :
    Decode (⟨.number, "spacingAfter", string e "spacingAfter", e.place⟩ :: ss) (element e d)
      (element e' d') := by
  rw [Template.element, Template.element, h.string?_eq]
  exact .bind (.value number_decides h.attributes "spacingAfter") fun _ ↦ hd.returns _

theorem text_decodes {C : Type} (g : Text → C) :
    Decodes .text fun e ↦ element e (g <$> text e) := by
  refine Decodes.of_values rfl fun h ↦ h.element (Decode.map ?_ g)
  rw [text, text, h.string?_eq, h.text]
  exact .bind (.value optionalNumber_decides h.attributes "x") fun _ ↦
    .bind (.value optionalNumber_decides h.attributes "y") fun _ ↦
      .bind (.value number_decides h.attributes "width") fun _ ↦
        .bind (.value align_decides h.attributes "align") fun _ ↦
          .returns (.value boolean_decides h.attributes "wrap") _

theorem image_decodes {C : Type} (g : Report.Image → C) :
    Decodes .image fun e ↦ element e (g <$> image e) := by
  refine Decodes.of_values rfl fun h ↦ h.element (Decode.map ?_ g)
  rw [image, image, h.string_eq]
  exact .bind (.value number_decides h.attributes "x") fun _ ↦
    .bind (.value number_decides h.attributes "y") fun _ ↦
      .bind (.value number_decides h.attributes "width") fun _ ↦
        .bind (.value number_decides h.attributes "height") fun _ ↦
          .returns (.value align_decides h.attributes "align") _

theorem rule_decodes {C : Type} (g : Rule → C) :
    Decodes .rule fun e ↦ element e (g <$> rule e) := by
  refine Decodes.of_values rfl fun h ↦ h.element (Decode.map ?_ g)
  rw [rule, rule, h.string?_eq]
  exact .bind (.value number_decides h.attributes "x1") fun _ ↦
    .bind (.value number_decides h.attributes "y1") fun _ ↦
      .bind (.value number_decides h.attributes "x2") fun _ ↦
        .bind (.value number_decides h.attributes "y2") fun _ ↦
          .returns (.value number_decides h.attributes "width") _

/-! ### Tables -/

theorem column_decodes : Decodes .column column := by
  refine Decodes.of_values rfl fun h ↦ ?_
  rw [column, column, h.string_eq]
  exact .bind (.value number_decides h.attributes "width") fun _ ↦
    .returns (.value align_decides h.attributes "align") _

theorem columns_decodes : Decodes .columns fun e ↦ (e.named "column").mapM column :=
  Decodes.of_alike fun h ↦ h.named rfl column_decodes

theorem table_steps : Steps .table tablePart := by
  constructor
  · intro tag s hmem t c c' hc hc' h
    simp only [Site.children, List.mem_cons, Prod.mk.injEq, List.not_mem_nil, or_false] at hmem
    simp only [tablePart, hc, hc']
    obtain ⟨rfl, rfl⟩ | ⟨rfl, rfl⟩ := hmem
    · exact (color_decodes h).returns _
    · exact (columns_decodes h).returns _
  · intro t c hc
    unfold tablePart
    split <;> simp_all [Site.child?, Site.children]

theorem table_decodes {C : Type} (g : Table → C) :
    Decodes .table fun e ↦ element e (g <$> table e) := by
  refine Decodes.of_alike fun h ↦ h.element (Decode.map ?_ g)
  rw [table, table, h.string_eq, h.string?_eq]
  exact .bind (.value boolean_decides h.attributes "border") fun _ ↦ table_steps.foldlM h _

/-! ### Lists -/

theorem bulletList_decodes {C : Type} (g : BulletList → C) :
    Decodes .list fun e ↦ element e (g <$> bulletList e) := by
  refine Decodes.of_values rfl fun h ↦ h.element (Decode.map ?_ g)
  rw [bulletList, bulletList, h.string_eq, h.string?_eq]
  exact .returns (.value number_decides h.attributes "indent") _

theorem entry_decodes : Decodes .plain fun e ↦ pure (entry e) := by
  refine Decodes.of_values rfl fun h ↦ ?_
  rw [entry, entry, h.string_eq]
  exact .pure _

theorem keyValues_decodes {C : Type} (g : KeyValues → C) :
    Decodes .keyValues fun e ↦ element e (g <$> keyValues e) := by
  refine Decodes.of_alike fun {e e'} h ↦ h.element (Decode.map ?_ g)
  have hentries := h.named rfl entry_decodes
  rw [List.mapM_pure, List.mapM_pure] at hentries
  rw [keyValues, keyValues, h.string?_eq]
  exact .bind (.value number_decides h.attributes "keyWidth") fun keyWidth ↦
    .bind (.value number_decides h.attributes "valueWidth") fun valueWidth ↦
      .bind (.value align_decides h.attributes "valueAlign") fun valueAlign ↦
        hentries.ofPure fun entries ↦
          KeyValues.mk (string? e "style") keyWidth valueWidth valueAlign entries

/-! ### Boxes -/

theorem number_content : Decodes .number (content .number) :=
  Decodes.of_values rfl fun h ↦ .content number_decides h.name h.text

theorem align_content : Decodes .alignment (content .align) :=
  Decodes.of_values rfl fun h ↦ .content align_decides h.name h.text

theorem box_steps : Steps .box boxPart := by
  constructor
  · intro tag s hmem b c c' hc hc' h
    simp only [Site.children, List.mem_cons, Prod.mk.injEq, List.not_mem_nil, or_false] at hmem
    simp only [boxPart, hc, hc']
    obtain ⟨rfl, rfl⟩ | ⟨rfl, rfl⟩ | ⟨rfl, rfl⟩ := hmem
    · exact (color_decodes h).returns _
    · exact (color_decodes h).returns _
    · exact (number_content h).returns _
  · intro b c hc
    unfold boxPart
    split <;> simp_all [Site.child?, Site.children]

theorem box_decodes {C : Type} (g : Box → C) : Decodes .box fun e ↦ element e (g <$> box e) := by
  refine Decodes.of_alike fun h ↦ h.element (Decode.map ?_ g)
  exact .bind (.value number_decides h.attributes "x") fun _ ↦
    .bind (.value number_decides h.attributes "y") fun _ ↦
      .bind (.value number_decides h.attributes "width") fun _ ↦
        .bind (.value number_decides h.attributes "height") fun _ ↦
          .bind (.value number_decides h.attributes "radius") fun _ ↦
            .bind (.value number_decides h.attributes "borderWidth") fun _ ↦
              box_steps.foldlM h _

/-! ### By their tags -/

theorem bandElement_knows : Knows .band bandElement? := by
  constructor
  · intro tag s hmem c c' hc hc' h
    simp only [Site.children, List.mem_cons, Prod.mk.injEq, List.not_mem_nil, or_false] at hmem
    simp only [bandElement?, hc, hc']
    obtain ⟨rfl, rfl⟩ | ⟨rfl, rfl⟩ | ⟨rfl, rfl⟩ := hmem
    · exact ⟨_, _, rfl, rfl, text_decodes _ h⟩
    · exact ⟨_, _, rfl, rfl, image_decodes _ h⟩
    · exact ⟨_, _, rfl, rfl, rule_decodes _ h⟩
  · intro c hc
    unfold bandElement?
    split <;> simp_all [Site.child?, Site.children]

theorem pageBreak_decodes :
    Decodes .plain fun e ↦ pure (⟨string? e "condition", 0, .pageBreak⟩ : Element Content) := by
  refine Decodes.of_values rfl fun h ↦ ?_
  rw [h.string?_eq]
  exact .pure _

theorem sectionElement_knows : Knows .sectionBlock sectionElement? := by
  constructor
  · intro tag s hmem c c' hc hc' h
    simp only [Site.children, List.mem_cons, Prod.mk.injEq, List.not_mem_nil, or_false] at hmem
    simp only [sectionElement?, bandElement?, hc, hc']
    obtain ⟨rfl, rfl⟩ | ⟨rfl, rfl⟩ | ⟨rfl, rfl⟩ | ⟨rfl, rfl⟩ | ⟨rfl, rfl⟩ | ⟨rfl, rfl⟩ |
      ⟨rfl, rfl⟩ | ⟨rfl, rfl⟩ := hmem
    · exact ⟨_, _, rfl, rfl, (text_decodes _ h).map _⟩
    · exact ⟨_, _, rfl, rfl, (image_decodes _ h).map _⟩
    · exact ⟨_, _, rfl, rfl, table_decodes _ h⟩
    · exact ⟨_, _, rfl, rfl, bulletList_decodes _ h⟩
    · exact ⟨_, _, rfl, rfl, keyValues_decodes _ h⟩
    · exact ⟨_, _, rfl, rfl, (rule_decodes _ h).map _⟩
    · exact ⟨_, _, rfl, rfl, box_decodes _ h⟩
    · exact ⟨_, _, rfl, rfl, pageBreak_decodes h⟩
  · intro c hc
    unfold sectionElement? bandElement?
    split <;> simp_all [Site.child?, Site.children]

/-! ## Blocks -/

theorem plain_decodes {α : Type} (g : String → α) : Decodes .plain fun e ↦ pure (g e.chardata) := by
  refine Decodes.of_values rfl fun h ↦ ?_
  rw [h.text]
  exact .pure _

theorem metadata_steps : Steps .metadata fun m e ↦ pure (metadataPart m e) := by
  constructor
  · intro tag s hmem m c c' hc hc' h
    simp only [Site.children, List.mem_cons, Prod.mk.injEq, List.not_mem_nil, or_false] at hmem
    simp only [metadataPart, hc, hc']
    obtain ⟨rfl, rfl⟩ | ⟨rfl, rfl⟩ | ⟨rfl, rfl⟩ | ⟨rfl, rfl⟩ | ⟨rfl, rfl⟩ := hmem
    · exact plain_decodes (fun text ↦ { m with name := text }) h
    · exact plain_decodes (fun text ↦ { m with description := text }) h
    · exact plain_decodes (fun text ↦ { m with author := text }) h
    · exact plain_decodes (fun text ↦ { m with created := text }) h
    · exact plain_decodes (fun text ↦ { m with modified := text }) h
  · intro m c hc
    unfold metadataPart
    split <;> simp_all [Site.child?, Site.children]

theorem metadata_decodes : Decodes .metadata fun e ↦ pure (metadata e) := by
  refine Decodes.of_alike fun h ↦ ?_
  have hfold := metadata_steps.foldlM h {}
  rw [List.foldlM_pure, List.foldlM_pure] at hfold
  exact hfold

theorem margins_decodes : Decodes .margins margins := by
  refine Decodes.of_values rfl fun h ↦ ?_
  exact .bind (.value number_decides h.attributes "top") fun _ ↦
    .bind (.value number_decides h.attributes "right") fun _ ↦
      .bind (.value number_decides h.attributes "bottom") fun _ ↦
        .returns (.value number_decides h.attributes "left") _

theorem customSize_decodes (p : PageSetup Float) : Decodes .customSize fun e ↦ do
    let width ← value .number e "width"
    let height ← value .number e "height"
    if 0 < width ∧ 0 < height then return { p with customSize := some ⟨width, height⟩ }
    say .ignoredCustomSize
    return p := by
  refine Decodes.of_values rfl fun h ↦ ?_
  refine .bind (.value number_decides h.attributes "width") fun width ↦
    .bind (.value number_decides h.attributes "height") fun height ↦ (?_ : Decode [] _ _)
  split
  · exact .pure _
  · exact (Decode.say _ _).returns _

theorem setup_steps : Steps .document setupPart := by
  constructor
  · intro tag s hmem p c c' hc hc' h
    simp only [Site.children, List.mem_cons, Prod.mk.injEq, List.not_mem_nil, or_false] at hmem
    simp only [setupPart, hc, hc']
    obtain ⟨rfl, rfl⟩ | ⟨rfl, rfl⟩ := hmem
    · exact (margins_decodes h).returns _
    · exact customSize_decodes p h
  · intro p c hc
    unfold setupPart
    split <;> simp_all [Site.child?, Site.children]

theorem setup_decodes : Decodes .document setup := by
  refine Decodes.of_alike fun h ↦ ?_
  exact .bind (.setting orientation_decides h.attributes "orientation") fun _ ↦
    .bind (.setting unit_decides h.attributes "unit") fun _ ↦
      .bind (.setting format_decides h.attributes "format") fun _ ↦ setup_steps.foldlM h _

theorem fontFile_decodes : Decodes .plain fun e ↦ pure (fontFile e) := by
  refine Decodes.of_values rfl fun h ↦ ?_
  rw [fontFile, fontFile, h.string_eq]
  exact .pure _

theorem fonts_decodes : Decodes .fonts fun e ↦ pure ((e.named "font").map fontFile) := by
  refine Decodes.of_alike fun h ↦ ?_
  have hfonts := h.named rfl fontFile_decodes
  rw [List.mapM_pure, List.mapM_pure] at hfonts
  exact hfonts

theorem style_steps : Steps .style stylePart := by
  constructor
  · intro tag s hmem p c c' hc hc' h
    simp only [Site.children, List.mem_cons, Prod.mk.injEq, List.not_mem_nil, or_false] at hmem
    simp only [stylePart, hc, hc']
    obtain ⟨rfl, rfl⟩ | ⟨rfl, rfl⟩ | ⟨rfl, rfl⟩ | ⟨rfl, rfl⟩ | ⟨rfl, rfl⟩ | ⟨rfl, rfl⟩ |
      ⟨rfl, rfl⟩ := hmem
    · exact plain_decodes
        (fun text ↦ { p with fontFamily := some (trimmed text) |>.filter (!·.isEmpty) }) h
    · exact plain_decodes (fun text ↦ { p with fontStyle := trimmed text }) h
    · exact (number_content h).returns _
    · exact (color_decodes h).returns _
    · exact (color_decodes h).returns _
    · exact (align_content h).returns _
    · exact (number_content h).returns _
  · intro p c hc
    unfold stylePart
    split <;> simp_all [Site.child?, Site.children]

theorem style_decodes : Decodes .style style := by
  refine Decodes.of_alike fun h ↦ ?_
  rw [style, style, h.string_eq]
  exact style_steps.foldlM h _

theorem styles_decodes : Decodes .styles fun e ↦ (e.named "style").mapM style :=
  Decodes.of_alike fun h ↦ h.named rfl style_decodes

theorem band_decodes : Decodes .band band := by
  refine Decodes.of_alike fun h ↦ ?_
  -- Whether a band is enabled is read after its elements, unlike its other attribute.
  refine Decode.congr (.bind (.value number_decides h.attributes "height") fun _ ↦
    .bind (bandElement_knows.elements h) fun _ ↦
      .returns (.value boolean_decides h.attributes "enabled") _) ?_
  simp [Site.values, Site.attributes, Site.content?]
  tauto

theorem sectionBlock_decodes : Decodes .sectionBlock sectionBlock := by
  refine Decodes.of_alike fun h ↦ ?_
  rw [sectionBlock, sectionBlock, h.string_eq, h.string?_eq]
  exact .bind (.value boolean_decides h.attributes "pageBreakBefore") fun _ ↦
    .bind (.value boolean_decides h.attributes "pageBreakAfter") fun _ ↦
      (sectionElement_knows.elements h).returns _

theorem sections_decodes : Decodes .sections fun e ↦ (e.named "section").mapM sectionBlock :=
  Decodes.of_alike fun h ↦ h.named rfl sectionBlock_decodes

/-! ## Reports -/

theorem report_steps : Steps .report block := by
  constructor
  · intro tag s hmem r c c' hc hc' h
    simp only [Site.children, List.mem_cons, Prod.mk.injEq, List.not_mem_nil, or_false] at hmem
    simp only [block, hc, hc']
    obtain ⟨rfl, rfl⟩ | ⟨rfl, rfl⟩ | ⟨rfl, rfl⟩ | ⟨rfl, rfl⟩ | ⟨rfl, rfl⟩ | ⟨rfl, rfl⟩ |
      ⟨rfl, rfl⟩ := hmem
    · exact (metadata_decodes h).ofPure fun m ↦ { r with metadata := some m }
    · exact (setup_decodes h).returns _
    · exact (fonts_decodes h).ofPure fun fonts ↦ { r with fonts }
    · exact (styles_decodes h).returns _
    · exact (band_decodes h).returns _
    · exact (band_decodes h).returns _
    · exact (sections_decodes h).returns _
  · intro r c hc
    unfold block
    split <;> simp_all [Site.child?, Site.children]

theorem report_decodes : Decodes .report report := by
  refine Decodes.of_alike fun h ↦ ?_
  rw [report, report, h.string_eq]
  exact report_steps.foldlM h _

/-- A template is read just when all values in it can be, also those of blocks that later ones
replace.  An error is of a value that cannot: it names the attribute or element, has the place of
the element and shows the text. -/
theorem values_decided (root : Xml.Element) :
    ((∃ r, result (report root) = .ok r) ↔ ∀ s ∈ slots .report root, s.Reads) ∧
      ∀ x, result (report root) = .error x → ∃ s ∈ slots .report root, s.Blames x :=
  (report_decodes rfl [] []).decided

end Template

end PagedReport
