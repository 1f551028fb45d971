import PagedReport.Layout.Steps
import PagedReport.Proofs.Canvas.Bands

/-!
# What elements become

The text of a report is read off its sections and the data alone; no page, font or style takes part
in it.  The steps of an element only draw or start pages, and their text is the text of the element.
-/

namespace PagedReport

namespace Report

open Layout (usualBullet)

def rowText (columns : List Column) : Value → List Char
  | .object record => columns.flatMap fun c ↦
      ((NumberFormat.ofName c.format).formatValue ((Members.get? c.field record).getD .null)).toList
  | _ => []

def itemText (bullet : String) : Value → List Char
  | .string item => bullet.toList ++ item.toList
  | _ => []

def Content.text (helpers : Helpers) (data : Value) : Content → List Char
  | .band (.text t) =>
      let content := (resolve helpers data t.content).toList
      if 0 < t.width || t.wrap then Wrap.unbroken content else content
  | .table t =>
      t.columns.flatMap (·.header.toList) ++
        match Source.find data t.source with
        | some (.array rows) => rows.flatMap (rowText t.columns)
        | _ => []
  | .list l =>
      match Source.find data l.source with
      | some (.array items) => items.flatMap (itemText (l.bullet.getD usualBullet))
      | _ => []
  | .keyValues l => l.entries.flatMap fun e ↦
      e.key.toList ++ ':' :: (resolve helpers data e.value).toList
  | _ => []

/-- The text of sections, in the order of the document. -/
def sectionsText (helpers : Helpers) (data : Value) (sections : List Section) : List Char :=
  sections.flatMap fun part ↦ part.elements.flatMap fun e ↦ e.content.text helpers data

end Report

open Report

/-- Steps of a kind that together draw a text. -/
structure Shows (P : Step Float → Prop) (steps : List (Step Float)) (text : List Char) : Prop where
  all : ∀ s ∈ steps, P s
  chars : steps.flatMap Step.chars = text

namespace Shows

variable {P Q : Step Float → Prop} {steps steps' : List (Step Float)} {text text' : List Char}

theorem mono (h : Shows P steps text) (hPQ : ∀ s, P s → Q s) : Shows Q steps text :=
  ⟨fun s hs ↦ hPQ s (h.all s hs), h.chars⟩

theorem nil : Shows P [] [] := ⟨fun _ hs ↦ absurd hs List.not_mem_nil, rfl⟩

theorem single {s : Step Float} (hs : P s) : Shows P [s] s.chars :=
  ⟨by simpa using hs, List.append_nil _⟩

theorem append (h : Shows P steps text) (h' : Shows P steps' text') :
    Shows P (steps ++ steps') (text ++ text') := by
  refine ⟨fun s hs ↦ ?_, by rw [List.flatMap_append, h.chars, h'.chars]⟩
  rcases List.mem_append.mp hs with hs | hs
  · exact h.all s hs
  · exact h'.all s hs

theorem cons {s : Step Float} (hs : P s) (h : Shows P steps text) :
    Shows P (s :: steps) (s.chars ++ text) := (single hs).append h

theorem after (h' : Shows P steps' text) (h : Shows P steps []) : Shows P (steps ++ steps') text :=
  h.append h'

theorem andThen (h : Shows P steps text) (h' : Shows P steps' []) :
    Shows P (steps ++ steps') text := by simpa using h.append h'

theorem flatMap {α : Type} {f : α → List (Step Float)} {g : α → List Char} {as : List α}
    (h : ∀ a ∈ as, Shows P (f a) (g a)) : Shows P (as.flatMap f) (as.flatMap g) := by
  induction as with
  | nil => exact nil
  | cons a as ih =>
      exact (h a List.mem_cons_self).append (ih fun b hb ↦ h b (List.mem_cons_of_mem a hb))

theorem map {α : Type} {f : α → Step Float} (h : ∀ a, P (f a)) (as : List α) :
    Shows P (as.map f) (as.flatMap fun a ↦ (f a).chars) := by
  rw [List.map_eq_flatMap]
  exact flatMap fun a _ ↦ single (h a)

theorem option {α : Type} {f : α → Step Float} (h : ∀ a, P (f a) ∧ (f a).chars = [])
    (o : Option α) : Shows P (o.map f).toList [] := by
  cases o with
  | none => exact nil
  | some a => exact (h a).2 ▸ single (h a).1

end Shows

/-- A step that needs neither an image nor the height of a cell before it. -/
def Step.Measured : Step Float → Prop
  | .lineFeed none => False
  | s => s.Safe

namespace Step.Measured

variable {s : Step Float}

theorem ne (hs : s.Measured) : s ≠ .lineFeed none := by
  rintro rfl
  exact hs

theorem safe (hs : s.Measured) : s.Safe := by
  cases s with
  | lineFeed => trivial
  | _ => exact hs

end Step.Measured

theorem Shows.safe {steps : List (Step Float)} {text : List Char}
    (h : Shows Step.Measured steps text) : Shows Step.Safe steps text :=
  h.mono fun _ ↦ Step.Measured.safe

/-! ## Styles and spaces -/

theorem settings_shows (style : Style) : Shows Step.Measured (Styles.settings style) [] := by
  unfold Styles.settings
  exact ((Shows.option (fun _ ↦ by exact ⟨trivial, rfl⟩) _).andThen
    (.option (fun _ ↦ by exact ⟨trivial, rfl⟩) _)).andThen
    (.option (fun _ ↦ by exact ⟨trivial, rfl⟩) _)

theorem use_shows (styles : Styles) (name : Option String) :
    Shows Step.Measured (styles.use name) [] := by
  cases name with
  | none => exact .nil
  | some name =>
      unfold Styles.use Styles.apply
      dsimp only
      split
      · exact .nil
      · split
        · exact settings_shows _
        · exact .single trivial

theorem space_shows (height : Float) : Shows Step.Measured (Layout.space height) [] := by
  unfold Layout.space
  split
  · exact .single trivial
  · exact .nil

/-! ## Elements -/

variable (ctx : Context)

theorem text_shows (t : Text) (spacing : Float) :
    Shows Step.Measured (Layout.text ctx t spacing)
      ((Content.band (.text t)).text ctx.helpers ctx.data) := by
  unfold Layout.text Content.text
  dsimp only
  refine Shows.after ?_ (((use_shows _ _).andThen
    (.option (fun _ ↦ by exact ⟨trivial, rfl⟩) _)).andThen
    (.option (fun _ ↦ by exact ⟨trivial, rfl⟩) _))
  split
  · exact (Shows.single (s := .multiCell _) trivial).andThen (space_shows spacing)
  · exact (Shows.single (s := .cell _) trivial).andThen (space_shows spacing)

theorem rule_shows (r : Rule) : Shows Step.Measured (Layout.rule ctx r) [] := by
  unfold Layout.rule
  refine Shows.andThen (Shows.andThen (.option (fun _ ↦ by exact ⟨trivial, rfl⟩) _) ?_)
    (.single trivial)
  split
  · exact .single trivial
  · exact .nil

theorem box_shows (b : Box) (spacing : Float) :
    Shows Step.Measured (Layout.box ctx b spacing) [] := by
  unfold Layout.box
  dsimp only
  have hwidth : Shows Step.Measured
      (if 0 < b.borderWidth then [.setLineWidth b.borderWidth] else []) [] := by
    split
    · exact .single trivial
    · exact .nil
  refine Shows.after (.cons trivial ?_) (((Shows.option (fun _ ↦ by exact ⟨trivial, rfl⟩) _).andThen
    (.option (fun _ ↦ by exact ⟨trivial, rfl⟩) _)).andThen hwidth)
  split
  · exact .single trivial
  · exact .nil

theorem tableHeader_shows (t : Table) :
    Shows Step.Safe (Layout.tableHeader ctx t) (t.columns.flatMap (·.header.toList)) := by
  unfold Layout.tableHeader
  exact ((Shows.map (fun _ ↦ by exact trivial) t.columns).after (use_shows _ _).safe).andThen
    (.single trivial)

theorem tableRowOf_shows (t : Table) (index : Nat) (row : Value) :
    Shows Step.Safe (Layout.tableRowOf ctx t index row) (rowText t.columns row) := by
  unfold Layout.tableRowOf
  refine Shows.after ?_ (use_shows _ _).safe
  cases row with
  | object record =>
      exact ((Shows.map (fun _ ↦ by exact trivial) t.columns).after
        (.option (fun _ ↦ by exact ⟨trivial, rfl⟩) _)).andThen (.single trivial)
  | _ => exact .nil

theorem rows_shows (t : Table) (first : Nat) (rows : List Value) :
    Shows Step.Safe
      (rows.mapIdx fun index row ↦ Layout.tableRowOf ctx t (first + index) row).flatten
      (rows.flatMap (rowText t.columns)) := by
  -- rows are counted, as every other one may be filled
  induction rows generalizing first with
  | nil => exact .nil
  | cons row rows ih =>
      rw [List.mapIdx_cons, List.flatten_cons, List.flatMap_cons]
      refine (tableRowOf_shows ctx t _ row).append ?_
      simpa [Nat.add_assoc, Nat.add_comm 1] using ih (first + 1)

theorem table_shows (t : Table) (spacing : Float) :
    Shows Step.Safe (Layout.table ctx t spacing) ((Content.table t).text ctx.helpers ctx.data) := by
  unfold Layout.table Content.text Context.source?
  refine (tableHeader_shows ctx t).append ?_
  cases Source.find ctx.data t.source with
  | none => exact .single trivial
  | some v =>
      cases v with
      | array rows => simpa using (rows_shows ctx t 0 rows).andThen (space_shows spacing).safe
      | _ => exact .single trivial

theorem listItem_shows (left : Float) (bullet : String) (item : Value) :
    Shows Step.Measured (Layout.listItem left bullet item) (itemText bullet item) := by
  cases item with
  | string item => exact .cons trivial (.cons trivial (.single trivial))
  | _ => exact .nil

theorem bulletList_shows (l : BulletList) (spacing : Float) :
    Shows Step.Measured (Layout.bulletList ctx l spacing)
      ((Content.list l).text ctx.helpers ctx.data) := by
  simp only [Layout.bulletList, Content.text, Context.source?]
  refine Shows.after ?_ (use_shows _ _)
  cases Source.find ctx.data l.source with
  | none => exact .single trivial
  | some v =>
      cases v with
      | array items =>
          exact (Shows.flatMap fun item _ ↦ listItem_shows _ _ item).andThen (space_shows spacing)
      | _ => exact .single trivial

theorem entry_shows (l : KeyValues) (e : Entry) :
    Shows Step.Measured (Layout.entry ctx l e)
      (e.key.toList ++ ':' :: (ctx.resolve e.value).toList) := by
  unfold Layout.entry
  have hcells := Shows.cons (P := Step.Measured) (s := .cell
    { width := Layout.orUsual l.keyWidth Layout.usualKeyWidth, height := Layout.listRow,
      text := e.key ++ ":" }) trivial (.single (s := .cell
    { width := l.valueWidth
      height := Layout.listRow
      text := ctx.resolve e.value
      align := l.valueAlign.getD .left
      advance := .nextLine }) trivial)
  simpa [Step.chars] using hcells

theorem keyValues_shows (l : KeyValues) (spacing : Float) :
    Shows Step.Measured (Layout.keyValues ctx l spacing)
      ((Content.keyValues l).text ctx.helpers ctx.data) := by
  unfold Layout.keyValues Content.text
  exact ((Shows.flatMap fun e _ ↦ entry_shows ctx l e).after (use_shows _ _)).andThen
    (space_shows spacing)

/-! ## All elements -/

/-- Content that needs no image. -/
def Report.BandContent.Imageless : BandContent → Prop
  | .image _ => False
  | _ => True

def Report.Content.Imageless : Content → Prop
  | .band b => b.Imageless
  | _ => True

theorem bandElement_measured (e : Element BandContent) (he : e.content.Imageless) :
    Shows Step.Measured (Layout.bandElement ctx e)
      ((Content.band e.content).text ctx.helpers ctx.data) := by
  obtain ⟨condition, spacing, content⟩ := e
  cases content with
  | text t => exact text_shows ctx t spacing
  | image i => exact he.elim
  | rule r => exact rule_shows ctx r

theorem bandElement_shows (e : Element BandContent) :
    Shows Step.Plain (Layout.bandElement ctx e)
      ((Content.band e.content).text ctx.helpers ctx.data) := by
  obtain ⟨condition, spacing, content⟩ := e
  cases content with
  | image i => exact .single trivial
  | text | rule =>
      exact (bandElement_measured ctx ⟨condition, spacing, _⟩ (by exact trivial)).mono fun _ hs ↦
        hs.safe.plain

def Step.SafeInFlow (s : Step Float) : Prop := s.Safe ∨ s = .addPage

theorem element_safe (e : Element Content) (he : e.content.Imageless) :
    Shows Step.SafeInFlow (Layout.element ctx e) (e.content.text ctx.helpers ctx.data) := by
  obtain ⟨condition, spacing, content⟩ := e
  cases content with
  | band b =>
      exact (bandElement_measured ctx ⟨condition, spacing, b⟩ he).mono fun _ hs ↦ .inl hs.safe
  | table t => exact (table_shows ctx t spacing).mono fun _ ↦ .inl
  | list l => exact (bulletList_shows ctx l spacing).mono fun _ hs ↦ .inl hs.safe
  | keyValues l => exact (keyValues_shows ctx l spacing).mono fun _ hs ↦ .inl hs.safe
  | box b => exact (box_shows ctx b spacing).mono fun _ hs ↦ .inl hs.safe
  | pageBreak => exact .single (.inr rfl)

/-- The steps of an element may stand in the flow and draw its text. -/
theorem element_shows (e : Element Content) :
    Shows Step.InFlow (Layout.element ctx e) (e.content.text ctx.helpers ctx.data) := by
  obtain ⟨condition, spacing, content⟩ := e
  cases content with
  | band b => exact (bandElement_shows ctx ⟨condition, spacing, b⟩).mono fun _ ↦ .inl
  | table | list | keyValues | box | pageBreak =>
      exact (element_safe ctx ⟨condition, spacing, _⟩ (by exact trivial)).mono fun _ hs ↦
        hs.imp_left Step.Safe.plain

/-! ## Bands -/

theorem header_plain (b : Band) : ∀ s ∈ Layout.header ctx b, s.Plain :=
  (Shows.flatMap fun e _ ↦ bandElement_shows ctx e).all

theorem footer_plain (b : Band) : ∀ s ∈ Layout.footer ctx b, s.Plain :=
  (Shows.cons trivial (.flatMap fun e _ ↦ bandElement_shows ctx e)).all

def bandsOf (ctx : Context) (r : Report) : Option (Decorator Float) :=
  if (Layout.shown r.header).isNone && (Layout.shown r.footer).isNone then none
  else some ⟨((Layout.shown r.header).map (Layout.header ctx)).getD [],
    ((Layout.shown r.footer).map (Layout.footer ctx)).getD []⟩

theorem bandsOf_eq_some {r : Report} {d : Decorator Float} (hd : bandsOf ctx r = some d) :
    d.header = ((Layout.shown r.header).map (Layout.header ctx)).getD [] ∧
      d.footer = ((Layout.shown r.footer).map (Layout.footer ctx)).getD [] := by
  unfold bandsOf at hd
  split at hd
  · cases hd
  · cases hd; exact ⟨rfl, rfl⟩

theorem bandsOf_plain (r : Report) : ∀ d, bandsOf ctx r = some d → d.Plain := by
  intro d hd
  obtain ⟨hheader, hfooter⟩ := bandsOf_eq_some ctx hd
  constructor
  · rw [hheader]
    cases Layout.shown r.header with
    | none => exact fun _ hs ↦ absurd hs List.not_mem_nil
    | some b => exact header_plain ctx b
  · rw [hfooter]
    cases Layout.shown r.footer with
    | none => exact fun _ hs ↦ absurd hs List.not_mem_nil
    | some b => exact footer_plain ctx b

end PagedReport
