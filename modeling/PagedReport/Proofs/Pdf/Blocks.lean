import PagedReport.Proofs.Pdf.Interpretation

/-!
# What calls look like on a page

A call looks the same however it is drawn: text in its font at its place, an outline with its own
colours and line width, an image in its rectangle.  Every block of operations that a draft writes
paints one such thing.
-/

namespace PagedReport

namespace Pdf

/-! ## What calls look like -/

/-- The four directions on a page. -/
inductive Direction where
  | right
  | up
  | left
  | down

namespace Direction

def back : Direction → Direction
  | right => left
  | up => down
  | left => right
  | down => up

def move (s : Float) (p : Float × Float) : Direction → Float × Float
  | right => (p.1 + s, p.2)
  | up => (p.1, p.2 + s)
  | left => (p.1 - s, p.2)
  | down => (p.1, p.2 - s)

end Direction

namespace Segment

def moveAt (p : Float × Float) : Segment := .move p.1.toFloat32 p.2.toFloat32

def lineAt (p : Float × Float) : Segment := .line p.1.toFloat32 p.2.toFloat32

def curveAt (p q r : Float × Float) : Segment :=
  .curve p.1.toFloat32 p.2.toFloat32 q.1.toFloat32 q.2.toFloat32 r.1.toFloat32 r.2.toFloat32

end Segment

/-- A side up to the round corner `p` and the quarter of a circle of radius `r` around it. -/
def roundCorner (r : Float) (p : Float × Float) (towards away : Direction) : List Segment :=
  let first := towards.back.move r p
  let last := away.move r p
  [ .lineAt first,
    .curveAt (towards.move (r * Draft.arc) first) (away.back.move (r * Draft.arc) last) last ]

/-- The outline of a rectangle on a page of a height. -/
def outline (height : Float) (r : Rect Float) (radius : Float) : List Segment :=
  let bottom := height - r.y - r.height
  let top := height - r.y
  let right := r.x + r.width
  let fitting := Scalar.smaller (Scalar.smaller radius (r.width / 2)) (r.height / 2)
  if 0 < fitting then
    [.moveAt (Direction.right.move fitting (r.x, bottom))] ++
      roundCorner fitting (right, bottom) .right .up ++
      roundCorner fitting (right, top) .up .left ++
      roundCorner fitting (r.x, top) .left .down ++
      roundCorner fitting (r.x, bottom) .down .right ++ [.close]
  else [.rectangle r.x.toFloat32 bottom.toFloat32 r.width.toFloat32 r.height.toFloat32]

/-- The standard font that stands for a key. -/
def standardFont (key : FontKey) : StandardFont :=
  (StandardFont.ofKey? key).getD ⟨.helvetica, .regular⟩

/-- What a call looks like on a page of a height. -/
inductive Shows (files : Files) (height : Float) : Call Float → Painted → Prop
  | text {x baseline : Float} {text : String} {key : FontKey} {size : Float} {color : Color} :
      Shows files height (.mark (.text x baseline text key size color))
        (.text [] [(x.toFloat32, (height - baseline).toFloat32)] []
          ⟨key, .standard (standardFont key)⟩ size.toFloat32 color.unit (WinAnsi.encode text))
  | line {x₁ y₁ x₂ y₂ : Float} {p : Paint Float} :
      Shows files height (.mark (.line x₁ y₁ x₂ y₂ p))
        (.shape [] [.moveAt (x₁, height - y₁), .lineAt (x₂, height - y₂)] none
          (some (p.stroke.unit, p.lineWidth.toFloat32)))
  | rect {r : Rect Float} {radius : Float} {painting : Painting} {p : Paint Float} :
      Shows files height (.mark (.rect r radius painting p))
        (.shape [] (outline height r radius) (if painting.fills then some p.fill.unit else none)
          (if painting.strokes then some (p.stroke.unit, p.lineWidth.toFloat32) else none))
  | image {path : String} {place : Rect Float} {slot : ImageSlot}
      (hpath : FileTree.pathNames slot.path = FileTree.pathNames path)
      (hload : Image.load files slot.path = .ok slot.image) :
      Shows files height (.image path place)
        (.image [(place.width.toFloat32, place.height.toFloat32, place.x.toFloat32,
          (height - place.y - place.height).toFloat32)] slot)

/-! ## Names of resources -/

theorem name_injective (kind : String) :
    Function.Injective fun i : Nat ↦ kind ++ toString (i + 1) := by
  intro i j h
  have hdigits : Nat.toDigits 10 (i + 1) = Nat.toDigits 10 (j + 1) := by
    have hlists := congrArg String.toList h
    simpa [Nat.toString_eq_ofList_toDigits] using hlists
  have hsucc : i + 1 = j + 1 :=
    calc
      i + 1 = Nat.ofDigitChars 10 (Nat.toDigits 10 (i + 1)) 0 := Nat.ofDigitChars_ten_toDigits.symm
      _ = Nat.ofDigitChars 10 (Nat.toDigits 10 (j + 1)) 0 := by rw [hdigits]
      _ = j + 1 := Nat.ofDigitChars_ten_toDigits
  exact Nat.succ.inj hsucc

theorem fontName_injective : Function.Injective Draft.fontName := by
  intro i j h
  exact name_injective "F" (by simpa [Draft.fontName] using h)

theorem imageName_injective : Function.Injective Draft.imageName := by
  intro i j h
  exact name_injective "Im" (by simpa [Draft.imageName] using h)

theorem lookup_mapIdx {α : Type} (xs : List α) {name : Nat → String}
    (hname : Function.Injective name) (i : Nat) :
    (xs.mapIdx fun i x ↦ (name i, x)).lookup (name i) = xs[i]? := by
  induction xs generalizing name i with
  | nil => rfl
  | cons x xs ih =>
      rw [List.mapIdx_cons]
      cases i with
      | zero => simp
      | succ i =>
          have hne : (name (i + 1) == name 0) = false := by
            rw [beq_eq_false_iff_ne]
            exact fun heq ↦ Nat.succ_ne_zero i (hname heq)
          have hshift : Function.Injective fun i ↦ name (i + 1) :=
            fun j k h ↦ Nat.succ.inj (hname h)
          rw [List.lookup_cons, hne]
          exact ih hshift i

theorem lookup_mapIdx_map {α β : Type} (xs : List α) (name : Nat → String) (f : α → β)
    (key : String) :
    (xs.mapIdx fun i x ↦ (name i, f x)).lookup key =
      ((xs.mapIdx fun i x ↦ (name i, x)).lookup key).map f := by
  induction xs generalizing name with
  | nil => rfl
  | cons x xs ih =>
      rw [List.mapIdx_cons, List.mapIdx_cons, List.lookup_cons, List.lookup_cons]
      cases key == name 0 with
      | true => rfl
      | false => exact ih fun i ↦ name (i + 1)

namespace Draft

/-- What names stand for in the document of a draft. -/
def resources (d : Draft) : Resources where
  font name := (d.fonts.toList.mapIdx fun i slot ↦ (fontName i, slot)).lookup name
  image name := (d.images.toList.mapIdx fun i slot ↦ (imageName i, slot)).lookup name

theorem resources_font (d : Draft) (i : Nat) : d.resources.font (fontName i) = d.fonts[i]? :=
  (lookup_mapIdx _ fontName_injective i).trans Array.getElem?_toList

theorem resources_image (d : Draft) (i : Nat) : d.resources.image (imageName i) = d.images[i]? :=
  (lookup_mapIdx _ imageName_injective i).trans Array.getElem?_toList

/-- The resources of the document are the objects of those of the draft. -/
theorem document_lookup (info : DocumentInfo) (d : Draft) (name : String) :
    (d.document info).fonts.lookup name = (d.resources.font name).map (·.program.object) ∧
      (d.document info).images.lookup name =
        (d.resources.image name).map fun slot ↦ imageObject slot.image :=
  ⟨lookup_mapIdx_map _ fontName _ name, lookup_mapIdx_map _ imageName _ name⟩

theorem resources_within {d e : Draft} (hfonts : d.fonts.toList <+: e.fonts.toList)
    (himages : d.images.toList <+: e.images.toList) : d.resources.Within e.resources := by
  have keep {α : Type} {xs ys : List α} (h : xs <+: ys) (name : Nat → String) {key : String} {x : α}
      (hx : (xs.mapIdx fun i x ↦ (name i, x)).lookup key = some x) :
      (ys.mapIdx fun i x ↦ (name i, x)).lookup key = some x := by
    obtain ⟨more, rfl⟩ := h
    rw [List.mapIdx_append, List.lookup_append, hx]
    rfl
  exact ⟨keep hfonts fontName, keep himages imageName⟩

/-- Operations are added to the last page. -/
theorem pages_add {d : Draft} {front : List Page} {last : Page}
    (hpages : d.pages.toList = front ++ [last]) (ops : List Operation) :
    (d.add ops).pages.toList =
      front ++ [{ last with operations := last.operations ++ ops.toArray }] := by
  have hlength : d.pages.size - 1 = front.length := by
    rw [← Array.length_toList, hpages, List.length_append]
    rfl
  rw [add, Array.toList_modify, hpages, hlength, List.modify_eq_take_cons_drop (by simp)]
  simp

end Draft

/-! ## Blocks -/

def Segment.operation : Segment → Operation
  | move x y => .moveTo x y
  | line x y => .lineTo x y
  | curve x₁ y₁ x₂ y₂ x₃ y₃ => .curveTo x₁ y₁ x₂ y₂ x₃ y₃
  | close => .closePath
  | rectangle x y width height => .rectangle x y width height

/-- The path that a draft writes for a rectangle. -/
theorem outline_operations (height : Float) (r : Rect Float) (radius : Float) :
    (outline height r radius).map Segment.operation =
      if 0 < Draft.fittingRadius radius r then
        Draft.roundedPath r.x (height - r.y - r.height) (r.x + r.width) (height - r.y)
          (Draft.fittingRadius radius r)
      else
        [.rectangle r.x.toFloat32 (height - r.y - r.height).toFloat32 r.width.toFloat32
          r.height.toFloat32] := by
  rw [outline, Draft.fittingRadius]
  split <;> rfl

section

variable {res : Resources}

theorem performAll_path (path done : List Segment) (s : PageState) :
    performAll res (path.map Segment.operation) { s with mode := .path done } =
      some { s with mode := .path (done ++ path) } := by
  induction path generalizing done with
  | nil => rw [List.append_nil]; rfl
  | cons segment path ih =>
      have hstep : segment.operation.perform res { s with mode := .path done } =
          some { s with mode := .path (done ++ [segment]) } := by
        cases segment <;> rfl
      rw [List.map_cons, performAll_cons, hstep, Option.bind_some, ih]
      simp

/-- Only these begin a path. -/
def Segment.begins : Segment → Bool
  | move _ _ => true
  | rectangle _ _ _ _ => true
  | _ => false

theorem outline_begins (height : Float) (r : Rect Float) (radius : Float) :
    ∃ first path, outline height r radius = first :: path ∧ first.begins = true := by
  rw [outline]
  split
  · exact ⟨_, _, rfl, rfl⟩
  · exact ⟨_, _, rfl, rfl⟩

theorem performAll_newPath {first : Segment} (hfirst : first.begins = true) (path : List Segment)
    (s : PageState) (hmode : s.mode = .page) :
    performAll res ((first :: path).map Segment.operation) s =
      some { s with mode := .path (first :: path) } := by
  have hstep : first.operation.perform res s = some { s with mode := .path [first] } := by
    rw [Operation.perform, hmode]
    cases first <;> first | rfl | cases hfirst
  rw [List.map_cons, performAll_cons, hstep]
  exact performAll_path path [first] s

theorem paints_text {name : String} {slot : FontSlot} (hname : res.font name = some slot)
    (size x y : Float32) (color : Shade) (bytes : List UInt8) (hex : Bool) :
    Paints res
      [.beginText, .setFillColor color, .setFont name size, .moveText x y, .showText bytes hex,
        .endText]
      (.text [] [(x, y)] [] slot size color bytes) := by
  rintro ⟨graphics, saved, mode, painted⟩ rfl hwithin
  refine ⟨{ graphics with fill := color, font := some (slot, size) }, hwithin, ?_⟩
  change graphics.within = [] at hwithin
  simp only [performAll_cons, Operation.perform, Operation.performOnPage, Operation.performInText,
    Operation.adjust, hname, hwithin, Option.map_some, Option.bind_some, PageState.paint,
    List.nil_append]
  rfl

/-- The operations that set what a shape is painted with, for the kind of painting it has. -/
theorem performAll_setup (painting : Painting) (fill stroke : Shade) (width : Float32)
    (graphics : GraphicsState) (saved : List GraphicsState) (painted : List Painted) :
    performAll res
      ((if painting.fills then [.setFillColor fill] else []) ++
        (if painting.strokes then [.setLineWidth width, .setStrokeColor stroke] else []))
      ⟨graphics, saved, .page, painted⟩ =
      some ⟨{ graphics with
        fill := if painting.fills then fill else graphics.fill
        stroke := if painting.strokes then stroke else graphics.stroke
        lineWidth := if painting.strokes then width else graphics.lineWidth },
        saved, .page, painted⟩ := by
  cases painting <;> rfl

theorem paints_shape {first : Segment} (hfirst : first.begins = true) (path : List Segment)
    (painting : Painting) (fill stroke : Shade) (width : Float32) :
    Paints res
      ((if painting.fills then [.setFillColor fill] else []) ++
        (if painting.strokes then [.setLineWidth width, .setStrokeColor stroke] else []) ++
        (first :: path).map Segment.operation ++ [.paintPath painting])
      (.shape [] (first :: path) (if painting.fills then some fill else none)
        (if painting.strokes then some (stroke, width) else none)) := by
  rintro ⟨graphics, saved, mode, painted⟩ rfl hwithin
  change graphics.within = [] at hwithin
  refine ⟨{ graphics with
    fill := if painting.fills then fill else graphics.fill
    stroke := if painting.strokes then stroke else graphics.stroke
    lineWidth := if painting.strokes then width else graphics.lineWidth }, hwithin, ?_⟩
  rw [performAll_append, performAll_append, performAll_setup, Option.bind_some,
    performAll_newPath hfirst path _ rfl, Option.bind_some, performAll_cons]
  simp only [Operation.perform, Operation.performInPath, PageState.paint, hwithin]
  cases painting <;> rfl

theorem paints_image {name : String} {slot : ImageSlot} (hname : res.image name = some slot)
    (width height x y : Float32) :
    Paints res [.save, .place width height x y, .drawResource name, .restore]
      (.image [(width, height, x, y)] slot) := by
  rintro ⟨graphics, saved, mode, painted⟩ rfl hwithin
  refine ⟨graphics, hwithin, ?_⟩
  change graphics.within = [] at hwithin
  simp only [performAll_cons, Operation.perform, Operation.performOnPage, hname, hwithin,
    Option.map_some, Option.bind_some, PageState.paint, List.nil_append]
  rfl

end

end Pdf

end PagedReport
