import PagedReport.Pdf.Draft
import Mathlib.Data.List.Forall2

/-!
# What operations paint

A page is interpreted from its operations alone: colours, the line width and the font stay in effect
until they are changed or an earlier graphics state is restored, and a text object starts at the
origin.  An operation that has no meaning where it stands, a name that stands for nothing, and an
object or a graphics state that is left open make the page meaningless.
-/

namespace PagedReport

namespace Pdf

/-- What names in operations stand for. -/
structure Resources where
  font : String → Option FontSlot
  image : String → Option ImageSlot

inductive Segment where
  | move (x y : Float32)
  | line (x y : Float32)
  | curve (x₁ y₁ x₂ y₂ x₃ y₃ : Float32)
  | close
  | rectangle (x y width height : Float32)

/-- The width, the height and the lower left corner of what the unit square stands for. -/
abbrev Placement := Float32 × Float32 × Float32 × Float32

structure GraphicsState where
  fill : Shade := (0, 0, 0)
  stroke : Shade := (0, 0, 0)
  lineWidth : Float32 := 1
  font : Option (FontSlot × Float32) := none
  /-- From the outside in. -/
  within : List Placement := []

/-- What has been put down, with all that it looks like. -/
inductive Painted where
  /-- Text behind the texts `before` it on a line that is `moves` away from the origin. -/
  | text (within : List Placement) (moves : List (Float32 × Float32)) (before : List (List UInt8))
      (font : FontSlot) (size : Float32) (fill : Shade) (bytes : List UInt8)
  | shape (within : List Placement) (path : List Segment) (fill : Option Shade)
      (stroke : Option (Shade × Float32))
  | image (within : List Placement) (slot : ImageSlot)

/-- What the operations so far have left open. -/
inductive Mode where
  | page
  | text (moves : List (Float32 × Float32)) (shown : List (List UInt8))
  | path (segments : List Segment)

structure PageState where
  graphics : GraphicsState := {}
  saved : List GraphicsState := []
  mode : Mode := .page
  painted : List Painted := []

namespace PageState

def paint (p : Painted) (s : PageState) : PageState := { s with painted := s.painted ++ [p] }

def extendPath (segments : List Segment) (segment : Segment) (s : PageState) : PageState :=
  { s with mode := .path (segments ++ [segment]) }

end PageState

namespace Operation

variable (res : Resources)

/-- Operations that only set what is in effect. -/
def adjust (s : PageState) : Operation → Option PageState
  | setFont name size =>
      (res.font name).map fun slot ↦
        { s with graphics := { s.graphics with font := some (slot, size) } }
  | setFillColor c => some { s with graphics := { s.graphics with fill := c } }
  | setStrokeColor c => some { s with graphics := { s.graphics with stroke := c } }
  | setLineWidth w => some { s with graphics := { s.graphics with lineWidth := w } }
  | _ => none

def performOnPage (s : PageState) : Operation → Option PageState
  | beginText => some { s with mode := .text [] [] }
  | moveTo x y => some (s.extendPath [] (.move x y))
  | rectangle x y width height => some (s.extendPath [] (.rectangle x y width height))
  | save => some { s with saved := s.graphics :: s.saved }
  | restore =>
      match s.saved with
      | graphics :: saved => some { s with graphics, saved }
      | [] => none
  | place width height x y =>
      some { s with
        graphics := { s.graphics with within := s.graphics.within ++ [(width, height, x, y)] } }
  | drawResource name => (res.image name).map fun slot ↦ s.paint (.image s.graphics.within slot)
  | op => op.adjust res s

def performInText (s : PageState) (moves : List (Float32 × Float32)) (shown : List (List UInt8)) :
    Operation → Option PageState
  | endText => some { s with mode := .page }
  | moveText x y => some { s with mode := .text (moves ++ [(x, y)]) [] }
  | showText bytes _ =>
      s.graphics.font.map fun (slot, size) ↦
        { s with mode := .text moves (shown ++ [bytes]) }.paint
          (.text s.graphics.within moves shown slot size s.graphics.fill bytes)
  | op => op.adjust res s

def performInPath (s : PageState) (segments : List Segment) : Operation → Option PageState
  | moveTo x y => some (s.extendPath segments (.move x y))
  | lineTo x y => some (s.extendPath segments (.line x y))
  | curveTo x₁ y₁ x₂ y₂ x₃ y₃ => some (s.extendPath segments (.curve x₁ y₁ x₂ y₂ x₃ y₃))
  | closePath => some (s.extendPath segments .close)
  | rectangle x y width height => some (s.extendPath segments (.rectangle x y width height))
  | paintPath painting =>
      some ({ s with mode := .page }.paint (.shape s.graphics.within segments
        (if painting.fills then some s.graphics.fill else none)
        (if painting.strokes then some (s.graphics.stroke, s.graphics.lineWidth) else none)))
  | _ => none

def perform (s : PageState) (op : Operation) : Option PageState :=
  match s.mode with
  | .page => op.performOnPage res s
  | .text moves shown => op.performInText res s moves shown
  | .path segments => op.performInPath s segments

end Operation

def performAll (res : Resources) (ops : List Operation) (s : PageState) : Option PageState :=
  ops.foldlM (fun s op ↦ op.perform res s) s

/-- What a page shows, if its operations have a meaning. -/
def interpret (res : Resources) (ops : List Operation) : Option (List Painted) :=
  match performAll res ops {} with
  | some { saved := [], mode := .page, painted, .. } => some painted
  | _ => none

theorem performAll_cons (res : Resources) (op : Operation) (ops : List Operation) (s : PageState) :
    performAll res (op :: ops) s = (op.perform res s).bind (performAll res ops) := rfl

theorem performAll_append (res : Resources) (xs ys : List Operation) (s : PageState) :
    performAll res (xs ++ ys) s = (performAll res xs s).bind (performAll res ys) :=
  List.foldlM_append

/-! ## More resources -/

/-- Names keep what they stand for. -/
structure Resources.Within (a b : Resources) : Prop where
  font : ∀ {name : String} {slot : FontSlot}, a.font name = some slot → b.font name = some slot
  image : ∀ {name : String} {slot : ImageSlot}, a.image name = some slot → b.image name = some slot

section

variable {a b : Resources} (h : a.Within b)
include h

theorem Operation.adjust_mono {s t : PageState} {op : Operation} (hop : op.adjust a s = some t) :
    op.adjust b s = some t := by
  cases op with
  | setFont name size =>
      obtain ⟨slot, hslot, rfl⟩ := Option.map_eq_some_iff.mp hop
      simp [adjust, h.font hslot]
  | _ => exact hop

theorem Operation.perform_mono {s t : PageState} {op : Operation} (hop : op.perform a s = some t) :
    op.perform b s = some t := by
  unfold perform at hop ⊢
  split at hop
  · unfold performOnPage at hop ⊢
    split at hop
    case h_7 name =>
      obtain ⟨slot, hslot, rfl⟩ := Option.map_eq_some_iff.mp hop
      simp [h.image hslot]
    case h_8 => exact adjust_mono h hop
    all_goals exact hop
  · unfold performInText at hop ⊢
    split at hop
    case h_4 => exact adjust_mono h hop
    all_goals exact hop
  · exact hop

theorem performAll_mono {ops : List Operation} {s t : PageState}
    (hops : performAll a ops s = some t) : performAll b ops s = some t := by
  induction ops generalizing s with
  | nil => exact hops
  | cons op ops ih =>
      obtain ⟨u, hop, hrest⟩ := Option.bind_eq_some_iff.mp hops
      exact Option.bind_eq_some_iff.mpr ⟨u, op.perform_mono h hop, ih hrest⟩

end

/-! ## Blocks of operations -/

/-- Operations between objects that paint one thing and nothing else, whatever colours, line width
and font are in effect before. -/
def Paints (res : Resources) (ops : List Operation) (p : Painted) : Prop :=
  ∀ s : PageState, s.mode = .page → s.graphics.within = [] →
    ∃ graphics : GraphicsState, graphics.within = [] ∧
      performAll res ops s = some { s with graphics, painted := s.painted ++ [p] }

theorem Paints.mono {a b : Resources} (h : a.Within b) {ops : List Operation} {p : Painted}
    (hops : Paints a ops p) : Paints b ops p := by
  intro s hmode hwithin
  obtain ⟨graphics, hgraphics, hrun⟩ := hops s hmode hwithin
  exact ⟨graphics, hgraphics, performAll_mono h hrun⟩

theorem performAll_blocks {res : Resources} {blocks : List (List Operation)} {ps : List Painted}
    (h : List.Forall₂ (Paints res) blocks ps) {s : PageState} (hmode : s.mode = .page)
    (hwithin : s.graphics.within = []) :
    ∃ graphics : GraphicsState,
      performAll res blocks.flatten s = some { s with graphics, painted := s.painted ++ ps } := by
  induction h generalizing s with
  | nil => exact ⟨s.graphics, by simp [performAll]⟩
  | @cons block p blocks ps hblock _ ih =>
      obtain ⟨graphics, hgraphics, hrun⟩ := hblock s hmode hwithin
      obtain ⟨last, hrest⟩ :=
        ih (s := { s with graphics, painted := s.painted ++ [p] }) hmode hgraphics
      refine ⟨last, ?_⟩
      rw [List.flatten_cons, performAll_append, hrun, Option.bind_some, hrest]
      simp

theorem interpret_blocks {res : Resources} {blocks : List (List Operation)} {ps : List Painted}
    (h : List.Forall₂ (Paints res) blocks ps) : interpret res blocks.flatten = some ps := by
  obtain ⟨graphics, hrun⟩ := performAll_blocks h (s := {}) rfl rfl
  rw [interpret, hrun]
  rfl

/-! ## Balance -/

/-- Every operation that opens something is followed by one that closes it. -/
def Balanced (opens closes : Operation → Bool) (ops : List Operation) : Prop :=
  ops.countP opens = ops.countP closes ∧
    ∀ front, front <+: ops → front.countP closes ≤ front.countP opens

namespace Operation

def isBeginText : Operation → Bool
  | beginText => true
  | _ => false

def isEndText : Operation → Bool
  | endText => true
  | _ => false

def isSave : Operation → Bool
  | save => true
  | _ => false

def isRestore : Operation → Bool
  | restore => true
  | _ => false

end Operation

/-- How many text objects are open. -/
def Mode.texts : Mode → Nat
  | .text _ _ => 1
  | _ => 0

/-- What is open goes up and down with the operations that open and close it. -/
def Tallied (ops : List Operation) (s t : PageState) : Prop :=
  t.mode.texts + ops.countP Operation.isEndText =
      s.mode.texts + ops.countP Operation.isBeginText ∧
    t.saved.length + ops.countP Operation.isRestore =
      s.saved.length + ops.countP Operation.isSave

theorem Operation.adjust_tallied {res : Resources} {op : Operation} {s t : PageState}
    (h : op.adjust res s = some t) : Tallied [op] s t := by
  unfold adjust at h
  split at h
  · obtain ⟨slot, -, rfl⟩ := Option.map_eq_some_iff.mp h
    exact ⟨rfl, rfl⟩
  · obtain rfl := Option.some.inj h
    exact ⟨rfl, rfl⟩
  · obtain rfl := Option.some.inj h
    exact ⟨rfl, rfl⟩
  · obtain rfl := Option.some.inj h
    exact ⟨rfl, rfl⟩
  · cases h

theorem Operation.perform_tallied {res : Resources} {op : Operation} {s t : PageState}
    (h : op.perform res s = some t) : Tallied [op] s t := by
  obtain ⟨graphics, saved, mode, painted⟩ := s
  cases mode with
  | page =>
      change op.performOnPage res _ = _ at h
      unfold performOnPage at h
      split at h
      -- restoring a state, drawing a resource and what is allowed everywhere; the others are total
      case h_5 =>
        cases saved with
        | nil => cases h
        | cons graphics saved =>
            obtain rfl := Option.some.inj h
            exact ⟨rfl, rfl⟩
      case h_7 =>
        obtain ⟨slot, -, rfl⟩ := Option.map_eq_some_iff.mp h
        exact ⟨rfl, rfl⟩
      case h_8 => exact adjust_tallied h
      all_goals
        obtain rfl := Option.some.inj h
        exact ⟨rfl, rfl⟩
  | text moves shown =>
      change op.performInText res _ moves shown = _ at h
      unfold performInText at h
      split at h
      case h_3 =>
        obtain ⟨font, -, rfl⟩ := Option.map_eq_some_iff.mp h
        exact ⟨rfl, rfl⟩
      case h_4 => exact adjust_tallied h
      all_goals
        obtain rfl := Option.some.inj h
        exact ⟨rfl, rfl⟩
  | path segments =>
      change op.performInPath _ segments = _ at h
      unfold performInPath at h
      split at h
      case h_7 => cases h
      all_goals
        obtain rfl := Option.some.inj h
        exact ⟨rfl, rfl⟩

theorem performAll_tallied {res : Resources} {ops : List Operation} {s t : PageState}
    (h : performAll res ops s = some t) : Tallied ops s t := by
  induction ops generalizing s with
  | nil =>
      obtain rfl := Option.some.inj h
      exact ⟨rfl, rfl⟩
  | cons op ops ih =>
      obtain ⟨u, hop, hrest⟩ := Option.bind_eq_some_iff.mp h
      obtain ⟨htext, hsave⟩ := op.perform_tallied hop
      obtain ⟨htexts, hsaves⟩ := ih hrest
      rw [Tallied, ← List.singleton_append]
      simp only [List.countP_append]
      omega

/-- A page that has a meaning leaves nothing open. -/
theorem balanced_of_interpret {res : Resources} {ops : List Operation} {ps : List Painted}
    (h : interpret res ops = some ps) :
    Balanced Operation.isBeginText Operation.isEndText ops ∧
      Balanced Operation.isSave Operation.isRestore ops := by
  unfold interpret at h
  split at h
  · next graphics painted hrun =>
      obtain ⟨htexts, hsaves⟩ := performAll_tallied hrun
      have hfront : ∀ front, front <+: ops → ∃ t, performAll res front {} = some t := by
        rintro front ⟨back, rfl⟩
        rw [performAll_append] at hrun
        obtain ⟨t, ht, -⟩ := Option.bind_eq_some_iff.mp hrun
        exact ⟨t, ht⟩
      simp only [Mode.texts, List.length_nil] at htexts hsaves
      refine ⟨⟨by omega, fun front hprefix ↦ ?_⟩, ⟨by omega, fun front hprefix ↦ ?_⟩⟩
      · obtain ⟨t, ht⟩ := hfront front hprefix
        have hopen := (performAll_tallied ht).1
        simp only [Mode.texts] at hopen
        omega
      · obtain ⟨t, ht⟩ := hfront front hprefix
        have hopen := (performAll_tallied ht).2
        simp only [List.length_nil] at hopen
        omega
  · cases h

end Pdf

end PagedReport
