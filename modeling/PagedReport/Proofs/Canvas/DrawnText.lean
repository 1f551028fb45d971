import PagedReport.Proofs.Canvas.Marks
import PagedReport.Proofs.Text.Wrapping

/-!
# The text of what is drawn

A cell puts its text down once, as a whole or word by word, in the font in effect, and boxes hold no
text.
-/

namespace PagedReport

variable {K : Type}

def Mark.chars : Mark K → List Char
  | .text _ _ t _ _ _ => t.toList
  | _ => []

def Call.chars : Call K → List Char
  | .mark m => m.chars
  | _ => []

@[simp] theorem Call.chars_mark (m : Mark K) : (Call.mark m).chars = m.chars := rfl

@[simp] theorem Call.chars_image (path : String) (place : Rect K) :
    (Call.image path place).chars = [] := rfl

namespace Canvas

variable {D Output : Type} [Scalar K] [Device K D Output]

theorem chars_textMarks (g : Graphics K) (scale x baseline : K) (text : String) (width : K) :
    (textMarks g scale x baseline text width).flatMap Mark.chars = text.toList := by
  unfold textMarks
  split <;> simp [Mark.chars]

theorem chars_wordMarks (g : Graphics K) (scale baseline gap cursor : K)
    (words : List (String × K)) :
    (wordMarks g scale baseline gap cursor words).flatMap Mark.chars =
      words.flatMap (·.1.toList) := by
  induction words generalizing cursor with
  | nil => rfl
  | cons w words ih => rw [wordMarks, List.flatMap_append, chars_textMarks, ih, List.flatMap_cons]

theorem chars_borderMarks (p : Paint K) (k : K) (b : Border) (x y w h : K) :
    (borderMarks p k b x y w h).flatMap Mark.chars = [] := by
  obtain ⟨left, top, right, bottom⟩ := b
  cases left <;> cases top <;> cases right <;> cases bottom <;> rfl

theorem chars_boxMarks (cell : Cell K) (width : K) (c : Canvas K D) :
    (c.boxMarks cell width).flatMap Mark.chars = [] := by
  unfold boxMarks
  simp only [List.flatMap_append]
  split <;> split <;> simp [Mark.chars, chars_borderMarks]

theorem chars_measuredWords (text : String) (c : Canvas K D) :
    (c.measuredWords text).flatMap (·.1.toList) = unspaced text.toList := by
  rw [← Wrap.flatten_words]
  simp [measuredWords, List.flatMap_map, List.flatMap_id']

theorem unspaced_contentMarks (cell : Cell K) (justify : Bool) (width : K) (c : Canvas K D) :
    unspaced ((c.contentMarks cell justify width).flatMap Mark.chars) =
      unspaced cell.text.toList := by
  unfold contentMarks
  split
  · next hempty => simp [String.isEmpty_iff.mp hempty]
  · split
    · rw [chars_wordMarks, chars_measuredWords]
      simp [unspaced]
    · rw [chars_textMarks]

/-- Whatever its alignment, a cell puts down its text and no other. -/
theorem unspaced_cellMarks (cell : Cell K) (justify : Bool) (width : K) (c : Canvas K D) :
    unspaced ((c.cellMarks cell justify width).flatMap Mark.chars) = unspaced cell.text.toList := by
  rw [cellMarks, List.flatMap_append, chars_boxMarks, List.nil_append, unspaced_contentMarks]

end Canvas

/-! ## Fonts -/

/-- The font of a text and its size. -/
def Mark.font? : Mark K → Option (FontKey × K)
  | .text _ _ _ key size _ => some (key, size)
  | _ => none

namespace Canvas

variable {D Output : Type} [Scalar K] [Device K D Output]

theorem font?_textMarks {g : Graphics K} {scale x baseline width : K} {text : String} {m : Mark K}
    (hm : m ∈ textMarks g scale x baseline text width) {font : FontKey × K}
    (hfont : m.font? = some font) : font = (g.font.key, g.font.size) := by
  rcases List.mem_cons.mp hm with rfl | hbar
  · exact (Option.some.inj hfont).symm
  · split at hbar
    · obtain rfl := List.mem_singleton.mp hbar
      cases hfont
    · cases hbar

theorem font?_wordMarks {g : Graphics K} {scale baseline gap cursor : K} {words : List (String × K)}
    {m : Mark K} (hm : m ∈ wordMarks g scale baseline gap cursor words) {font : FontKey × K}
    (hfont : m.font? = some font) : font = (g.font.key, g.font.size) := by
  induction words generalizing cursor with
  | nil => cases hm
  | cons w words ih =>
      rcases List.mem_append.mp hm with hword | hrest
      · exact font?_textMarks hword hfont
      · exact ih hrest

/-- The texts of a cell have the font in effect. -/
theorem font?_contentMarks {cell : Cell K} {justify : Bool} {width : K} {c : Canvas K D}
    {m : Mark K} (hm : m ∈ c.contentMarks cell justify width) {font : FontKey × K}
    (hfont : m.font? = some font) : font = (c.graphics.font.key, c.graphics.font.size) := by
  unfold contentMarks at hm
  split at hm
  · cases hm
  · split at hm
    · exact font?_wordMarks hm hfont
    · exact font?_textMarks hm hfont

theorem font?_borderMarks {p : Paint K} {k : K} {b : Border} {x y w h : K} {m : Mark K}
    (hm : m ∈ borderMarks p k b x y w h) : m.font? = none := by
  have hside : ∀ (shown : Bool) (x₁ y₁ x₂ y₂ : K),
      m ∈ (if shown then [Mark.line x₁ y₁ x₂ y₂ p] else []) → m.font? = none := by
    intro shown x₁ y₁ x₂ y₂ hline
    split at hline
    · obtain rfl := List.mem_singleton.mp hline
      rfl
    · cases hline
  simp only [borderMarks, List.mem_append] at hm
  obtain ((hm | hm) | hm) | hm := hm <;> exact hside _ _ _ _ _ hm

theorem font?_boxMarks {cell : Cell K} {width : K} {c : Canvas K D} {m : Mark K}
    (hm : m ∈ c.boxMarks cell width) : m.font? = none := by
  rcases List.mem_append.mp hm with hframe | hborder
  · split at hframe
    · obtain rfl := List.mem_singleton.mp hframe
      rfl
    · cases hframe
  · split at hborder
    · cases hborder
    · exact font?_borderMarks hborder

end Canvas

end PagedReport
