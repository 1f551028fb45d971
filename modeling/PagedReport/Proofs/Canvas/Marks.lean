import PagedReport.Canvas.Run

/-!
# Drawing as lists of marks

What a cell puts on a page is a list of marks that depends on the canvas before it, so drawing is
putting marks down and moving the cursor.  Everything said of `puts` holds of all drawing at once.
-/

namespace PagedReport

namespace Canvas

variable {K D Output : Type} [Device K D Output]

/-! ## Putting marks down -/

def puts (ms : List (Mark K)) (c : Canvas K D) : Canvas K D := ms.foldl (fun c m ↦ c.put m) c

@[simp] theorem puts_nil (c : Canvas K D) : c.puts [] = c := rfl

@[simp] theorem puts_cons (m : Mark K) (ms : List (Mark K)) (c : Canvas K D) :
    c.puts (m :: ms) = (c.put m).puts ms := rfl

theorem puts_append (ms ns : List (Mark K)) (c : Canvas K D) :
    c.puts (ms ++ ns) = (c.puts ms).puts ns := List.foldl_append

def markCalls (o : Origin) (ms : List (Mark K)) : Array (Origin × Call K) :=
  (ms.map fun m ↦ (o, Call.mark m)).toArray

/-- Marks change the device and the history of calls and nothing else. -/
theorem puts_eq (ms : List (Mark K)) (c : Canvas K D) :
    c.puts ms =
      { c with
        device := ms.foldl (fun d m ↦ Device.mark m d) c.device
        history := c.history ++ markCalls c.origin ms } := by
  induction ms generalizing c with
  | nil => simp [markCalls]
  | cons m ms ih =>
      rw [puts_cons, ih]
      simp [put, note, markCalls]

section fields

variable (ms : List (Mark K)) (c : Canvas K D)

@[simp] theorem put_scale (m : Mark K) (c : Canvas K D) : (c.put m).scale = c.scale := rfl

@[simp] theorem puts_scale : (c.puts ms).scale = c.scale := by rw [puts_eq]

@[simp] theorem puts_graphics : (c.puts ms).graphics = c.graphics := by rw [puts_eq]

@[simp] theorem puts_error : (c.puts ms).error = c.error := by rw [puts_eq]

end fields

/-! ## The marks of a cell -/

variable [Scalar K]

/-- What a shape is painted with in a graphics state, on a canvas of a scale. -/
def paintOf (g : Graphics K) (scale : K) : Paint K :=
  ⟨g.fillColor, g.drawColor, g.lineWidth * scale⟩

/-- Text, and the bar under it if the font is underlined. -/
def textMarks (g : Graphics K) (scale x baseline : K) (text : String) (width : K) : List (Mark K) :=
  .text x baseline text g.font.key g.font.size g.textColor ::
    if g.font.underline then
      [.rect ⟨x, baseline + 0.1 * g.font.size, width, 0.05 * g.font.size⟩ 0 .fill
        { paintOf g scale with fill := g.textColor }]
    else []

theorem drawText_eq (x baseline : K) (text : String) (width : K) (c : Canvas K D) :
    c.drawText x baseline text width =
      c.puts (textMarks c.graphics c.scale x baseline text width) := by
  cases hu : c.graphics.font.underline with
  | false => simp [drawText, textMarks, hu]
  | true => simp [drawText, textMarks, hu]; rfl

/-- Words from `cursor` on, `gap` apart. -/
def wordMarks (g : Graphics K) (scale baseline gap : K) : K → List (String × K) → List (Mark K)
  | _, [] => []
  | cursor, (word, width) :: rest =>
      textMarks g scale (cursor * scale) baseline word (width * scale) ++
        wordMarks g scale baseline gap (cursor + (width + gap)) rest

theorem drawWords_eq (baseline gap cursor : K) (words : List (String × K)) (c : Canvas K D) :
    c.drawWords baseline gap cursor words =
      c.puts (wordMarks c.graphics c.scale baseline gap cursor words) := by
  induction words generalizing cursor c with
  | nil => rfl
  | cons w words ih =>
      rw [drawWords, ih, drawText_eq, wordMarks, puts_append, puts_graphics, puts_scale]

def measuredWords (text : String) (c : Canvas K D) : List (String × K) :=
  ((Wrap.words text.toList).map String.ofList).map fun w ↦ (w, c.stringWidth w)

/-- The room between the words of a justified line. -/
def wordGap (words : List (String × K)) (width : K) (c : Canvas K D) : K :=
  let gaps : K := Scalar.whole (max (words.length - 1) 1)
  let free := width - 2 * c.cellMargin - (words.map (·.2)).foldl (· + ·) 0
  Scalar.larger (free / gaps) (c.stringWidth " ")

theorem drawJustified_eq (text : String) (x width baseline : K) (c : Canvas K D) :
    c.drawJustified text x width baseline =
      c.puts (wordMarks c.graphics c.scale baseline (c.wordGap (c.measuredWords text) width)
        (x + c.cellMargin) (c.measuredWords text)) := by
  have hzip : ∀ ws : List String, ws.zip (ws.map c.stringWidth) =
      ws.map fun w ↦ (w, c.stringWidth w) := by
    intro ws
    induction ws with
    | nil => rfl
    | cons w ws ih => rw [List.map_cons, List.zip_cons_cons, ih, List.map_cons]
  rw [drawJustified, drawWords_eq, hzip]
  simp [wordGap, measuredWords, Function.comp_def]

def borderMarks (p : Paint K) (k : K) (b : Border) (x y w h : K) : List (Mark K) :=
  let (left, top, right, bottom) := (x * k, y * k, (x + w) * k, (y + h) * k)
  (if b.left then [.line left top left bottom p] else []) ++
    (if b.top then [.line left top right top p] else []) ++
    (if b.right then [.line right top right bottom p] else []) ++
    (if b.bottom then [.line left bottom right bottom p] else [])

theorem drawBorder_eq (b : Border) (x y w h : K) (c : Canvas K D) :
    c.drawBorder b x y w h = c.puts (borderMarks c.paint c.scale b x y w h) := by
  obtain ⟨left, top, right, bottom⟩ := b
  cases left <;> cases top <;> cases right <;> cases bottom <;> rfl

def boxMarks (cell : Cell K) (width : K) (c : Canvas K D) : List (Mark K) :=
  let framed := cell.border = .all
  (if cell.fill || framed then
      [.rect (c.inPoints c.x c.y width cell.height) 0 (.ofFlags cell.fill framed) c.paint]
    else []) ++
    if cell.border = .none || framed then []
    else borderMarks c.paint c.scale cell.border c.x c.y width cell.height

@[simp] theorem put_paint (m : Mark K) (c : Canvas K D) : (c.put m).paint = c.paint := rfl

theorem drawBox_eq (cell : Cell K) (width : K) (c : Canvas K D) :
    c.drawBox cell width = c.puts (c.boxMarks cell width) := by
  unfold drawBox boxMarks
  simp only [puts_append]
  split <;> split <;> simp [drawBorder_eq]

def contentMarks (cell : Cell K) (justify : Bool) (width : K) (c : Canvas K D) : List (Mark K) :=
  if cell.text.isEmpty then []
  else
    let baseline := (c.y + 0.5 * cell.height) * c.scale + 0.3 * c.graphics.font.size
    if justify then
      wordMarks c.graphics c.scale baseline (c.wordGap (c.measuredWords cell.text) width)
        (c.x + c.cellMargin) (c.measuredWords cell.text)
    else
      let textWidth := c.stringWidth cell.text
      let dx :=
        match cell.align with
        | .right => width - c.cellMargin - textWidth
        | .center => (width - textWidth) / 2
        | .left | .justify => c.cellMargin
      textMarks c.graphics c.scale ((c.x + dx) * c.scale) baseline cell.text (textWidth * c.scale)

theorem drawContent_eq (cell : Cell K) (justify : Bool) (width : K) (c : Canvas K D) :
    c.drawContent cell justify width = c.puts (c.contentMarks cell justify width) := by
  unfold drawContent contentMarks
  split
  · rfl
  · split
    · exact drawJustified_eq _ _ _ _ _
    · exact drawText_eq _ _ _ _ _

def cellMarks (cell : Cell K) (justify : Bool) (width : K) (c : Canvas K D) : List (Mark K) :=
  c.boxMarks cell width ++ (c.puts (c.boxMarks cell width)).contentMarks cell justify width

/-- The page a cell is drawn on. -/
def turnWith (hook : Origin → Canvas K D → Canvas K D) (height : K) (c : Canvas K D) :
    Canvas K D :=
  if c.breaksPage height then { addPageWith hook c with x := c.x } else c

/-- A cell starts a page if it does not fit, puts its marks down and moves the cursor. -/
theorem drawCellWith_eq (hook : Origin → Canvas K D → Canvas K D) (cell : Cell K) (justify : Bool)
    (c : Canvas K D) :
    drawCellWith hook cell justify c =
      let c := turnWith hook cell.height c
      (c.puts (c.cellMarks cell justify (c.widthOf cell))).advance cell (c.widthOf cell) := by
  simp only [drawCellWith, turnWith, drawBox_eq, drawContent_eq, cellMarks, puts_append]

end Canvas

end PagedReport
