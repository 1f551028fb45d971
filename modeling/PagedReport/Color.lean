import PagedReport.Number.Reading
import PagedReport.Text.Blank

/-!
# Colours

Colours are triples of bytes.  A template names them, writes them in hexadecimal after `#`, or
gives their three components as integers.
-/

namespace PagedReport

structure Color where
  red : UInt8
  green : UInt8
  blue : UInt8
deriving DecidableEq, Repr, Inhabited

namespace Color

def black : Color := ⟨0, 0, 0⟩

def gray (level : UInt8) : Color := ⟨level, level, level⟩

def names : List (String × Color) :=
  [ ("black", ⟨0, 0, 0⟩),
    ("white", ⟨255, 255, 255⟩),
    ("red", ⟨255, 0, 0⟩),
    ("green", ⟨0, 128, 0⟩),
    ("blue", ⟨0, 0, 255⟩),
    ("gray", ⟨128, 128, 128⟩),
    ("lightgray", ⟨211, 211, 211⟩),
    ("darkgray", ⟨169, 169, 169⟩),
    ("yellow", ⟨255, 255, 0⟩),
    ("orange", ⟨255, 165, 0⟩),
    ("purple", ⟨128, 0, 128⟩),
    ("cyan", ⟨0, 255, 255⟩),
    ("magenta", ⟨255, 0, 255⟩) ]

def named (name : String) : Option Color := names.lookup name

inductive Component where
  | red
  | green
  | blue
deriving DecidableEq, Repr

def Component.name : Component → String
  | .red => "red"
  | .green => "green"
  | .blue => "blue"

/-- Why a text is no hexadecimal colour. -/
inductive HexError where
  | noHash (text : String)
  | notAscii (text : String)
  | component (which : Component) (cause : IntegerError)
  | length (n : Nat)
deriving DecidableEq, Repr

def HexError.message : HexError → String
  | .noHash s => s!"Color must start with #, got: {s}"
  | .notAscii s => s!"Invalid hex color: {s}"
  | .component c e => s!"Invalid {c.name} component: {e.message}"
  | .length n => s!"Invalid hex color length: expected 3 or 6, got {n}"

/-- A component read as a byte in base sixteen. -/
def hexComponent (which : Component) (cs : List Char) : Except HexError UInt8 :=
  match readInteger 16 0 255 cs with
  | .ok n => .ok (UInt8.ofNat n.toNat)
  | .error e => .error (.component which e)

/-- `#RGB` or `#RRGGBB`; in the short form every digit stands for itself twice. -/
def ofHex (s : String) : Except HexError Color :=
  let text := trimBoth s.toList
  match text with
  | '#' :: digits =>
    if !digits.all (·.toNat < 128) then .error (.notAscii (String.ofList text)) else
    match digits with
    | [a, b, c] => do
      let r ← hexComponent .red [a, a]
      let g ← hexComponent .green [b, b]
      let b ← hexComponent .blue [c, c]
      return ⟨r, g, b⟩
    | [a, b, c, d, e, f] => do
      let r ← hexComponent .red [a, b]
      let g ← hexComponent .green [c, d]
      let b ← hexComponent .blue [e, f]
      return ⟨r, g, b⟩
    | _ => .error (.length digits.length)
  | _ => .error (.noHash (String.ofList text))

/-- A name or a hexadecimal colour; anything else is black. -/
def ofAttribute (s : String) : Color :=
  match named s with
  | some c => c
  | none =>
    match ofHex s with
    | .ok c => c
    | .error _ => black

def inRange (n : Int) : Bool := 0 ≤ n && n ≤ 255

def clampComponent (n : Int) : UInt8 := UInt8.ofNat (min n.toNat 255)

/-- The nearest colour to three integers, and whether any of them had to move. -/
def ofComponents (r g b : Int) : Color × Bool :=
  (⟨clampComponent r, clampComponent g, clampComponent b⟩, !([r, g, b].all inRange))

/-- The components scaled to the unit interval, in single precision. -/
def unit (c : Color) : Float32 × Float32 × Float32 :=
  let scale := fun (v : UInt8) ↦ v.toFloat32 / 255
  (scale c.red, scale c.green, scale c.blue)

end Color

end PagedReport
