import PagedReport.Number.Scalar
import PagedReport.Text.Blank

/-!
# Page geometry

The unit of every length of a document, the extent of its pages and its margins.
-/

namespace PagedReport

/-- The settings of a document that are chosen by name. -/
inductive Setting where
  | orientation
  | unit
  | pageFormat
deriving DecidableEq, Repr

def Setting.name : Setting → String
  | .orientation => "orientation"
  | .unit => "unit"
  | .pageFormat => "page format"

/-- A name that no value of the setting has, as it was written. -/
structure UnknownName where
  setting : Setting
  value : String
deriving DecidableEq, Repr

def UnknownName.message (e : UnknownName) : String :=
  s!"unknown {e.setting.name} '{e.value}'"

inductive Orientation where
  | portrait
  | landscape
deriving DecidableEq, Repr, Inhabited

def Orientation.ofName (s : String) : Except UnknownName Orientation :=
  let name := settingName s
  if name == "p" || name == "portrait" then .ok .portrait
  else if name.toList.head? == some 'l' then .ok .landscape
  else .error ⟨.orientation, s⟩

/-- What a length of one means. -/
inductive LengthUnit where
  | point
  | millimeter
  | centimeter
  | inch
deriving DecidableEq, Repr

instance : Inhabited LengthUnit := ⟨.millimeter⟩

def LengthUnit.ofName (s : String) : Except UnknownName LengthUnit :=
  match settingName s with
  | "pt" => .ok .point
  | "mm" => .ok .millimeter
  | "cm" => .ok .centimeter
  | "in" => .ok .inch
  | "inch" => .ok .inch
  | _ => .error ⟨.unit, s⟩

/-- Named page formats. -/
inductive PageFormat where
  | a3
  | a4
  | a5
  | letter
  | legal
  | tabloid
deriving DecidableEq, Repr

instance : Inhabited PageFormat := ⟨.a4⟩

def PageFormat.ofName (s : String) : Except UnknownName PageFormat :=
  match settingName s with
  | "a3" => .ok .a3
  | "a4" => .ok .a4
  | "a5" => .ok .a5
  | "letter" => .ok .letter
  | "legal" => .ok .legal
  | "tabloid" => .ok .tabloid
  | _ => .error ⟨.pageFormat, s⟩

/-- Horizontal alignment of text and images. -/
inductive Align where
  | left
  | center
  | right
  | justify
deriving DecidableEq, Repr, Inhabited

def Align.ofName? (s : String) : Option Align :=
  match settingName s with
  | "l" | "left" => some .left
  | "c" | "center" | "centre" => some .center
  | "r" | "right" => some .right
  | "j" | "justify" => some .justify
  | _ => none

structure Size (K : Type) where
  width : K
  height : K
deriving Repr

structure Margins (K : Type) where
  top : K
  right : K
  bottom : K
  left : K
deriving Repr

def Margins.uniform {K : Type} (v : K) : Margins K := ⟨v, v, v, v⟩

variable {K : Type} [Scalar K]

/-- Points in one unit. -/
def LengthUnit.points : LengthUnit → K
  | .point => 1
  | .millimeter => 72 / 25.4
  | .centimeter => 72 / 2.54
  | .inch => 72

/-- The upright extent in points. -/
def PageFormat.points : PageFormat → Size K
  | .a3 => ⟨841.89, 1190.55⟩
  | .a4 => ⟨595.28, 841.89⟩
  | .a5 => ⟨420.94, 595.28⟩
  | .letter => ⟨612, 792⟩
  | .legal => ⟨612, 1008⟩
  | .tabloid => ⟨792, 1224⟩

/-- The page setup of a document; margins and a size of its own are in its unit. -/
structure PageSetup (K : Type) where
  orientation : Orientation := default
  unit : LengthUnit := default
  format : PageFormat := default
  /-- Takes the place of `format`. -/
  customSize : Option (Size K) := none
  margins : Margins K
deriving Repr

namespace PageSetup

instance : Inhabited (PageSetup K) := ⟨⟨default, default, default, none, .uniform 15⟩⟩

/-- The extent of a page in document units, turned on its side for landscape. -/
def pageSize (p : PageSetup K) : Size K :=
  let upright : Size K :=
    match p.customSize with
    | some s => s
    | none =>
      let s : Size K := p.format.points
      ⟨s.width / p.unit.points, s.height / p.unit.points⟩
  match p.orientation with
  | .portrait => upright
  | .landscape => ⟨upright.height, upright.width⟩

end PageSetup

/-- A negative coordinate counts back from the far edge. -/
def fromEdge (value extent : K) : K := if value < 0 then extent + value else value

end PagedReport
