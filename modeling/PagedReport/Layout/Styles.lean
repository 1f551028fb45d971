import PagedReport.Canvas.State
import PagedReport.Report.Model

/-!
# Styles in use

Styles are known by name.  Of two definitions of one name the later counts.
-/

namespace PagedReport

structure Styles where
  definitions : List Report.Style

namespace Styles

def get? (s : Styles) (name : String) : Option Report.Style :=
  s.definitions.reverse.find? (·.name == name)

/-- How many names are defined. -/
def size (s : Styles) : Nat := (s.definitions.map (·.name)).eraseDups.length

/-- The height of a line without a style that sets it. -/
def usualLineHeight : Float := 6

def lineHeight (s : Styles) (name : Option String) : Float :=
  match name.bind s.get? with
  | some style => if 0 < style.lineHeight then style.lineHeight else usualLineHeight
  | none => usualLineHeight

def align (s : Styles) (name : Option String) : Option Align :=
  (name.bind s.get?).bind (·.align)

/-- The settings that a style declares. -/
def settings (style : Report.Style) : List (Step Float) :=
  let font := style.fontFamily.map fun family ↦ .setFont family style.fontStyle style.fontSize
  font.toList ++ (style.textColor.map .setTextColor).toList ++
    (style.fillColor.map .setFillColor).toList

/-- Puts a style into effect; without a name nothing changes, and an unknown name is reported. -/
def apply (s : Styles) (name : String) : List (Step Float) :=
  if name.isEmpty then []
  else
    match s.get? name with
    | some style => settings style
    | none => [.warn (.undefinedStyle name)]

/-- Puts a style into effect if there is one. -/
def use (s : Styles) (name : Option String) : List (Step Float) :=
  match name with
  | some n => s.apply n
  | none => []

end Styles

end PagedReport
