import PagedReport.Number.BigEndian

/-!
# JPEG files

Viewers decode these files themselves, so only what stands before the first scan is read, and of
that only the header of the frame is kept.
-/

namespace PagedReport

namespace Jpeg

open BigEndian

/-- Why a file cannot be used. -/
inductive Fault where
  /-- The file ends before its first scan begins. -/
  | cutOff
  | noFrame
  | noDimensions
  | frameKind (marker : Nat)
  | components (n : Nat)
deriving DecidableEq, Repr

def Fault.message : Fault → String
  | .cutOff => "I/O errors Generic I/O error: Cannot satisfy read\n"
  | .noFrame => "Error parsing SOS Segment. Reason:no frame"
  | .noDimensions => "Image width or height is set to zero, cannot continue"
  | .frameKind marker => s!"Unsupported frame marker {marker}"
  | .components n => s!"Unsupported number of components {n}"

structure Frame where
  width : Nat
  height : Nat
  /-- One component is a level of gray. -/
  components : Nat

/-- Markers that stand alone. -/
def isBare (marker : Nat) : Bool := marker == 0x01 || (0xD0 ≤ marker && marker ≤ 0xD8)

/-- Markers that begin a frame. -/
def isFrame (marker : Nat) : Bool :=
  0xC0 ≤ marker && marker ≤ 0xCF && marker != 0xC4 && marker != 0xC8 && marker != 0xCC

def frameAt (file : ByteArray) (offset : Nat) : Except Fault Frame :=
  match word? file (offset + 3), word? file (offset + 5), file[offset + 7]? with
  | some height, some width, some components =>
    if width = 0 ∨ height = 0 then .error .noDimensions
    else if !([1, 3, 4].contains components.toNat) then .error (.components components.toNat)
    else .ok ⟨width, height, components.toNat⟩
  | _, _, _ => .error .cutOff

/-- Looks for the first scan from an offset on, in fewer than `fuel` steps, with the frame found so
far. -/
def frameFrom (file : ByteArray) : Nat → Option Frame → Nat → Except Fault Frame
  | 0, _, _ => .error .cutOff
  | fuel + 1, found, offset =>
    match file[offset]?, file[offset + 1]? with
    | some first, some second =>
      let marker := second.toNat
      if first ≠ 0xFF ∨ marker = 0xFF ∨ marker = 0 then frameFrom file fuel found (offset + 1)
      else if isBare marker then frameFrom file fuel found (offset + 2)
      else
        match word? file (offset + 2) with
        | none => .error .cutOff
        | some size =>
          let next := offset + 2 + size
          if isFrame marker then
            if marker ≤ 0xC2 then do
              let f ← frameAt file (offset + 2)
              frameFrom file fuel (some f) next
            else .error (.frameKind marker)
          else if marker = 0xDA then
            match found with
            | some f => .ok f
            | none => .error .noFrame
          else frameFrom file fuel found next
    | _, _ => .error .cutOff

/-- The frame of a file. -/
def frame (file : ByteArray) : Except Fault Frame := frameFrom file (file.size + 1) none 0

end Jpeg

end PagedReport
