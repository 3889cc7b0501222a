import QuicView.Library.Wire
import QuicView.Protocol.Basic

namespace QuicView

open Wire

inductive MouseButton where
  | left
  | right
  | middle
  | back
  | forward
  deriving DecidableEq, Repr

inductive KeyAction where
  | press
  | release
  deriving DecidableEq, Repr

structure MouseEvent where
  x : Int32
  y : Int32
  button : Option (MouseButton × KeyAction)
  deriving DecidableEq, Repr

structure KeyEvent where
  keycode : UInt32
  action : KeyAction
  modifiers : UInt8
  deriving DecidableEq, Repr

/-- An `f32`, by its 32-bit pattern: the wire moves it with `to_bits` and `from_bits`. -/
structure Float32Bits where
  bits : UInt32
  deriving DecidableEq, Repr

structure ScrollEvent where
  dx : Float32Bits
  dy : Float32Bits
  deriving DecidableEq, Repr

inductive InputEvent where
  | mouse (event : MouseEvent)
  | key (event : KeyEvent)
  | scroll (event : ScrollEvent)
  deriving DecidableEq, Repr

def tagMouse : UInt8 := 0
def tagKey : UInt8 := 1
def tagScroll : UInt8 := 2

def putF32 (value : Float32Bits) : Writer := putU32 value.bits

def getF32 {ε : Type} : Reader ε Float32Bits := do return { bits := ← getU32 }

def MouseButton.toU8 : MouseButton → UInt8
  | .left => 0
  | .right => 1
  | .middle => 2
  | .back => 3
  | .forward => 4

def KeyAction.bit : KeyAction → UInt8
  | .press => 0x80
  | .release => 0x00

def InputEvent.encode (event : InputEvent) : Writer := fun dst =>
  match event with
  | .mouse m =>
      let dst := dst |> putU8 tagMouse |> putI32 m.x |> putI32 m.y
      match m.button with
      | none => dst |> putU8 0xFF
      | some (btn, action) => dst |> putU8 (btn.toU8 ||| action.bit)
  | .key k =>
      dst
        |> putU8 tagKey
        |> putU32 k.keycode
        |> putU8 (match k.action with | .press => 1 | .release => 0)
        |> putU8 k.modifiers
  | .scroll s => dst |> putU8 tagScroll |> putF32 s.dx |> putF32 s.dy

def decodeButton (btnByte : UInt8) : Except ProtocolError (Option (MouseButton × KeyAction)) :=
  if btnByte = 0xFF then .ok none
  else do
    let v := btnByte &&& 0x7F
    let btn ←
      if v = 0 then .ok MouseButton.left
      else if v = 1 then .ok .right
      else if v = 2 then .ok .middle
      else if v = 3 then .ok .back
      else if v = 4 then .ok .forward
      else .error (.unknownInputEvent v)
    let action := if btnByte &&& 0x80 ≠ 0 then KeyAction.press else KeyAction.release
    return some (btn, action)

def InputEvent.decode : Reader ProtocolError InputEvent := do
  if (← remaining) = 0 then throw (.decode "empty input event")
  let tag ← getU8
  if tag = tagMouse then
    if (← remaining) < 9 then throw (.decode "truncated mouse event")
    let x ← getI32
    let y ← getI32
    let button ← check (decodeButton (← getU8))
    return .mouse { x, y, button }
  else if tag = tagKey then
    if (← remaining) < 6 then throw (.decode "truncated key event")
    let keycode ← getU32
    let action := if (← getU8) = 1 then KeyAction.press else KeyAction.release
    let modifiers ← getU8
    return .key { keycode, action, modifiers }
  else if tag = tagScroll then
    if (← remaining) < 8 then throw (.decode "truncated scroll event")
    let dx ← getF32
    let dy ← getF32
    return .scroll { dx, dy }
  else
    throw (.unknownInputEvent tag)

def encodeEvents (events : List InputEvent) : Writer := putMany InputEvent.encode events

end QuicView
