import QuicView.Protocol.Input

/-!
# Injecting input on Windows

The system's functions are a parameter: the screen size they answer, and how many inputs they take
of one that is passed to them, each on what was passed before.
-/

namespace QuicView

inductive InputError where
  | injectionFailed (reason : String)
  | channelClosed
  | platformNotSupported
  | permissionDenied (reason : String)
  deriving DecidableEq, Repr

inductive MouseFlag where
  | move
  | absolute
  | leftDown
  | leftUp
  | rightDown
  | rightUp
  | middleDown
  | middleUp
  | xDown
  | xUp
  | wheel
  | hWheel
  deriving DecidableEq, Repr

/-- An `INPUT`, without its time and its extra information, which are 0 in every one. -/
inductive Win32Input where
  | mouse (dx dy : Int32) (mouseData : UInt32) (flags : List MouseFlag)
  | keyboard (vk : UInt16) (keyUp : Bool)
  deriving DecidableEq, Repr

/-- `f32::EPSILON`, which is 2⁻²³. -/
def f32Epsilon : Float32 := Float32.ofBits 0x34000000

structure User32 where
  getSystemMetrics : List Win32Input → Int32 × Int32
  /-- The number of inputs taken. -/
  sendInput : List Win32Input → Win32Input → UInt32

structure WindowsInputInjector where
  eventsInjected : UInt64
  deriving DecidableEq, Repr

abbrev Injection := ExceptT InputError (StateM (List Win32Input))

theorem Injection.run_bind {α β : Type} (action : Injection α) (next : α → Injection β)
    (before : List Win32Input) :
    (action >>= next).run.run before
      = match action.run.run before with
        | (.ok a, after) => (next a).run.run after
        | (.error e, after) => (.error e, after) := by
  rw [ExceptT.run_bind, StateT.run_bind]
  generalize action.run.run before = result
  rcases result with ⟨e | a, after⟩ <;> rfl

namespace WindowsInputInjector

def new : WindowsInputInjector where
  eventsInjected := 0

variable (user32 : User32)

def sendOne (input : Win32Input) : Injection Unit := do
  let before ← get
  set (before ++ [input])
  if user32.sendInput before input = 0 then throw (.injectionFailed "SendInput returned 0")

theorem sendOne_run (input : Win32Input) (before : List Win32Input) :
    (sendOne user32 input).run.run before
      = (if user32.sendInput before input = 0 then .error (.injectionFailed "SendInput returned 0")
          else .ok (), before ++ [input]) := by
  unfold sendOne
  rw [Injection.run_bind]
  show StateT.run (ExceptT.run (set _ >>= fun _ => _)) _ = _
  rw [Injection.run_bind]
  show StateT.run (ExceptT.run (ite _ _ _)) _ = _
  split <;> rfl

theorem sendOne_bind_passed {α : Type} (input : Win32Input) (next : Unit → Injection α)
    (before : List Win32Input) :
    ((sendOne user32 input >>= next).run.run before).2
      = if user32.sendInput before input = 0 then before ++ [input]
        else ((next ()).run.run (before ++ [input])).2 := by
  rw [Injection.run_bind, sendOne_run]
  by_cases hrefused : user32.sendInput before input = 0
  · rw [if_pos hrefused, if_pos hrefused]
  · rw [if_neg hrefused, if_neg hrefused]

def screenSize (before : List Win32Input) : Except InputError (Int32 × Int32) :=
  let (w, h) := user32.getSystemMetrics before
  if w ≤ 0 ∨ h ≤ 0 then .error (.injectionFailed "failed to get screen dimensions")
  else .ok (w, h)

/-- A coordinate on a screen of the size, on the scale of absolute inputs. The quotient is rounded
towards zero and cut to 32 bits. -/
def normalize (coordinate size : Int32) : Int32 :=
  (coordinate.toInt64 * 65535 / size.toInt64).toInt32

def injectMouseMove (x y : Int32) : Injection Unit := do
  let (screenW, screenH) ← liftExcept (screenSize user32 (← get))
  sendOne user32 (.mouse (normalize x screenW) (normalize y screenH) 0 [.absolute, .move])

theorem injectMouseMove_run (x y : Int32) (before : List Win32Input) :
    (injectMouseMove user32 x y).run.run before
      = match screenSize user32 before with
        | .error err => (.error err, before)
        | .ok (w, h) =>
            (sendOne user32 (.mouse (normalize x w) (normalize y h) 0
              [.absolute, .move])).run.run before := by
  unfold injectMouseMove
  rw [Injection.run_bind]
  show StateT.run (ExceptT.run (liftExcept (screenSize user32 before) >>= fun _ => _)) _ = _
  rw [Injection.run_bind]
  cases screenSize user32 before <;> rfl

def injectMouseButton (button : MouseButton) (action : KeyAction) : Injection Unit :=
  let (flag, mouseData) : MouseFlag × UInt32 := match button, action with
    | .left, .press => (.leftDown, 0)
    | .left, .release => (.leftUp, 0)
    | .right, .press => (.rightDown, 0)
    | .right, .release => (.rightUp, 0)
    | .middle, .press => (.middleDown, 0)
    | .middle, .release => (.middleUp, 0)
    | .back, .press => (.xDown, 1)
    | .back, .release => (.xUp, 1)
    | .forward, .press => (.xDown, 2)
    | .forward, .release => (.xUp, 2)
  sendOne user32 (.mouse 0 0 mouseData [flag])

/-- The notches of a scroll, 120 to one, as `as i32 as u32` casts them. -/
def wheelDelta (notches : Float32) : UInt32 := (notches * 120).toInt32.toUInt32

def injectScroll (scroll : ScrollEvent) : Injection Unit := do
  let dx := Float32.ofBits scroll.dx.bits
  let dy := Float32.ofBits scroll.dy.bits
  if dy.abs > f32Epsilon then sendOne user32 (.mouse 0 0 (wheelDelta (-dy)) [.wheel])
  if dx.abs > f32Epsilon then sendOne user32 (.mouse 0 0 (wheelDelta dx) [.hWheel])

def injectKey (keycode : UInt32) (action : KeyAction) : Injection Unit :=
  sendOne user32 (.keyboard keycode.toUInt16 (action = .release))

def inject (injector : WindowsInputInjector) (event : InputEvent) :
    Injection WindowsInputInjector := do
  match event with
  | .mouse mouse =>
      injectMouseMove user32 mouse.x mouse.y
      if let some (button, action) := mouse.button then injectMouseButton user32 button action
  | .key key => injectKey user32 key.keycode key.action
  | .scroll scroll => injectScroll user32 scroll
  return { eventsInjected := injector.eventsInjected + 1 }

end WindowsInputInjector

end QuicView
