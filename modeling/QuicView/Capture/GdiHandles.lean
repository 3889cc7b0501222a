import QuicView.Capture.Gdi
import QuicView.Library.Custody

/-!
# The handles of a capture through GDI

The source written out call by call. Every call to the system is kept with its answer, so that what
was acquired can be compared with what was given back.
-/

namespace QuicView

inductive GdiEvent where
  | getSystemMetrics (metrics : Int32 × Int32)
  | getDC (window : Int64) (dc : Int64)
  | createCompatibleDC (dc : Int64) (memory : Int64)
  | createCompatibleBitmap (dc : Int64) (width height : Int32) (bitmap : Int64)
  | selectObject (dc object : Int64) (replaced : Int64)
  | bitBlt (dest : Int64) (width height : Int32) (source : Int64) (ok : Int32)
  | getDIBits (dc bitmap : Int64) (start lines : UInt32) (width height : Int32) (copied : Int32)
  | deleteObject (object : Int64)
  | deleteDC (dc : Int64)
  | releaseDC (window dc : Int64)
  deriving DecidableEq, Repr

/-- The system's answers, each on the calls made before. A handle that is not given is 0. -/
structure GdiSystem where
  getSystemMetrics : List GdiEvent → Int32 × Int32
  getDC : List GdiEvent → (window : Int64) → Int64
  createCompatibleDC : List GdiEvent → (dc : Int64) → Int64
  createCompatibleBitmap : List GdiEvent → (dc : Int64) → (width height : Int32) → Int64
  selectObject : List GdiEvent → (dc object : Int64) → Int64
  bitBlt : List GdiEvent → (dest : Int64) → (width height : Int32) → (source : Int64) → Int32
  getDIBits : List GdiEvent → (dc bitmap : Int64) → (start lines : UInt32) →
    (width height : Int32) → (buffer : List UInt8) →
    Int32 × { data : List UInt8 // data.length = buffer.length }

/-! ### What a call does with handles -/

inductive GdiHandle where
  | screen (dc : Int64)
  | memory (dc : Int64)
  | bitmap (object : Int64)
  deriving DecidableEq, Repr

def given (handle : Int64) (kind : Int64 → GdiHandle) : List (Custody.Deed GdiHandle) :=
  if handle = 0 then [] else [.acquire (kind handle)]

/-- A selection that is refused, which is one that answers 0, leaves what was selected. -/
def GdiEvent.deeds : GdiEvent → List (Custody.Deed GdiHandle)
  | .getSystemMetrics _ => []
  | .getDC _ dc => given dc .screen
  | .createCompatibleDC dc memory => .use (.screen dc) :: given memory .memory
  | .createCompatibleBitmap dc _ _ bitmap => .use (.screen dc) :: given bitmap .bitmap
  | .selectObject dc object replaced =>
      .use (.memory dc) :: if replaced = 0 then [] else [.attach (.memory dc) (.bitmap object)]
  | .bitBlt dest _ _ source _ => [.use (.memory dest), .use (.screen source)]
  | .getDIBits dc bitmap .. => [.use (.memory dc), .use (.bitmap bitmap)]
  | .deleteObject object => [.release (.bitmap object)]
  | .deleteDC dc => [.release (.memory dc)]
  | .releaseDC _ dc => [.release (.screen dc)]

def GdiEvent.Draws : GdiEvent → Prop
  | .bitBlt .. => True
  | .getDIBits .. => True
  | _ => False

/-- What the capture relies on when it selects its bitmap and selects the old one back. -/
structure GdiSystem.Lawful (system : GdiSystem) : Prop where
  /-- A bitmap just created is selected nowhere, so its selection replaces another object. -/
  replaced_ne : ∀ before dc width height bitmap memory, bitmap ≠ 0 →
    system.selectObject (before ++ [.createCompatibleBitmap dc width height bitmap]) memory bitmap
      ≠ bitmap
  /-- An object that was replaced can be selected back when there was only drawing since. -/
  restored : ∀ before memory bitmap replaced drawn, replaced ≠ 0 →
    (∀ event ∈ drawn, GdiEvent.Draws event) →
    system.selectObject (before ++ .selectObject memory bitmap replaced :: drawn) memory replaced
      ≠ 0

abbrev GdiCalls := StateM (List GdiEvent)

namespace GdiCalls

def call {α : Type} (answer : List GdiEvent → α) (event : α → GdiEvent) : GdiCalls α := do
  let before ← get
  set (before ++ [event (answer before)])
  return answer before

def deleteObject (object : Int64) : GdiCalls Unit :=
  call (fun _ => ()) fun _ => .deleteObject object

def deleteDC (dc : Int64) : GdiCalls Unit := call (fun _ => ()) fun _ => .deleteDC dc

def releaseDC (window dc : Int64) : GdiCalls Unit :=
  call (fun _ => ()) fun _ => .releaseDC window dc

end GdiCalls

namespace GdiCaptureSource

open GdiCalls

variable (system : GdiSystem)

def grabCalls (source : GdiCaptureSource) :
    GdiCalls (Except CaptureError (Option FrameBuffer) × GdiCaptureSource) := do
  if !source.active then
    return (.error (.captureFailed "not started"), source)
  let w := source.resolution.width.toInt32
  let h := source.resolution.height.toInt32
  let hdcScreen ← call (system.getDC · 0) (.getDC 0)
  if hdcScreen = 0 then
    return (.error (.captureFailed "GetDC failed"), source)
  let hdcMem ← call (system.createCompatibleDC · hdcScreen) (.createCompatibleDC hdcScreen)
  if hdcMem = 0 then
    releaseDC 0 hdcScreen
    return (.error (.captureFailed "CreateCompatibleDC failed"), source)
  let hbm ← call (system.createCompatibleBitmap · hdcScreen w h)
    (.createCompatibleBitmap hdcScreen w h)
  if hbm = 0 then
    deleteDC hdcMem
    releaseDC 0 hdcScreen
    return (.error (.captureFailed "CreateCompatibleBitmap failed"), source)
  let oldObj ← call (system.selectObject · hdcMem hbm) (.selectObject hdcMem hbm)
  let ok ← call (system.bitBlt · hdcMem w h hdcScreen) (.bitBlt hdcMem w h hdcScreen)
  if ok = 0 then
    let _ ← call (system.selectObject · hdcMem oldObj) (.selectObject hdcMem oldObj)
    deleteObject hbm
    deleteDC hdcMem
    releaseDC 0 hdcScreen
    return (.error (.captureFailed "BitBlt failed"), source)
  let height := source.resolution.height
  let (lines, buffer) ← call (system.getDIBits · hdcMem hbm 0 height w (-h) source.allocate)
    fun answer => .getDIBits hdcMem hbm 0 height w (-h) answer.1
  let _ ← call (system.selectObject · hdcMem oldObj) (.selectObject hdcMem oldObj)
  deleteObject hbm
  deleteDC hdcMem
  releaseDC 0 hdcScreen
  if lines = 0 then
    return (.error (.captureFailed "GetDIBits failed"), source)
  let frameCount := source.frameCount + 1
  return (.ok (some
    { data := buffer.val
      pixelFormat := .bgra8
      resolution := source.resolution
      timestampUs := frameCount * 16667 }),
    { source with frameCount := frameCount })

/-- The system as a grab of the source finds it, which looks at each answer once. -/
def view (before : List GdiEvent) (source : GdiCaptureSource) : Gdi :=
  let w := source.resolution.width.toInt32
  let h := source.resolution.height.toInt32
  let hdcScreen := system.getDC before 0
  let before1 := before ++ [.getDC 0 hdcScreen]
  let hdcMem := system.createCompatibleDC before1 hdcScreen
  let before2 := before1 ++ [.createCompatibleDC hdcScreen hdcMem]
  let hbm := system.createCompatibleBitmap before2 hdcScreen w h
  let before3 := before2 ++ [.createCompatibleBitmap hdcScreen w h hbm]
  let oldObj := system.selectObject before3 hdcMem hbm
  let before4 := before3 ++ [.selectObject hdcMem hbm oldObj]
  let ok := system.bitBlt before4 hdcMem w h hdcScreen
  let before5 := before4 ++ [.bitBlt hdcMem w h hdcScreen ok]
  { getSystemMetrics := system.getSystemMetrics before
    getDC := hdcScreen != 0
    createCompatibleDC := hdcMem != 0
    createCompatibleBitmap := fun _ _ => hbm != 0
    bitBlt := fun _ _ => ok != 0
    getDIBits := fun lines width height buffer =>
      system.getDIBits before5 hdcMem hbm 0 lines width height buffer }

def takeCalls (source : GdiCaptureSource) : CaptureCall → GdiCalls GdiCaptureSource
  | .enumerateDisplays => do
      let _ ← call system.getSystemMetrics .getSystemMetrics
      return source
  | .start displayId => do
      let before ← get
      let _ ← call system.getSystemMetrics .getSystemMetrics
      return (start (view system before source) source displayId).2
  | .grab => do
      let (_, source) ← grabCalls system source
      return source
  | .stop => return (stop source).2

def runCalls (calls : List CaptureCall) : GdiCaptureSource × List GdiEvent :=
  Execution.run (fun state capture => (takeCalls system state.1 capture).run state.2) (new, [])
    calls

end GdiCaptureSource

end QuicView
