import QuicView.Protocol.Display

namespace QuicView

inductive CaptureError where
  | displayNotFound (id : UInt32)
  | captureFailed (reason : String)
  | virtualDisplayFailed (reason : String)
  | permissionDenied (reason : String)
  | platformNotSupported (reason : String)
  deriving DecidableEq, Repr

structure StubVirtualDisplay where
  nextId : UInt32
  displays : List (DisplayId × Resolution × UInt32)
  deriving DecidableEq, Repr

namespace StubVirtualDisplay

def new : StubVirtualDisplay where
  nextId := 100
  displays := []

def create (vd : StubVirtualDisplay) (resolution : Resolution) (refreshHz : UInt32) :
    Except CaptureError DisplayId × StubVirtualDisplay :=
  let id := DisplayId.mk vd.nextId
  (.ok id,
    { nextId := vd.nextId + 1
      displays := vd.displays ++ [(id, resolution, refreshHz)] })

def setResolution (displayId : DisplayId) (resolution : Resolution) :
    List (DisplayId × Resolution × UInt32) → Option (List (DisplayId × Resolution × UInt32))
  | [] => none
  | entry :: displays =>
      if entry.1 = displayId then some ((entry.1, resolution, entry.2.2) :: displays)
      else (setResolution displayId resolution displays).map (entry :: ·)

def resize (vd : StubVirtualDisplay) (displayId : DisplayId) (resolution : Resolution) :
    Except CaptureError Unit × StubVirtualDisplay :=
  match setResolution displayId resolution vd.displays with
  | some displays => (.ok (), { vd with displays := displays })
  | none => (.error (.displayNotFound displayId.id), vd)

def destroy (vd : StubVirtualDisplay) (displayId : DisplayId) :
    Except CaptureError Unit × StubVirtualDisplay :=
  let before := vd.displays.length
  let displays := vd.displays.filter fun entry => entry.1 != displayId
  let vd := { vd with displays := displays }
  if displays.length = before then (.error (.displayNotFound displayId.id), vd) else (.ok (), vd)

def list (vd : StubVirtualDisplay) : List DisplayId := vd.displays.map fun entry => entry.1

inductive Call where
  | create (resolution : Resolution) (refreshHz : UInt32)
  | resize (displayId : DisplayId) (resolution : Resolution)
  | destroy (displayId : DisplayId)
  deriving DecidableEq, Repr

def step (vd : StubVirtualDisplay) : Call → StubVirtualDisplay
  | .create resolution refreshHz => (vd.create resolution refreshHz).2
  | .resize displayId resolution => (vd.resize displayId resolution).2
  | .destroy displayId => (vd.destroy displayId).2

end StubVirtualDisplay

end QuicView
