import QuicView.Protocol.Display

namespace QuicView

structure SessionOffer where
  hostName : String
  displays : List DisplayInfo
  layout : DisplayLayout
  maxFps : UInt32
  supportsVirtualDisplay : Bool
  deriving DecidableEq, Repr

structure NegotiateDisplay where
  displayId : Option DisplayId
  resolution : Resolution
  refreshHz : UInt32
  deriving DecidableEq, Repr

inductive ControlMessage where
  | offer (offer : SessionOffer)
  | negotiate (request : NegotiateDisplay)
  | accepted (displayId : DisplayId)
  | requestKeyFrame (displayId : DisplayId)
  | ping (timestampMs : UInt64)
  | pong (timestampMs : UInt64)
  | bye
  deriving DecidableEq, Repr

end QuicView
