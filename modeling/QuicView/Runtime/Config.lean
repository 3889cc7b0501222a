namespace QuicView

structure NetworkConfig where
  bindAddress : String
  port : UInt16
  maxConnections : UInt32
  keepaliveMs : UInt64
  deriving DecidableEq, Repr

structure DisplayConfig where
  targetFps : UInt32
  width : UInt32
  height : UInt32
  deriving DecidableEq, Repr

structure CodecConfig where
  targetBitrateBps : UInt64
  keyframeInterval : UInt32
  deriving DecidableEq, Repr

structure Config where
  network : NetworkConfig
  display : DisplayConfig
  codec : CodecConfig
  deriving DecidableEq, Repr

def NetworkConfig.default : NetworkConfig where
  bindAddress := "0.0.0.0"
  port := 4433
  maxConnections := 16
  keepaliveMs := 5000

def DisplayConfig.default : DisplayConfig where
  targetFps := 60
  width := 1920
  height := 1080

def CodecConfig.default : CodecConfig where
  targetBitrateBps := 50000000
  keyframeInterval := 0

namespace Config

def default : Config := ⟨.default, .default, .default⟩

def bindAddr (config : Config) : String := s!"{config.network.bindAddress}:{config.network.port}"

end Config

end QuicView
