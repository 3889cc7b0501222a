import Mathlib.Data.List.AList
import QuicView.Capture.VirtualDisplay
import QuicView.Net.SocketAddr

/-!
# The display wall

The hash map of clients is an association list without repeated keys, whose order means nothing.
Arithmetic wraps, as in a release build.
-/

namespace QuicView

structure WallClient where
  addr : SocketAddr
  displayId : DisplayId
  gridX : Int32
  gridY : Int32
  resolution : Resolution
  deriving DecidableEq

structure DisplayWall where
  clients : AList fun _ : SocketAddr => WallClient
  virtualDisplays : StubVirtualDisplay

namespace DisplayWall

def new : DisplayWall where
  clients := ∅
  virtualDisplays := .new

def addClient (wall : DisplayWall) (addr : SocketAddr) (gridX gridY : Int32)
    (resolution : Resolution) : Except CaptureError DisplayId × DisplayWall :=
  match wall.virtualDisplays.create resolution 60 with
  | (.error err, virtualDisplays) => (.error err, { wall with virtualDisplays := virtualDisplays })
  | (.ok displayId, virtualDisplays) =>
      let client : WallClient :=
        { addr := addr
          displayId := displayId
          gridX := gridX
          gridY := gridY
          resolution := resolution }
      (.ok displayId,
        { clients := wall.clients.insert addr client
          virtualDisplays := virtualDisplays })

def removeClient (wall : DisplayWall) (addr : SocketAddr) :
    Except CaptureError Unit × DisplayWall :=
  match wall.clients.lookup addr with
  | none => (.ok (), wall)
  | some client =>
      let clients := wall.clients.erase addr
      match wall.virtualDisplays.destroy client.displayId with
      | (.error err, virtualDisplays) => (.error err, ⟨clients, virtualDisplays⟩)
      | (.ok (), virtualDisplays) => (.ok (), ⟨clients, virtualDisplays⟩)

def values (wall : DisplayWall) : List WallClient := wall.clients.entries.map Sigma.snd

def entry (c : WallClient) : DisplayEntry where
  displayId := c.displayId
  x := c.gridX * c.resolution.width.toInt32
  y := c.gridY * c.resolution.height.toInt32
  resolution := c.resolution

def layout (wall : DisplayWall) : DisplayLayout where
  entries := wall.values.map entry

def clientCount (wall : DisplayWall) : Nat := wall.clients.entries.length

def getClient (wall : DisplayWall) (addr : SocketAddr) : Option WallClient :=
  wall.clients.lookup addr

inductive Call where
  | addClient (addr : SocketAddr) (gridX gridY : Int32) (resolution : Resolution)
  | removeClient (addr : SocketAddr)

def step (wall : DisplayWall) : Call → DisplayWall
  | .addClient addr gridX gridY resolution => (wall.addClient addr gridX gridY resolution).2
  | .removeClient addr => (wall.removeClient addr).2

end DisplayWall

end QuicView
