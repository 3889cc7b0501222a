import Mathlib.Data.List.AList
import QuicView.Net.SocketAddr

namespace QuicView

structure ServiceRecord where
  hostName : String
  addr : SocketAddr
  role : String
  deriving DecidableEq

inductive DiscoveryError where
  | failed (reason : String)
  | platformNotSupported
  deriving DecidableEq, Repr

structure MemoryDiscovery where
  services : AList fun _ : SocketAddr => ServiceRecord
  advertised : Option ServiceRecord

namespace MemoryDiscovery

def new : MemoryDiscovery where
  services := ∅
  advertised := none

def injectService (disc : MemoryDiscovery) (record : ServiceRecord) : MemoryDiscovery :=
  { disc with services := disc.services.insert record.addr record }

def removeService (disc : MemoryDiscovery) (addr : SocketAddr) : MemoryDiscovery :=
  { disc with services := disc.services.erase addr }

def advertise (disc : MemoryDiscovery) (record : ServiceRecord) :
    Except DiscoveryError Unit × MemoryDiscovery :=
  (.ok (),
    { advertised := some record
      services := disc.services.insert record.addr record })

def stopAdvertise (disc : MemoryDiscovery) : Except DiscoveryError Unit × MemoryDiscovery :=
  match disc.advertised with
  | some rec =>
      (.ok (),
        { advertised := none
          services := disc.services.erase rec.addr })
  | none => (.ok (), disc)

def discover (disc : MemoryDiscovery) : Except DiscoveryError (List ServiceRecord) :=
  .ok (disc.services.entries.map Sigma.snd)

inductive Call where
  | advertise (record : ServiceRecord)
  | stopAdvertise
  | injectService (record : ServiceRecord)
  | removeService (addr : SocketAddr)
  deriving DecidableEq

def step (disc : MemoryDiscovery) : Call → MemoryDiscovery
  | .advertise record => (disc.advertise record).2
  | .stopAdvertise => disc.stopAdvertise.2
  | .injectService record => disc.injectService record
  | .removeService addr => disc.removeService addr

end MemoryDiscovery

end QuicView
