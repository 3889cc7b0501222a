import QuicView.Capture.Wall
import QuicView.Library.Ledger
import QuicView.Proof.VirtualDisplayMap

/-!
# Virtual displays and the clients that own them

The virtual displays are the stock of a ledger and each client holds the display made for it. A
client that registers again under its address leaves its first display behind.
-/

namespace QuicView.DisplayWall

open Execution Ledger

/-- The listed displays are exactly those of the registered clients, each once. -/
abbrev NoLeak (wall : DisplayWall) : Prop :=
  Balanced WallClient.displayId wall.virtualDisplays.list wall.clients

/-- The call adds no client under a registered address and hands out no live identifier. -/
def FreshAdd (wall : DisplayWall) : Call → Prop
  | .addClient addr _ _ _ =>
      addr ∉ wall.clients ∧ ⟨wall.virtualDisplays.nextId⟩ ∉ wall.virtualDisplays.list
  | .removeClient _ => True

theorem noLeak_new : NoLeak .new := balanced_nil

variable {wall : DisplayWall}

theorem NoLeak.addClient_iff (h : NoLeak wall) (addr : SocketAddr) (gridX gridY : Int32)
    (resolution : Resolution) :
    NoLeak (wall.addClient addr gridX gridY resolution).2
      ↔ addr ∉ wall.clients
        ∧ ⟨wall.virtualDisplays.nextId⟩ ∉ wall.virtualDisplays.list := by
  let client : WallClient := ⟨addr, ⟨wall.virtualDisplays.nextId⟩, gridX, gridY, resolution⟩
  have hadd : NoLeak (wall.addClient addr gridX gridY resolution).2
      ↔ Balanced WallClient.displayId (wall.virtualDisplays.list ++ [client.displayId])
          (wall.clients.insert addr client) := by
    rw [NoLeak, ← StubVirtualDisplay.list_create wall.virtualDisplays resolution 60]
    rfl
  rw [hadd]
  by_cases hregistered : addr ∈ wall.clients
  · exact iff_of_false (h.not_overwrite hregistered) fun hfresh => hfresh.1 hregistered
  · rw [h.insert_iff hregistered]
    exact (and_iff_right hregistered).symm

theorem removeClient_of_registered {addr : SocketAddr} {client : WallClient}
    (hlookup : wall.clients.lookup addr = some client) :
    (wall.removeClient addr).2
      = ⟨wall.clients.erase addr, (wall.virtualDisplays.destroy client.displayId).2⟩ := by
  simp only [DisplayWall.removeClient, hlookup]
  cases wall.virtualDisplays.destroy client.displayId with
  | mk result virtualDisplays => cases result <;> rfl

theorem NoLeak.removeClient (h : NoLeak wall) (addr : SocketAddr) :
    NoLeak (wall.removeClient addr).2 := by
  cases hlookup : wall.clients.lookup addr with
  | none =>
      rw [DisplayWall.removeClient, hlookup]
      exact h
  | some client =>
      rw [removeClient_of_registered hlookup, NoLeak, StubVirtualDisplay.list_destroy]
      exact (h.erase hlookup).2

/-- **When the wall leaks no display.** The listed displays are those of the registered clients in
every state, exactly when every client is added under an address not registered at the time and is
given an identifier that no live display has. -/
theorem noLeak_iff_freshAdds (calls : List Call) :
    Always step NoLeak .new calls ↔ Guarded step FreshAdd .new calls := by
  apply always_iff_guarded (fun _ => True) (fun _ _ _ => trivial) _ calls trivial noLeak_new
  intro wall call _ hwall
  cases call with
  | addClient addr gridX gridY resolution => exact hwall.addClient_iff addr gridX gridY resolution
  | removeClient addr => exact iff_of_true (hwall.removeClient addr) trivial

theorem leak_of_reconnect : ¬ ∀ calls : List Call, Always step NoLeak .new calls := by
  intro hall
  let addr : SocketAddr := ⟨.v4 192 168 1 10, 4433, 0, 0⟩
  let call : Call := .addClient addr 0 0 ⟨1920, 1080⟩
  have honce : NoLeak (step .new call) := (hall [call]).last
  have htwice : NoLeak (step (step .new call) call) := (hall [call, call]).last
  have hfree := ((honce.addClient_iff addr 0 0 ⟨1920, 1080⟩).mp htwice).1
  exact hfree (by decide)

end QuicView.DisplayWall
