import QuicView.Library.Standing
import QuicView.Proof.WallRemoval

namespace QuicView.DisplayWall

open Execution Standing

def Call.addr : Call → SocketAddr
  | .addClient addr _ _ _ => addr
  | .removeClient addr => addr

def Registers (client : WallClient) (before : List Call) : Call → Prop
  | .addClient addr gridX gridY resolution =>
      client =
        { addr := addr
          displayId := ⟨100 + UInt32.ofNat (before.countP Call.adds)⟩
          gridX := gridX
          gridY := gridY
          resolution := resolution }
  | .removeClient _ => False

theorem nextId_removeClient (wall : DisplayWall) (addr : SocketAddr) :
    (wall.removeClient addr).2.virtualDisplays.nextId = wall.virtualDisplays.nextId := by
  cases hlookup : wall.clients.lookup addr with
  | none => rw [removeClient, hlookup]
  | some client =>
      rw [removeClient_of_registered hlookup, StubVirtualDisplay.destroy]
      split <;> rfl

theorem nextId_run (calls : List Call) :
    (run step new calls).virtualDisplays.nextId
      = 100 + UInt32.ofNat (calls.countP Call.adds) := by
  induction calls using List.reverseRecOn with
  | nil => rfl
  | append_singleton calls call ih =>
      rw [run_concat, List.countP_append]
      cases call with
      | addClient addr gridX gridY resolution =>
          calc (run step new calls).virtualDisplays.nextId + 1
              = 100 + UInt32.ofNat (calls.countP Call.adds) + 1 := by rw [ih]
            _ = 100 + UInt32.ofNat (calls.countP Call.adds + 1) := by
              rw [UInt32.add_assoc, UInt32.ofNat_add]
              rfl
      | removeClient addr => exact (nextId_removeClient _ addr).trans ih

theorem lookup_removeClient (wall : DisplayWall) (addr other : SocketAddr) :
    (wall.removeClient addr).2.clients.lookup other
      = if other = addr then none else wall.clients.lookup other := by
  cases hlookup : wall.clients.lookup addr with
  | none =>
      have hkept : (wall.removeClient addr).2 = wall := by rw [removeClient, hlookup]
      rw [hkept]
      by_cases heq : other = addr
      · rw [if_pos heq, heq, hlookup]
      · rw [if_neg heq]
  | some client => rw [removeClient_of_registered hlookup, lookup_erase_eq]

theorem getClient_run (calls : List Call) (addr : SocketAddr) (client : WallClient) :
    (run step new calls).getClient addr = some client
      ↔ client.addr = addr
        ∧ StandsFrom (Registers client) (fun call => call.addr = addr) calls := by
  induction calls using List.reverseRecOn with
  | nil => exact iff_of_false (fun hnone => by cases hnone) fun h => not_standsFrom_nil h.2
  | append_singleton calls call ih =>
      rw [run_concat, standsFrom_concat]
      cases call with
      | addClient added gridX gridY resolution =>
          have hlookup : (step (run step new calls)
                (.addClient added gridX gridY resolution)).getClient addr
              = ((run step new calls).clients.insert added
                  ⟨added, ⟨(run step new calls).virtualDisplays.nextId⟩, gridX, gridY,
                    resolution⟩).lookup addr := rfl
          rw [hlookup, nextId_run]
          by_cases hadded : addr = added
          · subst hadded
            rw [AList.lookup_insert, Option.some.injEq]
            constructor
            · rintro rfl
              exact ⟨rfl, .inl rfl⟩
            · rintro ⟨-, hclient | ⟨-, hother⟩⟩
              · exact Eq.symm hclient
              · exact absurd rfl hother
          · rw [AList.lookup_insert_ne hadded]
            refine ih.trans (and_congr_right fun haddr => ?_)
            constructor
            · exact fun hstands => .inr ⟨hstands, Ne.symm hadded⟩
            · rintro (hclient | ⟨hstands, -⟩)
              · exact absurd (haddr.symm.trans (congrArg WallClient.addr hclient)) hadded
              · exact hstands
      | removeClient removed =>
          have hlookup : (step (run step new calls) (.removeClient removed)).getClient addr
              = if addr = removed then none else (run step new calls).getClient addr :=
            lookup_removeClient _ removed addr
          rw [hlookup]
          by_cases hremoved : addr = removed
          · rw [if_pos hremoved]
            refine iff_of_false (fun hnone => by cases hnone) ?_
            rintro ⟨-, hfalse | ⟨-, hother⟩⟩
            · exact hfalse
            · exact hother hremoved.symm
          · rw [if_neg hremoved]
            refine ih.trans (and_congr_right fun _ => ?_)
            exact ⟨fun hstands => .inr ⟨hstands, Ne.symm hremoved⟩,
              fun h => h.elim False.elim And.left⟩

theorem exists_addrs (wall : DisplayWall) :
    ∃ addrs : List SocketAddr, addrs.Nodup
      ∧ (∀ addr, addr ∈ addrs ↔ (wall.getClient addr).isSome = true)
      ∧ wall.clientCount = addrs.length
      ∧ wall.layout.entries = addrs.filterMap fun addr => (wall.getClient addr).map entry := by
  refine ⟨wall.clients.keys, wall.clients.keys_nodup, fun addr => ?_, ?_, ?_⟩
  · exact AList.lookup_isSome.symm
  · exact (List.length_map _).symm
  · have hentries : ∀ client ∈ wall.clients.entries,
        (wall.getClient client.1).map entry = some (entry client.2) := by
      intro client hclient
      have hlookup : wall.clients.lookup client.1 = some client.2 :=
        AList.mem_lookup_iff.mpr hclient
      rw [getClient, hlookup, Option.map_some]
    calc wall.layout.entries = wall.clients.entries.map fun client => entry client.2 :=
          List.map_map
      _ = wall.clients.entries.filterMap fun client => (wall.getClient client.1).map entry := by
          rw [← List.filterMap_eq_map]
          exact List.filterMap_congr fun client hclient => (hentries client hclient).symm
      _ = wall.clients.keys.filterMap fun addr => (wall.getClient addr).map entry := by
          rw [AList.keys, List.keys, List.filterMap_map]
          rfl

/-- **A wall is the last registrations of its clients.** An address has a client exactly if one was
added there and no call was about that address since. The clients are counted once each, and the
layout has the tile of each and no other. -/
theorem wall_holds_last_registrations (calls : List Call) :
    let wall := run step new calls
    (∀ addr client, wall.getClient addr = some client
      ↔ client.addr = addr
        ∧ StandsFrom (Registers client) (fun call => call.addr = addr) calls)
      ∧ ∃ addrs : List SocketAddr, addrs.Nodup
        ∧ (∀ addr, addr ∈ addrs ↔ (wall.getClient addr).isSome = true)
        ∧ wall.clientCount = addrs.length
        ∧ wall.layout.entries = addrs.filterMap fun addr => (wall.getClient addr).map entry :=
  ⟨getClient_run calls, exists_addrs _⟩

end QuicView.DisplayWall
