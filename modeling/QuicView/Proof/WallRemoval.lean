import QuicView.Proof.VirtualDisplayMap
import QuicView.Proof.WallLedger

namespace QuicView.DisplayWall

open Execution StubVirtualDisplay

def Call.adds : Call → Bool
  | .addClient _ _ _ _ => true
  | .removeClient _ => false

/-- Every client has a live display of its own. -/
structure OwnsDisplays (wall : DisplayWall) : Prop where
  live : ∀ addr client, wall.clients.lookup addr = some client →
    client.displayId ∈ wall.virtualDisplays.list
  own : ∀ addr addr' client client', wall.clients.lookup addr = some client →
    wall.clients.lookup addr' = some client' → client.displayId = client'.displayId → addr = addr'

variable {wall : DisplayWall}

theorem removeClient_eq (hlive : ∀ addr client, wall.clients.lookup addr = some client →
      client.displayId ∈ wall.virtualDisplays.list) (addr : SocketAddr) :
    wall.removeClient addr = (.ok (), match wall.clients.lookup addr with
      | none => wall
      | some client =>
          ⟨wall.clients.erase addr, (wall.virtualDisplays.destroy client.displayId).2⟩) := by
  cases hlookup : wall.clients.lookup addr with
  | none => simp only [removeClient, hlookup]
  | some client =>
      have hok := destroy_of_mem (hlive addr client hlookup)
      simp only [removeClient, hlookup]
      cases hdestroy : wall.virtualDisplays.destroy client.displayId with
      | mk result virtualDisplays =>
          rw [hdestroy] at hok
          obtain rfl : result = .ok () := hok
          rfl

/-! ### Who owns what -/

theorem ownsDisplays_new : OwnsDisplays new where
  live _ _ hlookup := by cases hlookup
  own _ _ _ _ hlookup := by cases hlookup

theorem lookup_insert_cases {clients : AList fun _ : SocketAddr => WallClient}
    {addr other : SocketAddr} {client found : WallClient}
    (hlookup : (clients.insert addr client).lookup other = some found) :
    (other = addr ∧ found = client) ∨ clients.lookup other = some found := by
  by_cases heq : other = addr
  · subst heq
    rw [AList.lookup_insert] at hlookup
    exact .inl ⟨rfl, (Option.some.inj hlookup).symm⟩
  · rw [AList.lookup_insert_ne heq] at hlookup
    exact .inr hlookup

theorem OwnsDisplays.addClient (h : OwnsDisplays wall)
    (hfresh : ⟨wall.virtualDisplays.nextId⟩ ∉ wall.virtualDisplays.list) (addr : SocketAddr)
    (gridX gridY : Int32) (resolution : Resolution) :
    OwnsDisplays (wall.addClient addr gridX gridY resolution).2 := by
  let client : WallClient := ⟨addr, ⟨wall.virtualDisplays.nextId⟩, gridX, gridY, resolution⟩
  have hnew : client.displayId ∉ wall.virtualDisplays.list := hfresh
  have hclients : (wall.addClient addr gridX gridY resolution).2.clients
      = wall.clients.insert addr client := rfl
  have hlist : (wall.addClient addr gridX gridY resolution).2.virtualDisplays.list
      = wall.virtualDisplays.list ++ [client.displayId] :=
    list_create wall.virtualDisplays resolution 60
  constructor
  · intro other found hlookup
    rw [hclients] at hlookup
    rw [hlist]
    rcases lookup_insert_cases hlookup with ⟨_, rfl⟩ | hbefore
    · exact List.mem_append_right _ (List.mem_singleton_self _)
    · exact List.mem_append_left _ (h.live other found hbefore)
  · intro other other' found found' hlookup hlookup' hsame
    rw [hclients] at hlookup hlookup'
    rcases lookup_insert_cases hlookup with ⟨rfl, rfl⟩ | hbefore
    · rcases lookup_insert_cases hlookup' with ⟨rfl, _⟩ | hbefore'
      · rfl
      · exact absurd (hsame ▸ h.live other' found' hbefore') hnew
    · rcases lookup_insert_cases hlookup' with ⟨rfl, rfl⟩ | hbefore'
      · exact absurd (hsame ▸ h.live other found hbefore) hnew
      · exact h.own other other' found found' hbefore hbefore' hsame

theorem lookup_erase_eq (clients : AList fun _ : SocketAddr => WallClient)
    (addr other : SocketAddr) :
    (clients.erase addr).lookup other = if other = addr then none else clients.lookup other := by
  by_cases heq : other = addr
  · rw [if_pos heq, heq, AList.lookup_erase]
  · rw [if_neg heq, AList.lookup_erase_ne heq]

theorem OwnsDisplays.removeClient (h : OwnsDisplays wall) (addr : SocketAddr) :
    OwnsDisplays (wall.removeClient addr).2 := by
  rw [removeClient_eq h.live]
  cases hlookup : wall.clients.lookup addr with
  | none => exact h
  | some client =>
      have hkept : ∀ other found, (wall.clients.erase addr).lookup other = some found →
          other ≠ addr ∧ wall.clients.lookup other = some found := by
        intro other found hfound
        rw [lookup_erase_eq] at hfound
        split at hfound
        · cases hfound
        · exact ⟨‹_›, hfound⟩
      constructor
      · intro other found hfound
        obtain ⟨hother, hbefore⟩ := hkept other found hfound
        rw [list_destroy, List.mem_filter, bne_iff_ne]
        exact ⟨h.live other found hbefore, fun hsame =>
          hother (h.own other addr found client hbefore hlookup hsame)⟩
      · intro other other' found found' hfound hfound' hsame
        exact h.own other other' found found' (hkept other found hfound).2
          (hkept other' found' hfound').2 hsame

/-! ### Along a run -/

theorem exists_run_virtualDisplays (calls : List Call) :
    ∃ stubCalls, (run step new calls).virtualDisplays
        = run StubVirtualDisplay.step StubVirtualDisplay.new stubCalls
      ∧ stubCalls.countP StubVirtualDisplay.Call.creates = calls.countP Call.adds := by
  induction calls using List.reverseRec with
  | nil => exact ⟨[], rfl, rfl⟩
  | append_singleton calls call ih =>
      obtain ⟨stubCalls, hrun, hcount⟩ := ih
      rw [run_concat, List.countP_append]
      cases call with
      | addClient addr gridX gridY resolution =>
          refine ⟨stubCalls ++ [.create resolution 60], ?_, ?_⟩
          · rw [run_concat, ← hrun]
            rfl
          · rw [List.countP_append, hcount]
            rfl
      | removeClient addr =>
          cases hlookup : (run step new calls).clients.lookup addr with
          | none =>
              refine ⟨stubCalls, ?_, hcount⟩
              rw [← hrun]
              simp only [step, removeClient, hlookup]
          | some client =>
              refine ⟨stubCalls ++ [.destroy client.displayId], ?_, ?_⟩
              · rw [run_concat, ← hrun, step, removeClient_of_registered hlookup]
                rfl
              · rw [List.countP_append, hcount]
                rfl

theorem ownsDisplays_run (calls : List Call) (hcount : calls.countP Call.adds < 2 ^ 32 - 100) :
    OwnsDisplays (run step new calls) := by
  induction calls using List.reverseRec with
  | nil => exact ownsDisplays_new
  | append_singleton calls call ih =>
      rw [List.countP_append] at hcount
      have hbefore := ih (by omega)
      rw [run_concat]
      cases call with
      | addClient addr gridX gridY resolution =>
          apply hbefore.addClient
          obtain ⟨stubCalls, hrun, hcreates⟩ := exists_run_virtualDisplays calls
          rw [hrun]
          exact (tracks_run stubCalls (by omega)).notMem_list
      | removeClient addr => exact hbefore.removeClient addr

theorem OwnsDisplays.lookup_removeClient (h : OwnsDisplays wall) (addr other : SocketAddr) :
    (wall.removeClient addr).2.clients.lookup other
      = if other = addr then none else wall.clients.lookup other := by
  rw [removeClient_eq h.live]
  cases hlookup : wall.clients.lookup addr with
  | none =>
      by_cases heq : other = addr
      · rw [if_pos heq, heq]
        exact hlookup
      · rw [if_neg heq]
  | some client => exact lookup_erase_eq wall.clients addr other

theorem OwnsDisplays.contents_removeClient (h : OwnsDisplays wall) (addr : SocketAddr) :
    (wall.removeClient addr).2.virtualDisplays.contents
      = match wall.clients.lookup addr with
        | none => wall.virtualDisplays.contents
        | some client =>
            Function.update wall.virtualDisplays.contents client.displayId none := by
  rw [removeClient_eq h.live]
  cases wall.clients.lookup addr with
  | none => rfl
  | some client => exact contents_destroy wall.virtualDisplays client.displayId

/-- **Removing a client never fails halfway.** Every client has a live display of its own, so
removing any address succeeds: it removes that client, if there is one, and its display, and leaves
every other as it is. -/
theorem remove_client_is_atomic (calls : List Call)
    (hcount : calls.countP Call.adds < 2 ^ 32 - 100) :
    let wall := run step new calls
    OwnsDisplays wall
      ∧ ∀ addr,
        (wall.removeClient addr).1 = .ok ()
          ∧ (∀ other, (wall.removeClient addr).2.clients.lookup other
              = if other = addr then none else wall.clients.lookup other)
          ∧ (wall.removeClient addr).2.virtualDisplays.contents
              = (match wall.clients.lookup addr with
                | none => wall.virtualDisplays.contents
                | some client =>
                    Function.update wall.virtualDisplays.contents client.displayId none)
          ∧ ∀ other client, other ≠ addr → wall.clients.lookup other = some client →
              client.displayId ∈ (wall.removeClient addr).2.virtualDisplays.list
                ∧ (wall.removeClient addr).2.virtualDisplays.contents client.displayId
                  = wall.virtualDisplays.contents client.displayId := by
  intro wall
  have howns : OwnsDisplays wall := ownsDisplays_run calls hcount
  refine ⟨howns, fun addr => ⟨?_, ?_, ?_, fun other client hother hclient => ⟨?_, ?_⟩⟩⟩
  · rw [removeClient_eq howns.live]
  · exact howns.lookup_removeClient addr
  · exact howns.contents_removeClient addr
  · apply (howns.removeClient addr).live other client
    rw [howns.lookup_removeClient, if_neg hother, hclient]
  · rw [howns.contents_removeClient]
    cases hlookup : wall.clients.lookup addr with
    | none => rfl
    | some removed =>
        have hdiffers : client.displayId ≠ removed.displayId := fun hsame =>
          hother (howns.own other addr client removed hclient hlookup hsame)
        exact Function.update_of_ne hdiffers _ _

theorem remove_client_is_atomic_reconnected :
    let addr : SocketAddr := ⟨.v4 192 168 1 10, 4433, 0, 0⟩
    let wall := run step new [.addClient addr 0 0 ⟨1920, 1080⟩, .addClient addr 0 0 ⟨1280, 720⟩]
    (wall.clients.lookup addr).isSome
      ∧ (wall.removeClient addr).1 = .ok ()
      ∧ (wall.removeClient addr).2.clients.lookup addr = none :=
  have hremoved := (remove_client_is_atomic
    [.addClient _ 0 0 ⟨1920, 1080⟩, .addClient _ 0 0 ⟨1280, 720⟩] (by decide)).2 _
  ⟨by decide, hremoved.1, (hremoved.2.1 _).trans (if_pos rfl)⟩

end QuicView.DisplayWall
