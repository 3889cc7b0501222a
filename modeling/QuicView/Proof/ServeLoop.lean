import QuicView.Cli.Serve
import QuicView.Library.Execution

/-!
# The serve loop and failed handshakes

The handshake is awaited inside `accept`, in the loop itself, and the loop passes its error on.
-/

namespace QuicView.Server

open Execution

variable {Q : Quinn} {W : Watch Bool} {s : Server Q W}

def connections (s : Server Q W) : List Q.Connection := s.sessions.map ViewerSession.connection

def accepted (events : List (ServeEvent Q)) : List Q.Connection :=
  events.filterMap fun
    | .accept (some (.ok connection)) => some connection
    | _ => none

structure Serves (s : Server Q W) (accepted : List Q.Connection) : Prop where
  sessions : s.connections = accepted
  counted : s.metrics.totalConnections = UInt64.ofNat accepted.length

/-- The loop ends only after shutdown was triggered, and until it ends every connection accepted is
counted and has its session. -/
def OutlivesClients (W : Watch Bool) (events : List (ServeEvent Q)) : Prop :=
  ∀ before, before <+: events →
    let s : Server Q W := run step start before
    (s.status = .listening ∨ .ctrlC ∈ before) ∧ (s.status = .listening → s.Serves (accepted before))

/-! ### What a session's events leave alone -/

/-- The two states differ in the phases of sessions, and in what only those look at. -/
structure Keeps (s s' : Server Q W) : Prop where
  status : s'.status = s.status
  connections : s'.connections = s.connections
  total : s'.metrics.totalConnections = s.metrics.totalConnections
  flag : W.borrow s'.shutdown.channel = W.borrow s.shutdown.channel
  closed : W.closed s'.shutdown.channel = W.closed s.shutdown.channel

theorem Keeps.refl (s : Server Q W) : Keeps s s := ⟨rfl, rfl, rfl, rfl, rfl⟩

theorem connections_setPhase {session : Nat} {viewer : ViewerSession Q} {before : SessionPhase}
    (hviewer : s.sessionIn session before = some viewer) (phase : SessionPhase) :
    (s.setPhase session viewer phase).connections = s.connections := by
  obtain ⟨hfound, _⟩ := Option.filter_eq_some_iff.mp hviewer
  obtain ⟨hlt, rfl⟩ := List.getElem?_eq_some_iff.mp hfound
  have hlt' : session < (s.sessions.map ViewerSession.connection).length := by
    rwa [List.length_map]
  calc
    (s.setPhase session s.sessions[session] phase).connections
        = (s.sessions.map ViewerSession.connection).set session s.sessions[session].connection := by
      rw [connections, setPhase, List.map_set]
    _ = (s.sessions.map ViewerSession.connection).set session
          (s.sessions.map ViewerSession.connection)[session] := by rw [List.getElem_map]
    _ = s.connections := List.set_getElem_self hlt'

theorem keeps_viewerReturned (session : Nat) (result : Except String Unit) :
    Keeps s (s.viewerReturned session result) := by
  unfold viewerReturned
  cases hviewer : s.sessionIn session .running with
  | none => exact .refl s
  | some viewer =>
      refine ⟨rfl, connections_setPhase hviewer .closing, ?_, rfl, rfl⟩
      cases result <;> rfl

theorem keeps_viewerDisconnected (session : Nat) : Keeps s (s.viewerDisconnected session) := by
  unfold viewerDisconnected
  cases hviewer : s.sessionIn session .running with
  | none => exact .refl s
  | some viewer =>
      by_cases hwait : s.shutdown.waitReturns viewer.signal = true
      · simp only [if_pos hwait]
        exact ⟨rfl, connections_setPhase hviewer .closing, rfl, rfl, rfl⟩
      · simp only [if_neg hwait]
        exact .refl s

theorem keeps_connectionClosed (hW : W.Lawful) (session : Nat) :
    Keeps s (s.connectionClosed session) := by
  unfold connectionClosed
  cases hviewer : s.sessionIn session .closing with
  | none => exact .refl s
  | some viewer =>
      exact ⟨rfl, connections_setPhase hviewer .closed, rfl, hW.borrow_dropReceiver _,
        hW.closed_dropReceiver _⟩

/-! ### The loop -/

structure Sound (events : List (ServeEvent Q)) (s : Server Q W) : Prop where
  open_or_shutdown : s.status = .listening ∨ .ctrlC ∈ events
  serves : s.status = .listening → s.Serves (accepted events)
  quiet : .ctrlC ∉ events →
    W.borrow s.shutdown.channel = false ∧ W.closed s.shutdown.channel = false

theorem sound_start (hW : W.Lawful) : Sound [] (start : Server Q W) := by
  refine ⟨.inl rfl, fun _ => ⟨rfl, rfl⟩, fun _ => ⟨?_, ?_⟩⟩
  · exact (hW.borrow_subscribe _).trans (hW.borrow_channel false)
  · exact (hW.closed_subscribe _).trans (hW.closed_channel false)

variable {events : List (ServeEvent Q)} {event : ServeEvent Q}

theorem accepted_concat (events : List (ServeEvent Q)) (event : ServeEvent Q) :
    accepted (events ++ [event]) = accepted events ++ accepted [event] :=
  List.filterMap_append

theorem Sound.keeps (h : Sound events s) {s' : Server Q W} (hkeeps : Keeps s s')
    (hnone : accepted [event] = []) : Sound (events ++ [event]) s' := by
  have haccepted : accepted (events ++ [event]) = accepted events := by
    rw [accepted_concat, hnone, List.append_nil]
  refine ⟨?_, fun hlistening => ?_, fun hbefore => ?_⟩
  · rw [hkeeps.status]
    exact h.open_or_shutdown.imp_right (List.mem_append_left _)
  · have hserves := h.serves (hkeeps.status ▸ hlistening)
    rw [haccepted]
    exact ⟨hkeeps.connections.trans hserves.sessions, hkeeps.total.trans hserves.counted⟩
  · rw [hkeeps.flag, hkeeps.closed]
    exact h.quiet fun hmem => hbefore (List.mem_append_left _ hmem)

theorem Sound.accept (hW : W.Lawful) (h : Sound events s) (hlistening : s.status = .listening)
    (connection : Q.Connection) :
    Sound (events ++ [.accept (some (.ok connection))]) (s.accept (some (.ok connection))) := by
  have hserves := h.serves hlistening
  refine ⟨.inl hlistening, fun _ => ⟨?_, ?_⟩, fun hbefore => ?_⟩
  · rw [accepted_concat, ← hserves.sessions]
    exact List.map_append
  · calc
      s.metrics.totalConnections + 1
          = UInt64.ofNat ((accepted events).length + 1) := by rw [hserves.counted]; simp
      _ = UInt64.ofNat (accepted (events ++ [.accept (some (.ok connection))])).length := by
        rw [accepted_concat, List.length_append]
        rfl
  · obtain ⟨hflag, hclosed⟩ := h.quiet fun hmem => hbefore (List.mem_append_left _ hmem)
    exact ⟨(hW.borrow_subscribe _).trans hflag, (hW.closed_subscribe _).trans hclosed⟩

theorem Sound.ctrlC (h : Sound events s) : Sound (events ++ [.ctrlC]) s.ctrlC := by
  have hmem : ServeEvent.ctrlC ∈ events ++ [ServeEvent.ctrlC] :=
    List.mem_append_right _ (List.mem_singleton_self _)
  refine ⟨.inr hmem, ?_, fun hbefore => absurd hmem hbefore⟩
  have haccepted : accepted (events ++ [ServeEvent.ctrlC]) = accepted events := by
    rw [accepted_concat]
    exact List.append_nil _
  rw [haccepted]
  unfold Server.ctrlC
  split
  · exact fun hlistening => ⟨(h.serves hlistening).sessions, (h.serves hlistening).counted⟩
  · exact h.serves

theorem Sound.shutdownSeen (h : Sound events s) :
    Sound (events ++ [.shutdownSeen]) s.shutdownSeen := by
  unfold Server.shutdownSeen
  by_cases hwait : s.shutdown.waitReturns s.shutdownSig = true
  · have hshutdown : .ctrlC ∈ events := by
      by_contra hbefore
      obtain ⟨hflag, hclosed⟩ := h.quiet hbefore
      rw [Shutdown.waitReturns, Shutdown.isShutdown, hflag, hclosed] at hwait
      cases hwait
    rw [if_pos hwait]
    exact ⟨.inr (List.mem_append_left _ hshutdown), nofun,
      fun hbefore => absurd (List.mem_append_left _ hshutdown) hbefore⟩
  · rw [if_neg hwait]
    exact h.keeps (.refl s) rfl

theorem Sound.ended (h : Sound events s) (hended : s.status ≠ .listening)
    (event : ServeEvent Q) : Sound (events ++ [event]) s := by
  have hshutdown := h.open_or_shutdown.resolve_left hended
  exact ⟨.inr (List.mem_append_left _ hshutdown), fun hlistening => absurd hlistening hended,
    fun hbefore => absurd (List.mem_append_left _ hshutdown) hbefore⟩

theorem Sound.step (hW : W.Lawful) (h : Sound events s) (hopen : event ≠ .accept none)
    (hhandshake : ∀ err, event = .accept (some (.error err)) → .ctrlC ∈ events) :
    Sound (events ++ [event]) (s.step event) := by
  by_cases hlistening : s.status = .listening
  · have hstep : s.step event = s.react event := by rw [Server.step, hlistening]
    rw [hstep]
    cases event with
    | ctrlC => exact h.ctrlC
    | accept incoming =>
        cases incoming with
        | none => exact absurd rfl hopen
        | some handshake =>
            cases handshake with
            | ok connection => exact h.accept hW hlistening connection
            | error err =>
                have hshutdown := hhandshake err rfl
                exact ⟨.inr (List.mem_append_left _ hshutdown), nofun,
                  fun hbefore => absurd (List.mem_append_left _ hshutdown) hbefore⟩
    | shutdownSeen => exact h.shutdownSeen
    | viewerReturned session result => exact h.keeps (keeps_viewerReturned session result) rfl
    | viewerDisconnected session => exact h.keeps (keeps_viewerDisconnected session) rfl
    | connectionClosed session => exact h.keeps (keeps_connectionClosed hW session) rfl
  · have hstep : s.step event = s := by
      unfold Server.step
      split
      · exact absurd ‹_› hlistening
      · rfl
    rw [hstep]
    exact h.ended hlistening event

/-- Every handshake that fails does so after shutdown was triggered. -/
def HandshakesFailLate (events : List (ServeEvent Q)) : Prop :=
  ∀ before err after, events = before ++ .accept (some (.error err)) :: after → .ctrlC ∈ before

theorem sound_run (hW : W.Lawful) (events : List (ServeEvent Q)) (hopen : .accept none ∉ events)
    (hlate : HandshakesFailLate events) : Sound events (run step (start : Server Q W) events) := by
  induction events using List.reverseRec with
  | nil => exact sound_start hW
  | append_singleton events event ih =>
      have hbefore := ih (fun hmem => hopen (List.mem_append_left _ hmem))
        fun before err after heq => hlate before err (after ++ [event]) (by rw [heq]; simp)
      rw [run_concat]
      apply hbefore.step hW
      · rintro rfl
        exact hopen (List.mem_append_right _ (List.mem_singleton_self _))
      · rintro err rfl
        exact hlate events err [] rfl

/-- **When the serve loop outlives its clients.** On an endpoint that stays open, it does exactly
when no handshake fails before shutdown is triggered. -/
theorem outlivesClients_iff_handshakesFailLate (hW : W.Lawful) (events : List (ServeEvent Q))
    (hopen : .accept none ∉ events) : OutlivesClients W events ↔ HandshakesFailLate events := by
  constructor
  · intro houtlives before err after heq
    by_contra hnotYet
    have hprefix : before <+: events := ⟨_, heq.symm⟩
    have hlistening := (houtlives before hprefix).1.resolve_right hnotYet
    -- the failed handshake ends the loop with nothing but itself in between
    have hfailed : (run step (start : Server Q W) (before ++ [.accept (some (.error err))])).status
        = .failed (.quinn err) := by
      rw [run_concat, step, hlistening]
      rfl
    have hnext : before ++ [.accept (some (.error err))] <+: events :=
      ⟨after, by rw [heq, List.append_assoc]; rfl⟩
    rcases (houtlives _ hnext).1 with hstill | hmem
    · rw [hfailed] at hstill
      cases hstill
    · rcases List.mem_append.mp hmem with hmem | hmem
      · exact hnotYet hmem
      · cases List.mem_singleton.mp hmem
  · rintro hlate before ⟨after, rfl⟩
    have hsound := sound_run hW before (fun hmem => hopen (List.mem_append_left _ hmem))
      fun first err rest heq => hlate first err (rest ++ after) (by rw [heq]; simp)
    exact ⟨hsound.open_or_shutdown, hsound.serves⟩

theorem outlivesClients_iff_handshakesFailLate_twoViewers :
    let events : List (ServeEvent ⟨Unit, Unit, Unit⟩) :=
      [.accept (some (.ok ())), .ctrlC, .accept (some (.error ()))]
    OutlivesClients (Watch.cell Bool) events ↔ HandshakesFailLate events :=
  outlivesClients_iff_handshakesFailLate (Watch.cell_lawful Bool) _ (by simp)

theorem serve_ends_on_failed_handshake :
    ¬ ∀ (Q : Quinn) (W : Watch Bool), W.Lawful → ∀ events : List (ServeEvent Q),
        .accept none ∉ events → OutlivesClients W events := by
  intro hall
  have houtlives := hall ⟨Unit, Unit, Unit⟩ (Watch.cell Bool) (Watch.cell_lawful Bool)
    [.accept (some (.error ()))] (by simp)
  rcases (houtlives _ List.prefix_rfl).1 with hlistening | hmem
  · cases hlistening
  · simp at hmem

end QuicView.Server
