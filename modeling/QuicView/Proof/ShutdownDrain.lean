import QuicView.Proof.ConnectionAccounting
import QuicView.Proof.ShutdownDelivery

/-!
# Shutdown ends the command

After Ctrl+C every step of a session or of the loop moves it on for good, so there are only so many
of them. The command returns once the loop has left, and cuts off the sessions that are left.
-/

namespace QuicView

open Execution

variable {Q : Quinn} {W : Watch Bool}

namespace Server

variable {s : Server Q W}

def Listening (s : Server Q W) : Prop :=
  match s.status with
  | .listening => True
  | _ => False

instance : Decidable s.Listening := by
  unfold Listening
  cases s.status <;> infer_instance

def stepsLeft (s : Server Q W) : Nat :=
  s.openSessions + s.sessions.countP (·.phase = .running) + (if s.Listening then 1 else 0)
    + if s.awaitsCtrlC then 1 else 0

/-- An event that is not the outcome of an `accept`. -/
def Inner : ServeEvent Q → Prop
  | .accept _ => False
  | _ => True

/-- The loop has left, every session has counted its connection down, and of the receivers of the
channel only the loop's and the one made with the controller are there. -/
structure Drained (s : Server Q W) : Prop where
  left : ¬ s.Listening
  closed : ∀ viewer ∈ s.sessions, viewer.phase = .closed
  active : s.metrics.activeConnections = 0
  receivers : W.receiverCount s.shutdown.channel = 2

/-! ### The shutdown flag -/

/-- The receivers of the channel are those of the open sessions and two more, and once Ctrl+C has
been taken the flag is set. -/
structure Signalled (s : Server Q W) : Prop where
  receivers : W.receiverCount s.shutdown.channel = s.openSessions + 2
  flag : s.awaitsCtrlC = false → W.borrow s.shutdown.channel = true

theorem signalled_start (hW : W.Lawful) : Signalled (start : Server Q W) := by
  refine ⟨?_, fun hawaits => absurd hawaits (by simp [start])⟩
  show W.receiverCount (W.subscribe (W.channel false)) = 0 + 2
  rw [hW.receiverCount_subscribe, hW.receiverCount_channel]

theorem Signalled.congr (h : Signalled s) {s' : Server Q W} (hshutdown : s'.shutdown = s.shutdown)
    (hopen : s'.openSessions = s.openSessions) (hawaits : s'.awaitsCtrlC = s.awaitsCtrlC) :
    Signalled s' := by
  refine ⟨?_, fun hctrlC => ?_⟩
  · rw [hshutdown, hopen]
    exact h.receivers
  · rw [hshutdown]
    exact h.flag (hawaits ▸ hctrlC)

theorem Signalled.ctrlC (hW : W.Lawful) (h : Signalled s) : Signalled s.ctrlC := by
  rw [Server.ctrlC]
  split
  · refine ⟨?_, fun _ => ?_⟩
    · show W.receiverCount s.shutdown.trigger.dropController.channel = s.openSessions + 2
      rw [Shutdown.receiverCount_dropController hW, Shutdown.trigger, hW.receiverCount_send]
      exact h.receivers
    · show W.borrow s.shutdown.trigger.dropController.channel = true
      have hheard : W.receiverCount s.shutdown.channel ≠ 0 := by
        rw [h.receivers]
        exact Nat.succ_ne_zero _
      rw [Shutdown.borrow_dropController hW, Shutdown.trigger, hW.borrow_send, if_neg hheard]
  · exact h

theorem Signalled.accept (hW : W.Lawful) (h : Signalled s)
    (incoming : Option (Except Q.ConnectionError Q.Connection)) :
    Signalled (s.accept incoming) := by
  rcases incoming with - | err | connection
  · exact h.congr rfl rfl rfl
  · exact h.congr rfl rfl rfl
  · refine ⟨?_, fun hawaits => ?_⟩
    · have hopen : (s.accept (some (.ok connection))).openSessions = s.openSessions + 1 := by
        show (s.sessions ++ [_]).countP _ = _
        rw [List.countP_append]
        rfl
      show W.receiverCount (W.subscribe s.shutdown.channel) = _
      rw [hW.receiverCount_subscribe, h.receivers, hopen]
    · show W.borrow (W.subscribe s.shutdown.channel) = true
      rw [hW.borrow_subscribe]
      exact h.flag hawaits

theorem Signalled.viewerReturned (h : Signalled s) (session : Nat) (result : Except String Unit) :
    Signalled (s.viewerReturned session result) := by
  unfold Server.viewerReturned
  cases hviewer : s.sessionIn session .running with
  | none => exact h
  | some viewer => exact h.congr rfl (open_setPhase_closing hviewer) rfl

theorem Signalled.viewerDisconnected (h : Signalled s) (session : Nat) :
    Signalled (s.viewerDisconnected session) := by
  rw [Server.viewerDisconnected]
  cases hviewer : s.sessionIn session .running with
  | none => exact h
  | some viewer =>
      dsimp only
      split
      · exact h.congr rfl (open_setPhase_closing hviewer) rfl
      · exact h

theorem Signalled.connectionClosed (hW : W.Lawful) (h : Signalled s) (session : Nat) :
    Signalled (s.connectionClosed session) := by
  rw [Server.connectionClosed]
  cases hviewer : s.sessionIn session .closing with
  | none => exact h
  | some viewer =>
      refine ⟨?_, fun hawaits => ?_⟩
      · have hopen := open_setPhase_closed hviewer
        have hreceivers := h.receivers
        show W.receiverCount (W.dropReceiver s.shutdown.channel)
          = (s.setPhase session viewer .closed).openSessions + 2
        rw [hW.receiverCount_dropReceiver]
        omega
      · show W.borrow (W.dropReceiver s.shutdown.channel) = true
        rw [hW.borrow_dropReceiver]
        exact h.flag hawaits

theorem Signalled.shutdownSeen (h : Signalled s) : Signalled s.shutdownSeen := by
  rw [Server.shutdownSeen]
  split
  · exact h.congr rfl rfl rfl
  · exact h

theorem Signalled.advance (hW : W.Lawful) (h : Signalled s) (event : ServeEvent Q) :
    Signalled (s.advance event) := by
  cases event with
  | ctrlC => exact h.ctrlC hW
  | accept incoming =>
      rw [Server.advance, Server.step]
      split
      · exact h.accept hW incoming
      · exact h
  | shutdownSeen =>
      rw [Server.advance, Server.step]
      split
      · exact h.shutdownSeen
      · exact h
  | viewerReturned session result => exact h.viewerReturned session result
  | viewerDisconnected session => exact h.viewerDisconnected session
  | connectionClosed session => exact h.connectionClosed hW session

theorem awaitsCtrlC_ctrlC (s : Server Q W) : s.ctrlC.awaitsCtrlC = false := by
  rw [ctrlC]
  split
  · rfl
  · exact Bool.eq_false_of_not_eq_true ‹_›

theorem awaitsCtrlC_advance_of_ne {event : ServeEvent Q} (hevent : event ≠ .ctrlC) :
    (s.advance event).awaitsCtrlC = s.awaitsCtrlC := by
  cases event with
  | ctrlC => exact absurd rfl hevent
  | accept incoming =>
      rw [advance, step]
      split
      · rcases incoming with - | err | connection <;> rfl
      · rfl
  | shutdownSeen =>
      rw [advance, step]
      split
      · show s.shutdownSeen.awaitsCtrlC = s.awaitsCtrlC
        rw [shutdownSeen]
        split <;> rfl
      · rfl
  | viewerReturned session result =>
      show (s.viewerReturned session result).awaitsCtrlC = s.awaitsCtrlC
      unfold viewerReturned
      cases s.sessionIn session .running <;> rfl
  | viewerDisconnected session =>
      show (s.viewerDisconnected session).awaitsCtrlC = s.awaitsCtrlC
      unfold viewerDisconnected
      cases s.sessionIn session .running with
      | none => rfl
      | some viewer =>
          dsimp only
          split <;> rfl
  | connectionClosed session =>
      show (s.connectionClosed session).awaitsCtrlC = s.awaitsCtrlC
      unfold connectionClosed
      cases s.sessionIn session .closing <;> rfl

theorem awaitsCtrlC_advance (hawaits : s.awaitsCtrlC = false) (event : ServeEvent Q) :
    (s.advance event).awaitsCtrlC = false := by
  cases event with
  | ctrlC => exact awaitsCtrlC_ctrlC s
  | _ =>
      rw [awaitsCtrlC_advance_of_ne]
      · exact hawaits
      · nofun

/-! ### Steps that are left -/

theorem running_setPhase_closing {session : Nat} {viewer : ViewerSession Q}
    (hviewer : s.sessionIn session .running = some viewer) :
    (s.setPhase session viewer .closing).sessions.countP (·.phase = .running) + 1
      = s.sessions.countP (·.phase = .running) :=
  countP_setPhase hviewer .closing (· = .running)

theorem running_setPhase_closed {session : Nat} {viewer : ViewerSession Q}
    (hviewer : s.sessionIn session .closing = some viewer) :
    (s.setPhase session viewer .closed).sessions.countP (·.phase = .running)
      = s.sessions.countP (·.phase = .running) :=
  Nat.add_right_cancel (countP_setPhase hviewer .closed (· = .running))

theorem stepsLeft_lt {s' : Server Q W} (hstatus : s'.status = s.status)
    (hawaits : s'.awaitsCtrlC = s.awaitsCtrlC)
    (hsessions : s'.openSessions + s'.sessions.countP (·.phase = .running)
      < s.openSessions + s.sessions.countP (·.phase = .running)) : s'.stepsLeft < s.stepsLeft := by
  have hlistening : s'.Listening ↔ s.Listening := by rw [Listening, Listening, hstatus]
  simp only [stepsLeft, hlistening, hawaits]
  omega

theorem advance_inner (s : Server Q W) (event : ServeEvent Q) (hinner : Inner event) :
    s.advance event = s ∨ (s.advance event).stepsLeft < s.stepsLeft := by
  cases event with
  | accept incoming => exact hinner.elim
  | ctrlC =>
      show s.ctrlC = s ∨ s.ctrlC.stepsLeft < s.stepsLeft
      cases hawaits : s.awaitsCtrlC with
      | false => exact .inl (by rw [ctrlC, hawaits]; rfl)
      | true =>
          right
          have hlistening : s.ctrlC.Listening ↔ s.Listening := by
            rw [ctrlC, hawaits]
            rfl
          have hsessions : s.ctrlC.sessions = s.sessions := by
            rw [ctrlC, hawaits]
            rfl
          have hctrlC : s.ctrlC.awaitsCtrlC = false := by
            rw [ctrlC, hawaits]
            rfl
          simp only [stepsLeft, openSessions, hlistening, hsessions, hctrlC, hawaits]
          simp
  | shutdownSeen =>
      show s.step .shutdownSeen = s ∨ (s.step .shutdownSeen).stepsLeft < s.stepsLeft
      cases hstatus : s.status with
      | listening =>
          have hstep : s.step .shutdownSeen = s.shutdownSeen := by rw [step, hstatus]; rfl
          rw [hstep, shutdownSeen]
          split
          · right
            have hlistening : s.Listening := by rw [Listening, hstatus]; trivial
            simp only [stepsLeft, openSessions, if_pos hlistening]
            have hleft : ¬ ({ s with status := .stopped } : Server Q W).Listening := fun h => h
            rw [if_neg hleft]
            omega
          · exact .inl rfl
      | stopped => exact .inl (by rw [step, hstatus])
      | failed err => exact .inl (by rw [step, hstatus])
  | viewerReturned session result =>
      show s.viewerReturned session result = s
        ∨ (s.viewerReturned session result).stepsLeft < s.stepsLeft
      unfold viewerReturned
      cases hviewer : s.sessionIn session .running with
      | none => exact .inl rfl
      | some viewer =>
          right
          refine stepsLeft_lt rfl rfl ?_
          have hopen := open_setPhase_closing hviewer
          have hrunning := running_setPhase_closing hviewer
          show (s.setPhase session viewer .closing).openSessions
            + (s.setPhase session viewer .closing).sessions.countP _ < _
          omega
  | viewerDisconnected session =>
      show s.viewerDisconnected session = s
        ∨ (s.viewerDisconnected session).stepsLeft < s.stepsLeft
      unfold viewerDisconnected
      cases hviewer : s.sessionIn session .running with
      | none => exact .inl rfl
      | some viewer =>
          dsimp only
          split
          · right
            refine stepsLeft_lt rfl rfl ?_
            have hopen := open_setPhase_closing hviewer
            have hrunning := running_setPhase_closing hviewer
            omega
          · exact .inl rfl
  | connectionClosed session =>
      show s.connectionClosed session = s ∨ (s.connectionClosed session).stepsLeft < s.stepsLeft
      unfold connectionClosed
      cases hviewer : s.sessionIn session .closing with
      | none => exact .inl rfl
      | some viewer =>
          right
          refine stepsLeft_lt rfl rfl ?_
          have hopen := open_setPhase_closed hviewer
          have hrunning := running_setPhase_closed hviewer
          show (s.setPhase session viewer .closed).openSessions
            + (s.setPhase session viewer .closed).sessions.countP _ < _
          omega

/-! ### Where no step is left -/

theorem sessionIn_of_phase {viewer : ViewerSession Q} {session : Nat}
    (hviewer : s.sessions[session]? = some viewer) :
    s.sessionIn session viewer.phase = some viewer := by
  rw [sessionIn, hviewer, Option.filter_some, if_pos (decide_eq_true rfl)]

theorem phase_setPhase {viewer : ViewerSession Q} {session : Nat}
    (hviewer : s.sessions[session]? = some viewer) (phase : SessionPhase) :
    (s.setPhase session viewer phase).sessions[session]? = some { viewer with phase := phase } := by
  obtain ⟨hlt, -⟩ := List.getElem?_eq_some_iff.mp hviewer
  exact List.getElem?_set_self hlt

theorem Signalled.waitReturns (h : Signalled s) (hawaits : s.awaitsCtrlC = false) (signal : Nat) :
    s.shutdown.waitReturns signal = true := by
  rw [Shutdown.waitReturns, Shutdown.isShutdown, h.flag hawaits]
  rfl

theorem Signalled.left_shutdownSeen (h : Signalled s) (hawaits : s.awaitsCtrlC = false) :
    ¬ (s.advance .shutdownSeen).Listening := by
  rw [Server.advance, step]
  cases hstatus : s.status with
  | listening =>
      have hseen : s.react .shutdownSeen = { s with status := .stopped } :=
        if_pos (h.waitReturns hawaits s.shutdownSig)
      dsimp only
      rw [hseen]
      exact fun hlistening => hlistening
  | stopped => exact fun hlistening => by rwa [Listening, hstatus] at hlistening
  | failed err => exact fun hlistening => by rwa [Listening, hstatus] at hlistening

theorem drained_of_quiet {accepted failed : Nat} (hsignalled : Signalled s)
    (hcounted : Counted s accepted failed) (hawaits : s.awaitsCtrlC = false)
    (hquiet : Quiet advance Inner s) : Drained s := by
  have hflag := hsignalled.waitReturns hawaits
  have hclosed : ∀ viewer ∈ s.sessions, viewer.phase = .closed := by
    intro viewer hmem
    obtain ⟨session, hviewer⟩ := List.mem_iff_getElem?.mp hmem
    have hin := sessionIn_of_phase hviewer
    cases hphase : viewer.phase with
    | running =>
        rw [hphase] at hin
        have hsame : s.viewerDisconnected session = s :=
          hquiet (.viewerDisconnected session) trivial
        simp only [viewerDisconnected, hin, if_pos (hflag viewer.signal)] at hsame
        have hmoved := phase_setPhase hviewer .closing
        rw [hsame, hviewer, Option.some.injEq] at hmoved
        rw [hmoved] at hphase
        cases hphase
    | closing =>
        rw [hphase] at hin
        have hsame : s.connectionClosed session = s := hquiet (.connectionClosed session) trivial
        simp only [connectionClosed, hin] at hsame
        have hmoved := phase_setPhase hviewer .closed
        have hsessions := congrArg sessions hsame
        rw [show (s.setPhase session viewer .closed).sessions = s.sessions from hsessions, hviewer,
          Option.some.injEq] at hmoved
        rw [hmoved] at hphase
        cases hphase
    | closed => rfl
  have hopen : s.openSessions = 0 :=
    List.countP_eq_zero.mpr fun viewer hmem => by simp [hclosed viewer hmem]
  refine ⟨fun hlistening => ?_, hclosed, ?_, ?_⟩
  · have hsame : s.advance .shutdownSeen = s := hquiet .shutdownSeen trivial
    exact hsignalled.left_shutdownSeen hawaits (hsame.symm ▸ hlistening)
  · rw [hcounted.active, hopen]
    rfl
  · rw [hsignalled.receivers, hopen]

theorem stepsLeft_le (hawaits : s.awaitsCtrlC = false) :
    s.stepsLeft ≤ 2 * s.sessions.length + 1 := by
  have hopen : s.openSessions ≤ s.sessions.length := List.countP_le_length
  have hrunning : s.sessions.countP (·.phase = .running) ≤ s.sessions.length :=
    List.countP_le_length
  have hlisten : (if s.Listening then 1 else 0) ≤ 1 := by split <;> omega
  rw [stepsLeft, hawaits]
  simp only [Bool.false_eq_true, if_false]
  omega

theorem exists_run_drained (hW : W.Lawful) (hsignalled : Signalled s)
    (hcounted : ∃ accepted failed, Counted s accepted failed) (hawaits : s.awaitsCtrlC = false) :
    ∃ more, (∀ event ∈ more, Inner event) ∧ more.length ≤ 2 * s.sessions.length + 1
      ∧ Drained (run advance s more) := by
  have hstep : ∀ (s : Server Q W) event, True → Inner event →
      s.advance event = s ∨ (s.advance event).stepsLeft < s.stepsLeft := fun s event _ hinner =>
    advance_inner s event hinner
  obtain ⟨more, hinner, hlength, hquiet⟩ :=
    exists_run_quiet (fun _ _ _ => trivial) hstep _ trivial (stepsLeft_le hawaits)
  have hcounts (s : Server Q W) event (h : ∃ accepted failed, Counted s accepted failed) :
      ∃ accepted failed, Counted (s.advance event) accepted failed := by
    obtain ⟨accepted, failed, hcounted⟩ := h
    exact ⟨_, _, hcounted.advance event⟩
  obtain ⟨accepted, failed, hcounted'⟩ := invariant_run hcounts more hcounted
  have hsignalled' : Signalled (run advance s more) :=
    invariant_run (fun _ event h => h.advance hW event) more hsignalled
  have hawaits' : (run advance s more).awaitsCtrlC = false := by
    have hkept (s : Server Q W) event (h : s.awaitsCtrlC = false) :
        (s.advance event).awaitsCtrlC = false := awaitsCtrlC_advance h event
    exact invariant_run hkept more hawaits
  exact ⟨more, hinner, hlength, drained_of_quiet hsignalled' hcounted' hawaits' hquiet⟩

end Server

namespace ServeCommand

variable {c : ServeCommand Q W}

def Inner : CommandEvent Q → Prop
  | .serve event => Server.Inner event
  | .returns => True

structure Ready (c : ServeCommand Q W) : Prop where
  signalled : c.server.Signalled
  counted : ∃ accepted failed, c.server.Counted accepted failed
  left : c.returned = true → ¬ c.server.Listening

theorem listening_iff {s : Server Q W} : s.Listening ↔ s.status = .listening := by
  rw [Server.Listening]
  cases s.status <;> simp

theorem step_returns_of_left (hleft : ¬ c.server.Listening) :
    c.step .returns = { c with returned := true } := by
  rw [step]
  split
  next hstatus => exact absurd (listening_iff.mpr hstatus) hleft
  · rfl

theorem Ready.step (hW : W.Lawful) (h : c.Ready) (event : CommandEvent Q) :
    (c.step event).Ready := by
  cases event with
  | serve event =>
      rw [ServeCommand.step]
      split
      · exact h
      next hreturned =>
          obtain ⟨accepted, failed, hcounted⟩ := h.counted
          exact ⟨h.signalled.advance hW event, ⟨_, _, hcounted.advance event⟩,
            fun hlater => absurd hlater hreturned⟩
  | returns =>
      by_cases hlistening : c.server.Listening
      · rw [ServeCommand.step, listening_iff.mp hlistening]
        exact h
      · rw [step_returns_of_left hlistening]
        exact ⟨h.signalled, h.counted, fun _ => hlistening⟩

theorem ready_run (hW : W.Lawful) (events : List (CommandEvent Q)) :
    (run ServeCommand.step (start : ServeCommand Q W) events).Ready :=
  invariant_run (fun _ event h => h.step hW event) events
    ⟨Server.signalled_start hW, ⟨0, 0, Server.counted_start⟩, nofun⟩

theorem reached_step (c : ServeCommand Q W) (event : CommandEvent Q)
    (h : c.returned = true ∨ c.server.awaitsCtrlC = false) :
    (c.step event).returned = true ∨ (c.step event).server.awaitsCtrlC = false := by
  cases event with
  | serve event =>
      rw [step]
      split
      · exact h
      · exact h.imp_right fun hawaits => Server.awaitsCtrlC_advance hawaits event
  | returns =>
      rw [step]
      split
      · exact h
      · exact .inl rfl

theorem reached_run {events : List (CommandEvent Q)} (hctrlC : .serve .ctrlC ∈ events) :
    let c := run step (start : ServeCommand Q W) events
    c.returned = true ∨ c.server.awaitsCtrlC = false := by
  obtain ⟨before, after, rfl⟩ := List.append_of_mem hctrlC
  rw [run_append, run_cons]
  apply invariant_run reached_step after
  rw [step]
  split
  · exact .inl ‹_›
  · exact .inr (Server.awaitsCtrlC_ctrlC _)

def stepsLeft (c : ServeCommand Q W) : Nat := if c.returned then 0 else c.server.stepsLeft + 1

theorem step_inner (c : ServeCommand Q W) (event : CommandEvent Q) (hinner : Inner event) :
    c.step event = c ∨ (c.step event).stepsLeft < c.stepsLeft := by
  cases hreturned : c.returned with
  | true =>
      left
      cases event with
      | serve event => rw [step, hreturned]; rfl
      | returns =>
          rw [step]
          split
          · rfl
          · rw [← hreturned]
  | false =>
      cases event with
      | serve event =>
          have hstep : c.step (.serve event) = { c with server := c.server.advance event } := by
            rw [step, hreturned]
            rfl
          rw [hstep]
          rcases Server.advance_inner c.server event hinner with hsame | hless
          · exact .inl (by rw [hsame])
          · right
            simp only [stepsLeft, hreturned, Bool.false_eq_true, if_false]
            omega
      | returns =>
          by_cases hlistening : c.server.Listening
          · exact .inl (by rw [step, listening_iff.mp hlistening])
          · right
            rw [step_returns_of_left hlistening]
            simp only [stepsLeft, hreturned, Bool.false_eq_true, if_false, if_true]
            omega

theorem stepsLeft_le (h : c.returned = true ∨ c.server.awaitsCtrlC = false) :
    c.stepsLeft ≤ 2 * c.server.sessions.length + 2 := by
  rw [stepsLeft]
  split
  · omega
  next hreturned =>
      have hleft := Server.stepsLeft_le (h.resolve_left hreturned)
      omega

theorem run_serve (hreturned : c.returned = false) (events : List (ServeEvent Q)) :
    run step c (events.map .serve) = { c with server := run Server.advance c.server events } := by
  induction events using List.reverseRecOn with
  | nil => rfl
  | append_singleton events event ih =>
      rw [List.map_append, List.map_singleton, run_concat, ih, run_concat, step, hreturned]
      rfl

theorem returned_of_reached (h : c.Ready)
    (hreached : c.returned = true ∨ c.server.awaitsCtrlC = false) :
    (run step c [.serve .shutdownSeen, .returns]).returned = true := by
  rw [run_cons, run_cons, run_nil]
  have hleft : ¬ (c.step (.serve .shutdownSeen)).server.Listening := by
    rw [step]
    split
    next hreturned => exact h.left hreturned
    next hreturned => exact h.signalled.left_shutdownSeen (hreached.resolve_left hreturned)
  rw [step_returns_of_left hleft]

theorem returned_of_quiet (h : c.Ready)
    (hreached : c.returned = true ∨ c.server.awaitsCtrlC = false) (hquiet : Quiet step Inner c) :
    c.returned = true := by
  have hseen : c.step (.serve .shutdownSeen) = c := hquiet (.serve .shutdownSeen) trivial
  have hreturns : c.step .returns = c := hquiet .returns trivial
  have hreturned := returned_of_reached h hreached
  rwa [run_cons, run_cons, run_nil, hseen, hreturns] at hreturned

/-- **Shutdown ends the command.** Once Ctrl+C has been taken and as long as no new connection
comes, only so many steps change anything, the command can return whatever the sessions are doing,
and where nothing is left to do it has returned. -/
theorem shutdown_ends_command (hW : W.Lawful) (events : List (CommandEvent Q))
    (hctrlC : .serve .ctrlC ∈ events) :
    let c : ServeCommand Q W := run step start events
    (∀ more, (∀ event ∈ more, Inner event) →
        changes step c more ≤ 2 * c.server.sessions.length + 2)
      ∧ (run step c [.serve .shutdownSeen, .returns]).returned = true
      ∧ (c.returned = false → ∃ more, (∀ event ∈ more, Inner event)
          ∧ more.length ≤ 2 * c.server.sessions.length + 1
          ∧ (run step c more).returned = false ∧ (run step c more).server.Drained)
      ∧ ∀ more, Quiet step Inner (run step c more) →
          let last := run step c more
          last.returned = true ∧ ¬ last.server.Listening
            ∧ last.server.metrics.activeConnections = UInt64.ofNat last.server.openSessions := by
  intro c
  have hready : c.Ready := ready_run hW events
  have hreached : c.returned = true ∨ c.server.awaitsCtrlC = false := reached_run hctrlC
  refine ⟨fun more hmore => ?_, returned_of_reached hready hreached, fun hreturned => ?_,
    fun more hquiet => ?_⟩
  · have hstep : ∀ (c : ServeCommand Q W) event, True → Inner event →
        c.step event = c ∨ (c.step event).stepsLeft < c.stepsLeft := fun c event _ hinner =>
      step_inner c event hinner
    have hchanges : changes step c more + (run step c more).stepsLeft ≤ c.stepsLeft :=
      changes_le (fun _ _ _ => trivial) hstep more trivial hmore
    have hleft := stepsLeft_le hreached
    omega
  · have hawaits := hreached.resolve_left (Bool.eq_false_iff.mp hreturned)
    obtain ⟨more, hinner, hlength, hdrained⟩ :=
      Server.exists_run_drained hW hready.signalled hready.counted hawaits
    refine ⟨more.map .serve, fun event hmem => ?_, (List.length_map _).trans_le hlength, ?_⟩
    · obtain ⟨event, hserve, rfl⟩ := List.mem_map.mp hmem
      exact hinner event hserve
    · rw [run_serve hreturned]
      exact ⟨hreturned, hdrained⟩
  · intro last
    have hlast : last.Ready := invariant_run (fun _ event h => h.step hW event) more hready
    have hlater := invariant_run reached_step more hreached
    have hreturned := returned_of_quiet hlast hlater hquiet
    obtain ⟨accepted, failed, hcounted⟩ := hlast.counted
    exact ⟨hreturned, hlast.left hreturned, hcounted.active⟩

theorem shutdown_ends_command_two :
    let events : List (CommandEvent ⟨Unit, Unit, Unit⟩) :=
      [.serve (.accept (some (.ok ()))), .serve (.accept (some (.ok ()))),
        .serve (.viewerReturned 0 (.ok ())), .serve (.connectionClosed 0), .serve .ctrlC]
    let c := run step (start (W := Watch.cell Bool)) events
    let last := run step c [.serve .shutdownSeen, .returns]
    last.returned = true ∧ last.server.metrics.activeConnections = 1 := by
  intro events c last
  have hctrlC : .serve .ctrlC ∈ events := List.mem_of_getElem? (i := 4) rfl
  exact ⟨(shutdown_ends_command (Watch.cell_lawful Bool) events hctrlC).2.1, rfl⟩

end ServeCommand

end QuicView
