import QuicView.Library.Purge
import QuicView.Proof.HostAccounting

/-!
# Viewers are isolated

The channel of the shutdown signals is shared by all sessions. What keeps it apart is that a session
only drops its own signal, and that the loop's signals stay, so that no send finds the channel
without receivers.
-/

namespace QuicView

open Execution

variable {Q : Quinn} {W : Watch Bool}

/-! ### The shutdown handles -/

/-- The same to everyone who waits for shutdown or asks for a signal. -/
structure Shutdown.Same (a b : Shutdown W) : Prop where
  controllers : a.controllers = b.controllers
  length : a.signals.length = b.signals.length
  flag : W.borrow a.channel = W.borrow b.channel
  closed : W.closed a.channel = W.closed b.channel

namespace Shutdown.Same

variable {a b : Shutdown W}

theorem waitReturns (h : a.Same b) (signal : Nat) :
    a.waitReturns signal = b.waitReturns signal := by
  rw [Shutdown.waitReturns, Shutdown.waitReturns, isShutdown, isShutdown, h.flag, h.closed]

theorem trigger (hW : W.Lawful) (h : a.Same b) (ha : W.receiverCount a.channel ≠ 0)
    (hb : W.receiverCount b.channel ≠ 0) : a.trigger.Same b.trigger where
  controllers := h.controllers
  length := h.length
  flag := by
    rw [Shutdown.trigger, Shutdown.trigger, hW.borrow_send, hW.borrow_send, if_neg ha, if_neg hb]
  closed := by
    rw [Shutdown.trigger, Shutdown.trigger, hW.closed_send, hW.closed_send, h.closed]

theorem dropController (hW : W.Lawful) (h : a.Same b) : a.dropController.Same b.dropController where
  controllers := congrArg (· - 1) h.controllers
  length := h.length
  flag := by
    rw [borrow_dropController hW, borrow_dropController hW, h.flag]
  closed := by
    rw [Shutdown.dropController, Shutdown.dropController, h.controllers]
    split
    · rw [hW.closed_dropSender, hW.closed_dropSender]
    · exact h.closed

theorem signal (hW : W.Lawful) (h : a.Same b) : a.signal.Same b.signal where
  controllers := h.controllers
  length := by
    rw [Shutdown.signal, Shutdown.signal, List.length_append, List.length_append, h.length]
  flag := by
    rw [Shutdown.signal, Shutdown.signal, hW.borrow_subscribe, hW.borrow_subscribe, h.flag]
  closed := by
    rw [Shutdown.signal, Shutdown.signal, hW.closed_subscribe, hW.closed_subscribe, h.closed]

theorem dropSignal_left (hW : W.Lawful) (h : a.Same b) (signal : Nat) :
    (a.dropSignal signal).Same b where
  controllers := h.controllers
  length := List.length_set.trans h.length
  flag := (hW.borrow_dropReceiver a.channel).trans h.flag
  closed := (hW.closed_dropReceiver a.channel).trans h.closed

theorem symm (h : a.Same b) : b.Same a where
  controllers := h.controllers.symm
  length := h.length.symm
  flag := h.flag.symm
  closed := h.closed.symm

theorem dropSignal (hW : W.Lawful) (h : a.Same b) (signal : Nat) :
    (a.dropSignal signal).Same (b.dropSignal signal) :=
  ((h.dropSignal_left hW signal).symm.dropSignal_left hW signal).symm

end Shutdown.Same

/-! ### The loop and its sessions -/

namespace Server

/-- The same loop with the same sessions, that of one number left out. -/
structure AlikeBut (j : Nat) (s s' : Server Q W) : Prop where
  status : s.status = s'.status
  total : s.metrics.totalConnections = s'.metrics.totalConnections
  shutdown : s.shutdown.Same s'.shutdown
  shutdownSig : s.shutdownSig = s'.shutdownSig
  awaitsCtrlC : s.awaitsCtrlC = s'.awaitsCtrlC
  length : s.sessions.length = s'.sessions.length
  sessions : ∀ i, i ≠ j → s.sessions[i]? = s'.sessions[i]?

variable {s s' : Server Q W} {i j : Nat} {viewer : ViewerSession Q}

namespace AlikeBut

theorem sessionIn (h : s.AlikeBut j s') (hi : i ≠ j) (phase : SessionPhase) :
    s.sessionIn i phase = s'.sessionIn i phase := by
  rw [Server.sessionIn, Server.sessionIn, h.sessions i hi]

theorem setPhase_left (h : s.AlikeBut j s') (viewer : ViewerSession Q) (phase : SessionPhase) :
    (s.setPhase j viewer phase).AlikeBut j s' :=
  { h with
    length := List.length_set.trans h.length
    sessions := fun i hi => (List.getElem?_set_ne (Ne.symm hi)).trans (h.sessions i hi) }

theorem setPhase (h : s.AlikeBut j s') (i : Nat) (viewer : ViewerSession Q)
    (phase : SessionPhase) : (s.setPhase i viewer phase).AlikeBut j (s'.setPhase i viewer phase) :=
  { h with
    length := List.length_set.trans (h.length.trans List.length_set.symm)
    sessions := fun k hk => by
      show (s.sessions.set i _)[k]? = (s'.sessions.set i _)[k]?
      rw [List.getElem?_set, List.getElem?_set, h.sessions k hk, h.length] }

theorem ctrlC (hW : W.Lawful) (h : s.AlikeBut j s') (hs : Signalled s) (hs' : Signalled s') :
    s.ctrlC.AlikeBut j s'.ctrlC := by
  rw [Server.ctrlC, Server.ctrlC, h.awaitsCtrlC]
  split
  · have hheard : W.receiverCount s.shutdown.channel ≠ 0 := hs.receivers ▸ Nat.succ_ne_zero _
    have hheard' : W.receiverCount s'.shutdown.channel ≠ 0 := hs'.receivers ▸ Nat.succ_ne_zero _
    exact { h with
      shutdown := (h.shutdown.trigger hW hheard hheard').dropController hW
      awaitsCtrlC := rfl }
  · exact h

theorem accept (hW : W.Lawful) (h : s.AlikeBut j s')
    (incoming : Option (Except Q.ConnectionError Q.Connection)) :
    (s.accept incoming).AlikeBut j (s'.accept incoming) := by
  rcases incoming with - | err | connection
  · exact { h with status := rfl }
  · exact { h with status := rfl }
  · exact { h with
      total := congrArg (· + 1) h.total
      shutdown := h.shutdown.signal hW
      length := by
        show (s.sessions ++ [_]).length = (s'.sessions ++ [_]).length
        rw [List.length_append, List.length_append, h.length]
        rfl
      sessions := fun i hi => by
        show (s.sessions ++ [_])[i]? = (s'.sessions ++ [_])[i]?
        rw [List.getElem?_append, List.getElem?_append, h.sessions i hi, h.length,
          h.shutdown.length] }

theorem shutdownSeen (h : s.AlikeBut j s') : s.shutdownSeen.AlikeBut j s'.shutdownSeen := by
  have hwaits : s.shutdown.waitReturns s.shutdownSig = s'.shutdown.waitReturns s'.shutdownSig := by
    rw [h.shutdownSig, h.shutdown.waitReturns]
  rw [Server.shutdownSeen, Server.shutdownSeen, hwaits]
  split
  · exact { h with status := rfl }
  · exact h

theorem viewerReturned_left (h : s.AlikeBut j s') (result : Except String Unit) :
    (s.viewerReturned j result).AlikeBut j s' := by
  unfold Server.viewerReturned
  split
  · exact h
  next viewer _ =>
      have hset := h.setPhase_left viewer .closing
      cases result with
      | ok value => exact { hset with }
      | error err => exact { hset with }

theorem viewerReturned (h : s.AlikeBut j s') (hi : i ≠ j) (result : Except String Unit) :
    (s.viewerReturned i result).AlikeBut j (s'.viewerReturned i result) := by
  unfold Server.viewerReturned
  rw [h.sessionIn hi]
  split
  · exact h
  next viewer _ =>
      have hset := h.setPhase i viewer .closing
      cases result with
      | ok value => exact { hset with }
      | error err => exact { hset with }

theorem viewerDisconnected_left (h : s.AlikeBut j s') :
    (s.viewerDisconnected j).AlikeBut j s' := by
  rw [Server.viewerDisconnected]
  split
  · exact h
  next viewer _ =>
      split
      · exact h.setPhase_left viewer .closing
      · exact h

theorem viewerDisconnected (h : s.AlikeBut j s') (hi : i ≠ j) :
    (s.viewerDisconnected i).AlikeBut j (s'.viewerDisconnected i) := by
  rw [Server.viewerDisconnected, Server.viewerDisconnected, h.sessionIn hi]
  split
  · exact h
  next viewer _ =>
      rw [h.shutdown.waitReturns]
      split
      · exact h.setPhase i viewer .closing
      · exact h

theorem connectionClosed_left (hW : W.Lawful) (h : s.AlikeBut j s') :
    (s.connectionClosed j).AlikeBut j s' := by
  rw [Server.connectionClosed]
  split
  · exact h
  next viewer _ =>
      exact { h.setPhase_left viewer .closed with
        shutdown := h.shutdown.dropSignal_left hW viewer.signal }

theorem connectionClosed (hW : W.Lawful) (h : s.AlikeBut j s') (hi : i ≠ j) :
    (s.connectionClosed i).AlikeBut j (s'.connectionClosed i) := by
  rw [Server.connectionClosed, Server.connectionClosed, h.sessionIn hi]
  split
  · exact h
  next viewer _ =>
      exact { h.setPhase i viewer .closed with
        shutdown := h.shutdown.dropSignal hW viewer.signal }

theorem step (h : s.AlikeBut j s') {event : ServeEvent Q}
    (hreact : (s.react event).AlikeBut j (s'.react event)) :
    (s.step event).AlikeBut j (s'.step event) := by
  rw [Server.step, Server.step, h.status]
  split
  · exact hreact
  · exact h

end AlikeBut

end Server

/-! ### The host -/

namespace Host

variable {J : SerdeJson} {describe : ExchangeError Q J → String} {h h' : Host Q W} {i j : Nat}

structure AlikeBut (j : Nat) (h h' : Host Q W) : Prop where
  server : h.server.AlikeBut j h'.server
  streams : ∀ i, i ≠ j → h.streams i = h'.streams i
  log : h.log.filter (·.1 ≠ j) = h'.log.filter (·.1 ≠ j)
  signalled : h.server.Signalled
  signalled' : h'.server.Signalled

namespace AlikeBut

theorem serve_left (hW : W.Lawful) (halike : h.AlikeBut j h') {event : ServeEvent Q}
    (hserver : (h.server.advance event).AlikeBut j h'.server) :
    (h.serve event).AlikeBut j h' :=
  { halike with
    server := hserver
    signalled := halike.signalled.advance hW event }

theorem serve (hW : W.Lawful) (halike : h.AlikeBut j h') {event : ServeEvent Q}
    (hserver : (h.server.advance event).AlikeBut j (h'.server.advance event)) :
    (h.serve event).AlikeBut j (h'.serve event) :=
  { halike with
    server := hserver
    signalled := halike.signalled.advance hW event
    signalled' := halike.signalled'.advance hW event }

theorem setStream_left (halike : h.AlikeBut j h') (stream : ViewerStream) :
    (h.setStream j stream).AlikeBut j h' :=
  { halike with
    streams := fun i hi => (Function.update_of_ne hi ..).trans (halike.streams i hi) }

theorem setStream (halike : h.AlikeBut j h') (i : Nat) (stream : ViewerStream) :
    (h.setStream i stream).AlikeBut j (h'.setStream i stream) :=
  { halike with
    streams := fun k hk => by
      show Function.update h.streams i stream k = Function.update h'.streams i stream k
      rw [Function.update_apply, Function.update_apply, halike.streams k hk] }

theorem refused_left (halike : h.AlikeBut j h') (taken : Nat) (reason : String) :
    (h.refused j taken reason).AlikeBut j h' := by
  unfold Host.refused
  split
  · exact halike
  · exact halike.setStream_left _

theorem refused (halike : h.AlikeBut j h') (hi : i ≠ j) (taken : Nat) (reason : String) :
    (h.refused i taken reason).AlikeBut j (h'.refused i taken reason) := by
  unfold Host.refused
  rw [halike.server.sessionIn hi, halike.streams i hi]
  split
  · exact halike
  · exact halike.setStream i _

theorem handled_left (hW : W.Lawful) (halike : h.AlikeBut j h') :
    (h.handled J describe j).AlikeBut j h' := by
  have hserved (result : Except String Unit) : (h.serve (.viewerReturned j result)).AlikeBut j h' :=
    halike.serve_left hW (halike.server.viewerReturned_left result)
  unfold Host.handled
  split
  · exact halike
  · split
    · exact hserved _
    next err _ =>
        refine { hserved (.error (describe err)) with log := ?_ }
        show (h.log ++ [(j, describe err)]).filter (·.1 ≠ j) = _
        rw [List.filter_append, halike.log]
        simp
    · exact halike

theorem handled (hW : W.Lawful) (halike : h.AlikeBut j h') (hi : i ≠ j) :
    (h.handled J describe i).AlikeBut j (h'.handled J describe i) := by
  have hserved (result : Except String Unit) :
      (h.serve (.viewerReturned i result)).AlikeBut j (h'.serve (.viewerReturned i result)) :=
    halike.serve hW (halike.server.viewerReturned hi result)
  unfold Host.handled
  rw [halike.server.sessionIn hi, halike.streams i hi]
  split
  · exact halike
  · split
    · exact hserved _
    next err _ =>
        refine { hserved (.error (describe err)) with log := ?_ }
        show (h.log ++ [(i, describe err)]).filter (·.1 ≠ j)
          = (h'.log ++ [(i, describe err)]).filter (·.1 ≠ j)
        rw [List.filter_append, List.filter_append, halike.log]
    · exact halike

theorem step_left (hW : W.Lawful) (halike : h.AlikeBut j h') {event : HostEvent Q}
    (hown : event.viewer = some j) : (h.step J describe event).AlikeBut j h' := by
  cases event with
  | ctrlC | accept | shutdownSeen => cases hown
  | arrived i bytes =>
      cases hown
      exact halike.setStream_left _
  | finished i reason =>
      cases hown
      exact halike.setStream_left _
  | refused i taken reason =>
      cases hown
      exact halike.refused_left taken reason
  | handled i =>
      cases hown
      exact halike.handled_left hW
  | viewerDisconnected i =>
      cases hown
      exact halike.serve_left hW halike.server.viewerDisconnected_left
  | connectionClosed i =>
      cases hown
      exact halike.serve_left hW (halike.server.connectionClosed_left hW)

theorem step (hW : W.Lawful) (halike : h.AlikeBut j h') {event : HostEvent Q}
    (hothers : event.viewer ≠ some j) :
    (h.step J describe event).AlikeBut j (h'.step J describe event) := by
  have hne {i : Nat} (hviewer : event.viewer = some i) : i ≠ j := fun heq =>
    hothers (heq ▸ hviewer)
  cases event with
  | ctrlC =>
      exact halike.serve hW (halike.server.ctrlC hW halike.signalled halike.signalled')
  | accept incoming =>
      exact halike.serve hW (halike.server.step (halike.server.accept hW incoming))
  | shutdownSeen => exact halike.serve hW (halike.server.step halike.server.shutdownSeen)
  | arrived i bytes =>
      show (h.setStream i ((h.streams i).arrive bytes)).AlikeBut j
        (h'.setStream i ((h'.streams i).arrive bytes))
      rw [halike.streams i (hne rfl)]
      exact halike.setStream i _
  | finished i reason =>
      show (h.setStream i ((h.streams i).finish reason)).AlikeBut j
        (h'.setStream i ((h'.streams i).finish reason))
      rw [halike.streams i (hne rfl)]
      exact halike.setStream i _
  | refused i taken reason => exact halike.refused (hne rfl) taken reason
  | handled i => exact halike.handled hW (hne rfl)
  | viewerDisconnected i =>
      exact halike.serve hW (halike.server.viewerDisconnected (hne rfl))
  | connectionClosed i =>
      exact halike.serve hW (halike.server.connectionClosed hW (hne rfl))

end AlikeBut

theorem alikeBut_run (hW : W.Lawful) (j : Nat) (events : List (HostEvent Q)) :
    (run (Host.step J describe) (Host.start : Host Q W) events).AlikeBut j
      (run (Host.step J describe) Host.start (purge (·.viewer = some j) events)) := by
  apply run_purge
  · intro h h' event hown halike
    exact halike.step_left hW (of_decide_eq_true hown)
  · intro h h' event hothers halike
    exact halike.step hW (of_decide_eq_false hothers)
  · exact ⟨⟨rfl, rfl, ⟨rfl, rfl, rfl, rfl⟩, rfl, rfl, rfl, fun _ _ => rfl⟩, fun _ _ => rfl, rfl,
      Server.signalled_start hW, Server.signalled_start hW⟩

theorem logged_cause {event : HostEvent Q}
    (hlogged : j ∈ (h.step J describe event).log.map Prod.fst) :
    j ∈ h.log.map Prod.fst ∨ event.viewer = some j := by
  cases event with
  | handled i =>
      change j ∈ (h.handled J describe i).log.map Prod.fst at hlogged
      unfold Host.handled at hlogged
      split at hlogged
      · exact .inl hlogged
      · split at hlogged
        · exact .inl hlogged
        · rw [List.map_append, List.mem_append] at hlogged
          refine hlogged.imp_right fun hnew => ?_
          rw [List.mem_singleton.mp hnew]
          rfl
        · exact .inl hlogged
  | refused i taken reason =>
      left
      change j ∈ (h.refused i taken reason).log.map Prod.fst at hlogged
      unfold Host.refused at hlogged
      split at hlogged <;> exact hlogged
  | _ => exact .inl hlogged

theorem not_logged_of_purge (j : Nat) (events : List (HostEvent Q)) :
    j ∉ (run (Host.step J describe) (Host.start : Host Q W)
      (purge (·.viewer = some j) events)).log.map Prod.fst := by
  intro hlogged
  have hstep (h : Host Q W) (event : HostEvent Q)
      (hnext : j ∈ (h.step J describe event).log.map Prod.fst) :
      j ∈ h.log.map Prod.fst ∨ event.viewer = some j := logged_cause hnext
  rcases exists_cause (fun h : Host Q W => j ∈ h.log.map Prod.fst) hstep _ hlogged with
    hstart | ⟨event, hmem, hown⟩
  · cases hstart
  · exact of_decide_eq_false (forall_mem_purge event hmem) hown

theorem Accounted.entries_le_one (h' : h.Accounted J describe) (j : Nat) :
    h.log.countP (·.1 = j) ≤ 1 := by
  have hcount : (h.log.map Prod.fst).count j = h.log.countP (·.1 = j) := by
    rw [List.count_eq_countP, List.countP_map]
    rfl
  rw [← hcount]
  exact List.nodup_iff_count_le_one.mp h'.nodup j

/-- **A viewer is isolated.** Take any run of the host and take out of it everything one viewer
sends and everything its session does. The loop, every other session and stream, and the log but for
this viewer are what they were. -/
theorem viewer_isolated (hW : W.Lawful) (describe : ExchangeError Q J → String) (j : Nat)
    (events : List (HostEvent Q)) :
    let whole := run (step J describe) (start : Host Q W) events
    let others := run (step J describe) (start : Host Q W) (purge (·.viewer = some j) events)
    whole.server.status = others.server.status
      ∧ whole.server.metrics.totalConnections = others.server.metrics.totalConnections
      ∧ (∀ i, i ≠ j → whole.server.sessions[i]? = others.server.sessions[i]?
          ∧ whole.streams i = others.streams i)
      ∧ whole.log.filter (·.1 ≠ j) = others.log
      ∧ whole.server.metrics.errors
          = others.server.metrics.errors + UInt64.ofNat (whole.log.countP (·.1 = j))
      ∧ whole.log.countP (·.1 = j) ≤ 1 := by
  intro whole others
  have halike : whole.AlikeBut j others := alikeBut_run hW j events
  have haccounted : whole.Accounted J describe := accounted_run hW events
  have haccounted' : others.Accounted J describe := accounted_run hW _
  have hunlogged : j ∉ others.log.map Prod.fst := not_logged_of_purge j events
  have hlog : whole.log.filter (·.1 ≠ j) = others.log := by
    rw [halike.log, List.filter_eq_self]
    intro entry hmem
    exact decide_eq_true fun heq => hunlogged (heq ▸ List.mem_map_of_mem hmem)
  have hlength : whole.log.length = others.log.length + whole.log.countP (·.1 = j) := by
    rw [List.length_eq_countP_add_countP fun entry => decide (entry.1 = j), Nat.add_comm, ← hlog,
      ← List.countP_eq_length_filter]
    simp only [decide_eq_true_eq, ne_eq]
  obtain ⟨_, hcounted⟩ := haccounted.counted
  obtain ⟨_, hcounted'⟩ := haccounted'.counted
  refine ⟨halike.server.status, halike.server.total,
    fun i hi => ⟨halike.server.sessions i hi, halike.streams i hi⟩, hlog, ?_,
    haccounted.entries_le_one j⟩
  rw [hcounted.errors, hcounted'.errors, hlength, UInt64.ofNat_add]

theorem viewer_isolated_two :
    let events : List (HostEvent ⟨Unit, Unit, Unit⟩) :=
      [.accept (some (.ok ())), .accept (some (.ok ())), .arrived 0 [7, 1], .arrived 1 [0],
        .handled 0, .handled 1, .connectionClosed 0]
    let whole := run (step textJson fun _ => "error") (start : Host _ (Watch.cell Bool)) events
    let others := run (step textJson fun _ => "error") (start : Host _ (Watch.cell Bool))
      (purge (·.viewer = some 0) events)
    whole.log = [(0, "error")] ∧ others.log = []
      ∧ whole.server.sessions[1]? = others.server.sessions[1]? := by
  intro events whole others
  have hisolated := viewer_isolated (J := textJson) (Watch.cell_lawful Bool) (fun _ => "error") 0
    events
  have hlog : whole.log = [(0, "error")] := rfl
  obtain ⟨-, -, hsame, hothers, -⟩ := hisolated
  refine ⟨hlog, ?_, (hsame 1 Nat.one_ne_zero).1⟩
  rw [← hothers]
  rfl

end Host

end QuicView
