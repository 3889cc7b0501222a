import Mathlib.Data.List.Induction
import QuicView.Cli.Serve
import QuicView.Library.Execution

namespace QuicView.Server

open Execution

variable {Q : Quinn} {W : Watch Bool} {s : Server Q W}

def accepts (s : Server Q W) (event : ServeEvent Q) : Bool :=
  match s.status, event with
  | .listening, .accept (some (.ok _)) => true
  | _, _ => false

def fails (s : Server Q W) (event : ServeEvent Q) : Bool :=
  match event with
  | .viewerReturned session (.error _) => (s.sessionIn session .running).isSome
  | _ => false

def closes (s : Server Q W) (event : ServeEvent Q) : Bool :=
  match event with
  | .connectionClosed session => (s.sessionIn session .closing).isSome
  | _ => false

def acceptances (W : Watch Bool) (events : List (ServeEvent Q)) : Nat :=
  tally advance accepts (start : Server Q W) events

def failures (W : Watch Bool) (events : List (ServeEvent Q)) : Nat :=
  tally advance fails (start : Server Q W) events

def openSessions (s : Server Q W) : Nat := s.sessions.countP (·.phase ≠ .closed)

def endedSessions (s : Server Q W) : Nat := s.sessions.countP (·.phase ≠ .running)

/-- What the counters say after the events. -/
structure Accounts (W : Watch Bool) (events : List (ServeEvent Q)) (s : Server Q W) : Prop where
  active : s.metrics.activeConnections.toNat = s.openSessions
  total : s.metrics.totalConnections.toNat = acceptances W events
  errors : s.metrics.errors.toNat = failures W events
  active_le_total : s.metrics.activeConnections ≤ s.metrics.totalConnections
  /-- No decrement meets a counter at zero. -/
  no_wrap : ∀ event, s.closes event → 0 < s.metrics.activeConnections

/-! ### The counters as words -/

structure Counted (s : Server Q W) (accepted failed : Nat) : Prop where
  sessions : s.sessions.length = accepted
  active : s.metrics.activeConnections = UInt64.ofNat s.openSessions
  total : s.metrics.totalConnections = UInt64.ofNat accepted
  errors : s.metrics.errors = UInt64.ofNat failed
  failed_le : failed ≤ s.endedSessions

variable {accepted failed : Nat}

theorem counted_start : Counted (start : Server Q W) 0 0 := ⟨rfl, rfl, rfl, rfl, le_rfl⟩

theorem Counted.congr (h : Counted s accepted failed) {s' : Server Q W}
    (hsessions : s'.sessions = s.sessions) (hmetrics : s'.metrics = s.metrics) :
    Counted s' accepted failed := by
  constructor
  · rw [hsessions, h.sessions]
  · rw [hmetrics, h.active, openSessions, openSessions, hsessions]
  · rw [hmetrics, h.total]
  · rw [hmetrics, h.errors]
  · rw [endedSessions, hsessions]
    exact h.failed_le

theorem countP_setPhase {session : Nat} {viewer : ViewerSession Q} {before : SessionPhase}
    (hviewer : s.sessionIn session before = some viewer) (phase : SessionPhase)
    (p : SessionPhase → Bool) :
    (s.setPhase session viewer phase).sessions.countP (p ·.phase) + (p before).toNat
      = s.sessions.countP (p ·.phase) + (p phase).toNat := by
  obtain ⟨hfound, hphase⟩ := Option.filter_eq_some_iff.mp hviewer
  obtain ⟨hlt, rfl⟩ := List.getElem?_eq_some_iff.mp hfound
  obtain rfl : s.sessions[session].phase = before := of_decide_eq_true hphase
  have hset := List.countP_set (p := (p ·.phase)) hlt
    (a := { s.sessions[session] with phase := phase })
  have hpos : p s.sessions[session].phase → 0 < s.sessions.countP (p ·.phase) :=
    fun hcounted => List.countP_pos_iff.mpr ⟨_, List.getElem_mem hlt, hcounted⟩
  rw [setPhase, hset]
  cases hp : p s.sessions[session].phase with
  | false => cases p phase <;> simp
  | true =>
      have hone := hpos hp
      cases p phase <;> simp <;> omega

theorem length_setPhase (session : Nat) (viewer : ViewerSession Q) (phase : SessionPhase) :
    (s.setPhase session viewer phase).sessions.length = s.sessions.length :=
  List.length_set

section Moves

variable {session : Nat} {viewer : ViewerSession Q}

theorem open_setPhase_closing (hviewer : s.sessionIn session .running = some viewer) :
    (s.setPhase session viewer .closing).openSessions = s.openSessions :=
  Nat.add_right_cancel (countP_setPhase hviewer .closing (· ≠ .closed))

theorem ended_setPhase_closing (hviewer : s.sessionIn session .running = some viewer) :
    (s.setPhase session viewer .closing).endedSessions = s.endedSessions + 1 :=
  countP_setPhase hviewer .closing (· ≠ .running)

theorem open_setPhase_closed (hviewer : s.sessionIn session .closing = some viewer) :
    (s.setPhase session viewer .closed).openSessions + 1 = s.openSessions :=
  countP_setPhase hviewer .closed (· ≠ .closed)

theorem ended_setPhase_closed (hviewer : s.sessionIn session .closing = some viewer) :
    (s.setPhase session viewer .closed).endedSessions = s.endedSessions :=
  Nat.add_right_cancel (countP_setPhase hviewer .closed (· ≠ .running))

end Moves

/-! ### One event -/

theorem Counted.ctrlC (h : Counted s accepted failed) : Counted s.ctrlC accepted failed := by
  rw [Server.ctrlC]
  split
  · exact h.congr rfl rfl
  · exact h

theorem Counted.shutdownSeen (h : Counted s accepted failed) :
    Counted s.shutdownSeen accepted failed := by
  rw [Server.shutdownSeen]
  split
  · exact h.congr rfl rfl
  · exact h

theorem Counted.accept_ok (h : Counted s accepted failed) (connection : Q.Connection) :
    Counted (s.accept (some (.ok connection))) (accepted + 1) failed := by
  let viewer : ViewerSession Q := ⟨connection, s.shutdown.signals.length, .running⟩
  have hsessions : (s.accept (some (.ok connection))).sessions = s.sessions ++ [viewer] := rfl
  constructor
  · rw [hsessions, List.length_append, h.sessions]
    rfl
  · have hopen : (s.accept (some (.ok connection))).openSessions = s.openSessions + 1 := by
      rw [openSessions, hsessions, List.countP_append]
      rfl
    rw [hopen, UInt64.ofNat_add, ← h.active]
    rfl
  · rw [UInt64.ofNat_add, ← h.total]
    rfl
  · exact h.errors
  · rw [endedSessions, hsessions, List.countP_append]
    exact Nat.le_add_right_of_le h.failed_le

theorem Counted.viewerReturned (h : Counted s accepted failed) (session : Nat)
    (result : Except String Unit) :
    Counted (s.viewerReturned session result) accepted
      (failed + (s.fails (.viewerReturned session result)).toNat) := by
  cases hviewer : s.sessionIn session .running with
  | none =>
      have hfails : s.fails (.viewerReturned session result) = false := by
        cases result <;> simp [fails, hviewer]
      simp only [hfails, Server.viewerReturned, hviewer]
      exact h
  | some viewer =>
      have hended : failed + 1 ≤ (s.setPhase session viewer .closing).endedSessions := by
        rw [ended_setPhase_closing hviewer]
        exact Nat.add_le_add_right h.failed_le 1
      have hactive := h.active
      rw [← open_setPhase_closing hviewer] at hactive
      cases result with
      | ok value =>
          simp only [Server.viewerReturned, hviewer]
          exact ⟨(length_setPhase ..).trans h.sessions, hactive, h.total, h.errors,
            Nat.le_of_succ_le hended⟩
      | error err =>
          have hfails : s.fails (.viewerReturned session (.error err)) = true := by
            simp [fails, hviewer]
          simp only [hfails, Server.viewerReturned, hviewer]
          refine ⟨(length_setPhase ..).trans h.sessions, hactive, h.total, ?_, hended⟩
          rw [Bool.toNat_true, UInt64.ofNat_add, ← h.errors]
          rfl

theorem Counted.viewerDisconnected (h : Counted s accepted failed) (session : Nat) :
    Counted (s.viewerDisconnected session) accepted failed := by
  rw [Server.viewerDisconnected]
  cases hviewer : s.sessionIn session .running with
  | none => exact h
  | some viewer =>
      dsimp only
      split
      · have hactive := h.active
        rw [← open_setPhase_closing hviewer] at hactive
        refine ⟨(length_setPhase ..).trans h.sessions, hactive, h.total, h.errors, ?_⟩
        rw [ended_setPhase_closing hviewer]
        exact Nat.le_succ_of_le h.failed_le
      · exact h

theorem Counted.connectionClosed (h : Counted s accepted failed) (session : Nat) :
    Counted (s.connectionClosed session) accepted failed := by
  rw [Server.connectionClosed]
  cases hviewer : s.sessionIn session .closing with
  | none => exact h
  | some viewer =>
      refine ⟨(length_setPhase ..).trans h.sessions, ?_, h.total, h.errors, ?_⟩
      · have hactive := h.active
        rw [← open_setPhase_closed hviewer, UInt64.ofNat_add] at hactive
        exact UInt64.sub_eq_iff_eq_add.mpr hactive
      · have hended := h.failed_le
        rw [← ended_setPhase_closed hviewer] at hended
        exact hended

theorem Counted.step_accept (h : Counted s accepted failed)
    (incoming : Option (Except Q.ConnectionError Q.Connection)) :
    Counted (s.step (.accept incoming)) (accepted + (s.accepts (.accept incoming)).toNat)
      failed := by
  cases hstatus : s.status with
  | listening =>
      have hstep : s.step (.accept incoming) = s.accept incoming := by
        rw [Server.step, hstatus]
        rfl
      rw [hstep]
      rcases incoming with - | - | connection
      · simp only [accepts, hstatus]
        exact h.congr rfl rfl
      · simp only [accepts, hstatus]
        exact h.congr rfl rfl
      · simp only [accepts, hstatus]
        exact h.accept_ok connection
  | stopped =>
      simp only [accepts, Server.step, hstatus]
      exact h
  | failed err =>
      simp only [accepts, Server.step, hstatus]
      exact h

theorem Counted.step_shutdownSeen (h : Counted s accepted failed) :
    Counted (s.step .shutdownSeen) accepted failed := by
  rw [Server.step]
  split
  · exact h.shutdownSeen
  · exact h

theorem accepts_of_not_accept (s : Server Q W) (event : ServeEvent Q)
    (hevent : ∀ incoming, event ≠ .accept incoming) : s.accepts event = false := by
  cases event with
  | accept incoming => exact absurd rfl (hevent incoming)
  | _ => cases hstatus : s.status <;> simp [accepts, hstatus]

theorem Counted.advance (h : Counted s accepted failed) (event : ServeEvent Q) :
    Counted (s.advance event) (accepted + (s.accepts event).toNat)
      (failed + (s.fails event).toNat) := by
  cases event with
  | accept incoming => exact h.step_accept incoming
  | shutdownSeen =>
      rw [accepts_of_not_accept s .shutdownSeen fun _ heq => by cases heq]
      exact h.step_shutdownSeen
  | ctrlC =>
      rw [accepts_of_not_accept s .ctrlC fun _ heq => by cases heq]
      exact h.ctrlC
  | viewerReturned session result =>
      rw [accepts_of_not_accept s (.viewerReturned session result) fun _ heq => by cases heq]
      exact h.viewerReturned session result
  | viewerDisconnected session =>
      rw [accepts_of_not_accept s (.viewerDisconnected session) fun _ heq => by cases heq]
      exact h.viewerDisconnected session
  | connectionClosed session =>
      rw [accepts_of_not_accept s (.connectionClosed session) fun _ heq => by cases heq]
      exact h.connectionClosed session

theorem counted_run (events : List (ServeEvent Q)) :
    Counted (run advance (start : Server Q W) events) (acceptances W events)
      (failures W events) := by
  induction events using List.reverseRec with
  | nil => exact counted_start
  | append_singleton events event ih =>
      rw [run_concat, acceptances, failures, tally_concat, tally_concat]
      exact ih.advance event

/-! ### The counters as numbers -/

theorem Counted.accounts {events : List (ServeEvent Q)}
    (h : Counted s (acceptances W events) (failures W events))
    (hfew : acceptances W events < 2 ^ 64) : Accounts W events s := by
  have hopen : s.openSessions ≤ acceptances W events := h.sessions ▸ List.countP_le_length
  have hended : s.endedSessions ≤ acceptances W events := h.sessions ▸ List.countP_le_length
  have hactive : s.metrics.activeConnections.toNat = s.openSessions := by
    rw [h.active]
    exact UInt64.toNat_ofNat_of_lt' (hopen.trans_lt hfew)
  have htotal : s.metrics.totalConnections.toNat = acceptances W events := by
    rw [h.total]
    exact UInt64.toNat_ofNat_of_lt' hfew
  constructor
  · exact hactive
  · exact htotal
  · rw [h.errors]
    exact UInt64.toNat_ofNat_of_lt' ((h.failed_le.trans hended).trans_lt hfew)
  · rw [UInt64.le_iff_toNat_le, hactive, htotal]
    exact hopen
  · intro event hcloses
    rw [UInt64.lt_iff_toNat_lt, hactive]
    cases event with
    | connectionClosed session =>
        obtain ⟨viewer, hviewer⟩ := Option.isSome_iff_exists.mp hcloses
        have hcount := open_setPhase_closed hviewer
        exact hcount ▸ Nat.succ_pos _
    | _ => cases hcloses

/-- **Connections are accounted for.** Until 2^64 connections have been accepted, the counters are
the numbers they stand for, in every state that the loop and its sessions reach. -/
theorem connections_are_accounted (W : Watch Bool) (events : List (ServeEvent Q))
    (hfew : acceptances W events < 2 ^ 64) :
    Accounts W events (run advance (start : Server Q W) events) :=
  (counted_run events).accounts hfew

theorem connections_are_accounted_shutdown :
    let events : List (ServeEvent ⟨Unit, Unit, Unit⟩) :=
      [.accept (some (.ok ())), .accept (some (.ok ())), .viewerReturned 0 (.error "timeout"),
        .ctrlC, .viewerDisconnected 1, .shutdownSeen, .connectionClosed 1]
    Accounts (Watch.cell Bool) events (run advance start events) :=
  connections_are_accounted (Watch.cell Bool) _ (by decide)

theorem accept_replicate (connection : Q.Connection) (count : Nat) :
    (run advance (start : Server Q W) (.replicate count (.accept (some (.ok connection))))).status
        = .listening
      ∧ acceptances W (.replicate count (.accept (some (.ok connection)))) = count := by
  induction count with
  | zero => exact ⟨rfl, rfl⟩
  | succ count ih =>
      rw [List.replicate_succ', run_concat, acceptances, tally_concat]
      have hstep : ∀ s : Server Q W, s.status = .listening →
          (s.advance (.accept (some (.ok connection)))).status = .listening
            ∧ s.accepts (.accept (some (.ok connection))) = true := by
        intro s hstatus
        constructor
        · rw [advance, step, hstatus]
          exact hstatus
        · simp only [accepts, hstatus]
      obtain ⟨hstatus, haccepts⟩ := hstep _ ih.1
      rw [haccepts]
      exact ⟨hstatus, congrArg (· + 1) ih.2⟩

theorem Accounts.total_replicate {connection : Q.Connection} {count : Nat}
    (h : Accounts W (.replicate count (.accept (some (.ok connection))))
      (run advance start (.replicate count (.accept (some (.ok connection)))))) :
    count < 2 ^ 64 := by
  have htotal := h.total
  rw [(accept_replicate connection count).2] at htotal
  rw [← htotal]
  exact UInt64.toNat_lt _

theorem connections_wrap :
    ¬ ∀ (Q : Quinn) (W : Watch Bool) (events : List (ServeEvent Q)),
        Accounts W events (run advance (start : Server Q W) events) := by
  intro hall
  obtain ⟨count, hcount⟩ : ∃ count : Nat, count = 2 ^ 64 := ⟨_, rfl⟩
  have hlt := (hall ⟨Unit, Unit, Unit⟩ (Watch.cell Bool)
    (.replicate count (.accept (some (.ok ()))))).total_replicate
  exact hlt.ne hcount

end QuicView.Server
