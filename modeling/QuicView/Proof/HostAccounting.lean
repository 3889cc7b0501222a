import QuicView.Cli.Host
import QuicView.Library.Interleaving
import QuicView.Proof.ExchangeSchedule
import QuicView.Proof.ShutdownDrain

namespace QuicView

open ByteStream Execution Interleaving

variable {Q : Quinn} {W : Watch Bool}

/-! ### Sessions that have ended -/

namespace Server

variable {s : Server Q W} {i : Nat} {viewer : ViewerSession Q} {event : ServeEvent Q}

def Ended (s : Server Q W) (i : Nat) : Prop :=
  ∃ viewer, s.sessions[i]? = some viewer ∧ viewer.phase ≠ .running

/-- What an event does to the sessions: nothing, a new one is running, or one goes on, and out of
`running` only when its handler returns or it is told of shutdown. -/
inductive SessionsMove (s : Server Q W) (event : ServeEvent Q) : List (ViewerSession Q) → Prop where
  | same : SessionsMove s event s.sessions
  | opened {viewer : ViewerSession Q} (hphase : viewer.phase = .running) :
      SessionsMove s event (s.sessions ++ [viewer])
  | moved {i : Nat} {viewer : ViewerSession Q} {phase : SessionPhase}
      (hviewer : s.sessions[i]? = some viewer) (hphase : phase ≠ .running)
      (hcause : viewer.phase = .running → (∃ result, event = .viewerReturned i result)
        ∨ s.shutdown.waitReturns viewer.signal = true) :
      SessionsMove s event (s.sessions.set i { viewer with phase := phase })

theorem sessionIn_eq_some_iff {phase : SessionPhase} :
    s.sessionIn i phase = some viewer ↔ s.sessions[i]? = some viewer ∧ viewer.phase = phase := by
  rw [sessionIn, Option.filter_eq_some_iff, decide_eq_true_eq]

theorem sessions_advance (s : Server Q W) (event : ServeEvent Q) :
    s.SessionsMove event (s.advance event).sessions := by
  cases event with
  | ctrlC =>
      show s.SessionsMove .ctrlC s.ctrlC.sessions
      rw [ctrlC]
      split
      · exact .same
      · exact .same
  | accept incoming =>
      rw [advance, step]
      split
      · rcases incoming with - | err | connection
        · exact .same
        · exact .same
        · exact .opened rfl
      · exact .same
  | shutdownSeen =>
      rw [advance, step]
      split
      · rw [react, shutdownSeen]
        split
        · exact .same
        · exact .same
      · exact .same
  | viewerReturned i result =>
      show s.SessionsMove (.viewerReturned i result) (s.viewerReturned i result).sessions
      unfold viewerReturned
      cases hsession : s.sessionIn i .running with
      | none => exact .same
      | some viewer =>
          obtain ⟨hviewer, -⟩ := sessionIn_eq_some_iff.mp hsession
          exact .moved hviewer (by decide) fun _ => .inl ⟨result, rfl⟩
  | viewerDisconnected i =>
      show s.SessionsMove (.viewerDisconnected i) (s.viewerDisconnected i).sessions
      rw [viewerDisconnected]
      cases hsession : s.sessionIn i .running with
      | none => exact .same
      | some viewer =>
          obtain ⟨hviewer, -⟩ := sessionIn_eq_some_iff.mp hsession
          dsimp only
          split
          next hwaits => exact .moved hviewer (by decide) fun _ => .inr hwaits
          · exact .same
  | connectionClosed i =>
      show s.SessionsMove (.connectionClosed i) (s.connectionClosed i).sessions
      rw [connectionClosed]
      cases hsession : s.sessionIn i .closing with
      | none => exact .same
      | some viewer =>
          obtain ⟨hviewer, hclosing⟩ := sessionIn_eq_some_iff.mp hsession
          refine .moved hviewer (by decide) fun hrunning => ?_
          rw [hclosing] at hrunning
          cases hrunning

theorem Ended.advance (hended : s.Ended i) (event : ServeEvent Q) : (s.advance event).Ended i := by
  obtain ⟨viewer, hviewer, hphase⟩ := hended
  have hmove := sessions_advance s event
  rw [Ended]
  generalize (s.advance event).sessions = sessions at hmove ⊢
  cases hmove with
  | same => exact ⟨viewer, hviewer, hphase⟩
  | opened => exact ⟨viewer, getElem?_concat_eq_some_iff.mpr (.inl hviewer), hphase⟩
  | @moved k found phase hfound hnew _ =>
      by_cases hik : i = k
      · exact ⟨_, (getElem?_set_eq_some_iff hfound _).mpr (.inr ⟨hik, rfl⟩), hnew⟩
      · exact ⟨viewer, (getElem?_set_eq_some_iff hfound _).mpr (.inl ⟨hik, hviewer⟩), hphase⟩

theorem ended_cause (hended : (s.advance event).Ended i) :
    s.Ended i ∨ (∃ result, event = .viewerReturned i result)
      ∨ ∃ signal, s.shutdown.waitReturns signal = true := by
  obtain ⟨viewer, hviewer, hphase⟩ := hended
  have hmove := sessions_advance s event
  generalize (s.advance event).sessions = sessions at hmove hviewer
  cases hmove with
  | same => exact .inl ⟨viewer, hviewer, hphase⟩
  | opened hrunning =>
      rcases getElem?_concat_eq_some_iff.mp hviewer with hold | ⟨-, rfl⟩
      · exact .inl ⟨viewer, hold, hphase⟩
      · exact absurd hrunning hphase
  | @moved k found phase hfound hnew hcause =>
      rcases (getElem?_set_eq_some_iff hfound _).mp hviewer with ⟨-, hold⟩ | ⟨rfl, -⟩
      · exact .inl ⟨viewer, hold, hphase⟩
      · by_cases hrunning : found.phase = .running
        · exact .inr ((hcause hrunning).imp_right fun hwaits => ⟨found.signal, hwaits⟩)
        · exact .inl ⟨found, hfound, hrunning⟩

theorem not_ended_of_running (hsession : s.sessionIn i .running = some viewer) : ¬ s.Ended i := by
  obtain ⟨hviewer, hrunning⟩ := sessionIn_eq_some_iff.mp hsession
  rintro ⟨found, hfound, hphase⟩
  obtain rfl : viewer = found := Option.some.inj (hviewer.symm.trans hfound)
  exact hphase hrunning

theorem ended_viewerReturned (hsession : s.sessionIn i .running = some viewer)
    (result : Except String Unit) : (s.viewerReturned i result).Ended i := by
  obtain ⟨hviewer, -⟩ := sessionIn_eq_some_iff.mp hsession
  have hset : (s.viewerReturned i result).sessions
      = s.sessions.set i { viewer with phase := .closing } := by
    unfold viewerReturned
    rw [hsession]
    rfl
  rw [Ended, hset]
  exact ⟨_, (getElem?_set_eq_some_iff hviewer _).mpr (.inr ⟨rfl, rfl⟩), nofun⟩

def Unsignalled (s : Server Q W) : Prop :=
  s.awaitsCtrlC = true → W.borrow s.shutdown.channel = false ∧ W.closed s.shutdown.channel = false

theorem unsignalled_start (hW : W.Lawful) : (start : Server Q W).Unsignalled := by
  intro _
  show W.borrow (W.subscribe (W.channel false)) = false
    ∧ W.closed (W.subscribe (W.channel false)) = false
  rw [hW.borrow_subscribe, hW.borrow_channel, hW.closed_subscribe, hW.closed_channel]
  exact ⟨rfl, rfl⟩

theorem Unsignalled.waitReturns (h : s.Unsignalled) (hawaits : s.awaitsCtrlC = true)
    (signal : Nat) : s.shutdown.waitReturns signal = false := by
  obtain ⟨hflag, hclosed⟩ := h hawaits
  rw [Shutdown.waitReturns, Shutdown.isShutdown, hflag, hclosed]
  rfl

theorem Unsignalled.advance (hW : W.Lawful) (h : s.Unsignalled) (event : ServeEvent Q) :
    (s.advance event).Unsignalled := by
  cases event with
  | ctrlC =>
      intro hawaits
      have htaken : s.ctrlC.awaitsCtrlC = false := awaitsCtrlC_ctrlC s
      exact absurd hawaits (htaken ▸ Bool.false_ne_true)
  | accept incoming =>
      rw [Server.advance, Server.step]
      split
      · rcases incoming with - | err | connection
        · exact h
        · exact h
        · intro hawaits
          show W.borrow (W.subscribe s.shutdown.channel) = false
            ∧ W.closed (W.subscribe s.shutdown.channel) = false
          rw [hW.borrow_subscribe, hW.closed_subscribe]
          exact h hawaits
      · exact h
  | shutdownSeen =>
      rw [Server.advance, Server.step]
      split
      · show s.shutdownSeen.Unsignalled
        rw [shutdownSeen]
        split
        · exact h
        · exact h
      · exact h
  | viewerReturned i result =>
      show (s.viewerReturned i result).Unsignalled
      unfold viewerReturned
      split
      · exact h
      · exact h
  | viewerDisconnected i =>
      show (s.viewerDisconnected i).Unsignalled
      rw [viewerDisconnected]
      split
      · exact h
      · split
        · exact h
        · exact h
  | connectionClosed i =>
      show (s.connectionClosed i).Unsignalled
      rw [connectionClosed]
      split
      · exact h
      next viewer _ =>
          intro hawaits
          show W.borrow (W.dropReceiver s.shutdown.channel) = false
            ∧ W.closed (W.dropReceiver s.shutdown.channel) = false
          rw [hW.borrow_dropReceiver, hW.closed_dropReceiver]
          exact h hawaits

end Server

/-! ### The results of handlers -/

namespace ViewerStream

variable {J : SerdeJson} {stream : ViewerStream}

theorem result_more (hopen : stream.ending = none) (hresult : stream.result Q J ≠ .error .waits)
    (bytes : List UInt8) (ending : Option String) :
    ViewerStream.result Q J ⟨stream.arrived ++ bytes, ending, stream.stop⟩
      = stream.result Q J := by
  let s := (Endpoint.opened stream.arrived none).stopping stream.stop
  obtain ⟨found, after, hperform⟩ : ∃ found after,
      perform (handleViewer (Q := Q) J) s = (found, after) := ⟨_, _, rfl⟩
  rw [result, hopen, hperform] at hresult
  have hsettled := causal_handleViewer.settled s found after bytes ending rfl hperform hresult
  rw [result, result, hopen, hperform]
  show (perform (handleViewer J) (s.more bytes ending)).1 = found
  rw [hsettled]

theorem result_arrive (hresult : stream.result Q J ≠ .error .waits) (bytes : List UInt8) :
    (stream.arrive bytes).result Q J = stream.result Q J := by
  rw [arrive]
  split
  next hopen => exact result_more hopen hresult bytes stream.ending
  · rfl

theorem result_finish (hresult : stream.result Q J ≠ .error .waits) (reason : String) :
    (stream.finish reason).result Q J = stream.result Q J := by
  rw [finish]
  split
  next hopen =>
      have hmore := result_more hopen hresult [] (some reason)
      rw [List.append_nil] at hmore
      exact hmore
  · rfl

end ViewerStream

/-! ### The log -/

namespace Host

variable {J : SerdeJson} {describe : ExchangeError Q J → String} {h : Host Q W} {i : Nat}

def Failed (J : SerdeJson) (describe : ExchangeError Q J → String) (h : Host Q W)
    (entry : Nat × String) : Prop :=
  h.server.Ended entry.1
    ∧ ∃ err, (h.streams entry.1).result Q J = .error (.failed err) ∧ describe err = entry.2

structure Accounted (J : SerdeJson) (describe : ExchangeError Q J → String) (h : Host Q W) :
    Prop where
  counted : ∃ accepted, h.server.Counted accepted h.log.length
  nodup : (h.log.map Prod.fst).Nodup
  failed : ∀ entry ∈ h.log, h.Failed J describe entry
  signalled : h.server.Signalled
  unsignalled : h.server.Unsignalled
  handled : h.server.awaitsCtrlC = true → ∀ i, h.server.Ended i →
    i ∈ h.log.map Prod.fst ∨ (h.streams i).result Q J = .ok ()

namespace Accounted

theorem start (hW : W.Lawful) : (Host.start : Host Q W).Accounted J describe where
  counted := ⟨0, Server.counted_start⟩
  nodup := List.nodup_nil
  failed := fun _ hmem => absurd hmem List.not_mem_nil
  signalled := Server.signalled_start hW
  unsignalled := Server.unsignalled_start hW
  handled := by
    rintro - i ⟨viewer, hviewer, -⟩
    cases hviewer

theorem ended_before (h' : h.Accounted J describe) {event : ServeEvent Q}
    (hawaits : (h.server.advance event).awaitsCtrlC = true)
    (hended : (h.server.advance event).Ended i) :
    h.server.awaitsCtrlC = true
      ∧ (h.server.Ended i ∨ ∃ result, event = .viewerReturned i result) := by
  have hbefore : h.server.awaitsCtrlC = true := by
    by_contra htaken
    have hkept := Server.awaitsCtrlC_advance (Bool.eq_false_iff.mpr htaken) event
    exact absurd hawaits (hkept ▸ Bool.false_ne_true)
  refine ⟨hbefore, ?_⟩
  rcases Server.ended_cause hended with hended | hreturned | ⟨signal, hwaits⟩
  · exact .inl hended
  · exact .inr hreturned
  · rw [h'.unsignalled.waitReturns hbefore signal] at hwaits
    cases hwaits

theorem serve (hW : W.Lawful) (h' : h.Accounted J describe) {event : ServeEvent Q}
    (hevent : ∀ i result, event ≠ .viewerReturned i result) :
    (h.serve event).Accounted J describe where
  counted := by
    obtain ⟨accepted, hcounted⟩ := h'.counted
    have hfails : h.server.fails event = false := by
      cases event with
      | viewerReturned i result => exact absurd rfl (hevent i result)
      | _ => rfl
    have hnext := hcounted.advance event
    rw [hfails] at hnext
    exact ⟨_, hnext⟩
  nodup := h'.nodup
  failed := fun entry hmem => (h'.failed entry hmem).imp_left fun hended => hended.advance event
  signalled := h'.signalled.advance hW event
  unsignalled := h'.unsignalled.advance hW event
  handled := by
    intro hawaits i hended
    obtain ⟨hbefore, hended | ⟨result, hreturned⟩⟩ := h'.ended_before hawaits hended
    · exact h'.handled hbefore i hended
    · exact absurd hreturned (hevent i result)

theorem setStream (h' : h.Accounted J describe) {stream : ViewerStream}
    (hstands : h.server.Ended i → (h.streams i).result Q J ≠ .error .waits →
      stream.result Q J = (h.streams i).result Q J) :
    (h.setStream i stream).Accounted J describe := by
  have hkept {k : Nat} {result : Except (Halt (ExchangeError Q J)) Unit}
      (hended : h.server.Ended k) (hresult : (h.streams k).result Q J = result)
      (hne : result ≠ .error .waits) :
      ((h.setStream i stream).streams k).result Q J = result := by
    show (Function.update h.streams i stream k).result Q J = result
    by_cases hki : k = i
    · subst hki
      rw [Function.update_self, hstands hended (hresult ▸ hne), hresult]
    · rw [Function.update_of_ne hki, hresult]
  constructor
  case counted => exact h'.counted
  case nodup => exact h'.nodup
  case failed =>
    intro entry hmem
    obtain ⟨hended, err, hresult, hdescribe⟩ := h'.failed entry hmem
    exact ⟨hended, err, hkept hended hresult nofun, hdescribe⟩
  case signalled => exact h'.signalled
  case unsignalled => exact h'.unsignalled
  case handled =>
    intro hawaits k hended
    exact (h'.handled hawaits k hended).imp_right fun hresult => hkept hended hresult nofun

theorem refused (h' : h.Accounted J describe) (i taken : Nat) (reason : String) :
    (h.refused i taken reason).Accounted J describe := by
  unfold Host.refused
  split
  · exact h'
  next hsession =>
      exact h'.setStream fun hended => absurd hended (Server.not_ended_of_running hsession)

theorem returned_ok (hW : W.Lawful) (h' : h.Accounted J describe)
    (hresult : (h.streams i).result Q J = .ok ()) :
    (h.serve (.viewerReturned i (.ok ()))).Accounted J describe where
  counted := by
    obtain ⟨accepted, hcounted⟩ := h'.counted
    exact ⟨_, hcounted.advance (.viewerReturned i (.ok ()))⟩
  nodup := h'.nodup
  failed := fun entry hmem => (h'.failed entry hmem).imp_left fun hended => hended.advance _
  signalled := h'.signalled.advance hW (.viewerReturned i (.ok ()))
  unsignalled := h'.unsignalled.advance hW _
  handled := by
    intro hawaits k hended
    obtain ⟨hbefore, hended | ⟨result, hreturned⟩⟩ := h'.ended_before hawaits hended
    · exact h'.handled hbefore k hended
    · cases hreturned
      exact .inr hresult

theorem returned_error (hW : W.Lawful) (h' : h.Accounted J describe) {viewer : ViewerSession Q}
    (hsession : h.server.sessionIn i .running = some viewer) {err : ExchangeError Q J}
    (hresult : (h.streams i).result Q J = .error (.failed err)) :
    Accounted J describe { h.serve (.viewerReturned i (.error (describe err))) with
      log := h.log ++ [(i, describe err)] } where
  counted := by
    obtain ⟨accepted, hcounted⟩ := h'.counted
    have hfails : h.server.fails (.viewerReturned i (.error (describe err))) = true := by
      simp [Server.fails, hsession]
    have hnext := hcounted.advance (.viewerReturned i (.error (describe err)))
    have hlength : (h.log ++ [(i, describe err)]).length = h.log.length + true.toNat :=
      List.length_append
    rw [hfails, ← hlength] at hnext
    exact ⟨_, hnext⟩
  nodup := by
    rw [List.map_append]
    apply h'.nodup.append (List.nodup_singleton i)
    rw [List.disjoint_singleton]
    intro hlogged
    obtain ⟨entry, hmem, rfl⟩ := List.mem_map.mp hlogged
    exact Server.not_ended_of_running hsession (h'.failed entry hmem).1
  failed := by
    intro entry hmem
    rcases List.mem_append.mp hmem with hold | hnew
    · exact (h'.failed entry hold).imp_left fun hended => hended.advance _
    · cases List.mem_singleton.mp hnew
      exact ⟨Server.ended_viewerReturned hsession _, err, hresult, rfl⟩
  signalled := h'.signalled.advance hW (.viewerReturned i (.error (describe err)))
  unsignalled := h'.unsignalled.advance hW _
  handled := by
    intro hawaits k hended
    rw [List.map_append, List.mem_append]
    obtain ⟨hbefore, hended | ⟨result, hreturned⟩⟩ := h'.ended_before hawaits hended
    · exact (h'.handled hbefore k hended).imp_left .inl
    · cases hreturned
      exact .inl (.inr (List.mem_singleton_self i))

theorem handled_step (hW : W.Lawful) (h' : h.Accounted J describe) (i : Nat) :
    (h.handled J describe i).Accounted J describe := by
  unfold Host.handled
  split
  · exact h'
  next hsession =>
      split
      next hresult => exact h'.returned_ok hW hresult
      next hresult => exact h'.returned_error hW hsession hresult
      · exact h'

end Accounted

theorem server_step (h : Host Q W) (event : HostEvent Q) :
    (h.step J describe event).server = h.server
      ∨ ∃ taken, (taken = .ctrlC → event = .ctrlC)
          ∧ (h.step J describe event).server = h.server.advance taken := by
  cases event with
  | ctrlC => exact .inr ⟨.ctrlC, fun _ => rfl, rfl⟩
  | accept incoming => exact .inr ⟨.accept incoming, nofun, rfl⟩
  | shutdownSeen => exact .inr ⟨.shutdownSeen, nofun, rfl⟩
  | arrived i bytes => exact .inl rfl
  | finished i reason => exact .inl rfl
  | refused i taken reason =>
      left
      show (h.refused i taken reason).server = h.server
      unfold Host.refused
      split <;> rfl
  | handled i =>
      show (h.handled J describe i).server = h.server
        ∨ ∃ taken, (taken = .ctrlC → _)
          ∧ (h.handled J describe i).server = h.server.advance taken
      unfold Host.handled
      split
      · exact .inl rfl
      · split
        · exact .inr ⟨.viewerReturned i (.ok ()), nofun, rfl⟩
        next err _ => exact .inr ⟨.viewerReturned i (.error (describe err)), nofun, rfl⟩
        · exact .inl rfl
  | viewerDisconnected i => exact .inr ⟨.viewerDisconnected i, nofun, rfl⟩
  | connectionClosed i => exact .inr ⟨.connectionClosed i, nofun, rfl⟩

theorem awaitsCtrlC_run {events : List (HostEvent Q)} (hctrlC : .ctrlC ∉ events) :
    (run (Host.step J describe) (Host.start : Host Q W) events).server.awaitsCtrlC = true := by
  have hstep (h : Host Q W) (event : HostEvent Q)
      (htaken : (h.step J describe event).server.awaitsCtrlC = false) :
      h.server.awaitsCtrlC = false ∨ event = .ctrlC := by
    by_cases hevent : event = .ctrlC
    · exact .inr hevent
    left
    rcases server_step h event with hsame | ⟨taken, hctrlC, hadvance⟩
    · exact hsame ▸ htaken
    · have hne : taken ≠ .ctrlC := fun heq => hevent (hctrlC heq)
      rw [hadvance, Server.awaitsCtrlC_advance_of_ne hne] at htaken
      exact htaken
  by_contra htaken
  rcases exists_cause (fun h : Host Q W => h.server.awaitsCtrlC = false) hstep events
    (Bool.eq_false_iff.mpr htaken) with hstart | ⟨event, hmem, rfl⟩
  · cases hstart
  · exact hctrlC hmem

theorem accounted_run (hW : W.Lawful) (events : List (HostEvent Q)) :
    (run (Host.step J describe) (Host.start : Host Q W) events).Accounted J describe := by
  apply invariant_run _ events (Accounted.start hW)
  intro h event h'
  cases event with
  | ctrlC | accept | shutdownSeen | viewerDisconnected | connectionClosed =>
      exact h'.serve hW nofun
  | arrived i bytes =>
      exact h'.setStream fun _ hresult => ViewerStream.result_arrive hresult bytes
  | finished i reason =>
      exact h'.setStream fun _ hresult => ViewerStream.result_finish hresult reason
  | refused i taken reason => exact h'.refused i taken reason
  | handled i => exact h'.handled_step hW i

end Host

end QuicView
