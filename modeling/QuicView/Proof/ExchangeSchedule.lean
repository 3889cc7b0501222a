import QuicView.Library.Arrival
import QuicView.Library.Execution
import QuicView.Proof.ControlExchange

/-!
# The control exchange over a link

Neither side can take back what it has written, so a state of the two is what has arrived at each
end. The handler owns the host's connection, which is dropped when the handler returns, and what has
not arrived at the viewer by then is lost.
-/

namespace QuicView

open ByteStream Execution Wire

variable {Q : Quinn} {J : SerdeJson}

/-! ### Both programs are causal -/

theorem causal_readControl (tooLarge : Nat → String) :
    Causal (readControl (Q := Q) J tooLarge) := by
  apply (causal_readExact _ 4).bind
  intro lenBuf
  by_cases hlarge : maxControlMessageSize < ofBigEndian lenBuf
  · rw [if_pos hlarge]
    exact causal_fail _
  · rw [if_neg hlarge]
    apply (causal_allocate _).bind
    intro _
    exact (causal_readExact _ _).bind fun _ => causal_check _ _

theorem endsWith_readControl (tooLarge : Nat → String) :
    EndsWith .read (readControl (Q := Q) J tooLarge) := by
  apply (endsWith_readExact _ 4).bind (causal_readExact _ 4)
  intro lenBuf
  by_cases hlarge : maxControlMessageSize < ofBigEndian lenBuf
  · rw [if_pos hlarge]
    exact endsWith_of_ne fun _ heq => by cases heq
  · rw [if_neg hlarge]
    apply EndsWith.bind (endsWith_of_ne fun _ heq => by cases heq) (causal_allocate _)
    intro _
    apply (endsWith_readExact _ _).bind (causal_readExact _ _)
    intro buf
    apply endsWith_of_ne
    intro s heq
    cases hbuf : J.fromSlice buf <;> rw [hbuf] at heq <;> cases heq

theorem causal_writeControl (msg : ControlMessage) :
    Causal (writeControl J msg : Program (ExchangeError Q J) Unit) :=
  (causal_check _ _).bind fun _ => (causal_writeAll _ _).bind fun _ => causal_writeAll _ _

theorem causal_handleViewer : Causal (handleViewer (Q := Q) J) := by
  have haccept : Causal (StreamMux.accept : Program (TransportError Q) StreamKind) :=
    (causal_readExact _ _).bind fun _ => causal_check _ _
  apply (haccept.mapError _).bind
  intro kind
  cases kind with
  | video => exact causal_pure ()
  | input => exact causal_pure ()
  | control =>
      apply (causal_readControl _).bind
      intro msg
      cases msg with
      | ping timestampMs => exact causal_writeControl _
      | _ => exact causal_pure ()

theorem causal_connect (t : UInt64) : Causal (connect (Q := Q) J t) := by
  have hopen : Causal (StreamMux.open .control : Program (TransportError Q) Unit) :=
    causal_writeAll _ _
  exact (hopen.mapError _).bind fun _ => (causal_writeControl _).bind fun _ => causal_readControl _

/-- **What is done on the bytes so far stands.** What the handler has written by then is the front
of what it writes in all. If it has returned, what comes later changes nothing and stays unread. -/
theorem handler_never_takes_back (Q : Quinn) (J : SerdeJson) (arrived later : List UInt8)
    (ending : Option String) (stop : Option (Nat × String)) :
    let now := perform (handleViewer (Q := Q) J) ((Endpoint.opened arrived none).stopping stop)
    let whole := perform (handleViewer (Q := Q) J)
      ((Endpoint.opened (arrived ++ later) ending).stopping stop)
    now.2.outgoing <+: whole.2.outgoing
      ∧ (now.1 ≠ .error .waits → whole.1 = now.1 ∧ whole.2.outgoing = now.2.outgoing
        ∧ whole.2.buffers = now.2.buffers ∧ whole.2.incoming = now.2.incoming ++ later) := by
  intro now whole
  have hcausal : Causal (handleViewer (Q := Q) J) := causal_handleViewer
  let s := (Endpoint.opened arrived none).stopping stop
  have hsettled (hresult : now.1 ≠ .error .waits) : whole = (now.1, now.2.more later ending) :=
    hcausal.settled s now.1 now.2 later ending rfl rfl hresult
  refine ⟨?_, fun hresult => ?_⟩
  · by_cases hresult : now.1 = .error .waits
    · exact hcausal.waiting s now.2 later ending rfl (Prod.ext hresult rfl)
    · rw [hsettled hresult]
      exact List.prefix_rfl
  · rw [hsettled hresult]
    exact ⟨rfl, rfl, rfl, rfl⟩

/-! ### The two ends of a link -/

/-- What has arrived at each end, and whether the viewer has lost the connection. -/
structure Link where
  atHost : List UInt8
  atViewer : List UInt8
  lost : Bool

inductive LinkEvent where
  | atHost (count : Nat)
  | atViewer (count : Nat)
  /-- The host's connection is dropped with the handler that has returned. -/
  | dropped
  deriving DecidableEq, Repr

namespace Link

variable (Q J) (t : UInt64) (reason : String)

def start : Link where
  atHost := []
  atViewer := []
  lost := false

def host (link : Link) : Except (Halt (ExchangeError Q J)) Unit × Endpoint :=
  perform (handleViewer J) (.opened link.atHost none)

def viewer (link : Link) : Except (Halt (ExchangeError Q J)) ControlMessage × Endpoint :=
  perform (connect J t) (.opened link.atViewer (if link.lost then some reason else none))

def deliver (link : Link) : LinkEvent → Link
  | .atHost count =>
      { link with
        atHost := (link.viewer Q J t reason).2.outgoing.take (link.atHost.length + count) }
  | .atViewer count =>
      { link with atViewer := (link.host Q J).2.outgoing.take (link.atViewer.length + count) }
  | .dropped =>
      match (link.host Q J).1 with
      | .error .waits => link
      | _ => { link with lost := true }

/-- What was written and had not arrived when the connection was lost never does. -/
def step (link : Link) (event : LinkEvent) : Link :=
  if link.lost then link else link.deliver Q J t reason event

end Link

def answer (t : UInt64) : List UInt8 := framed (timestampText "Pong" t)

/-! ### The host -/

theorem host_whole (hJ : J.Lawful) (t : UInt64) :
    (perform (handleViewer (Q := Q) J) (.opened (request Q J t) none)).1 = .ok ()
      ∧ (perform (handleViewer (Q := Q) J) (.opened (request Q J t) none)).2.outgoing = answer t
      ∧ (perform (handleViewer (Q := Q) J) (.opened (request Q J t) none)).2.incoming = [] := by
  have hfits : (timestampText "Ping" t).length ≤ maxControlMessageSize :=
    (length_timestampText_le (by decide) t).trans (by decide)
  have hincoming : (Endpoint.opened (request Q J t) none).incoming
      = StreamKind.control.toU8 :: (framed (timestampText "Ping" t) ++ []) := by
    rw [List.append_nil]
    exact request_eq hJ t
  rw [perform_handleViewer_ping (hJ.toVec_pong t) hfits (hJ.fromSlice_toVec _ _ (hJ.toVec_ping t))
    hincoming, perform_writeAll]
  · exact ⟨rfl, rfl, rfl⟩
  · rfl

theorem host_shorter (hJ : J.Lawful) (t : UInt64) {front rest : List UInt8} (hrest : rest ≠ [])
    (hsplit : request Q J t = front ++ rest) :
    (perform (handleViewer (Q := Q) J) (.opened front none)).1 = .error .waits
      ∧ (perform (handleViewer (Q := Q) J) (.opened front none)).2.outgoing = [] := by
  have hwaits : (perform (handleViewer (Q := Q) J) (.opened front none)).1 = .error .waits := by
    apply causal_handleViewer.waits_of_shorter hrest none
    rw [← hsplit]
    exact (host_whole hJ t).2.2
  refine ⟨hwaits, ?_⟩
  by_contra hwritten
  obtain ⟨t', body, rest', hfront, hfits, hmsg⟩ := exists_asks_of_not_silent hwritten
  rw [perform_handleViewer_ping (hJ.toVec_pong t') hfits hmsg hfront, perform_writeAll] at hwaits
  · cases hwaits
  · rfl

/-! ### The viewer -/

theorem outgoing_connect (hJ : J.Lawful) (t : UInt64) (bytes : List UInt8)
    (ending : Option String) :
    (perform (connect (Q := Q) J t) (.opened bytes ending)).2.outgoing = request Q J t := by
  rw [request_eq hJ, perform_connect hJ t rfl]
  exact silent_readControl _ _

theorem viewer_whole (hJ : J.Lawful) (t : UInt64) (ending : Option String) :
    (perform (connect (Q := Q) J t) (.opened (answer t) ending)).1 = .ok (.pong t)
      ∧ (perform (connect (Q := Q) J t) (.opened (answer t) ending)).2.incoming = [] := by
  obtain ⟨s', hperform, -, hread⟩ := exists_perform_connect (Q := Q) hJ t ending
  rw [answer, hperform]
  exact ⟨rfl, hread⟩

theorem viewer_shorter (hJ : J.Lawful) (t : UInt64) {front rest : List UInt8} (hrest : rest ≠ [])
    (hsplit : answer t = front ++ rest) :
    (perform (connect (Q := Q) J t) (.opened front none)).1 = .error .waits
      ∧ ∀ reason, (perform (connect (Q := Q) J t) (.opened front (some reason))).1
        = .error (.failed (.read reason)) := by
  have hwaits : (perform (connect (Q := Q) J t) (.opened front none)).1 = .error .waits := by
    apply (causal_connect t).waits_of_shorter hrest none
    rw [← hsplit]
    exact (viewer_whole hJ t none).2
  refine ⟨hwaits, fun reason => ?_⟩
  rw [perform_connect hJ t rfl] at hwaits ⊢
  exact endsWith_readControl _ _ reason rfl hwaits

/-! ### Along a schedule -/

namespace Link

variable {t : UInt64} {reason : String} {link : Link}

structure Carries (Q : Quinn) (J : SerdeJson) (t : UInt64) (link : Link) : Prop where
  atHost : link.atHost <+: request Q J t
  atViewer : link.atViewer <+: if link.atHost = request Q J t then answer t else []
  lost : link.lost = true → link.atHost = request Q J t

theorem exists_rest_of_ne {part whole : List UInt8} (hpart : part <+: whole) (hne : part ≠ whole) :
    ∃ rest, rest ≠ [] ∧ whole = part ++ rest := by
  obtain ⟨rest, rfl⟩ := hpart
  refine ⟨rest, ?_, rfl⟩
  rintro rfl
  exact hne (List.append_nil part).symm

theorem host_eq (hJ : J.Lawful) (h : link.Carries Q J t) :
    (link.host Q J).1 = (if link.atHost = request Q J t then .ok () else .error .waits)
      ∧ (link.host Q J).2.outgoing = if link.atHost = request Q J t then answer t else [] := by
  by_cases hwhole : link.atHost = request Q J t
  · rw [if_pos hwhole, if_pos hwhole, host, hwhole]
    exact ⟨(host_whole hJ t).1, (host_whole hJ t).2.1⟩
  · obtain ⟨rest, hrest, hsplit⟩ := exists_rest_of_ne h.atHost hwhole
    rw [if_neg hwhole, if_neg hwhole]
    exact host_shorter hJ t hrest hsplit

theorem viewer_eq (hJ : J.Lawful) (hanswer : link.atViewer <+: answer t) :
    (link.viewer Q J t reason).1
      = if link.atViewer = answer t then .ok (.pong t)
        else if link.lost then .error (.failed (.read reason)) else .error .waits := by
  by_cases hwhole : link.atViewer = answer t
  · rw [if_pos hwhole, viewer, hwhole]
    exact (viewer_whole hJ t _).1
  · obtain ⟨rest, hrest, hsplit⟩ := exists_rest_of_ne hanswer hwhole
    obtain ⟨hwaits, hfails⟩ := viewer_shorter hJ t hrest hsplit
    rw [if_neg hwhole, viewer]
    cases link.lost with
    | false => exact hwaits
    | true => exact hfails reason

theorem Carries.prefix_answer (h : link.Carries Q J t) : link.atViewer <+: answer t := by
  refine h.atViewer.trans ?_
  split
  · exact List.prefix_rfl
  · exact List.nil_prefix

theorem deliver_atHost (hJ : J.Lawful) (count : Nat) :
    (link.deliver Q J t reason (.atHost count)).atHost
      = (request Q J t).take (link.atHost.length + count) := by
  have hwritten : (link.viewer Q J t reason).2.outgoing = request Q J t := outgoing_connect hJ t _ _
  rw [deliver, hwritten]

theorem Carries.deliver (hJ : J.Lawful) (h : link.Carries Q J t) (event : LinkEvent) :
    (link.deliver Q J t reason event).Carries Q J t := by
  cases event with
  | atHost count =>
      have hmore : (link.deliver Q J t reason (.atHost count)).atHost
          = (request Q J t).take (link.atHost.length + count) := deliver_atHost hJ count
      have hkept (hwhole : link.atHost = request Q J t) :
          (link.deliver Q J t reason (.atHost count)).atHost = request Q J t := by
        rw [hmore, hwhole, List.take_of_length_le (Nat.le_add_right _ _)]
      have hbefore := h.atViewer
      refine ⟨hmore ▸ List.take_prefix _ _, ?_, fun hlost => hkept (h.lost hlost)⟩
      by_cases hwhole : link.atHost = request Q J t
      · rw [if_pos hwhole] at hbefore
        rw [if_pos (hkept hwhole)]
        exact hbefore
      · rw [if_neg hwhole] at hbefore
        show link.atViewer <+: _
        rw [List.prefix_nil.mp hbefore]
        exact List.nil_prefix
  | atViewer count =>
      refine ⟨h.atHost, ?_, h.lost⟩
      rw [Link.deliver, (host_eq hJ h).2]
      exact List.take_prefix _ _
  | dropped =>
      have hhost := (host_eq hJ h).1
      rw [Link.deliver]
      split
      · exact h
      next hresult =>
          have hwhole : link.atHost = request Q J t := by
            by_contra hwhole
            rw [if_neg hwhole] at hhost
            exact hresult hhost
          exact ⟨h.atHost, h.atViewer, fun _ => hwhole⟩

theorem step_of_open (hopen : link.lost = false) (event : LinkEvent) :
    link.step Q J t reason event = link.deliver Q J t reason event := by
  rw [step, hopen]
  rfl

theorem Carries.ends (hJ : J.Lawful) (h : link.Carries Q J t)
    (hwhole : link.atHost = request Q J t) (hopen : link.lost = false) :
    ((link.step Q J t reason (.atViewer (answer t).length)).viewer Q J t reason).1 = .ok (.pong t)
      ∧ ((link.step Q J t reason .dropped).viewer Q J t reason).1
        = if link.atViewer = answer t then .ok (.pong t) else .error (.failed (.read reason)) := by
  obtain ⟨hreturned, hanswered⟩ := host_eq hJ h
  rw [if_pos hwhole] at hreturned hanswered
  rw [step_of_open hopen, step_of_open hopen]
  constructor
  · have hlast : (link.deliver Q J t reason (.atViewer (answer t).length)).Carries Q J t :=
      h.deliver hJ _
    have hviewer : (link.deliver Q J t reason (.atViewer (answer t).length)).atViewer
        = answer t := by
      rw [Link.deliver, hanswered, List.take_of_length_le (Nat.le_add_left _ _)]
    rw [viewer_eq hJ hlast.prefix_answer, if_pos hviewer]
  · have hdropped : link.deliver Q J t reason .dropped = { link with lost := true } := by
      rw [Link.deliver, hreturned]
    have hlast : ({ link with lost := true } : Link).atViewer <+: answer t := h.prefix_answer
    rw [hdropped, viewer_eq hJ hlast, if_pos rfl]

theorem carries_run (hJ : J.Lawful) (t : UInt64) (reason : String) (events : List LinkEvent) :
    (run (Link.step Q J t reason) Link.start events).Carries Q J t := by
  have hstep (link : Link) (event : LinkEvent) (h : link.Carries Q J t) :
      (link.step Q J t reason event).Carries Q J t := by
    rw [step]
    split
    · exact h
    · exact h.deliver hJ event
  exact invariant_run hstep events ⟨List.nil_prefix, List.nil_prefix, nofun⟩

end Link

/-- **An exchange comes through or is lost.** The host has answered if it has the whole request. The
viewer has accepted the answer if it has all of it, and otherwise it waits or, once the connection
is lost, fails. -/
theorem exchange_over_link (Q : Quinn) (J : SerdeJson) (hJ : J.Lawful) (t : UInt64)
    (reason : String) (events : List LinkEvent) :
    let step := Link.step Q J t reason
    let link := run step Link.start events
    let asked := LinkEvent.atHost (request Q J t).length
    ((link.viewer Q J t reason).2.outgoing = request Q J t ∧ link.atHost <+: request Q J t)
      ∧ ((link.host Q J).1 = (if link.atHost = request Q J t then .ok () else .error .waits)
        ∧ (link.host Q J).2.outgoing = (if link.atHost = request Q J t then answer t else [])
        ∧ (link.lost = true → link.atHost = request Q J t))
      ∧ (link.atViewer <+: answer t
        ∧ (link.viewer Q J t reason).1
          = if link.atViewer = answer t then .ok (.pong t)
            else if link.lost then .error (.failed (.read reason)) else .error .waits)
      ∧ (link.lost = false →
        ((run step link [asked, .atViewer (answer t).length]).viewer Q J t reason).1 = .ok (.pong t)
          ∧ ((run step link [asked, .dropped]).viewer Q J t reason).1
            = if link.atViewer = answer t then .ok (.pong t)
              else .error (.failed (.read reason))) := by
  intro step link asked
  have hcarries : link.Carries Q J t := Link.carries_run hJ t reason events
  obtain ⟨hhost, hwritten⟩ := Link.host_eq hJ hcarries
  refine ⟨⟨outgoing_connect hJ t _ _, hcarries.atHost⟩, ⟨hhost, hwritten, hcarries.lost⟩,
    ⟨hcarries.prefix_answer, Link.viewer_eq hJ hcarries.prefix_answer⟩, fun hopen => ?_⟩
  have hasked : step link asked = link.deliver Q J t reason asked := Link.step_of_open hopen asked
  have hwhole : (step link asked).atHost = request Q J t := by
    rw [hasked, Link.deliver_atHost hJ, List.take_of_length_le (Nat.le_add_left _ _)]
  have hnext : (step link asked).Carries Q J t := hasked ▸ hcarries.deliver hJ asked
  have hstill : (step link asked).lost = false := hasked ▸ hopen
  have hseen : (step link asked).atViewer = link.atViewer := by
    rw [hasked]
    rfl
  rw [run_cons, run_cons, run_nil, run_cons, run_cons, run_nil, ← hseen]
  exact hnext.ends hJ hwhole hstill

theorem exchange_over_link_dropped :
    let Q : Quinn := ⟨Unit, Unit, Unit⟩
    let step := Link.step Q textJson 7 "closed"
    let link := run step Link.start [.atHost 3, .dropped, .atHost 1]
    ((run step link [.atHost (request Q textJson 7).length, .dropped]).viewer Q textJson 7
      "closed").1 = .error (.failed (.read "closed")) := by
  intro Q step link
  have hlink := exchange_over_link Q textJson textJson_lawful 7 "closed"
    [.atHost 3, .dropped, .atHost 1]
  have hends := (hlink.2.2.2 rfl).2
  have hnothing : link.atViewer ≠ answer 7 := nofun
  rwa [if_neg hnothing] at hends

end QuicView
