import QuicView.Input.Forwarder
import QuicView.Library.Interleaving

namespace QuicView

def SendOutcome.isOk : SendOutcome → Bool
  | .returned (.ok ()) => true
  | _ => false

namespace CaptureTask

def events (task : CaptureTask) : List InputEvent := task.ended.map Prod.fst ++ task.script

def sent (task : CaptureTask) : List InputEvent :=
  (task.ended.filter (·.2.isOk)).map Prod.fst

end CaptureTask

namespace Forwarding

open Execution Interleaving

variable {M : Mpsc InputEvent} {s s' : Forwarding M} {act : ForwardEvent} {i : Nat}
  {task : CaptureTask} {event : InputEvent} {rest : List InputEvent} {outcome : SendOutcome}

def acceptedOf (s : Forwarding M) (i : Nat) : List InputEvent :=
  (s.accepted.filter (·.1 = i)).map Prod.snd

def Gone (s : Forwarding M) : Prop :=
  s.forwarder.rx = none ∧ s.receiver = none ∧ M.closed s.forwarder.tx = true

/-- What was accepted is what was received and then what is in flight: the queue, or what the queue
was when its receiver was dropped. -/
def Carries (s : Forwarding M) (inFlight : List InputEvent) : Prop :=
  s.accepted.map Prod.snd = s.received ++ inFlight
    ∧ inFlight.length ≤ M.capacity s.forwarder.tx
    ∧ (M.queued s.forwarder.tx = inFlight ∨ M.queued s.forwarder.tx = [] ∧ s.Gone)

/-- The first to ask for the receiving half gets it, and nobody else does. -/
def TakenOnce (s : Forwarding M) : Prop :=
  (s.takes = [] ∧ s.forwarder.rx = some {} ∧ s.receiver = none)
    ∨ ∃ n, s.takes = some {} :: List.replicate n none ∧ s.forwarder.rx = none

def AcceptedBySent (s : Forwarding M) : Prop :=
  ∀ i task, s.tasks[i]? = some task → s.acceptedOf i = task.sent

def RefusedWhenClosed (s : Forwarding M) : Prop :=
  ∀ task ∈ s.tasks, ∀ event err, (event, .returned (.error err)) ∈ task.ended →
    err = .channelClosed ∧ M.closed s.forwarder.tx = true

def EndsComplete (s : Forwarding M) : Prop :=
  s.toldEnd = true → M.closed s.forwarder.tx = true ∧ s.accepted.map Prod.snd = s.received

def Waits (s : Forwarding M) : ForwardEvent → Prop
  | .send i => s.sending i ≠ none →
      M.capacity s.forwarder.tx ≤ (M.queued s.forwarder.tx).length
  | .recv => s.receiver ≠ none → M.queued s.forwarder.tx = []
  | _ => True

inductive Moves (s : Forwarding M) : ForwardEvent → Forwarding M → Prop where
  | waits {act : ForwardEvent} (hwaits : s.Waits act) : Moves s act s
  | accepted {i : Nat} {task : CaptureTask} {event : InputEvent} {rest : List InputEvent}
      {channel : M.Channel} (hsending : s.sending i = some (task, event, rest))
      (hopen : M.closed s.forwarder.tx = false)
      (hroom : (M.queued s.forwarder.tx).length < M.capacity s.forwarder.tx)
      (hafter : M.Becomes s.forwarder.tx channel (M.queued s.forwarder.tx ++ [event]) false) :
      Moves s (.send i) { (s.setChannel channel).endSend i task event rest (.returned (.ok ())) with
        accepted := s.accepted ++ [(i, event)] }
  | refused {i : Nat} {task : CaptureTask} {event : InputEvent} {rest : List InputEvent}
      (hsending : s.sending i = some (task, event, rest))
      (hclosed : M.closed s.forwarder.tx = true) :
      Moves s (.send i) (s.endSend i task event rest (.returned (.error .channelClosed)))
  | cancelled {i : Nat} {task : CaptureTask} {event : InputEvent} {rest : List InputEvent}
      (hsending : s.sending i = some (task, event, rest)) :
      Moves s (.cancel i) (s.endSend i task event rest .cancelled)
  | took : Moves s .takeReceiver s.takeReceiver
  | received {event : InputEvent} {rest : List InputEvent} {channel : M.Channel}
      (hheld : s.receiver ≠ none) (hqueued : M.queued s.forwarder.tx = event :: rest)
      (hafter : M.Becomes s.forwarder.tx channel rest (M.closed s.forwarder.tx)) :
      Moves s .recv { s.setChannel channel with received := s.received ++ [event] }
  | ended (hheld : s.receiver ≠ none) (hqueued : M.queued s.forwarder.tx = [])
      (hclosed : M.closed s.forwarder.tx = true) : Moves s .recv { s with toldEnd := true }
  | closed {channel : M.Channel} (hheld : s.receiver ≠ none)
      (hafter : M.Becomes s.forwarder.tx channel (M.queued s.forwarder.tx) true) :
      Moves s .close (s.setChannel channel)
  | dropped {channel : M.Channel} (hheld : s.receiver ≠ none)
      (hafter : M.Becomes s.forwarder.tx channel [] true) :
      Moves s .dropReceiver { s.setChannel channel with receiver := none }

theorem send_moves (hM : M.Lawful) (s : Forwarding M) (i : Nat) : s.Moves (.send i) (s.send i) := by
  cases hsending : s.sending i with
  | none =>
      simp only [Forwarding.send, hsending]
      exact .waits fun hne => absurd hsending hne
  | some found =>
      obtain ⟨task, event, rest⟩ := found
      rcases hM.send_cases s.forwarder.tx event with
        ⟨hclosed, hsend⟩ | ⟨-, hfull, hsend⟩ | ⟨hopen, hroom, channel, hsend, hafter⟩
      · simp only [Forwarding.send, hsending, InputForwarder.send, hsend, Option.map_some]
        exact .refused hsending hclosed
      · simp only [Forwarding.send, hsending, InputForwarder.send, hsend, Option.map_none]
        exact .waits fun _ => hfull
      · simp only [Forwarding.send, hsending, InputForwarder.send, hsend, Option.map_some]
        exact .accepted hsending hopen hroom hafter

theorem cancel_moves (s : Forwarding M) (i : Nat) : s.Moves (.cancel i) (s.cancel i) := by
  cases hsending : s.sending i with
  | none =>
      simp only [Forwarding.cancel, hsending]
      exact .waits trivial
  | some found =>
      simp only [Forwarding.cancel, hsending]
      exact .cancelled hsending

theorem recv_moves (hM : M.Lawful) (s : Forwarding M) : s.Moves .recv s.recv := by
  cases hreceiver : s.receiver with
  | none =>
      simp only [Forwarding.recv, hreceiver]
      exact .waits fun hheld => absurd hreceiver hheld
  | some receiver =>
      have hheld : s.receiver ≠ none := hreceiver ▸ Option.some_ne_none receiver
      rcases hM.recv_cases s.forwarder.tx with
        ⟨event, rest, channel, hqueued, hrecv, hafter⟩ | ⟨hqueued, hclosed, hrecv⟩
          | ⟨hqueued, -, hrecv⟩
      · simp only [Forwarding.recv, hreceiver, hrecv]
        exact .received hheld hqueued hafter
      · simp only [Forwarding.recv, hreceiver, hrecv]
        exact .ended hheld hqueued hclosed
      · simp only [Forwarding.recv, hreceiver, hrecv]
        exact .waits fun _ => hqueued

theorem step_moves (hM : M.Lawful) (s : Forwarding M) (act : ForwardEvent) :
    s.Moves act (s.step act) := by
  cases act with
  | send i => exact send_moves hM s i
  | cancel i => exact cancel_moves s i
  | takeReceiver => exact .took
  | recv => exact recv_moves hM s
  | close =>
      rw [Forwarding.step, Forwarding.close]
      split
      · exact .waits trivial
      next hreceiver =>
        exact .closed (hreceiver ▸ Option.some_ne_none _) (hM.becomes_close _)
  | dropReceiver =>
      rw [Forwarding.step, Forwarding.dropReceiver]
      split
      · exact .waits trivial
      next hreceiver =>
        exact .dropped (hreceiver ▸ Option.some_ne_none _) (hM.becomes_dropReceiver _)

/-! ### The tasks -/

theorem sending_eq_some_iff :
    s.sending i = some (task, event, rest)
      ↔ s.tasks[i]? = some task ∧ task.script = event :: rest := by
  rw [sending, Option.bind_eq_some_iff]
  constructor
  · rintro ⟨task', htask, hfound⟩
    split at hfound
    next => cases hfound
    next hscript =>
        cases hfound
        exact ⟨htask, hscript⟩
  · rintro ⟨htask, hscript⟩
    exact ⟨task, htask, by rw [hscript]⟩

theorem sending_eq_none_iff :
    s.sending i = none ↔ ∀ task, s.tasks[i]? = some task → task.script = [] := by
  constructor
  · intro hnone task htask
    cases hscript : task.script with
    | nil => rfl
    | cons event rest =>
        rw [sending_eq_some_iff.mpr ⟨htask, hscript⟩] at hnone
        cases hnone
  · intro hall
    cases hsending : s.sending i with
    | none => rfl
    | some found =>
        obtain ⟨task, event, rest⟩ := found
        obtain ⟨htask, hscript⟩ := sending_eq_some_iff.mp hsending
        rw [hall task htask] at hscript
        cases hscript

theorem events_endSend (hsending : s.sending i = some (task, event, rest))
    (outcome : SendOutcome) :
    (s.endSend i task event rest outcome).tasks.map CaptureTask.events
      = s.tasks.map CaptureTask.events := by
  obtain ⟨htask, hscript⟩ := sending_eq_some_iff.mp hsending
  have hevents : CaptureTask.events ⟨task.ended ++ [(event, outcome)], rest⟩ = task.events := by
    simp [CaptureTask.events, hscript]
  have hget : (s.tasks.map CaptureTask.events)[i]? = some task.events := by
    rw [List.getElem?_map, htask, Option.map_some]
  rw [endSend, List.map_set, hevents]
  exact set_eq_self hget

theorem mem_endSend {found : CaptureTask}
    (hmem : found ∈ (s.endSend i task event rest outcome).tasks) :
    found ∈ s.tasks ∨ found = ⟨task.ended ++ [(event, outcome)], rest⟩ :=
  List.mem_or_eq_of_mem_set hmem

theorem Moves.events_eq (hmoves : s.Moves act s') :
    s'.tasks.map CaptureTask.events = s.tasks.map CaptureTask.events := by
  cases hmoves with
  | accepted hsending => exact events_endSend hsending _
  | refused hsending => exact events_endSend hsending _
  | cancelled hsending => exact events_endSend hsending _
  | _ => rfl

theorem sent_concat (ended : List (InputEvent × SendOutcome)) (outcome : SendOutcome)
    (rest : List InputEvent) :
    CaptureTask.sent ⟨ended ++ [(event, outcome)], rest⟩
      = (CaptureTask.mk ended []).sent ++ if outcome.isOk then [event] else [] := by
  rw [CaptureTask.sent, List.filter_append, List.map_append]
  cases hok : outcome.isOk <;> simp [hok, CaptureTask.sent]

theorem sent_endSend (h : s.AcceptedBySent) (hsending : s.sending i = some (task, event, rest))
    {j : Nat} {found : CaptureTask}
    (hfound : (s.endSend i task event rest outcome).tasks[j]? = some found) :
    found.sent = s.acceptedOf j ++ if j = i ∧ outcome.isOk then [event] else [] := by
  obtain ⟨htask, -⟩ := sending_eq_some_iff.mp hsending
  rcases (getElem?_set_eq_some_iff htask _).mp hfound with ⟨hne, hold⟩ | ⟨rfl, rfl⟩
  · rw [if_neg fun hand => hne hand.1, List.append_nil, h j found hold]
  · rw [sent_concat, h j task htask]
    simp [CaptureTask.sent]

theorem Moves.acceptedBySent (hmoves : s.Moves act s') (h : s.AcceptedBySent) :
    s'.AcceptedBySent := by
  cases hmoves with
  | @accepted i _ event _ _ hsending =>
      intro j found hfound
      rw [sent_endSend h hsending hfound, acceptedOf, acceptedOf, List.filter_append,
        List.map_append]
      by_cases hij : j = i
      · simp [hij, SendOutcome.isOk]
      · simp [hij, Ne.symm hij]
  | refused hsending =>
      intro j found hfound
      rw [sent_endSend h hsending hfound]
      simp [SendOutcome.isOk, acceptedOf, endSend]
  | cancelled hsending =>
      intro j found hfound
      rw [sent_endSend h hsending hfound]
      simp [SendOutcome.isOk, acceptedOf, endSend]
  | _ => exact h

/-! ### The channel -/

theorem Moves.capacity_eq (hmoves : s.Moves act s') :
    M.capacity s'.forwarder.tx = M.capacity s.forwarder.tx := by
  cases hmoves with
  | accepted _ _ _ hafter => exact hafter.capacity_eq
  | received _ _ hafter => exact hafter.capacity_eq
  | closed _ hafter => exact hafter.capacity_eq
  | dropped _ hafter => exact hafter.capacity_eq
  | _ => rfl

theorem Moves.stays_closed (hmoves : s.Moves act s') (hclosed : M.closed s.forwarder.tx = true) :
    M.closed s'.forwarder.tx = true := by
  cases hmoves with
  | accepted _ hopen => simp [hopen] at hclosed
  | received _ _ hafter => exact hafter.closed_eq.trans hclosed
  | closed _ hafter => exact hafter.closed_eq
  | dropped _ hafter => exact hafter.closed_eq
  | _ => exact hclosed

theorem TakenOnce.rx_of_held (h : s.TakenOnce) (hheld : s.receiver ≠ none) :
    s.forwarder.rx = none := by
  rcases h with ⟨-, -, hreceiver⟩ | ⟨-, -, hrx⟩
  · exact absurd hreceiver hheld
  · exact hrx

theorem Moves.takenOnce (hmoves : s.Moves act s') (h : s.TakenOnce) : s'.TakenOnce := by
  cases hmoves with
  | took =>
      right
      rcases h with ⟨htakes, hrx, -⟩ | ⟨n, htakes, hrx⟩
      · refine ⟨0, ?_, rfl⟩
        show s.takes ++ [s.forwarder.rx] = [some {}]
        rw [htakes, hrx]
        rfl
      · refine ⟨n + 1, ?_, rfl⟩
        show s.takes ++ [s.forwarder.rx] = _
        rw [htakes, hrx, List.cons_append, List.replicate_succ']
  | dropped hheld =>
      right
      rcases h with ⟨-, -, hreceiver⟩ | htaken
      · exact absurd hreceiver hheld
      · exact htaken
  | _ => exact h

theorem Moves.closed_cause (hmoves : s.Moves act s') (hclosed : M.closed s'.forwarder.tx = true) :
    M.closed s.forwarder.tx = true ∨ act = .close ∨ act = .dropReceiver := by
  cases hmoves with
  | accepted _ _ _ hafter => exact absurd hclosed (hafter.closed_eq ▸ Bool.false_ne_true)
  | received _ _ hafter => exact .inl (hafter.closed_eq.symm.trans hclosed)
  | closed => exact .inr (.inl rfl)
  | dropped => exact .inr (.inr rfl)
  | _ => exact .inl hclosed

theorem Moves.carries (hmoves : s.Moves act s') (htaken : s.TakenOnce)
    {inFlight : List InputEvent} (h : s.Carries inFlight) : ∃ inFlight', s'.Carries inFlight' := by
  obtain ⟨haccepted, hlength, hqueue⟩ := h
  have hcapacity := hmoves.capacity_eq
  cases hmoves with
  | waits => exact ⟨inFlight, haccepted, hlength, hqueue⟩
  | @accepted i task event rest channel hsending hopen hroom hafter =>
      have hqueued := hqueue.resolve_right fun hgone => by simp [hgone.2.2.2] at hopen
      refine ⟨inFlight ++ [event], ?_, ?_, .inl (hqueued ▸ hafter.queued_eq)⟩
      · rw [List.map_append, haccepted, List.append_assoc]
        rfl
      · rw [hcapacity, List.length_append, ← hqueued]
        exact hroom
  | refused => exact ⟨inFlight, haccepted, hlength, hqueue⟩
  | cancelled => exact ⟨inFlight, haccepted, hlength, hqueue⟩
  | took =>
      refine ⟨inFlight, haccepted, hlength, hqueue.imp_right ?_⟩
      rintro ⟨hqueued, hrx, hdropped, hclosed⟩
      refine ⟨hqueued, rfl, ?_, hclosed⟩
      show s.receiver.or s.forwarder.rx = none
      rw [hrx, hdropped]
      rfl
  | @received event rest channel hheld hqueued hafter =>
      have hflight := hqueue.resolve_right fun hgone => hheld hgone.2.2.1
      rw [hqueued] at hflight
      subst hflight
      refine ⟨rest, ?_, ?_, .inl hafter.queued_eq⟩
      · exact haccepted.trans (List.append_cons ..)
      · rw [hcapacity]
        exact Nat.le_of_succ_le hlength
  | ended => exact ⟨inFlight, haccepted, hlength, hqueue⟩
  | closed hheld hafter =>
      have hflight := hqueue.resolve_right fun hgone => hheld hgone.2.2.1
      exact ⟨inFlight, haccepted, hcapacity.symm ▸ hlength, .inl (hafter.queued_eq.trans hflight)⟩
  | dropped hheld hafter =>
      refine ⟨inFlight, haccepted, hcapacity.symm ▸ hlength, .inr ⟨hafter.queued_eq, ?_⟩⟩
      exact ⟨htaken.rx_of_held hheld, rfl, hafter.closed_eq⟩

theorem refused_endSend (outcome : SendOutcome) (h : s.RefusedWhenClosed)
    (houtcome : ∀ err, outcome = .returned (.error err) →
      err = .channelClosed ∧ M.closed s.forwarder.tx = true)
    (hsending : s.sending i = some (task, event, rest)) :
    (s.endSend i task event rest outcome).RefusedWhenClosed := by
  intro found hfound event' err hended
  rcases mem_endSend hfound with hold | rfl
  · exact h found hold event' err hended
  · rcases List.mem_append.mp hended with hended | hlast
    · have htask := List.mem_of_getElem? (sending_eq_some_iff.mp hsending).1
      exact h task htask event' err hended
    · cases List.mem_singleton.mp hlast
      exact houtcome err rfl

theorem Moves.refusedWhenClosed (hmoves : s.Moves act s') (h : s.RefusedWhenClosed) :
    s'.RefusedWhenClosed := by
  have hstays := hmoves.stays_closed
  cases hmoves with
  | accepted hsending =>
      have hsent := refused_endSend (.returned (.ok ())) h (fun _ heq => by cases heq) hsending
      intro found hfound event err hended
      exact (hsent found hfound event err hended).imp_right hstays
  | refused hsending hclosed =>
      refine refused_endSend _ h (fun err heq => ?_) hsending
      cases heq
      exact ⟨rfl, hclosed⟩
  | cancelled hsending => exact refused_endSend _ h (fun _ heq => by cases heq) hsending
  | received | closed | dropped =>
      intro found hfound event err hended
      exact (h found hfound event err hended).imp_right hstays
  | _ => exact h

theorem Moves.endsComplete (hmoves : s.Moves act s') {inFlight : List InputEvent}
    (hcarries : s.Carries inFlight) (h : s.EndsComplete) : s'.EndsComplete := by
  obtain ⟨haccepted, -, hqueue⟩ := hcarries
  intro htold
  have hstays := hmoves.stays_closed
  cases hmoves with
  | accepted _ hopen => exact absurd (h htold).1 (hopen ▸ Bool.false_ne_true)
  | received hheld hqueued =>
      have hflight := hqueue.resolve_right fun hgone => hheld hgone.2.2.1
      rw [(h htold).2, ← hflight, hqueued, List.self_eq_append_right] at haccepted
      cases haccepted
  | ended hheld hqueued hclosed =>
      have hflight := hqueue.resolve_right fun hgone => hheld hgone.2.2.1
      refine ⟨hclosed, ?_⟩
      rw [haccepted, ← hflight, hqueued]
      exact List.append_nil _
  | _ => exact ⟨hstays (h htold).1, (h htold).2⟩

/-! ### Runs -/

structure Delivering (capacity : Nat) (scripts : List (List InputEvent)) (s : Forwarding M) :
    Prop where
  events_eq : s.tasks.map CaptureTask.events = scripts
  capacity_eq : M.capacity s.forwarder.tx = capacity
  acceptedBySent : s.AcceptedBySent
  takenOnce : s.TakenOnce
  carries : ∃ inFlight, s.Carries inFlight
  refusedWhenClosed : s.RefusedWhenClosed
  endsComplete : s.EndsComplete

variable {capacity : Nat} {scripts : List (List InputEvent)} {s₀ : Forwarding M}

theorem start_eq_some (hstart : start capacity scripts = some s₀) :
    ∃ channel, M.channel capacity = some channel
      ∧ s₀ = { forwarder := { tx := channel, rx := some {} }
               tasks := scripts.map .start
               takes := []
               receiver := none
               accepted := []
               received := []
               toldEnd := false } := by
  obtain ⟨forwarder, hforwarder, rfl⟩ := Option.map_eq_some_iff.mp hstart
  obtain ⟨channel, hchannel, rfl⟩ := Option.map_eq_some_iff.mp hforwarder
  exact ⟨channel, hchannel, rfl⟩

theorem ended_start {task : CaptureTask} (htask : task ∈ scripts.map .start) : task.ended = [] := by
  obtain ⟨script, -, rfl⟩ := List.mem_map.mp htask
  rfl

theorem delivering_start (hM : M.Lawful) (hstart : start capacity scripts = some s₀) :
    s₀.Delivering capacity scripts := by
  obtain ⟨channel, hchannel, rfl⟩ := start_eq_some hstart
  constructor
  case events_eq =>
    rw [List.map_map]
    exact List.map_id' scripts
  case capacity_eq => exact hM.capacity_channel hchannel
  case acceptedBySent =>
    intro i task htask
    rw [CaptureTask.sent, ended_start (List.mem_of_getElem? htask)]
    rfl
  case takenOnce => exact .inl ⟨rfl, rfl, rfl⟩
  case carries => exact ⟨[], rfl, Nat.zero_le _, .inl (hM.queued_channel hchannel)⟩
  case refusedWhenClosed =>
    intro task htask event err hended
    rw [ended_start htask] at hended
    cases hended
  case endsComplete => exact fun htold => by cases htold

theorem Delivering.step (hM : M.Lawful) (act : ForwardEvent) (h : s.Delivering capacity scripts) :
    (s.step act).Delivering capacity scripts := by
  have hmoves := step_moves hM s act
  obtain ⟨inFlight, hcarries⟩ := h.carries
  constructor
  case events_eq => exact hmoves.events_eq.trans h.events_eq
  case capacity_eq => exact hmoves.capacity_eq.trans h.capacity_eq
  case acceptedBySent => exact hmoves.acceptedBySent h.acceptedBySent
  case takenOnce => exact hmoves.takenOnce h.takenOnce
  case carries => exact hmoves.carries h.takenOnce hcarries
  case refusedWhenClosed => exact hmoves.refusedWhenClosed h.refusedWhenClosed
  case endsComplete => exact hmoves.endsComplete hcarries h.endsComplete

theorem delivering_run (hM : M.Lawful) (hstart : start capacity scripts = some s₀)
    (acts : List ForwardEvent) :
    (run Forwarding.step s₀ acts).Delivering capacity scripts :=
  invariant_run (fun _ act h => h.step hM act) acts (delivering_start hM hstart)

theorem reader_closed (hM : M.Lawful) (hstart : start capacity scripts = some s₀)
    {acts : List ForwardEvent}
    (hclosed : M.closed (run Forwarding.step s₀ acts).forwarder.tx = true) :
    .close ∈ acts ∨ .dropReceiver ∈ acts := by
  have hcause := exists_cause (fun s => M.closed s.forwarder.tx = true)
    (fun s act => (step_moves hM s act).closed_cause) acts hclosed
  rcases hcause with hfirst | ⟨act, hmem, rfl | rfl⟩
  · obtain ⟨channel, hchannel, rfl⟩ := start_eq_some hstart
    exact absurd hfirst (hM.closed_channel hchannel ▸ Bool.false_ne_true)
  · exact .inl hmem
  · exact .inr hmem

/-- **The forwarder delivers in order.** No task skips an event, what was accepted was received in
that order but for what is in flight, a send fails only once the reader has closed its half or
dropped it, and the receiving half is handed out once. -/
theorem forwarder_delivers_in_order (hM : M.Lawful) (hstart : start capacity scripts = some s₀)
    (acts : List ForwardEvent) (hrun : run Forwarding.step s₀ acts = s) :
    s.tasks.map CaptureTask.events = scripts
      ∧ (∀ i task, s.tasks[i]? = some task → s.acceptedOf i = task.sent)
      ∧ (∃ inFlight, s.accepted.map Prod.snd = s.received ++ inFlight ∧ inFlight.length ≤ capacity
          ∧ (M.queued s.forwarder.tx = inFlight ∨ M.queued s.forwarder.tx = [] ∧ s.Gone))
      ∧ (∀ task ∈ s.tasks, ∀ event err, (event, .returned (.error err)) ∈ task.ended →
          err = .channelClosed ∧ (.close ∈ acts ∨ .dropReceiver ∈ acts))
      ∧ (s.toldEnd = true → s.accepted.map Prod.snd = s.received)
      ∧ (s.takes = [] ∨ ∃ n, s.takes = some {} :: List.replicate n none) := by
  have h : s.Delivering capacity scripts := hrun ▸ delivering_run hM hstart acts
  obtain ⟨inFlight, haccepted, hlength, hqueue⟩ := h.carries
  refine ⟨h.events_eq, h.acceptedBySent, ?_, ?_, fun htold => (h.endsComplete htold).2, ?_⟩
  · exact ⟨inFlight, haccepted, h.capacity_eq ▸ hlength, hqueue⟩
  · intro task htask event err hended
    obtain ⟨herr, hclosed⟩ := h.refusedWhenClosed task htask event err hended
    exact ⟨herr, reader_closed hM hstart (hrun ▸ hclosed)⟩
  · exact h.takenOnce.imp (fun h => h.1) fun ⟨n, htakes, _⟩ => ⟨n, htakes⟩

def escape (action : KeyAction) : InputEvent := .key ⟨27, action, 0⟩

def twoTasks : Forwarding (Mpsc.fifo InputEvent) where
  forwarder := { tx := { values := [], capacity := 1, closed := false }, rx := some {} }
  tasks := [.start [escape .press, escape .release], .start [escape .press]]
  takes := []
  receiver := none
  accepted := []
  received := []
  toldEnd := false

theorem forwarder_delivers_in_order_two :
    let acts : List ForwardEvent := [.send 0, .send 1, .takeReceiver, .recv, .send 1, .send 0,
      .recv, .takeReceiver, .close, .send 0, .recv]
    (run Forwarding.step twoTasks acts).accepted.map Prod.snd
      = (run Forwarding.step twoTasks acts).received := by
  intro acts
  have hstart : start 1 [[escape .press, escape .release], [escape .press]] = some twoTasks := rfl
  have htold : (run Forwarding.step twoTasks acts).toldEnd = true := rfl
  have hdelivers := forwarder_delivers_in_order (Mpsc.fifo_lawful InputEvent) hstart acts rfl
  exact hdelivers.2.2.2.2.1 htold

end Forwarding

end QuicView
