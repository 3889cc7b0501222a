import QuicView.Proof.ForwarderDelivery

/-!
# The input forwarder comes to rest

Each send that ends and each receive uses up some of a finite supply, whatever their order.
-/

namespace QuicView.Forwarding

open Execution Interleaving

variable {M : Mpsc InputEvent} {s s' s₀ : Forwarding M} {act : ForwardEvent} {i capacity : Nat}
  {task : CaptureTask} {event : InputEvent} {rest : List InputEvent}
  {scripts : List (List InputEvent)}

def Transfers : ForwardEvent → Prop
  | .send _ | .recv => True
  | _ => False

def unsent (s : Forwarding M) : Nat := (s.tasks.map (·.script.length)).sum

def stepsLeft (s : Forwarding M) : Nat :=
  2 * s.unsent + (M.queued s.forwarder.tx).length + if s.toldEnd then 0 else 1

theorem unsent_endSend (hsending : s.sending i = some (task, event, rest))
    (outcome : SendOutcome) : (s.endSend i task event rest outcome).unsent + 1 = s.unsent := by
  obtain ⟨htask, hscript⟩ := sending_eq_some_iff.mp hsending
  have hnew : (s.endSend i task event rest outcome).tasks[i]?
      = some ⟨task.ended ++ [(event, outcome)], rest⟩ :=
    (getElem?_set_eq_some_iff htask _).mpr (.inr ⟨rfl, rfl⟩)
  have hback : (s.endSend i task event rest outcome).tasks.set i task = s.tasks := by
    rw [endSend, List.set_set, set_eq_self htask]
  rw [unsent, unsent, ← hback]
  symm
  apply sum_map_set hnew
  rw [hscript]
  rfl

theorem Moves.stepsLeft_lt (hmoves : s.Moves act s') (hact : Transfers act) :
    s' = s ∨ s'.stepsLeft < s.stepsLeft := by
  cases hmoves with
  | waits => exact .inl rfl
  | @accepted i task event rest channel hsending _ _ hafter =>
      right
      have hunsent : ((s.setChannel channel).endSend i task event rest (.returned (.ok ()))).unsent
          + 1 = s.unsent := unsent_endSend hsending _
      have hqueued : (M.queued channel).length = (M.queued s.forwarder.tx).length + 1 := by
        rw [hafter.queued_eq, List.length_append]
        rfl
      show 2 * ((s.setChannel channel).endSend i task event rest _).unsent
        + (M.queued channel).length + (if s.toldEnd then 0 else 1) < s.stepsLeft
      rw [stepsLeft]
      omega
  | @refused i task event rest hsending =>
      right
      have hunsent := unsent_endSend hsending (.returned (.error .channelClosed))
      show 2 * (s.endSend i task event rest _).unsent + (M.queued s.forwarder.tx).length
        + (if s.toldEnd then 0 else 1) < s.stepsLeft
      rw [stepsLeft]
      omega
  | @received event rest channel _ hqueued hafter =>
      right
      have hlength : (M.queued s.forwarder.tx).length = (M.queued channel).length + 1 := by
        rw [hqueued, hafter.queued_eq, List.length_cons]
      show 2 * s.unsent + (M.queued channel).length + (if s.toldEnd then 0 else 1) < s.stepsLeft
      rw [stepsLeft]
      omega
  | ended =>
      cases htold : s.toldEnd with
      | true =>
          left
          rw [← htold]
      | false =>
          right
          show 2 * s.unsent + (M.queued s.forwarder.tx).length + 0 < s.stepsLeft
          rw [stepsLeft, htold]
          exact Nat.lt_succ_self _
  | cancelled | took | closed | dropped => exact hact.elim

theorem Moves.receiver_eq (hmoves : s.Moves act s') (hact : Transfers act) :
    s'.receiver = s.receiver := by
  cases hmoves with
  | cancelled | took | closed | dropped => exact hact.elim
  | _ => rfl

theorem Moves.waits_of_eq (hmoves : s.Moves act s') (hact : Transfers act) (hsame : s' = s) :
    s.Waits act := by
  cases hmoves with
  | waits hwaits => exact hwaits
  | accepted =>
      exact absurd (List.append_right_eq_self.mp (congrArg Forwarding.accepted hsame))
        (List.cons_ne_nil _ _)
  | refused hsending =>
      have hunsent := unsent_endSend hsending (.returned (.error .channelClosed))
      rw [hsame] at hunsent
      exact absurd hunsent (Nat.succ_ne_self _)
  | received =>
      exact absurd (List.append_right_eq_self.mp (congrArg Forwarding.received hsame))
        (List.cons_ne_nil _ _)
  | ended _ hqueued => exact fun _ => hqueued
  | cancelled | took | closed | dropped => exact hact.elim

theorem exhausted_of_quiet (hM : M.Lawful) (hcapacity : 0 < M.capacity s.forwarder.tx)
    (hheld : s.receiver ≠ none) (hquiet : Quiet Forwarding.step Transfers s) :
    M.queued s.forwarder.tx = [] ∧ ∀ task ∈ s.tasks, task.script = [] := by
  have hwaits (act : ForwardEvent) (hact : Transfers act) : s.Waits act :=
    (step_moves hM s act).waits_of_eq hact (hquiet act hact)
  have hqueued : M.queued s.forwarder.tx = [] := hwaits .recv trivial hheld
  refine ⟨hqueued, fun task htask => ?_⟩
  obtain ⟨i, hi⟩ := List.mem_iff_getElem?.mp htask
  have hidle : s.sending i = none := by
    by_contra hsending
    have hfull := hwaits (.send i) trivial hsending
    rw [hqueued] at hfull
    exact absurd hcapacity (Nat.not_lt.mpr hfull)
  exact sending_eq_none_iff.mp hidle task hi

def Faulted (s : Forwarding M) : Prop :=
  M.closed s.forwarder.tx = true ∨ ∃ task ∈ s.tasks, ∃ ended ∈ task.ended, ended.2.isOk = false

theorem Moves.faulted_cause (hmoves : s.Moves act s') (hfaulted : s'.Faulted) :
    s.Faulted ∨ ¬ (Transfers act ∨ act = .takeReceiver) := by
  cases hmoves with
  | accepted hsending _ _ hafter =>
      left
      rcases hfaulted with hclosed | ⟨found, hfound, ended, hended, hnot⟩
      · exact absurd hclosed (hafter.closed_eq ▸ Bool.false_ne_true)
      · right
        rcases mem_endSend hfound with hold | rfl
        · exact ⟨found, hold, ended, hended, hnot⟩
        · rcases List.mem_append.mp hended with hended | hlast
          · exact ⟨_, List.mem_of_getElem? (sending_eq_some_iff.mp hsending).1, ended, hended, hnot⟩
          · cases List.mem_singleton.mp hlast
            cases hnot
  | refused _ hclosed => exact .inl (.inl hclosed)
  | received _ _ hafter =>
      left
      rcases hfaulted with hclosed | htasks
      · exact .inl (hafter.closed_eq.symm.trans hclosed)
      · exact .inr htasks
  | cancelled | closed | dropped => exact .inr (by simp [Transfers])
  | _ => exact .inl hfaulted

theorem Delivering.acceptedOf_eq (h : s.Delivering capacity scripts) (hsound : ¬ s.Faulted)
    (hexhausted : ∀ task ∈ s.tasks, task.script = []) {script : List InputEvent}
    (hscript : scripts[i]? = some script) : s.acceptedOf i = script := by
  rw [← h.events_eq, List.getElem?_map] at hscript
  obtain ⟨task, htask, rfl⟩ := Option.map_eq_some_iff.mp hscript
  have hmem := List.mem_of_getElem? htask
  have hsent : task.ended.filter (·.2.isOk) = task.ended := by
    apply List.filter_eq_self.mpr
    intro ended hended
    by_contra hnot
    exact hsound (.inr ⟨task, hmem, ended, hended, Bool.eq_false_iff.mpr hnot⟩)
  rw [h.acceptedBySent i task htask, CaptureTask.sent, hsent, CaptureTask.events,
    hexhausted task hmem, List.append_nil]

/-- Everything accepted was received, and no task has an event left to send. -/
structure Complete (s : Forwarding M) : Prop where
  received : s.received = s.accepted.map Prod.snd
  exhausted : ∀ task ∈ s.tasks, task.script = []

theorem receiver_run (hM : M.Lawful) {more : List ForwardEvent}
    (hmore : ∀ act ∈ more, Transfers act) : (run Forwarding.step s more).receiver = s.receiver := by
  induction more generalizing s with
  | nil => rfl
  | cons act more ih =>
      obtain ⟨hact, hlater⟩ := List.forall_mem_cons.mp hmore
      rw [run_cons, ih hlater, (step_moves hM s act).receiver_eq hact]

theorem Delivering.complete (hM : M.Lawful) (h : s.Delivering capacity scripts)
    (hcapacity : 0 < capacity) (hheld : s.receiver ≠ none)
    (hquiet : Quiet Forwarding.step Transfers s) : s.Complete := by
  obtain ⟨hqueued, hexhausted⟩ := exhausted_of_quiet hM (h.capacity_eq ▸ hcapacity) hheld hquiet
  obtain ⟨inFlight, haccepted, -, hqueue⟩ := h.carries
  have hflight := hqueue.resolve_right fun hgone => hheld hgone.2.2.1
  refine ⟨?_, hexhausted⟩
  rw [haccepted, ← hflight, hqueued, List.append_nil]

theorem capacity_pos (hM : M.Lawful) (hstart : start capacity scripts = some s₀) :
    0 < capacity := by
  apply Nat.pos_of_ne_zero
  rintro rfl
  obtain ⟨channel, hchannel, -⟩ := start_eq_some hstart
  rw [hM.channel_zero] at hchannel
  cases hchannel

theorem not_faulted_run (hM : M.Lawful) (hstart : start capacity scripts = some s₀)
    {acts : List ForwardEvent} (hacts : ∀ act ∈ acts, Transfers act ∨ act = .takeReceiver) :
    ¬ (run Forwarding.step s₀ acts).Faulted := by
  intro hfaulted
  rcases exists_cause Faulted (fun s act => (step_moves hM s act).faulted_cause) acts hfaulted with
    hfirst | ⟨act, hmem, hnot⟩
  · obtain ⟨channel, hchannel, rfl⟩ := start_eq_some hstart
    rcases hfirst with hclosed | ⟨task, htask, ended, hended, -⟩
    · exact absurd hclosed (hM.closed_channel hchannel ▸ Bool.false_ne_true)
    · rw [ended_start htask] at hended
      cases hended
  · exact hnot (hacts act hmem)

/-- **A reader that goes on reading gets everything.** The sends and receives that can still be made
are so many and no more, in whatever order they come. Where none is left, every task is done and
everything accepted was received. -/
theorem forwarding_completes (hM : M.Lawful) (hstart : start capacity scripts = some s₀)
    (acts : List ForwardEvent) (hrun : run Forwarding.step s₀ acts = s)
    (hheld : s.receiver ≠ none) :
    (∀ more, (∀ act ∈ more, Transfers act) → changes Forwarding.step s more ≤ s.stepsLeft)
      ∧ (∀ more, (∀ act ∈ more, Transfers act) →
          Quiet Forwarding.step Transfers (run Forwarding.step s more) →
            (run Forwarding.step s more).Complete
              ∧ ((∀ act ∈ acts, Transfers act ∨ act = .takeReceiver) →
                  ∀ i script, scripts[i]? = some script →
                    (run Forwarding.step s more).acceptedOf i = script))
      ∧ ∃ more, (∀ act ∈ more, Transfers act) ∧ more.length ≤ s.stepsLeft
          ∧ Quiet Forwarding.step Transfers (run Forwarding.step s more) := by
  have hinv (s : Forwarding M) (act : ForwardEvent) (_ : True) : True := trivial
  have hstep (s : Forwarding M) (act : ForwardEvent) (_ : True) (hact : Transfers act) :=
    (step_moves hM s act).stepsLeft_lt hact
  refine ⟨fun more hmore => ?_, fun more hmore hquiet => ?_, ?_⟩
  · exact (Nat.le_add_right _ _).trans (changes_le hinv hstep more trivial hmore)
  · have hsplit : run Forwarding.step s₀ (acts ++ more) = run Forwarding.step s more := by
      rw [run_append, hrun]
    have hdelivering := hsplit ▸ delivering_run hM hstart (acts ++ more)
    have hcomplete := hdelivering.complete hM (capacity_pos hM hstart)
      ((receiver_run hM hmore).symm ▸ hheld) hquiet
    refine ⟨hcomplete, fun hacts i script hscript => ?_⟩
    have hall : ∀ act ∈ acts ++ more, Transfers act ∨ act = .takeReceiver := by
      intro act hmem
      exact (List.mem_append.mp hmem).elim (hacts act) fun hmem => .inl (hmore act hmem)
    exact hdelivering.acceptedOf_eq (hsplit ▸ not_faulted_run hM hstart hall) hcomplete.exhausted
      hscript
  · exact exists_run_quiet hinv hstep _ trivial le_rfl

theorem forwarding_completes_two :
    let acts : List ForwardEvent := [.send 0, .send 0, .takeReceiver]
    ∃ more, (∀ act ∈ more, Transfers act)
      ∧ more.length ≤ (run Forwarding.step twoTasks acts).stepsLeft
      ∧ Quiet Forwarding.step Transfers
          (run Forwarding.step (run Forwarding.step twoTasks acts) more) := by
  intro acts
  have hstart : start 1 [[escape .press, escape .release], [escape .press]] = some twoTasks := rfl
  have hheld : (run Forwarding.step twoTasks acts).receiver ≠ none := Option.some_ne_none _
  exact (forwarding_completes (Mpsc.fifo_lawful InputEvent) hstart acts rfl hheld).2.2

end QuicView.Forwarding
