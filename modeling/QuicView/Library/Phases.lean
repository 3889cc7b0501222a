import QuicView.Library.Execution

/-!
# Phases in a fixed order

Each event leads to a phase of its own and is refused, with nothing changed, unless the run stands
at the phase just before. An abort is never refused and leads to the last phase, from which nothing
leads on. So the phase is all there is to know of the history.
-/

namespace Execution

variable {State Event : Type*} {step : State → Event → State}

structure Phased (step : State → Event → State) where
  phase : State → Nat
  target : Event → Nat
  last : Nat
  Taken : State → Event → Prop
  taken_iff : ∀ state event,
    Taken state event ↔ target event = last ∨ phase state + 1 = target event
  phase_taken : ∀ state event, Taken state event → phase (step state event) = target event
  step_refused : ∀ state event, ¬ Taken state event → step state event = state
  phase_le_last : ∀ state, phase state ≤ last
  target_le_last : ∀ event, target event ≤ last

namespace Phased

variable (machine : Phased step) {state : State} {event other : Event} {events : List Event}

/-- The event stands right after the position in the run, and is taken there. -/
def TakenAt (state : State) (events position : List Event) (event : Event) : Prop :=
  position ++ [event] <+: events ∧ machine.Taken (run step state position) event

theorem phase_le_step (state : State) (event : Event) :
    machine.phase state ≤ machine.phase (step state event) := by
  by_cases htaken : machine.Taken state event
  · rw [machine.phase_taken state event htaken]
    have hle := machine.phase_le_last state
    have hwhen := (machine.taken_iff state event).mp htaken
    omega
  · rw [machine.step_refused state event htaken]

theorem phase_le_run (state : State) (events : List Event) :
    machine.phase state ≤ machine.phase (run step state events) := by
  induction events generalizing state with
  | nil => rfl
  | cons event events ih => exact (machine.phase_le_step state event).trans (ih _)

theorem not_taken_of_last (hlast : machine.phase state = machine.last)
    (hevent : machine.target event ≠ machine.last) : ¬ machine.Taken state event := by
  rw [machine.taken_iff]
  have hle := machine.target_le_last event
  omega

/-! ### One position for each phase -/

theorem not_taken_again (htaken : machine.Taken state event)
    (hsame : machine.target event = machine.target other)
    (hevent : machine.target event ≠ machine.last) (between : List Event) :
    ¬ machine.Taken (run step (step state event) between) other := by
  have hle := machine.phase_le_run (step state event) between
  rw [machine.phase_taken state event htaken] at hle
  rw [machine.taken_iff]
  omega

theorem takenAt_not_longer {position later : List Event}
    (htaken : machine.TakenAt state events position event)
    (hlater : machine.TakenAt state events later other)
    (hsame : machine.target event = machine.target other)
    (hevent : machine.target event ≠ machine.last) : later.length ≤ position.length := by
  by_contra hlonger
  have hinitial : position ++ [event] <+: later := by
    apply List.prefix_of_prefix_length_le htaken.1 ((List.prefix_append _ _).trans hlater.1)
    rw [List.length_append, List.length_singleton]
    omega
  obtain ⟨between, rfl⟩ := hinitial
  apply machine.not_taken_again htaken.2 hsame hevent between
  simpa using hlater.2

/-- **One position.** Only one event of the run that leads to a given phase, the last excepted, is
taken. -/
theorem takenAt_unique {position position' : List Event}
    (htaken : machine.TakenAt state events position event)
    (htaken' : machine.TakenAt state events position' other)
    (hsame : machine.target event = machine.target other)
    (hevent : machine.target event ≠ machine.last) : position = position' ∧ event = other := by
  have hlength : (position ++ [event]).length = (position' ++ [other]).length := by
    have hle := machine.takenAt_not_longer htaken' htaken hsame.symm (hsame ▸ hevent)
    have hge := machine.takenAt_not_longer htaken htaken' hsame hevent
    simp only [List.length_append, List.length_singleton]
    omega
  have heq : position ++ [event] = position' ++ [other] :=
    (List.prefix_of_prefix_length_le htaken.1 htaken'.1 hlength.le).eq_of_length hlength
  obtain ⟨hposition, hsingle⟩ := List.append_inj' heq rfl
  exact ⟨hposition, List.singleton_inj.mp hsingle⟩

theorem TakenAt.of_prefix {machine : Phased step} {position before : List Event}
    (htaken : machine.TakenAt state before position event) (hbefore : before <+: events) :
    machine.TakenAt state events position event :=
  ⟨htaken.1.trans hbefore, htaken.2⟩

/-! ### What a phase says of the run -/

theorem phase_step_eq_last_iff :
    machine.phase (step state event) = machine.last
      ↔ machine.phase state = machine.last ∨ machine.target event = machine.last := by
  by_cases htaken : machine.Taken state event
  · rw [machine.phase_taken state event htaken]
    have hle := machine.target_le_last event
    have hwhen := (machine.taken_iff state event).mp htaken
    omega
  · rw [machine.step_refused state event htaken]
    rw [machine.taken_iff] at htaken
    omega

theorem phase_run_eq_last_iff (hstart : machine.phase state ≠ machine.last) :
    machine.phase (run step state events) = machine.last
      ↔ ∃ event ∈ events, machine.target event = machine.last := by
  induction events using List.reverseRec with
  | nil => simpa using hstart
  | append_singleton events event ih =>
      rw [run_concat, phase_step_eq_last_iff, ih]
      simp only [List.mem_append, List.mem_singleton, or_and_right, exists_or, exists_eq_left]

theorem le_phase_step_iff (hevent : machine.target event ≠ machine.last) (k : Nat) :
    k ≤ machine.phase (step state event)
      ↔ k ≤ machine.phase state ∨ machine.Taken state event ∧ machine.target event = k := by
  by_cases htaken : machine.Taken state event
  · rw [machine.phase_taken state event htaken, and_iff_right htaken]
    have hwhen := (machine.taken_iff state event).mp htaken
    omega
  · rw [machine.step_refused state event htaken]
    exact (or_iff_left fun hboth => htaken hboth.1).symm

theorem takenAt_concat {position : List Event} :
    machine.TakenAt state (events ++ [other]) position event
      ↔ machine.TakenAt state events position event
        ∨ position = events ∧ event = other ∧ machine.Taken (run step state events) event := by
  unfold TakenAt
  rw [List.prefix_concat_iff]
  constructor
  · rintro ⟨heq | hinitial, htaken⟩
    · obtain ⟨rfl, hsingle⟩ := List.append_inj' heq rfl
      exact .inr ⟨rfl, List.singleton_inj.mp hsingle, htaken⟩
    · exact .inl ⟨hinitial, htaken⟩
  · rintro (⟨hinitial, htaken⟩ | ⟨rfl, rfl, htaken⟩)
    · exact ⟨.inr hinitial, htaken⟩
    · exact ⟨.inl rfl, htaken⟩

/-- **A phase is reached by its event.** In a run without an abort, a phase beyond the first has
been reached exactly if an event that leads to it was taken. -/
theorem le_phase_run_iff {k : Nat} (hstart : machine.phase state < k)
    (habort : ∀ event ∈ events, machine.target event ≠ machine.last) :
    k ≤ machine.phase (run step state events)
      ↔ ∃ position event, machine.TakenAt state events position event
          ∧ machine.target event = k := by
  induction events using List.reverseRec with
  | nil => simpa [TakenAt] using hstart
  | append_singleton events last ih =>
      have hlast := habort last (List.mem_append_right _ (List.mem_singleton_self last))
      rw [run_concat, machine.le_phase_step_iff hlast,
        ih fun event hevent => habort event (List.mem_append_left _ hevent)]
      constructor
      · rintro (⟨position, event, htaken, htarget⟩ | ⟨htaken, htarget⟩)
        · exact ⟨position, event, htaken.of_prefix (List.prefix_append _ _), htarget⟩
        · exact ⟨events, last, ⟨List.prefix_rfl, htaken⟩, htarget⟩
      · rintro ⟨position, event, htaken, htarget⟩
        rcases machine.takenAt_concat.mp htaken with hbefore | ⟨rfl, rfl, hlastTaken⟩
        · exact .inl ⟨position, event, hbefore, htarget⟩
        · exact .inr ⟨hlastTaken, htarget⟩

end Phased

end Execution
