import QuicView.Library.Execution

/-!
# Runs without one party

Where a party's own events change nothing in what the others see, and every other event keeps two
states alike that were so, the others see of a run what they see of it without that party.
-/

namespace Execution

variable {State Event : Type*} {step : State → Event → State} {own : Event → Bool}
  {Alike : State → State → Prop}

def purge (own : Event → Bool) (events : List Event) : List Event := events.filter fun e => !own e

theorem run_purge (hown : ∀ s s' e, own e = true → Alike s s' → Alike (step s e) s')
    (hothers : ∀ s s' e, own e = false → Alike s s' → Alike (step s e) (step s' e)) :
    ∀ (events : List Event) {s s' : State}, Alike s s' →
      Alike (run step s events) (run step s' (purge own events)) := by
  intro events
  induction events with
  | nil => exact fun halike => halike
  | cons event events ih =>
      intro s s' halike
      cases howns : own event with
      | true =>
          have hpurged : purge own (event :: events) = purge own events := by
            rw [purge, List.filter_cons, howns]
            rfl
          rw [hpurged]
          exact ih (hown s s' event howns halike)
      | false =>
          have hpurged : purge own (event :: events) = event :: purge own events := by
            rw [purge, List.filter_cons, howns]
            rfl
          rw [hpurged]
          exact ih (hothers s s' event howns halike)

theorem forall_mem_purge {events : List Event} : ∀ e ∈ purge own events, own e = false := by
  intro e hmem
  exact Bool.not_eq_true' _ ▸ (List.mem_filter.mp hmem).2

end Execution
