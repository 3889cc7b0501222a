import QuicView.Proof.NegotiationRuns

namespace QuicView.Negotiator

open Execution

variable {calls : List Call}

theorem phase_run_eq_four_iff :
    phase (run step new calls).state = 4 ↔ ∃ reason, .reject reason ∈ calls := by
  refine (protocol.phase_run_eq_last_iff (by decide)).trans ?_
  constructor
  · rintro ⟨call, hmem, htarget⟩
    obtain ⟨reason, rfl⟩ := target_eq_four_iff.mp htarget
    exact ⟨reason, hmem⟩
  · rintro ⟨reason, hmem⟩
    exact ⟨_, hmem, rfl⟩

theorem le_phase_run_iff {k : Nat} (hk : 0 < k) (hreject : ¬ ∃ reason, .reject reason ∈ calls) :
    k ≤ phase (run step new calls).state
      ↔ ∃ position call, Succeeded calls position call ∧ call.target = k := by
  refine protocol.le_phase_run_iff hk fun call hcall htarget => hreject ?_
  obtain ⟨reason, rfl⟩ := target_eq_four_iff.mp htarget
  exact ⟨reason, hcall⟩

theorem two_le_phase_run_iff (hreject : ¬ ∃ reason, .reject reason ∈ calls) :
    2 ≤ phase (run step new calls).state
      ↔ ∃ first offer second selections, first.length < second.length
          ∧ Succeeded calls first (.receiveOffer offer)
          ∧ Succeeded calls second (.selectDisplays selections) := by
  rw [le_phase_run_iff (by decide) hreject]
  constructor
  · rintro ⟨second, call, hsecond, htarget⟩
    obtain ⟨selections, rfl⟩ := target_eq_two_iff.mp htarget
    have hbefore : second <+: calls := (List.prefix_append _ _).trans hsecond.1
    have hphase : phase (run step new second).state + 1 = 2 := by
      simpa [Call.target] using (succeeds_iff _ _).mp hsecond.2
    have hnone : ¬ ∃ reason, .reject reason ∈ second :=
      fun ⟨reason, hmem⟩ => hreject ⟨reason, hbefore.subset hmem⟩
    obtain ⟨first, call, hfirst, hcall⟩ :=
      (le_phase_run_iff Nat.one_pos hnone).mp (show 1 ≤ phase (run step new second).state by omega)
    obtain ⟨offer, rfl⟩ := target_eq_one_iff.mp hcall
    have hlength := hfirst.1.length_le
    rw [List.length_append, List.length_singleton] at hlength
    exact ⟨first, offer, second, selections, hlength, ⟨hfirst.1.trans hbefore, hfirst.2⟩, hsecond⟩
  · rintro ⟨_, _, second, selections, _, _, hsecond⟩
    exact ⟨second, _, hsecond, rfl⟩

theorem accept_succeeds_iff (calls : List Call) :
    Succeeds (run step new calls) .accept
      ↔ (¬ ∃ reason, .reject reason ∈ calls)
        ∧ (∃ first offer second selections, first.length < second.length
          ∧ Succeeded calls first (.receiveOffer offer)
          ∧ Succeeded calls second (.selectDisplays selections))
        ∧ ¬ ∃ position, Succeeded calls position .accept := by
  have hphase : Succeeds (run step new calls) .accept
      ↔ phase (run step new calls).state = 2 := by
    rw [succeeds_iff]
    simp [Call.target]
  rw [hphase]
  by_cases hreject : ∃ reason, .reject reason ∈ calls
  · have hfour := phase_run_eq_four_iff.mpr hreject
    exact iff_of_false (by omega) fun hright => hright.1 hreject
  · have hthree : 3 ≤ phase (run step new calls).state
        ↔ ∃ position, Succeeded calls position .accept := by
      rw [le_phase_run_iff (by decide) hreject]
      simp only [target_eq_three_iff, exists_eq_right]
    rw [and_iff_right hreject, ← two_le_phase_run_iff hreject, ← hthree]
    omega

theorem accept_unique {position position' : List Call} (h : Succeeded calls position .accept)
    (h' : Succeeded calls position' .accept) : position = position' :=
  (protocol.takenAt_unique h h' rfl (by decide)).1

theorem only_selection {before selected}
    (hbefore : before <+: calls) (haccept : (run step new before).accept.1 = .ok selected) :
    ∃ second, ∀ position selections, Succeeded calls position (.selectDisplays selections)
      ↔ position = second ∧ selections = selected := by
  have hexplains := explains_run before
  rw [accept_eq_ok_iff.mp haccept] at hexplains
  obtain ⟨_, _, second, _, _, hsecond, _⟩ := hexplains
  exact ⟨second, succeeded_selectDisplays_iff (hsecond.of_prefix hbefore)⟩

theorem only_reject_after_reject (hreject : ∃ reason, .reject reason ∈ calls) {call : Call}
    (hcall : Succeeds (run step new calls) call) : ∃ reason, call = .reject reason := by
  have hfour : protocol.phase (run step new calls) = protocol.last :=
    phase_run_eq_four_iff.mpr hreject
  by_contra hother
  exact protocol.not_taken_of_last hfour (fun htarget => hother (target_eq_four_iff.mp htarget))
    hcall

/-- **The negotiation follows its protocol.** Accepting succeeds exactly after an offer and a later
selection that succeeded, without a rejection and not yet accepted, and returns what the one
successful selection brought. A refused call changes nothing. -/
theorem negotiation_follows_protocol (calls : List Call) :
    (Succeeds (run step new calls) .accept
        ↔ (¬ ∃ reason, .reject reason ∈ calls)
          ∧ (∃ first offer second selections, first.length < second.length
            ∧ Succeeded calls first (.receiveOffer offer)
            ∧ Succeeded calls second (.selectDisplays selections))
          ∧ ¬ ∃ position, Succeeded calls position .accept)
      ∧ (∀ position position', Succeeded calls position .accept →
          Succeeded calls position' .accept → position = position')
      ∧ (∀ before selected, before ++ [.accept] <+: calls →
          (run step new before).accept.1 = .ok selected →
          ∃ second, ∀ position selections, Succeeded calls position (.selectDisplays selections)
            ↔ position = second ∧ selections = selected)
      ∧ (∀ call, ¬ Succeeds (run step new calls) call →
          step (run step new calls) call = run step new calls)
      ∧ (∀ call, phase (run step new calls).state
          ≤ phase (step (run step new calls) call).state)
      ∧ ((∃ reason, .reject reason ∈ calls) → ∀ call, Succeeds (run step new calls) call →
          ∃ reason, call = .reject reason) := by
  refine ⟨accept_succeeds_iff calls, fun _ _ => accept_unique, ?_, step_of_not_succeeds _,
    protocol.phase_le_step _, fun hreject _ => only_reject_after_reject hreject⟩
  intro before selected hbefore haccept
  exact only_selection ((List.prefix_append _ _).trans hbefore) haccept

end QuicView.Negotiator
