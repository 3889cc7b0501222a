import QuicView.Library.Phases
import QuicView.Session.Negotiation

/-!
# What a negotiation accepts

A negotiator is a phased machine: an offer is received at one position of a run and a selection made
at one later position. The selection takes the offer's place in the state; nothing compares the two.
-/

namespace QuicView.Negotiator

open Execution

def phase : NegotiationState → Nat
  | .awaitingOffer => 0
  | .offerReceived _ => 1
  | .displaysSelected _ => 2
  | .accepted => 3
  | .rejected _ => 4

def Call.target : Call → Nat
  | .receiveOffer _ => 1
  | .selectDisplays _ => 2
  | .accept => 3
  | .reject _ => 4

/-- The call returns `Ok`; rejecting returns nothing and cannot fail. -/
def Succeeds (neg : Negotiator) : Call → Prop
  | .receiveOffer offer => (neg.receiveOffer offer).1 = .ok ()
  | .selectDisplays selections => (neg.selectDisplays selections).1 = .ok ()
  | .accept => ∃ selections, neg.accept.1 = .ok selections
  | .reject _ => True

theorem accept_eq_ok_iff {neg : Negotiator} {selected : List NegotiateDisplay} :
    neg.accept.1 = .ok selected ↔ neg.state = .displaysSelected selected := by
  obtain ⟨state⟩ := neg
  cases state <;> simp [accept]

theorem succeeds_iff (neg : Negotiator) (call : Call) :
    Succeeds neg call ↔ call.target = 4 ∨ phase neg.state + 1 = call.target := by
  obtain ⟨state⟩ := neg
  cases call with
  | receiveOffer offer => cases state <;> simp [Succeeds, receiveOffer, phase, Call.target]
  | selectDisplays selections =>
      cases state <;> simp [Succeeds, selectDisplays, phase, Call.target]
  | accept => cases state <;> simp [Succeeds, accept, phase, Call.target]
  | reject reason => simp [Succeeds, Call.target]

theorem phase_step_of_succeeds (neg : Negotiator) (call : Call) (h : Succeeds neg call) :
    phase (step neg call).state = call.target := by
  obtain ⟨state⟩ := neg
  cases call with
  | receiveOffer offer =>
      cases state <;> simp_all [Succeeds, receiveOffer, step, phase, Call.target]
  | selectDisplays selections =>
      cases state <;> simp_all [Succeeds, selectDisplays, step, phase, Call.target]
  | accept => cases state <;> simp_all [Succeeds, accept, step, phase, Call.target]
  | reject reason => rfl

theorem step_of_not_succeeds (neg : Negotiator) (call : Call) (h : ¬ Succeeds neg call) :
    step neg call = neg := by
  obtain ⟨state⟩ := neg
  cases call with
  | receiveOffer offer => cases state <;> simp_all [Succeeds, receiveOffer, step]
  | selectDisplays selections => cases state <;> simp_all [Succeeds, selectDisplays, step]
  | accept => cases state <;> simp_all [Succeeds, accept, step]
  | reject reason => exact absurd trivial h

def protocol : Phased step where
  phase neg := phase neg.state
  target := Call.target
  last := 4
  Taken := Succeeds
  taken_iff := succeeds_iff
  phase_taken := phase_step_of_succeeds
  step_refused := step_of_not_succeeds
  phase_le_last neg := by cases neg.state <;> simp [phase]
  target_le_last call := by cases call <;> simp [Call.target]

/-- The call stands right after the position in the calls, and succeeds there. -/
def Succeeded (calls position : List Call) (call : Call) : Prop :=
  position ++ [call] <+: calls ∧ Succeeds (run step new position) call

theorem target_eq_one_iff {call : Call} :
    call.target = 1 ↔ ∃ offer, call = .receiveOffer offer := by
  cases call <;> simp [Call.target]

theorem target_eq_two_iff {call : Call} :
    call.target = 2 ↔ ∃ selections, call = .selectDisplays selections := by
  cases call <;> simp [Call.target]

theorem target_eq_three_iff {call : Call} : call.target = 3 ↔ call = .accept := by
  cases call <;> simp [Call.target]

theorem target_eq_four_iff {call : Call} : call.target = 4 ↔ ∃ reason, call = .reject reason := by
  cases call <;> simp [Call.target]

variable {calls : List Call}

theorem Succeeded.of_prefix {position before : List Call} {call : Call}
    (h : Succeeded before position call) (hbefore : before <+: calls) :
    Succeeded calls position call :=
  ⟨h.1.trans hbefore, h.2⟩

theorem Succeeded.length_lt {position : List Call} {call : Call}
    (h : Succeeded calls position call) : position.length < calls.length := by
  have hle := h.1.length_le
  rw [List.length_append, List.length_singleton] at hle
  exact hle

/-! ### What the state holds -/

def Explains (calls : List Call) : NegotiationState → Prop
  | .offerReceived offer => ∃ first, Succeeded calls first (.receiveOffer offer)
  | .displaysSelected selected =>
      ∃ first offer second, first.length < second.length
        ∧ Succeeded calls first (.receiveOffer offer)
        ∧ Succeeded calls second (.selectDisplays selected)
        ∧ (run step new second).state = .offerReceived offer
  | _ => True

theorem Explains.concat {state : NegotiationState} (h : Explains calls state) (call : Call) :
    Explains (calls ++ [call]) state := by
  have hbefore : calls <+: calls ++ [call] := List.prefix_append _ _
  cases state with
  | offerReceived offer =>
      obtain ⟨first, hfirst⟩ := h
      exact ⟨first, hfirst.of_prefix hbefore⟩
  | displaysSelected selected =>
      obtain ⟨first, offer, second, hlength, hfirst, hsecond, hheld⟩ := h
      exact ⟨first, offer, second, hlength, hfirst.of_prefix hbefore, hsecond.of_prefix hbefore,
        hheld⟩
  | _ => trivial

theorem explains_step {call : Call} (h : Explains calls (run step new calls).state)
    (hcall : Succeeds (run step new calls) call) :
    Explains (calls ++ [call]) (step (run step new calls) call).state := by
  have hlast : Succeeded (calls ++ [call]) calls call := ⟨List.prefix_rfl, hcall⟩
  cases call with
  | receiveOffer offer =>
      cases hheld : (run step new calls).state with
      | awaitingOffer =>
          rw [step, receiveOffer, if_neg (not_not.mpr hheld)]
          exact ⟨calls, hlast⟩
      | _ => simp [Succeeds, receiveOffer, hheld] at hcall
  | selectDisplays selections =>
      cases hheld : (run step new calls).state with
      | offerReceived offer =>
          rw [hheld] at h
          obtain ⟨first, hfirst⟩ := h
          rw [step, selectDisplays, hheld]
          exact ⟨first, offer, calls, hfirst.length_lt, hfirst.of_prefix (List.prefix_append _ _),
            hlast, hheld⟩
      | _ => simp [Succeeds, selectDisplays, hheld] at hcall
  | accept =>
      obtain ⟨selections, haccept⟩ := hcall
      rw [step, accept, accept_eq_ok_iff.mp haccept]
      trivial
  | reject reason => trivial

theorem explains_run (calls : List Call) : Explains calls (run step new calls).state := by
  induction calls using List.reverseRec with
  | nil => trivial
  | append_singleton calls call ih =>
      rw [run_concat]
      by_cases hcall : Succeeds (run step new calls) call
      · exact explains_step ih hcall
      · rw [step_of_not_succeeds _ _ hcall]
        exact ih.concat call

/-- Of the calls to one function that is not `reject`, one succeeds. -/
theorem succeeded_iff {α : Type} {f : α → Call} (hf : Function.Injective f)
    (hsame : ∀ a b, (f a).target = (f b).target) {first : List Call} {a : α}
    (hlast : (f a).target ≠ 4) (hfirst : Succeeded calls first (f a)) (position : List Call)
    (b : α) : Succeeded calls position (f b) ↔ position = first ∧ b = a := by
  constructor
  · intro hposition
    have hother : protocol.target (f b) ≠ protocol.last := (hsame b a).trans_ne hlast
    obtain ⟨heq, hcall⟩ := protocol.takenAt_unique hposition hfirst (hsame b a) hother
    exact ⟨heq, hf hcall⟩
  · rintro ⟨rfl, rfl⟩
    exact hfirst

theorem succeeded_receiveOffer_iff {first : List Call} {offer : SessionOffer}
    (hfirst : Succeeded calls first (.receiveOffer offer)) (position : List Call)
    (other : SessionOffer) :
    Succeeded calls position (.receiveOffer other) ↔ position = first ∧ other = offer :=
  succeeded_iff (fun _ _ => Call.receiveOffer.inj) (fun _ _ => rfl) (by simp [Call.target]) hfirst
    position other

theorem succeeded_selectDisplays_iff {second : List Call} {selected : List NegotiateDisplay}
    (hsecond : Succeeded calls second (.selectDisplays selected)) (position : List Call)
    (selections : List NegotiateDisplay) :
    Succeeded calls position (.selectDisplays selections)
      ↔ position = second ∧ selections = selected :=
  succeeded_iff (fun _ _ => Call.selectDisplays.inj) (fun _ _ => rfl) (by simp [Call.target])
    hsecond position selections

/-- A call to `select_displays` succeeded with the selections while the offer was held. -/
def SelectedFrom (calls : List Call) (offer : SessionOffer) (selections : List NegotiateDisplay) :
    Prop :=
  ∃ position, Succeeded calls position (.selectDisplays selections)
    ∧ (run step new position).state = .offerReceived offer

/-- Every entry names a display of the offer, or asks for a virtual one that the offer supports. -/
def WithinOffer (offer : SessionOffer) (selections : List NegotiateDisplay) : Prop :=
  ∀ entry ∈ selections,
    match entry.displayId with
    | some id => ∃ display ∈ offer.displays, display.id = id
    | none => offer.supportsVirtualDisplay = true

/-- **What is accepted is the selection made on the offer.** One offer was received, at one position
of the run, and one selection made, at one later position while the offer was held. It is within the
offer if what callers select is within the offers they select from. -/
theorem accepted_is_selected_from_offer (calls : List Call) (selected : List NegotiateDisplay)
    (haccept : (run step new calls).accept.1 = .ok selected) :
    ∃ offer first second, first.length < second.length
      ∧ (∀ position o, Succeeded calls position (.receiveOffer o)
          ↔ position = first ∧ o = offer)
      ∧ (∀ position selections, Succeeded calls position (.selectDisplays selections)
          ↔ position = second ∧ selections = selected)
      ∧ (run step new second).state = .offerReceived offer
      ∧ ((∀ o selections, SelectedFrom calls o selections → WithinOffer o selections) →
        WithinOffer offer selected) := by
  have hexplains := explains_run calls
  rw [accept_eq_ok_iff.mp haccept] at hexplains
  obtain ⟨first, offer, second, hlength, hfirst, hsecond, hheld⟩ := hexplains
  exact ⟨offer, first, second, hlength, succeeded_receiveOffer_iff hfirst,
    succeeded_selectDisplays_iff hsecond, hheld,
    fun hwithin => hwithin offer selected ⟨second, hsecond, hheld⟩⟩

theorem accepted_is_selected_from_offer_primary :
    let offered : SessionOffer :=
      ⟨"dev-machine", [⟨⟨0⟩, "Primary", ⟨1920, 1080⟩, 60, false⟩], ⟨[]⟩, 60, false⟩
    let selected : List NegotiateDisplay := [⟨some ⟨0⟩, ⟨1920, 1080⟩, 60⟩]
    let calls : List Call := [.receiveOffer offered, .selectDisplays selected]
    ∃ offer first second, first.length < second.length
      ∧ (∀ position o, Succeeded calls position (.receiveOffer o)
          ↔ position = first ∧ o = offer)
      ∧ (∀ position selections, Succeeded calls position (.selectDisplays selections)
          ↔ position = second ∧ selections = selected)
      ∧ (run step new second).state = .offerReceived offer
      ∧ ((∀ o selections, SelectedFrom calls o selections → WithinOffer o selections) →
        WithinOffer offer selected) :=
  accepted_is_selected_from_offer _ _ rfl

/-- A selection of display 7 is accepted although only display 0 was offered. -/
theorem accepts_display_not_offered :
    ¬ ∀ (calls : List Call) (selected : List NegotiateDisplay),
        (run step new calls).accept.1 = .ok selected →
        ∃ offer position, Succeeded calls position (.receiveOffer offer)
          ∧ WithinOffer offer selected := by
  intro hall
  let offered : SessionOffer :=
    ⟨"dev-machine", [⟨⟨0⟩, "Primary", ⟨1920, 1080⟩, 60, false⟩], ⟨[]⟩, 60, false⟩
  let selected : List NegotiateDisplay := [⟨some ⟨7⟩, ⟨1920, 1080⟩, 60⟩]
  obtain ⟨offer, position, hreceived, hwithin⟩ :=
    hall [.receiveOffer offered, .selectDisplays selected] selected rfl
  have hfirst : Succeeded [.receiveOffer offered, .selectDisplays selected] []
      (.receiveOffer offered) := ⟨⟨_, rfl⟩, rfl⟩
  obtain ⟨_, rfl⟩ := (succeeded_receiveOffer_iff hfirst position offer).mp hreceived
  obtain ⟨display, hdisplay, hid⟩ := hwithin _ List.mem_cons_self
  obtain rfl := List.mem_singleton.mp hdisplay
  exact absurd hid (by decide)

end QuicView.Negotiator
