import Mathlib.Data.List.Induction

/-!
# Machines that answer, and what refines what

A machine takes inputs one after another and answers each. It refines a specification when every
step from related states is allowed and leads to related states.
-/

namespace Refinement

variable {State Spec Input Output : Type*}

def trace (step : State → Input → Output × State) :
    State → List Input → List (Input × Output) × State
  | state, [] => ([], state)
  | state, input :: inputs =>
      let answer := step state input
      let later := trace step answer.2 inputs
      ((input, answer.1) :: later.1, later.2)

inductive Allowed (Step : Spec → Input → Output → Spec → Prop) :
    Spec → List (Input × Output) → Spec → Prop where
  | nil {spec : Spec} : Allowed Step spec [] spec
  | cons {spec next last : Spec} {input : Input} {output : Output}
      {later : List (Input × Output)} (hstep : Step spec input output next)
      (hlater : Allowed Step next later last) : Allowed Step spec ((input, output) :: later) last

def Refines (step : State → Input → Output × State) (Step : Spec → Input → Output → Spec → Prop)
    (Rel : State → Spec → Prop) : Prop :=
  ∀ state spec input, Rel state spec →
    ∃ next, Step spec input (step state input).1 next ∧ Rel (step state input).2 next

variable {step : State → Input → Output × State} {Step : Spec → Input → Output → Spec → Prop}
  {Rel : State → Spec → Prop}

theorem Refines.allowed_trace (h : Refines step Step Rel) (state : State) (spec : Spec)
    (hrel : Rel state spec) (inputs : List Input) :
    ∃ last, Allowed Step spec (trace step state inputs).1 last
      ∧ Rel (trace step state inputs).2 last := by
  induction inputs generalizing state spec with
  | nil => exact ⟨spec, .nil, hrel⟩
  | cons input inputs ih =>
      obtain ⟨next, hstep, hnext⟩ := h state spec input hrel
      obtain ⟨last, hlater, hlast⟩ := ih _ next hnext
      exact ⟨last, .cons hstep hlater, hlast⟩

theorem Allowed.exists_of_append {first last : Spec} {before after : List (Input × Output)}
    (h : Allowed Step first (before ++ after) last) :
    ∃ middle, Allowed Step first before middle ∧ Allowed Step middle after last := by
  induction before generalizing first with
  | nil => exact ⟨first, .nil, h⟩
  | cons entry before ih =>
      cases h with
      | cons hstep hlater =>
          obtain ⟨middle, hbefore, hafter⟩ := ih hlater
          exact ⟨middle, .cons hstep hbefore, hafter⟩

theorem Allowed.run {motive : List (Input × Output) → Spec → Prop} {first last : Spec}
    {entries : List (Input × Output)} (h : Allowed Step first entries last)
    (hfirst : motive [] first)
    (hstep : ∀ before spec input output next, motive before spec → Step spec input output next →
      motive (before ++ [(input, output)]) next) : motive entries last := by
  induction entries using List.reverseRecOn generalizing last with
  | nil =>
      cases h
      exact hfirst
  | append_singleton entries entry ih =>
      obtain ⟨middle, hbefore, hlast⟩ := h.exists_of_append
      obtain ⟨input, output⟩ := entry
      cases hlast with
      | cons hanswer hnil =>
          cases hnil
          exact hstep entries middle input output last (ih hbefore) hanswer

end Refinement
