import Mathlib.Data.List.Basic

namespace Standing

variable {Event : Type*}

/-- An event that `sets` the fact has been, and none that `lifts` it after that. -/
def Stands (sets lifts : Event → Prop) (events : List Event) : Prop :=
  ∃ before event after, events = before ++ event :: after ∧ sets event ∧ ∀ e ∈ after, ¬ lifts e

/-- As before, where what an event sets depends on the history it comes after. -/
def StandsFrom (sets : List Event → Event → Prop) (lifts : Event → Prop) (events : List Event) :
    Prop :=
  ∃ before event after, events = before ++ event :: after ∧ sets before event
    ∧ ∀ e ∈ after, ¬ lifts e

section

variable {sets : List Event → Event → Prop} {lifts : Event → Prop} {events : List Event}

theorem not_standsFrom_nil : ¬ StandsFrom sets lifts [] := by
  rintro ⟨before, event, after, heq, -⟩
  cases before <;> cases heq

theorem standsFrom_concat (event : Event) :
    StandsFrom sets lifts (events ++ [event])
      ↔ sets events event ∨ (StandsFrom sets lifts events ∧ ¬ lifts event) := by
  constructor
  · rintro ⟨before, setter, after, heq, hsets, hafter⟩
    rcases List.eq_nil_or_concat after with rfl | ⟨after', last, rfl⟩
    · obtain ⟨rfl, hlast⟩ := List.append_inj' heq rfl
      cases hlast
      exact .inl hsets
    · rw [List.concat_eq_append] at heq hafter
      rw [← List.cons_append, ← List.append_assoc] at heq
      obtain ⟨hevents, hlast⟩ := List.append_inj' heq rfl
      cases hlast
      right
      refine ⟨⟨before, setter, after', hevents, hsets, ?_⟩, ?_⟩
      · exact fun e hmem => hafter e (List.mem_append_left _ hmem)
      · exact hafter event (List.mem_append_right _ (List.mem_singleton_self _))
  · rintro (hsets | ⟨⟨before, setter, after, rfl, hsets, hafter⟩, hlifts⟩)
    · exact ⟨events, event, [], rfl, hsets, fun e hmem => absurd hmem List.not_mem_nil⟩
    · refine ⟨before, setter, after ++ [event], by simp, hsets, ?_⟩
      intro e hmem
      rcases List.mem_append.mp hmem with hmem | hmem
      · exact hafter e hmem
      · rwa [List.mem_singleton.mp hmem]

end

variable {sets lifts : Event → Prop} {events : List Event}

@[simp]
theorem not_stands_nil : ¬ Stands sets lifts [] := not_standsFrom_nil

theorem stands_concat (event : Event) :
    Stands sets lifts (events ++ [event])
      ↔ sets event ∨ (Stands sets lifts events ∧ ¬ lifts event) := standsFrom_concat event

theorem Stands.exists_mem (h : Stands sets lifts events) : ∃ event ∈ events, sets event := by
  obtain ⟨before, event, after, rfl, hsets, -⟩ := h
  exact ⟨event, List.mem_append_right _ List.mem_cons_self, hsets⟩

end Standing
