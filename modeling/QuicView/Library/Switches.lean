import Mathlib.Data.Set.Function
import QuicView.Library.Execution
import QuicView.Library.Standing

namespace Switches

open Execution Standing

structure Turn (Switch : Type*) where
  switch : Switch
  on : Bool
  deriving DecidableEq, Repr

variable {Switch Name : Type*} {turns : List (Turn Switch)} {switch : Switch}

def Turn.map (rename : Switch → Name) (turn : Turn Switch) : Turn Name :=
  ⟨rename turn.switch, turn.on⟩

def step (on : Set Switch) (turn : Turn Switch) : Set Switch :=
  if turn.on then insert turn.switch on else on \ {turn.switch}

def held (turns : List (Turn Switch)) : Set Switch := run step ∅ turns

theorem held_concat (turns : List (Turn Switch)) (turn : Turn Switch) :
    held (turns ++ [turn]) = step (held turns) turn := run_concat

theorem mem_step_self (on : Set Switch) (turn : Turn Switch) :
    turn.switch ∈ step on turn ↔ turn.on = true := by
  unfold step
  cases turn.on <;> simp

theorem mem_step_of_ne {on : Set Switch} {turn : Turn Switch} (hne : turn.switch ≠ switch) :
    switch ∈ step on turn ↔ switch ∈ on := by
  unfold step
  cases turn.on <;> simp [hne.symm]

/-! ### Renaming -/

variable {rename : Switch → Name} {name : Name}

theorem mem_held_map_iff :
    name ∈ held (turns.map (.map rename))
      ↔ Stands (fun turn => rename turn.switch = name ∧ turn.on = true)
          (fun turn => rename turn.switch = name) turns := by
  induction turns using List.reverseRecOn with
  | nil => exact iff_of_false (Set.notMem_empty name) not_stands_nil
  | append_singleton turns turn ih =>
      rw [List.map_append, List.map_singleton, held_concat, stands_concat, ← ih]
      by_cases hturn : rename turn.switch = name
      · have hself := mem_step_self (held (turns.map (.map rename))) (turn.map rename)
        subst hturn
        constructor
        · exact fun hmem => .inl ⟨rfl, hself.mp hmem⟩
        · rintro (⟨-, hon⟩ | ⟨-, hother⟩)
          · exact hself.mpr hon
          · exact absurd rfl hother
      · have hother : (turn.map rename).switch ≠ name := hturn
        rw [mem_step_of_ne hother]
        constructor
        · exact fun hmem => .inr ⟨hmem, hturn⟩
        · rintro (⟨hself, -⟩ | ⟨hmem, -⟩)
          · exact absurd hself hturn
          · exact hmem

def named (turns : List (Turn Switch)) : Set Switch :=
  {switch | ∃ turn ∈ turns, turn.switch = switch}

theorem step_subset (on : Set Switch) (turn : Turn Switch) :
    step on turn ⊆ insert turn.switch on := by
  unfold step
  split
  · exact subset_rfl
  · exact Set.sdiff_subset.trans (Set.subset_insert _ _)

theorem named_concat (turns : List (Turn Switch)) (turn : Turn Switch) :
    named (turns ++ [turn]) = insert turn.switch (named turns) := by
  ext switch
  simp only [named, Set.mem_ofPred_eq, Set.mem_insert_iff, List.mem_append, List.mem_singleton]
  constructor
  · rintro ⟨other, hmem | rfl, rfl⟩
    · exact .inr ⟨other, hmem, rfl⟩
    · exact .inl rfl
  · rintro (rfl | ⟨other, hmem, rfl⟩)
    · exact ⟨turn, .inr rfl, rfl⟩
    · exact ⟨other, .inl hmem, rfl⟩

theorem held_subset_named (turns : List (Turn Switch)) : held turns ⊆ named turns := by
  induction turns using List.reverseRecOn with
  | nil => exact Set.empty_subset _
  | append_singleton turns turn ih =>
      rw [held_concat, named_concat]
      exact (step_subset _ turn).trans (Set.insert_subset_insert ih)

theorem image_step {on : Set Switch} {turn : Turn Switch}
    (hinj : Set.InjOn rename (insert turn.switch on)) :
    rename '' step on turn = step (rename '' on) (turn.map rename) := by
  obtain ⟨switch, _ | _⟩ := turn
  · apply Set.Subset.antisymm
    · rintro _ ⟨other, ⟨hon, hne⟩, rfl⟩
      exact ⟨⟨other, hon, rfl⟩, fun heq => hne (hinj (.inr hon) (.inl rfl) heq)⟩
    · rintro _ ⟨⟨other, hon, rfl⟩, hne⟩
      exact ⟨other, ⟨hon, fun heq => hne (congrArg rename heq)⟩, rfl⟩
  · exact Set.image_insert_eq

theorem held_map (hinj : Set.InjOn rename (named turns)) :
    held (turns.map (.map rename)) = rename '' held turns := by
  induction turns using List.reverseRecOn with
  | nil => exact (Set.image_empty rename).symm
  | append_singleton turns turn ih =>
      rw [named_concat] at hinj
      have hheld : insert turn.switch (held turns) ⊆ insert turn.switch (named turns) :=
        Set.insert_subset_insert (held_subset_named turns)
      rw [List.map_append, List.map_singleton, held_concat, held_concat,
        image_step (hinj.mono hheld), ih (hinj.mono (Set.subset_insert _ _))]

end Switches
