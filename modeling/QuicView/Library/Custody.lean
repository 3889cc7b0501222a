import Mathlib.Data.List.Count
import QuicView.Library.Execution

/-!
# Handles held and given back

A program is handed resources by a system it does not own, and has to give each of them back. The
ledger is what its deeds so far leave behind: the handles held and what is attached to which. The
system may hand out a handle that is held already, so the ledger counts handles.
-/

namespace Custody

inductive Deed (Handle : Type*) where
  | acquire (handle : Handle)
  | use (handle : Handle)
  | attach (whole part : Handle)
  | release (handle : Handle)
  deriving DecidableEq

structure Ledger (Handle : Type*) where
  held : List Handle
  /-- Each whole with the part last attached to it. -/
  attached : List (Handle × Handle)
  deriving DecidableEq

variable {Handle : Type*} [DecidableEq Handle]

def empty : Ledger Handle := ⟨[], []⟩

def step (ledger : Ledger Handle) : Deed Handle → Ledger Handle
  | .acquire handle => { ledger with held := handle :: ledger.held }
  | .use _ => ledger
  | .attach whole part =>
      { ledger with
        attached := (whole, part) :: ledger.attached.filter fun entry => entry.1 ≠ whole }
  | .release handle =>
      { held := ledger.held.erase handle
        attached := ledger.attached.filter fun entry => entry.1 ≠ handle }

def Allowed (ledger : Ledger Handle) : Deed Handle → Prop
  | .acquire _ => True
  | .use handle => handle ∈ ledger.held
  | .attach whole _ => whole ∈ ledger.held
  | .release handle =>
      handle ∈ ledger.held ∧ ∀ entry ∈ ledger.attached,
        entry.2 ≠ handle ∧ (entry.1 = handle → entry.2 ∉ ledger.held)

abbrev after (deeds : List (Deed Handle)) : Ledger Handle := Execution.run step empty deeds

abbrev Proper (ledger : Ledger Handle) (deeds : List (Deed Handle)) : Prop :=
  Execution.Guarded step Allowed ledger deeds

/-- The deeds lead from one ledger to the other, each allowed when it is done, and at no time are
more handles held than the limit. -/
structure Moves (limit : Nat) (ledger : Ledger Handle) (deeds : List (Deed Handle))
    (next : Ledger Handle) : Prop where
  proper : Proper ledger deeds
  within : Execution.Always step (fun ledger => ledger.held.length ≤ limit) ledger deeds
  reaches : Execution.run step ledger deeds = next

/-- What is acquired in the course of the deeds is released in the course of them. -/
abbrev Settled (limit : Nat) (deeds : List (Deed Handle)) : Prop := Moves limit empty deeds empty

variable {ledger : Ledger Handle} {deeds : List (Deed Handle)} {handle : Handle}

theorem count_held (hproper : Proper ledger deeds) (handle : Handle) :
    (Execution.run step ledger deeds).held.count handle + deeds.count (.release handle)
      = ledger.held.count handle + deeds.count (.acquire handle) := by
  induction deeds generalizing ledger with
  | nil => simp
  | cons deed deeds ih =>
      obtain ⟨hallowed, hrest⟩ := Execution.guarded_cons.mp hproper
      have hlater := ih hrest
      rw [Execution.run_cons, List.count_cons, List.count_cons]
      cases deed with
      | acquire other =>
          rw [step, List.count_cons] at hlater
          simp only [beq_iff_eq, Deed.acquire.injEq, reduceCtorEq, if_false] at hlater ⊢
          rw [step]
          omega
      | use other => simpa [step] using hlater
      | attach whole part => simpa [step] using hlater
      | release other =>
          rw [step, List.count_erase] at hlater
          simp only [beq_iff_eq, Deed.release.injEq, reduceCtorEq, if_false] at hlater ⊢
          rw [step]
          by_cases hsame : other = handle
          · subst hsame
            have hheld : 0 < ledger.held.count other := List.count_pos_iff.mpr hallowed.1
            simp only [if_true] at hlater ⊢
            omega
          · simp only [if_neg hsame] at hlater ⊢
            omega

theorem Moves.count_release {limit : Nat} (hsettled : Settled limit deeds) (handle : Handle) :
    deeds.count (.release handle) = deeds.count (.acquire handle) := by
  have hcount := count_held hsettled.proper handle
  rw [hsettled.reaches] at hcount
  omega

theorem Proper.released_lt_acquired {before later : List (Deed Handle)}
    (hproper : Proper empty (before ++ .use handle :: later)) :
    before.count (.release handle) < before.count (.acquire handle) := by
  obtain ⟨hbefore, huse⟩ := (Execution.guarded_append _).mp hproper
  have hheld : handle ∈ (after before).held := (Execution.guarded_cons.mp huse).1
  have hpos : 0 < (after before).held.count handle := List.count_pos_iff.mpr hheld
  calc before.count (.release handle)
      < (after before).held.count handle + before.count (.release handle) := by omega
    _ = (empty : Ledger Handle).held.count handle + before.count (.acquire handle) :=
        count_held hbefore handle
    _ = before.count (.acquire handle) := by rw [empty, List.count_nil, Nat.zero_add]

theorem moves_nil {limit : Nat} (hheld : ledger.held.length ≤ limit) :
    Moves limit ledger [] ledger :=
  ⟨Execution.guarded_nil, Execution.always_nil.mpr hheld, rfl⟩

theorem Moves.append {limit : Nat} {more : List (Deed Handle)} {next last : Ledger Handle}
    (hdeeds : Moves limit ledger deeds next) (hmore : Moves limit next more last) :
    Moves limit ledger (deeds ++ more) last := by
  have hnext := hdeeds.reaches
  refine ⟨(Execution.guarded_append _).mpr ⟨hdeeds.proper, ?_⟩,
    (Execution.always_append _).mpr ⟨hdeeds.within, ?_⟩, ?_⟩
  · rw [hnext]
    exact hmore.proper
  · rw [hnext]
    exact hmore.within
  · rw [Execution.run_append, hnext]
    exact hmore.reaches

theorem Moves.cons {limit : Nat} {deed : Deed Handle} {last : Ledger Handle}
    (hallowed : Allowed ledger deed) (hheld : ledger.held.length ≤ limit)
    (hrest : Moves limit (step ledger deed) deeds last) :
    Moves limit ledger (deed :: deeds) last :=
  ⟨Execution.guarded_cons.mpr ⟨hallowed, hrest.proper⟩,
    Execution.always_cons.mpr ⟨hheld, hrest.within⟩, hrest.reaches⟩

end Custody
