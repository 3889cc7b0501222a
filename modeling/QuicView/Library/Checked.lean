import Mathlib.Algebra.Ring.Int.Defs
import Mathlib.Algebra.Ring.Nat
import Mathlib.Data.Int.Basic

/-!
# Checked arithmetic

A checked operation gives what the wrapping one gives, or nothing where that is not the result in
the integers. A computation put together from checked operations has a condition of the same kind.
-/

def Int32.checkedAdd (a b : Int32) : Option Int32 :=
  if -2 ^ 31 ≤ a.toInt + b.toInt ∧ a.toInt + b.toInt < 2 ^ 31 then some (a + b) else none

def Int32.checkedSub (a b : Int32) : Option Int32 :=
  if -2 ^ 31 ≤ a.toInt - b.toInt ∧ a.toInt - b.toInt < 2 ^ 31 then some (a - b) else none

def Int32.checkedMul (a b : Int32) : Option Int32 :=
  if -2 ^ 31 ≤ a.toInt * b.toInt ∧ a.toInt * b.toInt < 2 ^ 31 then some (a * b) else none

def UInt32.checkedToInt32 (n : UInt32) : Option Int32 :=
  if n.toNat < 2 ^ 31 then some n.toInt32 else none

def UInt64.checkedMul (a b : UInt64) : Option UInt64 :=
  if a.toNat * b.toNat < 2 ^ 64 then some (a * b) else none

namespace Checked

universe u

variable {α β : Type u}

/-- `result` is `value` where it is `safe`, and nothing elsewhere. -/
structure Computes (result : Option α) (safe : Prop) (value : α) : Prop where
  eq_some : safe → result = some value
  safe_of_isSome : result.isSome → safe

variable {result : Option α} {safe safe' : Prop} {value : α}

theorem Computes.eq_some_iff (h : Computes result safe value) : result = some value ↔ safe :=
  ⟨fun heq => h.safe_of_isSome (Option.isSome_of_eq_some heq), h.eq_some⟩

theorem Computes.congr (h : Computes result safe value) (hiff : safe ↔ safe') :
    Computes result safe' value :=
  ⟨fun hsafe => h.eq_some (hiff.mpr hsafe), fun hsome => hiff.mp (h.safe_of_isSome hsome)⟩

theorem Computes.ite [Decidable safe] :
    Computes (if safe then some value else none) safe value := by
  constructor
  · intro hsafe
    rw [if_pos hsafe]
  · intro hsome
    by_contra hnot
    rw [if_neg hnot] at hsome
    exact Bool.noConfusion hsome

theorem Computes.pure (value : α) : Computes (some value) True value :=
  ⟨fun _ => rfl, fun _ => trivial⟩

theorem Computes.bind {next : α → Option β} {value' : β} (h : Computes result safe value)
    (hnext : safe → Computes (next value) safe' value') :
    Computes (result >>= next) (safe ∧ safe') value' := by
  constructor
  · rintro ⟨hsafe, hsafe'⟩
    rw [h.eq_some hsafe]
    exact (hnext hsafe).eq_some hsafe'
  · intro hsome
    cases hresult : result with
    | none =>
        rw [hresult] at hsome
        exact Bool.noConfusion hsome
    | some a =>
        have hsafe : safe := h.safe_of_isSome (Option.isSome_of_eq_some hresult)
        rw [h.eq_some hsafe] at hsome
        exact ⟨hsafe, (hnext hsafe).safe_of_isSome hsome⟩

theorem Computes.map (f : α → β) (h : Computes result safe value) :
    Computes (result >>= fun a => some (f a)) safe (f value) :=
  (h.bind fun _ => .pure (f value)).congr (and_iff_left trivial)

theorem Computes.mapM {f : α → Option β} {g : α → β} {Safe : α → Prop}
    (h : ∀ a, Computes (f a) (Safe a) (g a)) (as : List α) :
    Computes (as.mapM f) (∀ a ∈ as, Safe a) (as.map g) := by
  induction as with
  | nil => exact (Computes.pure []).congr (by simp)
  | cons a as ih =>
      rw [List.mapM_cons, List.map_cons]
      refine Computes.congr (Computes.bind (h a) ?_) List.forall_mem_cons.symm
      exact fun _ => ih.map (g a :: ·)

end Checked
