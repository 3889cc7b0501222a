import Mathlib.Data.List.Basic
import Mathlib.Data.List.Infix

/-!
# A ladder with hysteresis

A controller moves a level up and down a ladder of finitely many rungs, only after enough verdicts
of one kind in a row; a verdict of either kind clears the other's count.

Of two ladders started alike, the one that sees the heavier load at every step never stands higher.
Comparing levels alone is not preserved, since the counts drift apart. What is preserved compares
the counts too while the levels coincide, and there only the count that could part them in the wrong
direction.
-/

namespace Hysteresis

inductive Verdict where
  | below
  | within
  | above
  deriving DecidableEq, Repr

def Verdict.Lighter : Verdict → Verdict → Prop
  | .below, _ => True
  | .within, .below => False
  | .within, _ => True
  | .above, .above => True
  | .above, _ => False

structure Ladder where
  top : Nat
  fallAfter : Nat
  riseAfter : Nat

structure State where
  level : Nat
  overs : Nat
  unders : Nat
  deriving DecidableEq, Repr

variable (L : Ladder)

def step (s : State) : Verdict → State
  | .above =>
      if s.overs + 1 ≥ L.fallAfter then { level := s.level - 1, overs := 0, unders := 0 }
      else { level := s.level, overs := s.overs + 1, unders := 0 }
  | .below =>
      if s.unders + 1 ≥ L.riseAfter then
        { level := min (s.level + 1) L.top, overs := 0, unders := 0 }
      else { level := s.level, overs := 0, unders := s.unders + 1 }
  | .within => { level := s.level, overs := 0, unders := 0 }

/-- The state `loaded` of a ladder that saw the heavier load, against the state `idle` of one that
saw the lighter. -/
structure Dominated (loaded idle : State) : Prop where
  level_le : loaded.level ≤ idle.level
  overs_le : loaded.level = idle.level → 0 < idle.level → idle.overs ≤ loaded.overs
  unders_le : loaded.level = idle.level → idle.level < L.top → loaded.unders ≤ idle.unders

theorem Dominated.refl (s : State) : Dominated L s s :=
  ⟨le_rfl, fun _ _ => le_rfl, fun _ _ => le_rfl⟩

variable {L} {loaded idle : State}

theorem Dominated.above (h : Dominated L loaded idle) :
    Dominated L (step L loaded .above) (step L idle .above) := by
  obtain ⟨hlevel, hovers, _⟩ := h
  simp only [step]
  split <;> split <;> constructor <;> simp only <;> omega

theorem Dominated.below (h : Dominated L loaded idle) (hidle : idle.level ≤ L.top) :
    Dominated L (step L loaded .below) (step L idle .below) := by
  obtain ⟨hlevel, _, hunders⟩ := h
  simp only [step]
  split <;> split <;> constructor <;> simp only <;> omega

theorem Dominated.apart (h : Dominated L loaded idle) (hidle : idle.level ≤ L.top)
    {light heavy : Verdict} (hlight : light ≠ .above) (hheavy : heavy ≠ .below) :
    Dominated L (step L loaded heavy) (step L idle light) := by
  have hlevel := h.level_le
  have hloaded : (step L loaded heavy).level ≤ loaded.level ∧ (step L loaded heavy).unders = 0 := by
    cases heavy with
    | below => exact absurd rfl hheavy
    | within => exact ⟨Nat.le_refl _, rfl⟩
    | above =>
        rw [step]
        split
        · exact ⟨Nat.sub_le _ _, rfl⟩
        · exact ⟨Nat.le_refl _, rfl⟩
  have hidle' : idle.level ≤ (step L idle light).level ∧ (step L idle light).overs = 0 := by
    cases light with
    | above => exact absurd rfl hlight
    | within => exact ⟨Nat.le_refl _, rfl⟩
    | below =>
        rw [step]
        split
        · exact ⟨Nat.le_min.mpr ⟨Nat.le_succ _, hidle⟩, rfl⟩
        · exact ⟨Nat.le_refl _, rfl⟩
  constructor
  · omega
  · intro _ _
    omega
  · intro _ _
    omega

theorem Dominated.step (h : Dominated L loaded idle) (hidle : idle.level ≤ L.top)
    {light heavy : Verdict} (hlighter : light.Lighter heavy) :
    Dominated L (step L loaded heavy) (step L idle light) := by
  by_cases hlight : light = .above
  · subst hlight
    cases heavy with
    | above => exact h.above
    | below => exact hlighter.elim
    | within => exact hlighter.elim
  by_cases hheavy : heavy = .below
  · subst hheavy
    cases light with
    | below => exact h.below hidle
    | within => exact hlighter.elim
    | above => exact absurd rfl hlight
  exact h.apart hidle hlight hheavy

/-! ### What the counts remember -/

/-- The counts of a ladder that has seen the verdicts, oldest first. -/
structure Counts (history : List Verdict) (s : State) : Prop where
  overs : List.replicate s.overs .above <:+ history
  unders : List.replicate s.unders .below <:+ history
  exclusive : s.overs = 0 ∨ s.unders = 0

theorem counts_of_zero (history : List Verdict) (level : Nat) :
    Counts history { level, overs := 0, unders := 0 } :=
  ⟨List.nil_suffix, List.nil_suffix, .inl rfl⟩

theorem replicate_succ_suffix_concat {history : List Verdict} {count : Nat} {verdict : Verdict}
    (h : List.replicate count verdict <:+ history) :
    List.replicate (count + 1) verdict <:+ history ++ [verdict] := by
  rw [List.replicate_succ']
  exact List.suffix_append_self_iff.mpr h

variable {history : List Verdict} {s : State}

theorem Counts.step (h : Counts history s) (verdict : Verdict) :
    Counts (history ++ [verdict]) (step L s verdict) := by
  cases verdict with
  | above =>
      simp only [Hysteresis.step]
      split
      · exact counts_of_zero _ _
      · exact ⟨replicate_succ_suffix_concat h.overs, List.nil_suffix, .inr rfl⟩
  | below =>
      simp only [Hysteresis.step]
      split
      · exact counts_of_zero _ _
      · exact ⟨List.nil_suffix, replicate_succ_suffix_concat h.unders, .inl rfl⟩
  | within => exact counts_of_zero _ _

/-! ### When the level moves -/

theorem step_level_lt_iff (hlevel : s.level ≤ L.top) {verdict : Verdict} :
    (Hysteresis.step L s verdict).level < s.level
      ↔ verdict = .above ∧ L.fallAfter ≤ s.overs + 1 ∧ 0 < s.level := by
  cases verdict with
  | above =>
      simp only [Hysteresis.step, true_and]
      split <;> simp only <;> omega
  | below =>
      simp only [Hysteresis.step, reduceCtorEq, false_and, iff_false]
      split <;> simp only <;> omega
  | within => simp [Hysteresis.step]

theorem level_lt_step_iff {verdict : Verdict} :
    s.level < (Hysteresis.step L s verdict).level
      ↔ verdict = .below ∧ L.riseAfter ≤ s.unders + 1 ∧ s.level < L.top := by
  cases verdict with
  | above =>
      simp only [Hysteresis.step, reduceCtorEq, false_and, iff_false]
      split <;> simp only <;> omega
  | below =>
      simp only [Hysteresis.step, true_and]
      split <;> simp only <;> omega
  | within => simp [Hysteresis.step]

theorem Counts.fell (h : Counts history s) (hlevel : s.level ≤ L.top)
    (hovers : s.overs < L.fallAfter) {verdict : Verdict}
    (hfell : (Hysteresis.step L s verdict).level < s.level) :
    List.replicate L.fallAfter .above <:+ history ++ [verdict] := by
  obtain ⟨rfl, hfull, _⟩ := (step_level_lt_iff hlevel).mp hfell
  have hcount : L.fallAfter = s.overs + 1 := by omega
  rw [hcount]
  exact replicate_succ_suffix_concat h.overs

theorem Counts.rose (h : Counts history s) (hunders : s.unders < L.riseAfter) {verdict : Verdict}
    (hrose : s.level < (Hysteresis.step L s verdict).level) :
    List.replicate L.riseAfter .below <:+ history ++ [verdict] := by
  obtain ⟨rfl, hfull, _⟩ := level_lt_step_iff.mp hrose
  have hcount : L.riseAfter = s.unders + 1 := by omega
  rw [hcount]
  exact replicate_succ_suffix_concat h.unders

theorem level_step_le (hlevel : s.level ≤ L.top) (verdict : Verdict) :
    (Hysteresis.step L s verdict).level ≤ s.level + 1
      ∧ s.level ≤ (Hysteresis.step L s verdict).level + 1 := by
  cases verdict with
  | above =>
      simp only [Hysteresis.step]
      split <;> simp only <;> omega
  | below =>
      simp only [Hysteresis.step]
      split <;> simp only <;> omega
  | within => simp only [Hysteresis.step]; omega

/-! ### Runs of one verdict -/

theorem succ_div_mod_of_eq {count after : Nat} (hafter : 0 < after)
    (hfull : count % after + 1 = after) :
    (count + 1) / after = count / after + 1 ∧ (count + 1) % after = 0 := by
  have hcount := Nat.div_add_mod count after
  rw [Nat.div_mod_unique hafter, Nat.mul_succ]
  omega

theorem succ_div_mod_of_ne {count after : Nat} (hafter : 0 < after)
    (hmore : count % after + 1 ≠ after) :
    (count + 1) / after = count / after ∧ (count + 1) % after = count % after + 1 := by
  have hcount := Nat.div_add_mod count after
  have hlt := Nat.mod_lt count hafter
  rw [Nat.div_mod_unique hafter]
  omega

/-- **How far a run of verdicts above lowers the level.** A full count is a rung. -/
theorem foldl_above (hfall : 0 < L.fallAfter) (hovers : s.overs < L.fallAfter) (n : Nat) :
    ((List.replicate n .above).foldl (Hysteresis.step L) s).level
        = s.level - (s.overs + n) / L.fallAfter
      ∧ ((List.replicate n .above).foldl (Hysteresis.step L) s).overs
        = (s.overs + n) % L.fallAfter := by
  induction n with
  | zero =>
      rw [Nat.add_zero, Nat.div_eq_of_lt hovers, Nat.mod_eq_of_lt hovers]
      exact ⟨rfl, rfl⟩
  | succ n ih =>
      rw [List.replicate_succ', List.foldl_append, List.foldl_cons, List.foldl_nil,
        ← Nat.add_assoc]
      generalize (List.replicate n Verdict.above).foldl (Hysteresis.step L) s = next at ih ⊢
      obtain ⟨hlevel, hcount⟩ := ih
      have hlt := Nat.mod_lt (s.overs + n) hfall
      simp only [Hysteresis.step]
      by_cases hfull : (s.overs + n) % L.fallAfter + 1 = L.fallAfter
      · obtain ⟨hdiv, hmod⟩ := succ_div_mod_of_eq hfall hfull
        rw [if_pos (by omega), hdiv, hmod]
        exact ⟨by simp only; omega, rfl⟩
      · obtain ⟨hdiv, hmod⟩ := succ_div_mod_of_ne hfall hfull
        rw [if_neg (by omega), hdiv, hmod]
        exact ⟨hlevel, congrArg (· + 1) hcount⟩

theorem foldl_below (hrise : 0 < L.riseAfter) (hunders : s.unders < L.riseAfter)
    (htop : s.level ≤ L.top) (n : Nat) :
    ((List.replicate n .below).foldl (Hysteresis.step L) s).level
        = min (s.level + (s.unders + n) / L.riseAfter) L.top
      ∧ ((List.replicate n .below).foldl (Hysteresis.step L) s).unders
        = (s.unders + n) % L.riseAfter := by
  induction n with
  | zero =>
      rw [Nat.add_zero, Nat.div_eq_of_lt hunders, Nat.mod_eq_of_lt hunders]
      exact ⟨(Nat.min_eq_left htop).symm, rfl⟩
  | succ n ih =>
      rw [List.replicate_succ', List.foldl_append, List.foldl_cons, List.foldl_nil,
        ← Nat.add_assoc]
      generalize (List.replicate n Verdict.below).foldl (Hysteresis.step L) s = next at ih ⊢
      obtain ⟨hlevel, hcount⟩ := ih
      have hlt := Nat.mod_lt (s.unders + n) hrise
      simp only [Hysteresis.step]
      by_cases hfull : (s.unders + n) % L.riseAfter + 1 = L.riseAfter
      · obtain ⟨hdiv, hmod⟩ := succ_div_mod_of_eq hrise hfull
        rw [if_pos (by omega), hdiv, hmod]
        exact ⟨by simp only; omega, rfl⟩
      · obtain ⟨hdiv, hmod⟩ := succ_div_mod_of_ne hrise hfull
        rw [if_neg (by omega), hdiv, hmod]
        exact ⟨hlevel, congrArg (· + 1) hcount⟩

end Hysteresis
