import Mathlib.Data.List.Basic

/-!
# Scanners

A scanner reads from the front of a text and gives back what it read and what is left, or fails and
leaves the text alone. It *ends at* a text when it stops before it as it does at the very end, so
that a reader of whole texts can be put to use inside longer ones.
-/

abbrev Scanner (α : Type) := StateT (List Char) Option α

namespace Scanner

variable {α β : Type}

def EndsAt (p : Scanner α) (t : List Char) : Prop :=
  ∀ s, p.run (s ++ t) = (p.run s).map fun (a, rest) => (a, rest ++ t)

variable {p : Scanner α} {t : List Char}

theorem endsAt_pure (a : α) : (pure a : Scanner α).EndsAt t := fun _ => rfl

theorem EndsAt.bind {f : α → Scanner β} (hp : p.EndsAt t) (hf : ∀ a, (f a).EndsAt t) :
    (p >>= f).EndsAt t := by
  intro s
  rw [StateT.run_bind, StateT.run_bind, hp s]
  cases p.run s with
  | none => rfl
  | some read => exact hf read.1 read.2

theorem EndsAt.map (f : α → β) (hp : p.EndsAt t) : (f <$> p).EndsAt t := by
  intro s
  rw [StateT.run_map, StateT.run_map, hp s]
  cases p.run s <;> rfl

theorem endsAt_guard (c : Prop) [Decidable c] : (guard c : Scanner Unit).EndsAt t := by
  unfold guard
  split
  · exact endsAt_pure ()
  · exact fun _ => rfl

theorem run_bind_of_some {f : α → Scanner β} {a : α} {s rest : List Char}
    (hread : p.run s = some (a, rest)) : (p >>= f).run s = (f a).run rest := by
  rw [StateT.run_bind, hread]
  rfl

theorem run_bind_of_none {f : α → Scanner β} {s : List Char} (hfails : p.run s = none) :
    (p >>= f).run s = none := by
  rw [StateT.run_bind, hfails]
  rfl

theorem run_map_of_some {f : α → β} {a : α} {s rest : List Char}
    (hread : p.run s = some (a, rest)) : (f <$> p).run s = some (f a, rest) := by
  rw [StateT.run_map, hread]
  rfl

theorem run_map_of_none {f : α → β} {s : List Char} (hfails : p.run s = none) :
    (f <$> p).run s = none := by
  rw [StateT.run_map, hfails]
  rfl

theorem exists_of_run_map {f : α → β} {b : β} {s rest : List Char}
    (hread : (f <$> p).run s = some (b, rest)) : ∃ a, f a = b ∧ p.run s = some (a, rest) := by
  rw [StateT.run_map, Option.map_eq_map, Option.map_eq_some_iff] at hread
  obtain ⟨⟨a, rest'⟩, hp, heq⟩ := hread
  obtain ⟨rfl, rfl⟩ := Prod.mk.inj heq
  exact ⟨a, rfl, hp⟩

theorem run_guard_bind (c : Prop) [Decidable c] (f : Unit → Scanner β) (s : List Char) :
    (guard c >>= f).run s = if c then (f ()).run s else none := by
  unfold guard
  split <;> rfl

theorem run_orElse (p q : Scanner α) (s : List Char) :
    (p <|> q).run s = (p.run s).or (q.run s) := by
  show (p.run s <|> q.run s) = _
  cases p.run s <;> rfl

theorem run_optional_of_some {a : α} {s rest : List Char} (hread : p.run s = some (a, rest)) :
    (optional p).run s = some (some a, rest) := by
  rw [optional, run_orElse, run_map_of_some hread]
  rfl

theorem run_optional_of_none {s : List Char} (hfails : p.run s = none) :
    (optional p).run s = some (none, s) := by
  rw [optional, run_orElse, run_map_of_none hfails]
  rfl

theorem endsAt_optional (hp : p.EndsAt t) : (optional p).EndsAt t := by
  intro s
  cases hread : p.run s with
  | some read =>
      rw [run_optional_of_some hread, run_optional_of_some (by rw [hp s, hread]; rfl)]
      rfl
  | none =>
      rw [run_optional_of_none hread, run_optional_of_none (by rw [hp s, hread]; rfl)]
      rfl

/-! ### One character -/

def char (target : Char) : Scanner Unit := fun
  | [] => none
  | c :: rest => if c = target then some ((), rest) else none

@[simp]
theorem run_char_self (target : Char) (rest : List Char) :
    (char target).run (target :: rest) = some ((), rest) :=
  if_pos rfl

theorem run_char_ne {target : Char} {s : List Char} (hne : s.head? ≠ some target) :
    (char target).run s = none := by
  cases s with
  | nil => rfl
  | cons c rest => exact if_neg fun heq => hne (congrArg some heq)

theorem endsAt_char {target : Char} (hne : t.head? ≠ some target) : (char target).EndsAt t := by
  intro s
  cases s with
  | nil => exact run_char_ne hne
  | cons c rest =>
      show (if c = target then some ((), rest ++ t) else none) = Option.map _ (if _ then _ else _)
      split <;> rfl

/-! ### Digits -/

def digitValue (c : Char) : Option ℕ :=
  if '0' ≤ c ∧ c ≤ '9' then some (c.toNat - 48)
  else if 'a' ≤ c ∧ c ≤ 'z' then some (c.toNat - 87)
  else if 'A' ≤ c ∧ c ≤ 'Z' then some (c.toNat - 55)
  else none

def toDigit (radix : ℕ) (c : Char) : Option ℕ := (digitValue c).filter (· < radix)

theorem toDigit_digitChar {radix d : ℕ} (hradix : radix ≤ 16) (hd : d < radix) :
    toDigit radix d.digitChar = some d := by
  have hvalue : ∀ d : Fin 16, digitValue (Nat.digitChar d) = some d.val := by decide
  have hdigit := hvalue ⟨d, Nat.lt_of_lt_of_le hd hradix⟩
  rw [toDigit, hdigit, Option.filter_some]
  exact if_pos (decide_eq_true hd)

/-- The digits at the front of a text, added to what was read before them. After each digit the
number and the count of its digits so far are checked, and reading fails at the first that does not
pass. -/
def digits (radix : ℕ) (check : ℕ → ℕ → Bool) (number count : ℕ) : Scanner (ℕ × ℕ)
  | [] => some ((number, count), [])
  | c :: rest =>
      match toDigit radix c with
      | none => some ((number, count), c :: rest)
      | some d =>
          if check (number * radix + d) (count + 1) then
            digits radix check (number * radix + d) (count + 1) rest
          else none

variable {radix number count : ℕ} {check : ℕ → ℕ → Bool}

def NoDigit (radix : ℕ) (t : List Char) : Prop := ∀ c, t.head? = some c → toDigit radix c = none

theorem noDigit_nil : NoDigit radix [] := fun _ hc => absurd hc (by simp)

theorem noDigit_cons {c : Char} (hc : toDigit radix c = none) : NoDigit radix (c :: t) := by
  intro c' hc'
  obtain rfl : c = c' := Option.some.inj hc'
  exact hc

theorem NoDigit.of_le {radix' : ℕ} (ht : NoDigit radix' t) (hle : radix ≤ radix') :
    NoDigit radix t := by
  intro c hc
  have hnone := ht c hc
  rw [toDigit, Option.filter_eq_none_iff] at hnone ⊢
  intro d hd hlt
  refine hnone d hd ?_
  simp only [decide_eq_true_eq] at hlt ⊢
  omega

theorem run_digits_of_noDigit (ht : NoDigit radix t) :
    (digits radix check number count).run t = some ((number, count), t) := by
  cases t with
  | nil => rfl
  | cons c rest =>
      show digits radix check number count (c :: rest) = _
      rw [digits, ht c rfl]

theorem endsAt_digits (ht : NoDigit radix t) : (digits radix check number count).EndsAt t := by
  intro s
  induction s generalizing number count with
  | nil => exact run_digits_of_noDigit ht
  | cons c rest ih =>
      show digits radix check number count (c :: (rest ++ t))
        = Option.map _ (digits radix check number count (c :: rest))
      rw [digits, digits]
      cases toDigit radix c with
      | none => rfl
      | some d =>
          dsimp only
          split
          · exact ih
          · rfl

theorem run_digits_append {s : List Char} {number' count' : ℕ}
    (hread : (digits radix check number count).run s = some ((number', count'), [])) :
    (digits radix check number count).run (s ++ t)
      = (digits radix check number' count').run t := by
  induction s generalizing number count with
  | nil =>
      cases hread
      rfl
  | cons c rest ih =>
      change digits radix check number count (c :: rest) = _ at hread
      show digits radix check number count (c :: (rest ++ t)) = _
      rw [digits] at hread ⊢
      cases hdigit : toDigit radix c with
      | none =>
          rw [hdigit] at hread
          cases hread
      | some d =>
          rw [hdigit] at hread
          dsimp only at hread ⊢
          split at hread
          next hcheck =>
            rw [if_pos hcheck]
            exact ih hread
          next => cases hread

theorem suffix_of_run_digits {s rest : List Char} {read : ℕ × ℕ}
    (hread : (digits radix check number count).run s = some (read, rest)) : rest <:+ s := by
  induction s generalizing number count with
  | nil =>
      cases hread
      exact List.suffix_rfl
  | cons c later ih =>
      change digits radix check number count (c :: later) = _ at hread
      rw [digits] at hread
      split at hread
      · cases hread
        exact List.suffix_rfl
      · split at hread
        · exact (ih hread).trans (List.suffix_cons c later)
        · cases hread

theorem run_digits_digitChar {d : ℕ} (hradix : radix ≤ 16) (hd : d < radix)
    (hcheck : check (number * radix + d) (count + 1) = true) :
    (digits radix check number count).run [d.digitChar]
      = some ((number * radix + d, count + 1), []) := by
  show digits radix check number count [d.digitChar] = _
  rw [digits, toDigit_digitChar hradix hd]
  exact if_pos hcheck

theorem exists_digitChar_of_mem_toDigits (hbase : 1 < radix) {n : ℕ} {c : Char}
    (hc : c ∈ Nat.toDigits radix n) : ∃ d < radix, c = d.digitChar := by
  induction n using Nat.strongRecOn with
  | ind n ih =>
      by_cases hlt : n < radix
      · rw [Nat.toDigits_of_lt_base hlt, List.mem_singleton] at hc
        exact ⟨n, hlt, hc⟩
      · have hle := Nat.le_of_not_lt hlt
        rw [Nat.toDigits_of_base_le hbase hle, List.mem_append, List.mem_singleton] at hc
        obtain hfront | hlast := hc
        · exact ih (n / radix) (Nat.div_lt_self (by omega) hbase) hfront
        · exact ⟨n % radix, Nat.mod_lt _ (by omega), hlast⟩

theorem head?_toDigits_ne_zero (hbase : 1 < radix) (hradix : radix ≤ 16) {n : ℕ} (hpos : 0 < n) :
    (Nat.toDigits radix n).head? ≠ some '0' := by
  induction n using Nat.strongRecOn with
  | ind n ih =>
      by_cases hlt : n < radix
      · rw [Nat.toDigits_of_lt_base hlt]
        simpa using Nat.ne_of_gt hpos
      · have hle := Nat.le_of_not_lt hlt
        have hfront := ih (n / radix) (Nat.div_lt_self hpos hbase) (Nat.div_pos hle (by omega))
        rw [Nat.toDigits_of_base_le hbase hle, List.head?_append_of_ne_nil _ Nat.toDigits_ne_nil]
        exact hfront

/-- **A number is read back.** A check that lets the whole number pass, and with a number every
smaller one, lets it be read from its digits. -/
theorem run_digits_toDigits (hbase : 1 < radix) (hradix : radix ≤ 16)
    (hsmaller : ∀ n n' k k', n ≤ n' → k ≤ k' → check n' k' = true → check n k = true) (n : ℕ)
    (hcheck : check n (Nat.toDigits radix n).length = true) :
    (digits radix check 0 0).run (Nat.toDigits radix n)
      = some ((n, (Nat.toDigits radix n).length), []) := by
  induction n using Nat.strongRecOn with
  | ind n ih =>
      by_cases hlt : n < radix
      · rw [Nat.toDigits_of_lt_base hlt] at hcheck ⊢
        have hvalue : 0 * radix + n = n := by omega
        have hone : (digits radix check 0 0).run [n.digitChar] = some ((0 * radix + n, 1), []) :=
          run_digits_digitChar hradix hlt (by rwa [hvalue])
        rwa [hvalue] at hone
      · have hdigits := Nat.toDigits_of_base_le hbase (Nat.le_of_not_lt hlt)
        have hlength : (Nat.toDigits radix n).length
            = (Nat.toDigits radix (n / radix)).length + 1 := by
          rw [hdigits, List.length_append]
          rfl
        have hless : n / radix < n := Nat.div_lt_self (by omega) hbase
        have hfront := ih (n / radix) hless
          (hsmaller _ _ _ _ (Nat.le_of_lt hless) (hlength ▸ Nat.le_succ _) hcheck)
        have hlast : n / radix * radix + n % radix = n := by
          rw [Nat.mul_comm]
          exact Nat.div_add_mod n radix
        rw [hlength] at hcheck ⊢
        have hrem : n % radix < radix := Nat.mod_lt n (by omega)
        rw [hdigits, run_digits_append hfront, run_digits_digitChar hradix hrem, hlast]
        rwa [hlast]

end Scanner
