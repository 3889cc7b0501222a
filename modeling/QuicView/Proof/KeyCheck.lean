import QuicView.Session.Auth

namespace QuicView

theorem foldl_difference_eq_zero_iff (pairs : List (UInt8 × UInt8)) (diff : UInt8) :
    pairs.foldl (fun diff (x, y) => diff ||| (x ^^^ y)) diff = 0
      ↔ diff = 0 ∧ ∀ pair ∈ pairs, pair.1 = pair.2 := by
  induction pairs generalizing diff with
  | nil => simp
  | cons pair pairs ih =>
      rw [List.foldl_cons, ih, UInt8.or_eq_zero_iff, UInt8.xor_eq_zero_iff, List.forall_mem_cons,
        and_assoc]

theorem difference_eq_zero_iff (a b : Bytes) :
    difference a b = 0
      ↔ ∀ i, (ha : i < a.length) → (hb : i < b.length) → a[i] = b[i] := by
  rw [difference, foldl_difference_eq_zero_iff]
  constructor
  · rintro ⟨-, hpairs⟩ i ha hb
    have hlt : i < (a.zip b).length := by
      rw [List.length_zip]
      exact Nat.lt_min.mpr ⟨ha, hb⟩
    have hpair := hpairs _ (List.getElem_mem hlt)
    rwa [List.getElem_zip] at hpair
  · intro hall
    refine ⟨rfl, fun pair hpair => ?_⟩
    obtain ⟨i, hlt, rfl⟩ := List.mem_iff_getElem.mp hpair
    have hboth := Nat.lt_min.mp (List.length_zip ▸ hlt)
    rw [List.getElem_zip]
    exact hall i hboth.1 hboth.2

theorem constantTimeEq_iff (a b : Bytes) : constantTimeEq a b = true ↔ a = b := by
  unfold constantTimeEq
  split
  next hlength => simpa using fun heq : a = b => hlength (congrArg List.length heq)
  next hlength =>
    rw [decide_eq_true_iff, difference_eq_zero_iff]
    constructor
    · intro hall
      exact List.ext_getElem (not_not.mp hlength) hall
    · rintro rfl i _ _
      rfl

theorem validate_eq (validator : PresharedKeyValidator) (token : SessionToken) :
    TokenValidator.validate validator token
      = if token.asBytes = validator.expected then .ok ()
        else .error (.authFailed "invalid token") :=
  if_congr (constantTimeEq_iff token.asBytes validator.expected) rfl rfl

/-- **The check is exact.** A token passes exactly when it is the key, and the accumulated
difference is not 0 as soon as one position differs, whatever the lengths and the other bytes. -/
theorem validate_exact (key token : Bytes) :
    (TokenValidator.validate (PresharedKeyValidator.mk key) (SessionToken.mk token) = .ok ()
        ↔ token = key) ∧
      (difference token key ≠ 0
        ↔ ∃ i, ∃ (ht : i < token.length) (hk : i < key.length), token[i] ≠ key[i]) := by
  constructor
  · rw [validate_eq]
    by_cases heq : token = key <;> simp [heq]
  · rw [Ne, difference_eq_zero_iff]
    push Not
    rfl

end QuicView
