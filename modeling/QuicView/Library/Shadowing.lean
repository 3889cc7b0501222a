import Mathlib.Data.List.Basic
import Mathlib.Data.List.Nodup

/-!
# Shadowed entries

In a list searched by key the first entry of a key is found and any later one is shadowed. So to
search for each key and to scan for all agree exactly if no shadowed entry makes a difference.
-/

namespace Shadowing

variable {Entry Key : Type*} [DecidableEq Key] (key : Entry → Key)

/-- The entries whose key is among those seen, or that of an earlier entry. -/
def shadowed (seen : List Key) : List Entry → List Entry
  | [] => []
  | entry :: entries =>
      if key entry ∈ seen then entry :: shadowed seen entries
      else shadowed (key entry :: seen) entries

variable {key}

theorem shadowed_sublist (seen : List Key) (entries : List Entry) :
    (shadowed key seen entries).Sublist entries := by
  induction entries generalizing seen with
  | nil => exact .slnil
  | cons entry entries ih =>
      rw [shadowed]
      split
      · exact (ih seen).cons_cons entry
      · exact (ih _).cons entry

theorem shadowed_append_singleton (seen : List Key) (entries : List Entry) (entry : Entry) :
    shadowed key seen (entries ++ [entry])
      = shadowed key seen entries
        ++ if key entry ∈ seen ∨ key entry ∈ entries.map key then [entry] else [] := by
  induction entries generalizing seen with
  | nil => simp [shadowed]
  | cons first entries ih =>
      by_cases hseen : key first ∈ seen
      · have hiff : (key entry ∈ seen ∨ key entry ∈ entries.map key)
            ↔ (key entry ∈ seen ∨ key entry ∈ (first :: entries).map key) := by
          rw [List.map_cons, List.mem_cons]
          constructor
          · exact Or.imp_right .inr
          · rintro (hmem | heq | hmem)
            · exact .inl hmem
            · exact .inl (heq ▸ hseen)
            · exact .inr hmem
        simp only [List.cons_append, shadowed, if_pos hseen, ih, hiff]
      · simp only [List.cons_append, shadowed, if_neg hseen, ih, List.map_cons, List.mem_cons]
        congr 2
        rw [eq_iff_iff]
        tauto

theorem shadowed_map {f : Entry → Entry} (hkey : ∀ entry, key (f entry) = key entry)
    (seen : List Key) (entries : List Entry) :
    shadowed key seen (entries.map f) = (shadowed key seen entries).map f := by
  induction entries generalizing seen with
  | nil => rfl
  | cons entry entries ih =>
      rw [List.map_cons, shadowed, shadowed, hkey, ih, ih]
      split <;> rfl

theorem forall_shadowed_iff {Fact : Entry → Prop} (seen : List Key) (entries : List Entry) :
    (∀ entry ∈ shadowed key seen entries, Fact entry)
      ↔ (∀ entry ∈ entries, key entry ∈ seen → Fact entry)
        ∧ entries.Pairwise fun earlier later => key earlier = key later → Fact later := by
  induction entries generalizing seen with
  | nil => simp [shadowed]
  | cons entry entries ih =>
      by_cases hseen : key entry ∈ seen
      · rw [shadowed, if_pos hseen, List.forall_mem_cons, List.forall_mem_cons, ih,
          List.pairwise_cons]
        constructor
        · rintro ⟨hfact, hothers, hpairs⟩
          exact ⟨⟨fun _ => hfact, hothers⟩, fun later hlater hsame =>
            hothers later hlater (hsame ▸ hseen), hpairs⟩
        · rintro ⟨⟨hfact, hothers⟩, _, hpairs⟩
          exact ⟨hfact hseen, hothers, hpairs⟩
      · rw [shadowed, if_neg hseen, List.forall_mem_cons, ih, List.pairwise_cons]
        constructor
        · rintro ⟨hothers, hpairs⟩
          exact ⟨⟨fun hmem => absurd hmem hseen, fun later hlater hmem =>
              hothers later hlater (List.mem_cons_of_mem _ hmem)⟩,
            fun later hlater hsame => hothers later hlater (hsame ▸ List.mem_cons_self), hpairs⟩
        · rintro ⟨⟨_, hothers⟩, hsame, hpairs⟩
          refine ⟨fun later hlater hmem => ?_, hpairs⟩
          rcases List.mem_cons.mp hmem with heq | hmem
          · exact hsame later hlater heq.symm
          · exact hothers later hlater hmem

/-! ### Searching and scanning -/

variable {P : Entry → Bool}

def Agrees (key : Entry → Key) (P : Entry → Bool) (entries : List Entry) : Prop :=
  (∀ k, k ∈ (entries.filter P).map key
      ↔ ∃ entry, entries.find? (key · = k) = some entry ∧ P entry = true)
    ∧ ((entries.filter P).map key).Nodup

theorem mem_listed_of_find? {entries : List Entry} {k : Key}
    (hfound : ∃ entry, entries.find? (key · = k) = some entry ∧ P entry = true) :
    k ∈ (entries.filter P).map key := by
  obtain ⟨entry, hfind, hP⟩ := hfound
  have hkey : key entry = k := by simpa using List.find?_some hfind
  exact List.mem_map.mpr
    ⟨entry, List.mem_filter.mpr ⟨List.mem_of_find?_eq_some hfind, hP⟩, hkey⟩

omit [DecidableEq Key] in
theorem listed_cons (entry : Entry) (entries : List Entry) :
    ((entry :: entries).filter P).map key
      = if P entry then key entry :: (entries.filter P).map key
        else (entries.filter P).map key := by
  rw [List.filter_cons]
  split <;> rfl

theorem find?_cons_of_key_ne {entry : Entry} {k : Key} (hne : key entry ≠ k)
    (entries : List Entry) :
    (entry :: entries).find? (key · = k) = entries.find? (key · = k) :=
  List.find?_cons_of_neg (by simpa using hne)

theorem agrees_cons_iff (entry : Entry) (entries : List Entry) :
    Agrees key P (entry :: entries)
      ↔ key entry ∉ (entries.filter P).map key ∧ Agrees key P entries := by
  have hfirst : (entry :: entries).find? (key · = key entry) = some entry :=
    List.find?_cons_of_pos (by simp)
  unfold Agrees
  rw [listed_cons]
  constructor
  · rintro ⟨hagree, hnodup⟩
    have hnew : key entry ∉ (entries.filter P).map key := by
      intro hlisted
      obtain ⟨found, hfound, hP⟩ := (hagree (key entry)).mp (by split <;> simp [hlisted])
      obtain rfl : entry = found := Option.some.inj (hfirst.symm.trans hfound)
      rw [if_pos hP] at hnodup
      exact (List.nodup_cons.mp hnodup).1 hlisted
    refine ⟨hnew, fun k => ⟨fun hlisted => ?_, mem_listed_of_find?⟩, ?_⟩
    · have hne : key entry ≠ k := fun heq => hnew (heq ▸ hlisted)
      rw [← find?_cons_of_key_ne hne]
      exact (hagree k).mp (by split <;> simp [hlisted])
    · split at hnodup
      · exact (List.nodup_cons.mp hnodup).2
      · exact hnodup
  · rintro ⟨hnew, hagree, hnodup⟩
    refine ⟨fun k => ?_, ?_⟩
    · by_cases heq : key entry = k
      · subst heq
        rw [hfirst]
        by_cases hP : P entry = true
        · simp [hP]
        · rw [if_neg hP]
          exact iff_of_false hnew fun ⟨found, hfound, hP'⟩ =>
            hP (Option.some.inj hfound ▸ hP')
      · rw [find?_cons_of_key_ne heq, ← hagree k]
        split
        · exact List.mem_cons.trans (or_iff_right (Ne.symm heq))
        · exact Iff.rfl
    · split
      · exact List.nodup_cons.mpr ⟨hnew, hnodup⟩
      · exact hnodup

/-- **Searching and scanning agree exactly if no shadowed entry has the property.** -/
theorem agrees_iff (entries : List Entry) :
    Agrees key P entries ↔ ∀ entry ∈ shadowed key [] entries, P entry = false := by
  rw [forall_shadowed_iff, and_iff_right (by simp)]
  induction entries with
  | nil => simp [Agrees]
  | cons entry entries ih =>
      rw [agrees_cons_iff, List.pairwise_cons, ih]
      refine and_congr_left fun _ => ⟨fun hnew later hlater hsame => ?_, fun hfalse hlisted => ?_⟩
      · by_contra hP
        rw [Bool.not_eq_false] at hP
        exact hnew (List.mem_map.mpr ⟨later, List.mem_filter.mpr ⟨hlater, hP⟩, hsame.symm⟩)
      · obtain ⟨later, hlater, hsame⟩ := List.mem_map.mp hlisted
        obtain ⟨hmem, hP⟩ := List.mem_filter.mp hlater
        rw [hfalse later hmem hsame.symm] at hP
        cases hP

end Shadowing
