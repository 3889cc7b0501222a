import Mathlib.Data.List.AList

/-!
# Catalogues

A map whose values know their own keys. What it lists is a set of values, at most one to a key.
-/

namespace Catalogue

variable {Key Value : Type*} [DecidableEq Key] {key : Value → Key}

def values (table : AList fun _ : Key => Value) : List Value := table.entries.map Sigma.snd

/-- The table lists the values of which `Live` holds, each under its key. -/
def Lists (key : Value → Key) (table : AList fun _ : Key => Value) (Live : Value → Prop) : Prop :=
  ∀ k v, table.lookup k = some v ↔ key v = k ∧ Live v

variable {table : AList fun _ : Key => Value} {Live Live' : Value → Prop}

theorem Lists.congr (h : Lists key table Live) (hiff : ∀ v, Live v ↔ Live' v) :
    Lists key table Live' := by
  intro k v
  rw [h k v, hiff v]

theorem lists_empty : Lists key ∅ fun _ => False := by
  intro k v
  simp

theorem Lists.insert (h : Lists key table Live) (v : Value) :
    Lists key (table.insert (key v) v) fun w => w = v ∨ (Live w ∧ key w ≠ key v) := by
  intro k w
  by_cases hkey : k = key v
  · subst hkey
    rw [AList.lookup_insert, Option.some.injEq]
    constructor
    · rintro rfl
      exact ⟨rfl, .inl rfl⟩
    · rintro ⟨hsame, heq | ⟨-, hother⟩⟩
      · exact heq.symm
      · exact absurd hsame hother
  · rw [AList.lookup_insert_ne hkey, h k w]
    apply and_congr_right
    rintro rfl
    constructor
    · exact fun hlive => .inr ⟨hlive, hkey⟩
    · rintro (rfl | ⟨hlive, -⟩)
      · exact absurd rfl hkey
      · exact hlive

theorem Lists.erase (h : Lists key table Live) (k : Key) :
    Lists key (table.erase k) fun w => Live w ∧ key w ≠ k := by
  intro k' w
  by_cases hkey : k' = k
  · subst hkey
    rw [AList.lookup_erase]
    constructor
    · intro hnone
      cases hnone
    · rintro ⟨hsame, -, hother⟩
      exact absurd hsame hother
  · rw [AList.lookup_erase_ne hkey, h k' w]
    apply and_congr_right
    rintro rfl
    exact (and_iff_left hkey).symm

theorem Lists.mem_values (h : Lists key table Live) (v : Value) : v ∈ values table ↔ Live v := by
  constructor
  · intro hmem
    obtain ⟨entry, hentry, rfl⟩ := List.mem_map.mp hmem
    exact ((h entry.1 entry.2).mp (AList.mem_lookup_iff.mpr hentry)).2
  · intro hlive
    have hlookup : table.lookup (key v) = some v := (h (key v) v).mpr ⟨rfl, hlive⟩
    exact List.mem_map_of_mem (f := Sigma.snd) (AList.mem_lookup_iff.mp hlookup)

theorem Lists.nodup_keys (h : Lists key table Live) : ((values table).map key).Nodup := by
  have hkeys : (values table).map key = table.keys := by
    rw [values, List.map_map]
    apply List.map_congr_left
    intro entry hentry
    exact ((h entry.1 entry.2).mp (AList.mem_lookup_iff.mpr hentry)).1
  rw [hkeys]
  exact table.keys_nodup

end Catalogue
