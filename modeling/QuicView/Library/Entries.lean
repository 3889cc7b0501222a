import Mathlib.Data.List.Basic
import Mathlib.Logic.Function.Basic

/-!
# Entries as a map

A list of keys with values is read as the map from each key to the value of its first entry.
-/

namespace Entries

variable {Key Value : Type*} [DecidableEq Key]

def find (entries : List (Key × Value)) (key : Key) : Option Value := entries.lookup key

theorem find_cons (entry : Key × Value) (entries : List (Key × Value)) :
    find (entry :: entries) = Function.update (find entries) entry.1 (some entry.2) := by
  funext key
  rw [find, List.lookup_cons]
  by_cases heq : key = entry.1
  · subst heq
    rw [beq_self_eq_true, Function.update_self]
  · rw [beq_false_of_ne heq, Function.update_of_ne heq]
    rfl

theorem find_concat {entries : List (Key × Value)} {entry : Key × Value}
    (hfresh : entry.1 ∉ entries.map Prod.fst) :
    find (entries ++ [entry]) = Function.update (find entries) entry.1 (some entry.2) := by
  induction entries with
  | nil => exact find_cons entry []
  | cons first entries ih =>
      rw [List.map_cons, List.mem_cons, not_or] at hfresh
      rw [List.cons_append, find_cons, ih hfresh.2, find_cons,
        Function.update_comm (Ne.symm hfresh.1)]

theorem find_filter_ne (key : Key) (entries : List (Key × Value)) :
    find (entries.filter fun entry => entry.1 != key)
      = Function.update (find entries) key none := by
  induction entries with
  | nil =>
      funext k
      by_cases heq : k = key <;> simp [find, heq]
  | cons entry entries ih =>
      by_cases hkey : entry.1 = key
      · rw [List.filter_cons_of_neg (by simpa using hkey), ih, find_cons, hkey,
          Function.update_idem]
      · rw [List.filter_cons_of_pos (by simpa using hkey), find_cons, ih, find_cons,
          Function.update_comm (Ne.symm hkey)]

end Entries
