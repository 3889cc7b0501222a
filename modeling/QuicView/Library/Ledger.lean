import Mathlib.Data.List.AList

/-!
# Ledgers

A table records who holds what and a stock lists what exists, each kept by code that does not see
the other. The ledger balances when every item of the stock has exactly one holder.
-/

namespace Ledger

variable {Key Holder Item : Type*} [DecidableEq Key] (itemOf : Holder → Item)

def held (table : AList fun _ : Key => Holder) : List Item :=
  table.entries.map fun entry => itemOf entry.2

/-- Every item of the stock is there once and has one holder. -/
structure Balanced (stock : List Item) (table : AList fun _ : Key => Holder) : Prop where
  nodup : stock.Nodup
  perm : stock.Perm (held itemOf table)

variable {itemOf} {stock : List Item} {table : AList fun _ : Key => Holder} {key : Key}
  {holder : Holder}

theorem held_insert :
    held itemOf (table.insert key holder) = itemOf holder :: held itemOf (table.erase key) := by
  rw [held, AList.entries_insert, List.map_cons]
  rfl

theorem held_erase_of_notMem (hfree : key ∉ table) :
    held itemOf (table.erase key) = held itemOf table := by
  have hentries : (table.erase key).entries = table.entries := List.kerase_of_notMem_keys hfree
  rw [held, held, hentries]

theorem held_perm_of_lookup (hlookup : table.lookup key = some holder) :
    (held itemOf table).Perm (itemOf holder :: held itemOf (table.erase key)) := by
  have hkey : key ∈ table.entries.keys := AList.lookup_isSome.mp (Option.isSome_of_mem hlookup)
  obtain ⟨found, before, after, _, hentries, herase⟩ := List.exists_of_kerase hkey
  have hfound : Sigma.mk key found ∈ table.entries := by
    rw [hentries]
    exact List.mem_append_right _ List.mem_cons_self
  obtain rfl : found = holder :=
    table.nodupKeys.eq_of_mk_mem hfound (AList.mem_lookup_iff.mp hlookup)
  have hrest : (table.erase key).entries = before ++ after := herase
  have hperm : table.entries.Perm (⟨key, found⟩ :: (table.erase key).entries) := by
    rw [hrest, hentries]
    exact List.perm_middle
  exact hperm.map fun entry => itemOf entry.2

omit [DecidableEq Key] in
theorem balanced_nil : Balanced itemOf [] (∅ : AList fun _ : Key => Holder) :=
  ⟨List.nodup_nil, .nil⟩

theorem Balanced.insert_iff (h : Balanced itemOf stock table) (hfree : key ∉ table) :
    Balanced itemOf (stock ++ [itemOf holder]) (table.insert key holder)
      ↔ itemOf holder ∉ stock := by
  have hperm : (stock ++ [itemOf holder]).Perm (itemOf holder :: stock) :=
    List.perm_append_singleton _ _
  constructor
  · intro hbalanced
    exact (List.nodup_cons.mp (hperm.nodup_iff.mp hbalanced.nodup)).1
  · intro hnew
    refine ⟨hperm.nodup_iff.mpr (List.nodup_cons.mpr ⟨hnew, h.nodup⟩), ?_⟩
    rw [held_insert, held_erase_of_notMem hfree]
    exact hperm.trans (h.perm.cons _)

theorem Balanced.not_overwrite (h : Balanced itemOf stock table) (hheld : key ∈ table) :
    ¬ Balanced itemOf (stock ++ [itemOf holder]) (table.insert key holder) := by
  obtain ⟨previous, hprevious⟩ := Option.isSome_iff_exists.mp (AList.lookup_isSome.mpr hheld)
  intro hbalanced
  have hbefore := (h.perm.trans (held_perm_of_lookup hprevious)).length_eq
  have hafter := hbalanced.perm.length_eq
  rw [held_insert, List.length_append, List.length_singleton, List.length_cons] at hafter
  rw [List.length_cons] at hbefore
  omega

variable [DecidableEq Item]

theorem Balanced.erase (h : Balanced itemOf stock table)
    (hlookup : table.lookup key = some holder) :
    itemOf holder ∈ stock
      ∧ Balanced itemOf (stock.filter fun item => item != itemOf holder) (table.erase key) := by
  have hperm : stock.Perm (itemOf holder :: held itemOf (table.erase key)) :=
    h.perm.trans (held_perm_of_lookup hlookup)
  have hmem : itemOf holder ∈ stock := hperm.mem_iff.mpr List.mem_cons_self
  refine ⟨hmem, h.nodup.filter _, ?_⟩
  rw [← h.nodup.erase_eq_filter]
  exact ((List.perm_cons_erase hmem).symm.trans hperm).cons_inv

end Ledger
