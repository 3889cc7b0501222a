import Mathlib.Data.List.Basic
import Mathlib.Data.List.Induction
import Mathlib.Order.Lattice

/-!
# Sliding windows

A queue takes each new entry at the back and sheds from the front whatever is older than a cutoff.
Shedding stops at the first entry that is young enough, so only for entries that arrive in order
does the queue hold exactly the recent part of everything it was given.
-/

namespace SlidingWindow

variable {Entry Stamp : Type*} [LinearOrder Stamp] (stamp : Entry → Stamp) (cutoff : Stamp → Stamp)

def push (window : List Entry) (entry : Entry) : List Entry :=
  (window ++ [entry]).dropWhile fun old => stamp old < cutoff (stamp entry)

def recent (entries : List Entry) : List Entry :=
  match entries.getLast? with
  | none => []
  | some last => entries.filter fun entry => cutoff (stamp last) ≤ stamp entry

abbrev InOrder (entries : List Entry) : Prop :=
  entries.Pairwise fun earlier later => stamp earlier ≤ stamp later

variable {stamp cutoff}

theorem recent_append_singleton (entries : List Entry) (entry : Entry) :
    recent stamp cutoff (entries ++ [entry])
      = (entries ++ [entry]).filter fun old => cutoff (stamp entry) ≤ stamp old := by
  rw [recent, List.getLast?_concat]

theorem dropWhile_eq_filter {entries : List Entry} (hsorted : InOrder stamp entries)
    (bound : Stamp) :
    (entries.dropWhile fun entry => stamp entry < bound)
      = entries.filter fun entry => bound ≤ stamp entry := by
  induction entries with
  | nil => rfl
  | cons entry entries ih =>
      obtain ⟨hfirst, hrest⟩ := List.pairwise_cons.mp hsorted
      by_cases hold : stamp entry < bound
      · rw [List.dropWhile_cons_of_pos (by simpa using hold),
          List.filter_cons_of_neg (by simpa using hold), ih hrest]
      · -- the first entry that is young enough vouches for everything behind it
        have hyoung : ∀ later ∈ entry :: entries, bound ≤ stamp later := by
          intro later hmem
          cases hmem with
          | head => exact not_lt.mp hold
          | tail _ hmem => exact (not_lt.mp hold).trans (hfirst later hmem)
        rw [List.dropWhile_cons_of_neg (by simpa using hold),
          List.filter_eq_self.mpr fun later hmem => by simpa using hyoung later hmem]

theorem push_recent (hmono : Monotone cutoff) {entries : List Entry} {entry : Entry}
    (hsorted : InOrder stamp (entries ++ [entry])) :
    push stamp cutoff (recent stamp cutoff entries) entry
      = recent stamp cutoff (entries ++ [entry]) := by
  obtain ⟨hentries, _, hlast⟩ := List.pairwise_append.mp hsorted
  rw [recent_append_singleton, List.filter_append]
  cases hlatest : entries.getLast? with
  | none =>
      obtain rfl := List.getLast?_eq_none_iff.mp hlatest
      exact dropWhile_eq_filter (List.pairwise_singleton _ _) _
  | some latest =>
      have hmem : latest ∈ entries := List.mem_of_getLast? hlatest
      have hcutoff : cutoff (stamp latest) ≤ cutoff (stamp entry) :=
        hmono (hlast latest hmem entry (List.mem_singleton_self entry))
      have hkept : (recent stamp cutoff entries).Sublist entries := by
        rw [recent, hlatest]
        exact List.filter_sublist
      have hwindow : InOrder stamp (recent stamp cutoff entries ++ [entry]) :=
        hsorted.sublist (hkept.append_right [entry])
      rw [push, dropWhile_eq_filter hwindow, List.filter_append, recent, hlatest,
        List.filter_filter]
      congr 1
      refine List.filter_congr fun old _ => ?_
      rw [← Bool.decide_and, decide_eq_decide]
      exact and_iff_left_of_imp hcutoff.trans

theorem exists_prefix_recent (hmono : Monotone cutoff) {entries : List Entry}
    (hsorted : InOrder stamp entries) {time : Stamp} {span : Entry → Bool}
    (hspan : ∀ entry, span entry = true → cutoff time ≤ stamp entry ∧ stamp entry ≤ time) :
    ∃ before, before <+: entries
      ∧ (entries.filter span).Sublist (recent stamp cutoff before) := by
  induction entries using List.reverseRecOn with
  | nil => exact ⟨[], List.nil_prefix, List.nil_sublist _⟩
  | append_singleton entries last ih =>
      by_cases hlast : stamp last ≤ time
      · refine ⟨entries ++ [last], List.prefix_rfl, ?_⟩
        rw [recent_append_singleton]
        apply List.monotone_filter_right
        intro entry hentry
        rw [decide_eq_true_eq]
        exact (hmono hlast).trans (hspan entry hentry).1
      · obtain ⟨before, hbefore, hsublist⟩ := ih (List.pairwise_append.mp hsorted).1
        refine ⟨before, hbefore.trans (List.prefix_append entries [last]), ?_⟩
        have houtside : [last].filter span = [] :=
          List.filter_cons_of_neg fun hin => hlast (hspan last hin).2
        rwa [List.filter_append, houtside, List.append_nil]

end SlidingWindow
