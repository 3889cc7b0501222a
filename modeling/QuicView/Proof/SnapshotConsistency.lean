import QuicView.Runtime.AtomicMetrics

/-!
# Snapshots among concurrent connections

A connection is counted as active first and in the total second, and a snapshot reads the two
counters in that order too. A connection between the two when a snapshot reads them is in one of its
numbers and not in the other.
-/

namespace QuicView.AtomicMetrics

open Execution Interleaving

abbrev Metered := State Call UInt64 Counters

variable {s : Metered} {task : Task Call UInt64} {op : AtomicOp}

/-- The connections counted as active, whether or not they still are. -/
def raised (s : Metered) : Finset Nat := s.reached (· == .connection) 1

def counted (s : Metered) : Finset Nat := s.reached (· == .connection) 2

def lowered (s : Metered) : Finset Nat := s.reached (· == .connection) 3

def runs (events : List (Event Call)) : Metered := run system.step (.init new) events

/-- No snapshot that the run returns has more active connections than there were in total. -/
def Consistent (events : List (Event Call)) : Prop :=
  ∀ (i : Nat) task snapshot, (runs events).tasks[i]? = some task → returned task = some snapshot →
    snapshot.activeConnections ≤ snapshot.totalConnections

/-- For every snapshot that the run returns: the connections that it reads as active, and does not
find in the total yet, are no more than those closed before, and those in the total that it did not
read as active. -/
def KeepsPace (events : List (Event Call)) : Prop :=
  ∀ (i : Nat) task snapshot, (runs events).tasks[i]? = some task → returned task = some snapshot →
    ∀ first second, system.TakenAt new events first i 4 (.load .activeConnections) →
      system.TakenAt new events second i 5 (.load .totalConnections) →
      (raised (runs first) \ counted (runs second)).card
        ≤ (counted (runs second) \ raised (runs first)).card + (lowered (runs first)).card

/-! ### The counters -/

structure Balanced (s : Metered) : Prop where
  active : s.shared .activeConnections + UInt64.ofNat (lowered s).card
    = UInt64.ofNat (raised s).card
  total : s.shared .totalConnections = UInt64.ofNat (counted s).card

theorem pending_connection (hcall : task.call = .connection)
    (hop : system.pending task = some op) :
    (task.results.length = 0 ∧ op = .fetchAdd .activeConnections 1)
      ∨ (task.results.length = 1 ∧ op = .fetchAdd .totalConnections 1)
      ∨ (task.results.length = 2 ∧ op = .fetchSub .activeConnections 1) := by
  have hprogram : system.program task.call = [.fetchAdd .activeConnections 1,
      .fetchAdd .totalConnections 1, .fetchSub .activeConnections 1] := by
    rw [hcall]
    rfl
  rw [System.pending, hprogram] at hop
  generalize task.results.length = n at hop ⊢
  rcases n with _ | _ | _ | n
  · exact .inl ⟨rfl, (Option.some.inj hop).symm⟩
  · exact .inr (.inl ⟨rfl, (Option.some.inj hop).symm⟩)
  · exact .inr (.inr ⟨rfl, (Option.some.inj hop).symm⟩)
  · cases hop

theorem exec_other (hcall : task.call ≠ .connection) (hop : system.pending task = some op)
    (counters : Counters) :
    (exec op counters).2 .activeConnections = counters .activeConnections
      ∧ (exec op counters).2 .totalConnections = counters .totalConnections := by
  have hmem : op ∈ program task.call := List.mem_of_getElem? hop
  cases hkind : task.call with
  | connection => exact absurd hkind hcall
  | recordFrameSent bytes =>
      rw [hkind] at hmem
      simp only [program, recordFrameSent, List.mem_cons, List.not_mem_nil, or_false] at hmem
      rcases hmem with rfl | rfl <;> exact ⟨rfl, rfl⟩
  | recordFrameReceived bytes =>
      rw [hkind] at hmem
      simp only [program, recordFrameReceived, List.mem_cons, List.not_mem_nil, or_false] at hmem
      rcases hmem with rfl | rfl <;> exact ⟨rfl, rfl⟩
  | recordError =>
      rw [hkind] at hmem
      obtain rfl := List.mem_singleton.mp hmem
      exact ⟨rfl, rfl⟩
  | snapshot =>
      rw [hkind] at hmem
      simp only [program, snapshot, List.mem_cons, List.not_mem_nil, or_false] at hmem
      rcases hmem with rfl | rfl | rfl | rfl | rfl | rfl | rfl <;> exact ⟨rfl, rfl⟩

theorem Balanced.next_connection (h : Balanced s) {i : ℕ} (htask : s.tasks[i]? = some task)
    (hcall : task.call = .connection) (hop : system.pending task = some op)
    (hshared : (system.step s (.next i)).shared = (exec op s.shared).2) :
    Balanced (system.step s (.next i)) := by
  have hp : (task.call == Call.connection) = true := beq_iff_eq.mpr hcall
  have hcard := card_reached_next (p := (· == Call.connection)) htask hop hp
  have hraised : (raised (system.step s (.next i))).card = _ := hcard 0
  have hcounted : (counted (system.step s (.next i))).card = _ := hcard 1
  have hlowered : (lowered (system.step s (.next i))).card = _ := hcard 2
  obtain ⟨hlen, rfl⟩ | ⟨hlen, rfl⟩ | ⟨hlen, rfl⟩ := pending_connection hcall hop
  · rw [hlen] at hraised hcounted hlowered
    constructor
    · calc (system.step s (.next i)).shared .activeConnections
            + UInt64.ofNat (lowered (system.step s (.next i))).card
        _ = s.shared .activeConnections + 1 + UInt64.ofNat (lowered s).card := by
          rw [hshared, hlowered]
          rfl
        _ = UInt64.ofNat (raised s).card + 1 := by rw [add_right_comm, h.active]
        _ = UInt64.ofNat (raised (system.step s (.next i))).card := by
          rw [hraised, UInt64.ofNat_add]
          rfl
    · rw [hshared, hcounted]
      exact h.total
  · rw [hlen] at hraised hcounted hlowered
    constructor
    · rw [hshared, hraised, hlowered]
      exact h.active
    · rw [hshared, hcounted, UInt64.ofNat_add]
      exact congrArg (· + 1) h.total
  · rw [hlen] at hraised hcounted hlowered
    constructor
    · calc (system.step s (.next i)).shared .activeConnections
            + UInt64.ofNat (lowered (system.step s (.next i))).card
        _ = s.shared .activeConnections - 1 + (UInt64.ofNat (lowered s).card + 1) := by
          rw [hshared, hlowered, UInt64.ofNat_add]
          rfl
        _ = s.shared .activeConnections + UInt64.ofNat (lowered s).card := by
          rw [add_comm _ (1 : UInt64), ← add_assoc, sub_add_cancel]
        _ = UInt64.ofNat (raised (system.step s (.next i))).card := by
          rw [h.active, hraised]
          rfl
    · rw [hshared, hcounted]
      exact h.total

theorem Balanced.next_other (h : Balanced s) {i : ℕ} (htask : s.tasks[i]? = some task)
    (hcall : task.call ≠ .connection) (hop : system.pending task = some op)
    (hshared : (system.step s (.next i)).shared = (exec op s.shared).2) :
    Balanced (system.step s (.next i)) := by
  have hp : (task.call == Call.connection) = false := beq_false_of_ne hcall
  obtain ⟨hactive, htotal⟩ := exec_other hcall hop s.shared
  constructor
  · rw [hshared, hactive, lowered, raised, reached_next_of_not htask hp (by decide),
      reached_next_of_not htask hp (by decide)]
    exact h.active
  · rw [hshared, htotal, counted, reached_next_of_not htask hp (by decide)]
    exact h.total

theorem Balanced.step (h : Balanced s) (event : Event Call) :
    Balanced (system.step s event) := by
  rcases system.step_cases s event with
    ⟨call, rfl, -⟩ | ⟨i, task, op, rfl, htask, hop, hstep⟩ | ⟨i, -, -, hstep⟩
  · constructor
    · rw [lowered, raised, reached_start (by decide), reached_start (by decide)]
      exact h.active
    · rw [counted, reached_start (by decide)]
      exact h.total
  · have hshared : (system.step s (.next i)).shared = (exec op s.shared).2 := by
      rw [hstep]
      rfl
    by_cases hcall : task.call = .connection
    · exact h.next_connection htask hcall hop hshared
    · exact h.next_other htask hcall hop hshared
  · rw [hstep]
    exact h

theorem balanced_run (events : List (Event Call)) : Balanced (runs events) :=
  invariant_run (fun _ event h => h.step event) events ⟨rfl, rfl⟩

theorem card_raised_le {events before after : List (Event Call)} (heq : events = before ++ after) :
    (raised (runs before)).card ≤ (raised (runs events)).card := by
  rw [heq, runs, runs, run_append]
  exact Finset.card_le_card (reached_subset_run (by decide) after)

theorem Balanced.toNat_active (h : Balanced s) (hfew : (raised s).card < 2 ^ 64) :
    (s.shared .activeConnections).toNat + (lowered s).card = (raised s).card := by
  have hle : (lowered s).card ≤ (raised s).card := Finset.card_le_card (reached_anti (by decide))
  have hactive : s.shared .activeConnections
      = UInt64.ofNat ((raised s).card - (lowered s).card) := by
    rw [UInt64.ofNat_sub hle, ← h.active, add_sub_cancel_right]
  rw [hactive, UInt64.toNat_ofNat_of_lt' ((Nat.sub_le ..).trans_lt hfew)]
  exact Nat.sub_add_cancel hle

theorem Balanced.toNat_total (h : Balanced s) (hfew : (raised s).card < 2 ^ 64) :
    (s.shared .totalConnections).toNat = (counted s).card := by
  have hle : (counted s).card ≤ (raised s).card := Finset.card_le_card (reached_anti (by decide))
  rw [h.total]
  exact UInt64.toNat_ofNat_of_lt' (hle.trans_lt hfew)

/-! ### The two reads -/

theorem card_le_card_add_iff {α : Type*} [DecidableEq α] (a b : Finset α) (n : Nat) :
    a.card ≤ b.card + n ↔ (a \ b).card ≤ (b \ a).card + n := by
  have ha := Finset.card_sdiff_add_card_inter a b
  have hb := Finset.card_sdiff_add_card_inter b a
  rw [Finset.inter_comm] at hb
  omega

theorem read_of_returned {events : List (Event Call)} {i k : Nat} {counter : Counter}
    {value : UInt64} (htask : (runs events).tasks[i]? = some task) (hcall : task.call = .snapshot)
    (hload : snapshot[k]? = some (.load counter)) (hvalue : task.results[k]? = some value) :
    ∃ before, system.TakenAt new events before i k (.load counter)
      ∧ (runs before).shared counter = value := by
  obtain ⟨before, op, ⟨⟨after, heq⟩, found, hfound, hlen, hop⟩, hread⟩ :=
    has_run_iff.mp ⟨task, htask, hvalue⟩
  have hsame : found.call = .snapshot := by
    obtain ⟨last, hlast, hlastCall⟩ := call_run (.next i :: after) hfound
    rw [← run_append, ← heq] at hlast
    obtain rfl : task = last := Option.some.inj (htask.symm.trans hlast)
    rw [← hlastCall, hcall]
  obtain rfl : op = .load counter := by
    rw [System.pending, hsame, hlen] at hop
    exact Option.some.inj (hop.symm.trans hload)
  exact ⟨before, ⟨⟨after, heq⟩, found, hfound, hlen, hop⟩, hread⟩

theorem returned_eq_some {snapshot : MetricsSnapshot} (hreturned : returned task = some snapshot) :
    task.call = .snapshot
      ∧ task.results[4]? = some snapshot.activeConnections
      ∧ task.results[5]? = some snapshot.totalConnections := by
  unfold returned at hreturned
  split at hreturned
  next hcall hresults =>
      cases hreturned
      rw [hresults]
      exact ⟨hcall, rfl, rfl⟩
  next => cases hreturned

theorem counter_at_read {events before : List (Event Call)} {i k : Nat} {counter : Counter}
    {value : UInt64} (htask : (runs events).tasks[i]? = some task)
    (hvalue : task.results[k]? = some value)
    (htaken : system.TakenAt new events before i k (.load counter)) :
    (runs before).shared counter = value := by
  obtain ⟨last, hlast, hread⟩ := has_run_iff.mpr ⟨before, _, htaken, rfl⟩
  obtain rfl : task = last := Option.some.inj (htask.symm.trans hlast)
  exact Option.some.inj (hread.symm.trans hvalue)

theorem snapshot_ordered_iff {events first second : List (Event Call)} {i : Nat}
    {snapshot : MetricsSnapshot} (hfew : (raised (runs events)).card < 2 ^ 64)
    (htask : (runs events).tasks[i]? = some task) (hreturned : returned task = some snapshot)
    (hfirst : system.TakenAt new events first i 4 (.load .activeConnections))
    (hsecond : system.TakenAt new events second i 5 (.load .totalConnections)) :
    snapshot.activeConnections ≤ snapshot.totalConnections
      ↔ (raised (runs first) \ counted (runs second)).card
        ≤ (counted (runs second) \ raised (runs first)).card + (lowered (runs first)).card := by
  obtain ⟨-, hactiveRead, htotalRead⟩ := returned_eq_some hreturned
  have hactive := counter_at_read htask hactiveRead hfirst
  have htotal := counter_at_read htask htotalRead hsecond
  obtain ⟨⟨after, hafter⟩, -⟩ := hfirst
  obtain ⟨⟨after', hafter'⟩, -⟩ := hsecond
  have hactiveNat := (balanced_run first).toNat_active ((card_raised_le hafter).trans_lt hfew)
  have htotalNat := (balanced_run second).toNat_total ((card_raised_le hafter').trans_lt hfew)
  rw [hactive] at hactiveNat
  rw [htotal] at htotalNat
  rw [← card_le_card_add_iff, UInt64.le_iff_toNat_le, htotalNat, ← hactiveNat]
  exact (Nat.add_le_add_iff_right).symm

theorem consistent_of_keepsPace {events : List (Event Call)}
    (hfew : (raised (runs events)).card < 2 ^ 64) (hpace : KeepsPace events) :
    Consistent events := by
  intro i task snapshot htask hreturned
  obtain ⟨hcall, hactiveRead, htotalRead⟩ := returned_eq_some hreturned
  obtain ⟨first, hfirst, -⟩ := read_of_returned htask hcall rfl hactiveRead
  obtain ⟨second, hsecond, -⟩ := read_of_returned htask hcall rfl htotalRead
  rw [snapshot_ordered_iff hfew htask hreturned hfirst hsecond]
  exact hpace i task snapshot htask hreturned first second hfirst hsecond

/-- **When snapshots are consistent.** In a run that opens fewer than 2^64 connections, every
snapshot is in order exactly if the openings keep pace with its reads. -/
theorem snapshots_consistent_iff (events : List (Event Call))
    (hfew : (raised (runs events)).card < 2 ^ 64) : Consistent events ↔ KeepsPace events := by
  refine ⟨?_, consistent_of_keepsPace hfew⟩
  intro hconsistent i task snapshot htask hreturned first second hfirst hsecond
  rw [← snapshot_ordered_iff hfew htask hreturned hfirst hsecond]
  exact hconsistent i task snapshot htask hreturned

theorem snapshots_consistent_iff_between :
    let events : List (Event Call) := [.start .connection, .next 0, .next 0, .start .snapshot,
      .next 1, .next 1, .next 1, .next 1, .next 1, .next 1, .next 1, .start .connection, .next 2]
    Consistent events ↔ KeepsPace events :=
  snapshots_consistent_iff _ (by decide)

/-- Snapshots are consistent where no opening is between its two counts across the two reads. -/
theorem consistent_of_none_across {events : List (Event Call)}
    (hfew : (raised (runs events)).card < 2 ^ 64)
    (hnone : ∀ (i : Nat) first second,
      system.TakenAt new events first i 4 (.load .activeConnections) →
      system.TakenAt new events second i 5 (.load .totalConnections) →
      ∀ connection ∈ raised (runs first), connection ∈ counted (runs second)) :
    Consistent events := by
  apply consistent_of_keepsPace hfew
  intro i _ _ _ _ first second hfirst hsecond
  have hempty : raised (runs first) \ counted (runs second) = ∅ :=
    Finset.sdiff_eq_empty_iff_subset.mpr (hnone i first second hfirst hsecond)
  rw [hempty, Finset.card_empty]
  exact Nat.zero_le _

theorem snapshot_overtakes_opening : ¬ ∀ events : List (Event Call), Consistent events := by
  intro hall
  have hordered := hall [.start .connection, .start .snapshot, .next 0, .next 1, .next 1, .next 1,
    .next 1, .next 1, .next 1, .next 1] 1 _ ⟨0, 0, 0, 0, 1, 0, 0⟩ rfl rfl
  revert hordered
  decide

end QuicView.AtomicMetrics
