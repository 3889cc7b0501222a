import QuicView.Proof.SnapshotConsistency

/-!
# Totals of concurrent metrics

Operations of different tasks fall between each other, but each is an addition, and additions come
to the same in any order.
-/

namespace QuicView.AtomicMetrics

open Execution Interleaving

def amount (counter : Counter) : AtomicOp → UInt64
  | .fetchAdd target added => if target = counter then added else 0
  | .fetchSub target removed => if target = counter then -removed else 0
  | .load _ => 0

/-- What a call has added to each counter when it has ended. -/
def contribution : Call → Counter → UInt64
  | .recordFrameSent _, .framesSent => 1
  | .recordFrameSent bytes, .bytesSent => bytes
  | .recordFrameReceived _, .framesReceived => 1
  | .recordFrameReceived bytes, .bytesReceived => bytes
  | .connection, .totalConnections => 1
  | .recordError, .errors => 1
  | _, _ => 0

theorem exec_amount (counter : Counter) (op : AtomicOp) (counters : Counters) :
    (exec op counters).2 counter = counters counter + amount counter op := by
  cases op with
  | fetchAdd target added =>
      dsimp only [exec, amount]
      rw [Function.update_apply]
      by_cases htarget : target = counter
      · rw [if_pos htarget.symm, if_pos htarget, htarget]
      · rw [if_neg (Ne.symm htarget), if_neg htarget, add_zero]
  | fetchSub target removed =>
      dsimp only [exec, amount]
      rw [Function.update_apply]
      by_cases htarget : target = counter
      · rw [if_pos htarget.symm, if_pos htarget, htarget, sub_eq_add_neg]
      · rw [if_neg (Ne.symm htarget), if_neg htarget, add_zero]
  | load target => exact (add_zero _).symm

theorem sum_program (call : Call) (counter : Counter) :
    ((program call).map (amount counter)).sum = contribution call counter := by
  cases call with
  | recordFrameSent bytes =>
      rw [program, recordFrameSent, List.map_cons, List.map_singleton, List.sum_pair]
      cases counter
      case bytesSent => exact zero_add bytes
      all_goals rfl
  | recordFrameReceived bytes =>
      rw [program, recordFrameReceived, List.map_cons, List.map_singleton, List.sum_pair]
      cases counter
      case bytesReceived => exact zero_add bytes
      all_goals rfl
  | connection => cases counter <;> rfl
  | recordError => cases counter <;> rfl
  | snapshot => rfl

theorem execAll_apply (counter : Counter) (ops : List AtomicOp) (counters : Counters) :
    execAll ops counters counter = counters counter + (ops.map (amount counter)).sum := by
  induction ops generalizing counters with
  | nil => exact (add_zero _).symm
  | cons op ops ih =>
      calc execAll (op :: ops) counters counter
          = execAll ops (exec op counters).2 counter := rfl
        _ = (exec op counters).2 counter + (ops.map (amount counter)).sum := ih _
        _ = counters counter + ((op :: ops).map (amount counter)).sum := by
          rw [exec_amount, add_assoc, List.map_cons, List.sum_cons]

theorem counter_eq_total (events : List (Event Call)) (counter : Counter) :
    (runs events).shared counter = system.total (amount counter) (runs events) := by
  have htotal := shared_eq_total system (fun counters => counters counter) (amount counter)
    (exec_amount counter) new events
  rw [runs, htotal]
  exact zero_add _

theorem shared_eq_execAll (events : List (Event Call)) :
    (runs events).shared = execAll ((runs events).tasks.flatMap system.taken) new := by
  funext counter
  rw [counter_eq_total, execAll_apply, System.total, List.map_flatMap, List.flatMap_def,
    List.sum_flatten, List.map_map]
  exact (zero_add _).symm

theorem calls_runs (events : List (Event Call)) :
    (runs events).tasks.map Task.call = events.filterMap Event.started :=
  calls_run new events

theorem taken_of_ended (hended : system.pending task = none) :
    system.taken task = program task.call := by
  have hlength : (program task.call).length ≤ task.results.length :=
    List.getElem?_eq_none_iff.mp hended
  exact List.take_of_length_le hlength

theorem toMetrics_execAll_flatMap (calls : List Call) (counters : Counters) :
    toMetrics (execAll (calls.flatMap program) counters)
      = run perform (toMetrics counters) calls := by
  induction calls generalizing counters with
  | nil => rfl
  | cons call calls ih =>
      rw [List.flatMap_cons, execAll, List.foldl_append, ← execAll, ← execAll, ih,
        toMetrics_execAll_program, run_cons]

/-- Once every call has ended, the shared counters are those of metrics that take the calls one
after another. -/
theorem toMetrics_runs (events : List (Event Call))
    (hended : ∀ task ∈ (runs events).tasks, system.pending task = none) :
    toMetrics (runs events).shared = run perform .new (events.filterMap Event.started) := by
  have htaken : (runs events).tasks.flatMap system.taken
      = (events.filterMap Event.started).flatMap program := by
    rw [← calls_runs, List.flatMap_map]
    exact List.flatMap_congr fun task hmem => taken_of_ended (hended task hmem)
  rw [shared_eq_execAll, htaken, toMetrics_execAll_flatMap]
  rfl

/-- **No update is lost.** At any moment of any run the counters are what the operations taken so
far leave one after another, and once every call has ended they have what the calls add. -/
theorem no_update_lost (events : List (Event Call)) :
    (runs events).shared = execAll ((runs events).tasks.flatMap system.taken) new
      ∧ ((∀ task ∈ (runs events).tasks, system.pending task = none) →
          ∀ counter, (runs events).shared counter
            = ((events.filterMap Event.started).map (contribution · counter)).sum) := by
  refine ⟨shared_eq_execAll events, fun hended counter => ?_⟩
  rw [counter_eq_total, System.total, ← calls_runs, List.map_map]
  apply congrArg List.sum
  apply List.map_congr_left
  intro task hmem
  rw [taken_of_ended (hended task hmem), sum_program]
  rfl

theorem no_update_lost_two :
    let events : List (Event Call) := [.start (.recordFrameSent 5), .start (.recordFrameSent 7),
      .next 0, .next 1, .next 1, .next 0]
    (runs events).shared .bytesSent = ((events.filterMap Event.started).map
      (contribution · .bytesSent)).sum :=
  (no_update_lost _).2 (by decide) .bytesSent

/-! ### Counters that only grow -/

def volume (counter : Counter) : AtomicOp → Nat
  | .fetchAdd target added => if target = counter then added.toNat else 0
  | _ => 0

theorem amount_eq_volume {counter : Counter} {call : Call} {op : AtomicOp}
    (hcounter : counter ≠ .activeConnections) (hop : op ∈ program call) :
    amount counter op = UInt64.ofNat (volume counter op) := by
  cases op with
  | fetchAdd target added =>
      rw [amount, volume]
      by_cases htarget : target = counter
      · rw [if_pos htarget, if_pos htarget, UInt64.ofNat_toNat]
      · rw [if_neg htarget, if_neg htarget]
        rfl
  | fetchSub target removed =>
      have htarget : target = .activeConnections := by
        cases call <;> simp_all [program, recordFrameSent, recordFrameReceived, connectionOpened,
          connectionClosed, recordError, snapshot]
      rw [amount, if_neg (htarget ▸ hcounter.symm)]
      rfl
  | load target => rfl

theorem ofNat_sum (values : List Nat) :
    UInt64.ofNat values.sum = (values.map UInt64.ofNat).sum := by
  induction values with
  | nil => rfl
  | cons value values ih => rw [List.sum_cons, UInt64.ofNat_add, ih, List.map_cons, List.sum_cons]

theorem counter_toNat {events : List (Event Call)} {counter : Counter}
    (hcounter : counter ≠ .activeConnections)
    (hfew : system.total (volume counter) (runs events) < 2 ^ 64) :
    ((runs events).shared counter).toNat = system.total (volume counter) (runs events) := by
  have htotal : system.total (amount counter) (runs events)
      = UInt64.ofNat (system.total (volume counter) (runs events)) := by
    rw [System.total, System.total, ofNat_sum, List.map_map]
    apply congrArg List.sum
    apply List.map_congr_left
    intro task _
    rw [Function.comp_apply, ofNat_sum, List.map_map]
    apply congrArg List.sum
    apply List.map_congr_left
    intro op hop
    exact amount_eq_volume hcounter (List.mem_of_mem_take hop)
  rw [counter_eq_total, htotal, UInt64.toNat_ofNat_of_lt' hfew]

theorem length_tasks_le {before events : List (Event Call)} (hbefore : before <+: events) :
    (runs before).tasks.length ≤ (runs events).tasks.length := by
  obtain ⟨after, rfl⟩ := hbefore
  have hlength (events : List (Event Call)) :
      (runs events).tasks.length = (events.filterMap Event.started).length := by
    rw [← calls_runs, List.length_map]
  rw [hlength, hlength, List.filterMap_append, List.length_append]
  exact Nat.le_add_right ..

theorem read_le_read {before events : List (Event Call)} {i j k : Nat}
    {first second : Task Call UInt64} {counter : Counter} {earlier later : UInt64}
    (hbefore : before <+: events)
    (hfirst : (runs before).tasks[i]? = some first) (hfirstCall : first.call = .snapshot)
    (hearlier : first.results[k]? = some earlier)
    (hstarted : (runs before).tasks.length ≤ j)
    (hsecond : (runs events).tasks[j]? = some second) (hsecondCall : second.call = .snapshot)
    (hlater : second.results[k]? = some later)
    (hload : snapshot[k]? = some (.load counter)) (hcounter : counter ≠ .activeConnections)
    (hfew : system.total (volume counter) (runs events) < 2 ^ 64) : earlier ≤ later := by
  obtain ⟨firstRead, ⟨⟨rest, hrest⟩, -⟩, hearlierRead⟩ :=
    read_of_returned hfirst hfirstCall hload hearlier
  obtain ⟨secondRead, ⟨⟨rest', hrest'⟩, found, hfound, -⟩, hlaterRead⟩ :=
    read_of_returned hsecond hsecondCall hload hlater
  have hfirstRead : firstRead <+: before := ⟨_, hrest.symm⟩
  have hsecondRead : secondRead <+: events := ⟨_, hrest'.symm⟩
  -- the second task is there when it reads, and was not when the first had returned
  have horder : before <+: secondRead := by
    refine (List.prefix_or_prefix_of_prefix hbefore hsecondRead).resolve_right fun hle => ?_
    have hlt : j < (runs secondRead).tasks.length := (List.getElem?_eq_some_iff.mp hfound).1
    exact absurd (length_tasks_le hle) (by omega)
  obtain ⟨between, hbetween⟩ := hfirstRead.trans horder
  have hsplit : runs secondRead = run system.step (runs firstRead) between := by
    rw [runs, runs, ← run_append, hbetween]
  have hvolume : system.total (volume counter) (runs firstRead)
      ≤ system.total (volume counter) (runs secondRead) := by
    rw [hsplit]
    exact total_le_run between
  have hlast : system.total (volume counter) (runs secondRead)
      ≤ system.total (volume counter) (runs events) := by
    rw [hrest', runs, runs, run_append]
    exact total_le_run _
  rw [← hearlierRead, ← hlaterRead, UInt64.le_iff_toNat_le,
    counter_toNat hcounter (hvolume.trans_lt (hlast.trans_lt hfew)),
    counter_toNat hcounter (hlast.trans_lt hfew)]
  exact hvolume

theorem results_of_returned {task : Task Call UInt64} {snapshot : MetricsSnapshot}
    (hreturned : returned task = some snapshot) :
    task.call = .snapshot
      ∧ task.results = [snapshot.framesSent, snapshot.framesReceived, snapshot.bytesSent,
          snapshot.bytesReceived, snapshot.activeConnections, snapshot.totalConnections,
          snapshot.errors] := by
  unfold returned at hreturned
  split at hreturned
  next hcall hresults =>
      cases hreturned
      exact ⟨hcall, hresults⟩
  next => cases hreturned

/-- **Snapshots do not go back.** Of two snapshots of one run, the second started when the first had
returned, none of the counters but the active connections is less in the second, until what was
added to it wraps. -/
theorem snapshots_never_go_back {before events : List (Event Call)} {i j : Nat}
    {first second : Task Call UInt64} {earlier later : MetricsSnapshot}
    (hbefore : before <+: events)
    (hfirst : (runs before).tasks[i]? = some first) (hearlier : returned first = some earlier)
    (hstarted : (runs before).tasks.length ≤ j)
    (hsecond : (runs events).tasks[j]? = some second) (hlater : returned second = some later)
    (hfew : ∀ counter, counter ≠ .activeConnections →
      system.total (volume counter) (runs events) < 2 ^ 64) :
    earlier.framesSent ≤ later.framesSent ∧ earlier.framesReceived ≤ later.framesReceived
      ∧ earlier.bytesSent ≤ later.bytesSent ∧ earlier.bytesReceived ≤ later.bytesReceived
      ∧ earlier.totalConnections ≤ later.totalConnections ∧ earlier.errors ≤ later.errors := by
  obtain ⟨hfirstCall, hfirstResults⟩ := results_of_returned hearlier
  obtain ⟨hsecondCall, hsecondResults⟩ := results_of_returned hlater
  have hread {k : Nat} {counter : Counter} {earlier later : UInt64}
      (hearlier : first.results[k]? = some earlier) (hlater : second.results[k]? = some later)
      (hload : snapshot[k]? = some (.load counter)) (hcounter : counter ≠ .activeConnections) :
      earlier ≤ later :=
    read_le_read hbefore hfirst hfirstCall hearlier hstarted hsecond hsecondCall hlater hload
      hcounter (hfew counter hcounter)
  rw [hfirstResults, hsecondResults] at hread
  exact ⟨hread (k := 0) rfl rfl rfl (by decide), hread (k := 1) rfl rfl rfl (by decide),
    hread (k := 2) rfl rfl rfl (by decide), hread (k := 3) rfl rfl rfl (by decide),
    hread (k := 5) rfl rfl rfl (by decide), hread (k := 6) rfl rfl rfl (by decide)⟩

theorem snapshots_never_go_back_frame :
    let before : List (Event Call) := [.start (.recordFrameSent 5), .start .snapshot, .next 1,
      .next 0, .next 0, .next 1, .next 1, .next 1, .next 1, .next 1, .next 1]
    let events := before ++ [.start .snapshot, .next 2, .next 2, .next 2, .next 2, .next 2,
      .next 2, .next 2]
    ∃ earlier later, (runs before).tasks[1]?.bind returned = some earlier
      ∧ (runs events).tasks[2]?.bind returned = some later
      ∧ earlier.framesSent ≤ later.framesSent := by
  intro before events
  refine ⟨⟨0, 0, 5, 0, 0, 0, 0⟩, ⟨1, 0, 5, 0, 0, 0, 0⟩, rfl, rfl, ?_⟩
  have hbefore : before <+: events := List.prefix_append ..
  have hfirst : (runs before).tasks[1]? = some ⟨.snapshot, [0, 0, 5, 0, 0, 0, 0]⟩ := rfl
  have hsecond : (runs events).tasks[2]? = some ⟨.snapshot, [1, 0, 5, 0, 0, 0, 0]⟩ := rfl
  have hstarted : (runs before).tasks.length ≤ 2 := by decide
  have hfew : ∀ counter, counter ≠ .activeConnections →
      system.total (volume counter) (runs events) < 2 ^ 64 := by
    intro counter _
    cases counter <;> decide
  exact (snapshots_never_go_back hbefore hfirst rfl hstarted hsecond rfl hfew).1

end QuicView.AtomicMetrics
