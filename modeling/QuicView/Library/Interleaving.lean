import Mathlib.Algebra.BigOperators.Group.List.Basic
import Mathlib.Data.Finset.Card
import Mathlib.Data.List.Induction
import QuicView.Library.Execution

/-!
# Interleavings of atomic operations

Each call is a program of atomic operations on a shared state. A run starts calls and lets any of
them take its next operation, in any order.
-/

namespace Interleaving

open Execution

variable {Call Op Value Shared : Type*}

structure Task (Call Value : Type*) where
  call : Call
  results : List Value

structure State (Call Value Shared : Type*) where
  shared : Shared
  tasks : List (Task Call Value)

inductive Event (Call : Type*) where
  | start (call : Call)
  | next (task : Nat)
  deriving DecidableEq

structure System (Call Op Value Shared : Type*) where
  program : Call → List Op
  exec : Op → Shared → Value × Shared

def Task.record (task : Task Call Value) (value : Value) : Task Call Value :=
  { task with results := task.results ++ [value] }

def State.init (shared : Shared) : State Call Value Shared where
  shared := shared
  tasks := []

namespace System

variable (system : System Call Op Value Shared)

def pending (task : Task Call Value) : Option Op :=
  (system.program task.call)[task.results.length]?

def step (s : State Call Value Shared) : Event Call → State Call Value Shared
  | .start call => { s with tasks := s.tasks ++ [⟨call, []⟩] }
  | .next i =>
      match s.tasks[i]? with
      | none => s
      | some task =>
          match system.pending task with
          | none => s
          | some op =>
              let (value, shared) := system.exec op s.shared
              { shared := shared
                tasks := s.tasks.set i (task.record value) }

end System

def State.Has (s : State Call Value Shared) (i k : Nat) (value : Value) : Prop :=
  ∃ task, s.tasks[i]? = some task ∧ task.results[k]? = some value

/-- The tasks of some calls that have taken `k` operations. -/
def State.reached (s : State Call Value Shared) (p : Call → Bool) (k : Nat) : Finset Nat :=
  (Finset.range s.tasks.length).filter fun i =>
    s.tasks[i]?.any fun task => p task.call && k ≤ task.results.length

variable {system : System Call Op Value Shared} {s : State Call Value Shared} {i k : Nat}
  {task : Task Call Value} {op : Op} {p : Call → Bool}

theorem System.step_next (htask : s.tasks[i]? = some task) (hop : system.pending task = some op) :
    system.step s (.next i)
      = ⟨(system.exec op s.shared).2,
          s.tasks.set i (task.record (system.exec op s.shared).1)⟩ := by
  simp only [System.step, htask, hop]

theorem System.step_cases (system : System Call Op Value Shared) (s : State Call Value Shared)
    (event : Event Call) :
    (∃ call, event = .start call
        ∧ system.step s event = { s with tasks := s.tasks ++ [⟨call, []⟩] })
      ∨ (∃ i task op, event = .next i ∧ s.tasks[i]? = some task ∧ system.pending task = some op
          ∧ system.step s event = ⟨(system.exec op s.shared).2,
              s.tasks.set i (task.record (system.exec op s.shared).1)⟩)
      ∨ (∃ i, event = .next i ∧ (∀ task, s.tasks[i]? = some task → system.pending task = none)
          ∧ system.step s event = s) := by
  cases event with
  | start call => exact .inl ⟨call, rfl, rfl⟩
  | next i =>
      right
      cases htask : s.tasks[i]? with
      | none =>
          right
          refine ⟨i, rfl, fun task heq => ?_, ?_⟩
          · rw [htask] at heq
            cases heq
          · simp only [System.step, htask]
      | some task =>
          cases hop : system.pending task with
          | none =>
              right
              refine ⟨i, rfl, fun task' heq => ?_, ?_⟩
              · rw [htask, Option.some.injEq] at heq
                rw [← heq, hop]
              · simp only [System.step, htask, hop]
          | some op => exact .inl ⟨i, task, op, rfl, htask, hop, System.step_next htask hop⟩

theorem getElem?_concat_eq_some_iff {α : Type*} {l : List α} {a b : α} :
    (l ++ [a])[k]? = some b ↔ l[k]? = some b ∨ (k = l.length ∧ a = b) := by
  rcases Nat.lt_trichotomy k l.length with hlt | rfl | hgt
  · rw [List.getElem?_append_left hlt]
    exact (or_iff_left fun hlast => hlt.ne hlast.1).symm
  · rw [List.getElem?_concat_length, List.getElem?_eq_none le_rfl, Option.some.injEq]
    simp
  · have hgt' : (l ++ [a]).length ≤ k := List.length_append.trans_le hgt
    rw [List.getElem?_eq_none hgt', List.getElem?_eq_none hgt.le]
    simp [hgt.ne']

theorem set_eq_self {α : Type*} {l : List α} {a : α} {j : Nat} (hold : l[j]? = some a) :
    l.set j a = l := by
  obtain ⟨hlt, rfl⟩ := List.getElem?_eq_some_iff.mp hold
  exact List.set_getElem_self hlt

theorem getElem?_set_eq_some_iff {α : Type*} {l : List α} {a b : α} {j : Nat}
    (hold : l[j]? = some a) (new : α) :
    (l.set j new)[i]? = some b ↔ (i ≠ j ∧ l[i]? = some b) ∨ (i = j ∧ new = b) := by
  by_cases hij : i = j
  · subst hij
    obtain ⟨hlt, -⟩ := List.getElem?_eq_some_iff.mp hold
    rw [List.getElem?_set_self hlt, Option.some.injEq]
    simp
  · rw [List.getElem?_set_ne (Ne.symm hij)]
    simp [hij]

theorem System.exists_task_step_iff (system : System Call Op Value Shared)
    {s : State Call Value Shared} {event : Event Call} (P : Task Call Value → Prop)
    (Q : Task Call Value → Value → Prop) (hstart : ∀ call, ¬ P ⟨call, []⟩)
    (hrecord : ∀ task value, P (task.record value) ↔ P task ∨ Q task value) :
    (∃ task, (system.step s event).tasks[i]? = some task ∧ P task)
      ↔ (∃ task, s.tasks[i]? = some task ∧ P task)
        ∨ ∃ task op, event = .next i ∧ s.tasks[i]? = some task ∧ system.pending task = some op
            ∧ Q task (system.exec op s.shared).1 := by
  rcases system.step_cases s event with
    ⟨call, rfl, hstep⟩ | ⟨j, task, op, rfl, htask, hop, hstep⟩ | ⟨j, rfl, hnone, hstep⟩
  · rw [hstep]
    constructor
    · rintro ⟨task, htask, hP⟩
      rcases getElem?_concat_eq_some_iff.mp htask with htask | ⟨-, rfl⟩
      · exact .inl ⟨task, htask, hP⟩
      · exact absurd hP (hstart call)
    · rintro (⟨task, htask, hP⟩ | ⟨task, op, hevent, -⟩)
      · exact ⟨task, getElem?_concat_eq_some_iff.mpr (.inl htask), hP⟩
      · cases hevent
  · rw [hstep]
    have hset (task' : Task Call Value) := getElem?_set_eq_some_iff (i := i) (b := task') htask
      (task.record (system.exec op s.shared).1)
    constructor
    · rintro ⟨task', htask', hP⟩
      rcases (hset task').mp htask' with ⟨-, htask'⟩ | ⟨rfl, rfl⟩
      · exact .inl ⟨task', htask', hP⟩
      · rcases (hrecord task _).mp hP with hP | hQ
        · exact .inl ⟨task, htask, hP⟩
        · exact .inr ⟨task, op, rfl, htask, hop, hQ⟩
    · rintro (⟨task', htask', hP⟩ | ⟨task', op', hevent, htask', hop', hQ⟩)
      · by_cases hij : i = j
        · subst hij
          obtain rfl : task = task' := Option.some.inj (htask.symm.trans htask')
          exact ⟨_, (hset _).mpr (.inr ⟨rfl, rfl⟩), (hrecord task _).mpr (.inl hP)⟩
        · exact ⟨task', (hset task').mpr (.inl ⟨hij, htask'⟩), hP⟩
      · cases hevent
        obtain rfl : task = task' := Option.some.inj (htask.symm.trans htask')
        obtain rfl : op = op' := Option.some.inj (hop.symm.trans hop')
        exact ⟨_, (hset _).mpr (.inr ⟨rfl, rfl⟩), (hrecord task _).mpr (.inr hQ)⟩
  · rw [hstep]
    refine (or_iff_left ?_).symm
    rintro ⟨task, op, hevent, htask, hop, -⟩
    cases hevent
    rw [hnone task htask] at hop
    cases hop

theorem call_run (events : List (Event Call)) (htask : s.tasks[i]? = some task) :
    ∃ task', (run system.step s events).tasks[i]? = some task' ∧ task'.call = task.call := by
  induction events generalizing s task with
  | nil => exact ⟨task, htask, rfl⟩
  | cons event events ih =>
      have hstep : ∃ task', (system.step s event).tasks[i]? = some task'
          ∧ task'.call = task.call := by
        rcases system.step_cases s event with
          ⟨call, -, hstep⟩ | ⟨j, found, op, -, hfound, -, hstep⟩ | ⟨-, -, -, hstep⟩
        · rw [hstep]
          exact ⟨task, getElem?_concat_eq_some_iff.mpr (.inl htask), rfl⟩
        · rw [hstep]
          by_cases hij : i = j
          · subst hij
            obtain rfl : found = task := Option.some.inj (hfound.symm.trans htask)
            exact ⟨_, (getElem?_set_eq_some_iff htask _).mpr (.inr ⟨rfl, rfl⟩), rfl⟩
          · exact ⟨task, (getElem?_set_eq_some_iff hfound _).mpr (.inl ⟨hij, htask⟩), rfl⟩
        · rw [hstep]
          exact ⟨task, htask, rfl⟩
      obtain ⟨task', htask', hcall⟩ := hstep
      obtain ⟨last, hlast, hcall'⟩ := ih htask'
      exact ⟨last, hlast, hcall'.trans hcall⟩

/-! ### Results -/

/-- In the run, the task takes its operation number `k` after the events `before`. -/
def System.TakenAt (system : System Call Op Value Shared) (shared : Shared)
    (events before : List (Event Call)) (i k : Nat) (op : Op) : Prop :=
  (∃ after, events = before ++ .next i :: after)
    ∧ ∃ task, (run system.step (.init shared) before).tasks[i]? = some task
        ∧ task.results.length = k ∧ system.pending task = some op

theorem has_step_iff {value : Value} {event : Event Call} :
    (system.step s event).Has i k value
      ↔ s.Has i k value
        ∨ ∃ task op, event = .next i ∧ s.tasks[i]? = some task ∧ system.pending task = some op
            ∧ k = task.results.length ∧ (system.exec op s.shared).1 = value :=
  system.exists_task_step_iff (fun task => task.results[k]? = some value)
    (fun task found => k = task.results.length ∧ found = value)
    (fun _ => (Option.some_ne_none value).symm) fun _ _ => getElem?_concat_eq_some_iff

/-- **A result is the state of its moment.** A task has a result exactly if it took the operation
at some moment of the run, and the result is what the operation found then. -/
theorem has_run_iff {shared : Shared} {events : List (Event Call)} {value : Value} :
    (run system.step (.init shared) events).Has i k value
      ↔ ∃ before op, system.TakenAt shared events before i k op
          ∧ (system.exec op (run system.step (.init shared) before).shared).1 = value := by
  induction events using List.reverseRecOn with
  | nil =>
      constructor
      · rintro ⟨task, htask, -⟩
        cases htask
      · rintro ⟨before, op, ⟨⟨after, heq⟩, -⟩, -⟩
        cases before <;> cases heq
  | append_singleton events event ih =>
      rw [run_concat, has_step_iff, ih]
      constructor
      · rintro (⟨before, op, ⟨⟨after, rfl⟩, htask⟩, hvalue⟩
          | ⟨task, op, rfl, htask, hop, hlen, hvalue⟩)
        · exact ⟨before, op, ⟨⟨after ++ [event], by simp⟩, htask⟩, hvalue⟩
        · exact ⟨events, op, ⟨⟨[], rfl⟩, task, htask, hlen.symm, hop⟩, hvalue⟩
      · rintro ⟨before, op, ⟨⟨after, heq⟩, task, htask, hlen, hop⟩, hvalue⟩
        rcases List.eq_nil_or_concat' after with rfl | ⟨after, last, rfl⟩
        · obtain ⟨rfl, hlast⟩ := List.append_inj' heq rfl
          cases hlast
          exact .inr ⟨task, op, rfl, htask, hop, hlen.symm, hvalue⟩
        · rw [← List.cons_append, ← List.append_assoc] at heq
          obtain ⟨rfl, -⟩ := List.append_inj' heq rfl
          exact .inl ⟨before, op, ⟨⟨after, rfl⟩, task, htask, hlen, hop⟩, hvalue⟩

/-! ### Progress -/

theorem mem_reached :
    i ∈ s.reached p k
      ↔ ∃ task, s.tasks[i]? = some task ∧ p task.call ∧ k ≤ task.results.length := by
  rw [State.reached, Finset.mem_filter, Option.any_eq_true]
  simp only [Bool.and_eq_true, decide_eq_true_eq]
  refine and_iff_right_of_imp ?_
  rintro ⟨task, htask, -⟩
  exact Finset.mem_range.mpr (List.getElem?_eq_some_iff.mp htask).1

theorem reached_anti {k' : Nat} (hle : k ≤ k') : s.reached p k' ⊆ s.reached p k := by
  intro i hmem
  obtain ⟨task, htask, hcall, hreached⟩ := mem_reached.mp hmem
  exact mem_reached.mpr ⟨task, htask, hcall, hle.trans hreached⟩

theorem mem_reached_step_iff {event : Event Call} (hk : 0 < k) :
    i ∈ (system.step s event).reached p k
      ↔ i ∈ s.reached p k
        ∨ ∃ task op, event = .next i ∧ s.tasks[i]? = some task ∧ system.pending task = some op
            ∧ p task.call ∧ k = task.results.length + 1 := by
  rw [mem_reached, mem_reached]
  apply system.exists_task_step_iff (fun task => p task.call ∧ k ≤ task.results.length)
    fun task _ => p task.call ∧ k = task.results.length + 1
  · rintro call ⟨-, hle⟩
    exact absurd hle hk.not_ge
  · intro task value
    have hlen : (task.record value).results.length = task.results.length + 1 :=
      List.length_append
    rw [hlen, Nat.le_succ_iff, and_or_left]
    rfl

theorem reached_start (hk : 0 < k) (call : Call) :
    (system.step s (.start call)).reached p k = s.reached p k := by
  ext i
  rw [mem_reached_step_iff hk]
  refine or_iff_left ?_
  rintro ⟨task, op, hevent, -⟩
  cases hevent

theorem card_reached_next (htask : s.tasks[i]? = some task) (hop : system.pending task = some op)
    (hcall : p task.call) (k : Nat) :
    ((system.step s (.next i)).reached p (k + 1)).card
      = (s.reached p (k + 1)).card + if k = task.results.length then 1 else 0 := by
  by_cases hlen : k = task.results.length
  · have hfresh : i ∉ s.reached p (k + 1) := by
      rw [mem_reached]
      rintro ⟨task', htask', -, hle⟩
      obtain rfl : task = task' := Option.some.inj (htask.symm.trans htask')
      omega
    have hinsert : (system.step s (.next i)).reached p (k + 1)
        = insert i (s.reached p (k + 1)) := by
      ext j
      rw [mem_reached_step_iff k.succ_pos, Finset.mem_insert, or_comm]
      apply or_congr_left
      constructor
      · rintro ⟨_, _, hevent, -⟩
        cases hevent
        rfl
      · rintro rfl
        exact ⟨task, op, rfl, htask, hop, hcall, congrArg (· + 1) hlen⟩
    rw [hinsert, Finset.card_insert_of_notMem hfresh, if_pos hlen]
  · have hsame : (system.step s (.next i)).reached p (k + 1) = s.reached p (k + 1) := by
      ext j
      rw [mem_reached_step_iff k.succ_pos]
      refine or_iff_left ?_
      rintro ⟨task', _, hevent, htask', -, -, hk⟩
      cases hevent
      obtain rfl : task = task' := Option.some.inj (htask.symm.trans htask')
      exact hlen (Nat.succ.inj hk)
    rw [hsame, if_neg hlen]
    rfl

theorem reached_next_of_not (htask : s.tasks[i]? = some task) (hcall : p task.call = false)
    (hk : 0 < k) : (system.step s (.next i)).reached p k = s.reached p k := by
  ext j
  rw [mem_reached_step_iff hk]
  refine or_iff_left ?_
  rintro ⟨task', _, hevent, htask', -, hcall', -⟩
  cases hevent
  obtain rfl : task = task' := Option.some.inj (htask.symm.trans htask')
  rw [hcall] at hcall'
  cases hcall'

theorem reached_subset_run (hk : 0 < k) (events : List (Event Call)) :
    s.reached p k ⊆ (run system.step s events).reached p k := by
  induction events generalizing s with
  | nil => exact Finset.Subset.rfl
  | cons event events ih =>
      refine Finset.Subset.trans ?_ ih
      intro i hmem
      exact (mem_reached_step_iff hk).mpr (.inl hmem)

/-! ### The calls of a run -/

def Event.started : Event Call → Option Call
  | .start call => some call
  | .next _ => none

theorem calls_run (shared : Shared) (events : List (Event Call)) :
    (run system.step (.init shared) events).tasks.map Task.call
      = events.filterMap Event.started := by
  induction events using List.reverseRecOn with
  | nil => rfl
  | append_singleton events event ih =>
      rw [run_concat, List.filterMap_append, ← ih]
      rcases system.step_cases (run system.step (.init shared) events) event with
        ⟨call, rfl, hstep⟩ | ⟨i, task, op, rfl, htask, hop, hstep⟩ | ⟨i, rfl, -, hstep⟩
      · rw [hstep, List.map_append]
        rfl
      · have hcall : ((run system.step (.init shared) events).tasks.map Task.call)[i]?
            = some task.call := by
          rw [List.getElem?_map, htask, Option.map_some]
        rw [hstep, List.map_set]
        exact (set_eq_self hcall).trans (List.append_nil _).symm
      · rw [hstep]
        exact (List.append_nil _).symm

/-! ### Accumulation

An operation that adds to a part of the shared state adds the same whenever it is taken. What is
there in the end is then the sum of what was added, whichever order the operations came in.
-/

def System.taken (system : System Call Op Value Shared) (task : Task Call Value) : List Op :=
  (system.program task.call).take task.results.length

section Total

variable {M : Type*} [AddCommMonoid M] {amount : Op → M}

def System.total (system : System Call Op Value Shared) (amount : Op → M)
    (s : State Call Value Shared) : M :=
  (s.tasks.map fun task => ((system.taken task).map amount).sum).sum

theorem taken_record {value : Value} (hop : system.pending task = some op) :
    system.taken (task.record value) = system.taken task ++ [op] := by
  have hlength : (task.record value).results.length = task.results.length + 1 :=
    List.length_append
  have hop' : (system.program task.call)[task.results.length]? = some op := hop
  rw [System.taken, hlength]
  show (system.program task.call).take (task.results.length + 1) = _
  rw [List.take_add_one, hop']
  rfl

theorem total_start (call : Call) :
    system.total amount (system.step s (.start call)) = system.total amount s := by
  simp [System.total, System.step, System.taken]

theorem sum_map_set {α : Type*} {l : List α} {a new : α} {f : α → M} {d : M}
    (hold : l[i]? = some a) (hnew : f new = f a + d) :
    ((l.set i new).map f).sum = (l.map f).sum + d := by
  obtain ⟨hlt, rfl⟩ := List.getElem?_eq_some_iff.mp hold
  calc ((l.set i new).map f).sum
      = ((l.take i).map f).sum + (f new + ((l.drop (i + 1)).map f).sum) := by
        rw [List.set_eq_take_append_cons_drop, if_pos hlt, List.map_append, List.sum_append,
          List.map_cons, List.sum_cons]
    _ = ((l.take i).map f).sum + (f l[i] + ((l.drop (i + 1)).map f).sum) + d := by
        rw [hnew, add_right_comm, ← add_assoc]
    _ = (l.map f).sum + d := by
        rw [← List.sum_cons, ← List.map_cons, ← List.drop_eq_getElem_cons hlt, ← List.sum_append,
          ← List.map_append, List.take_append_drop]

theorem total_next (htask : s.tasks[i]? = some task) (hop : system.pending task = some op) :
    system.total amount (system.step s (.next i)) = system.total amount s + amount op := by
  rw [System.step_next htask hop, System.total, System.total]
  apply sum_map_set htask
  rw [taken_record hop, List.map_append, List.sum_append, List.map_singleton, List.sum_singleton]

/-- Where every operation adds its amount to a part of the shared state, that part is what it was at
first and the sum of the amounts that were taken. -/
theorem shared_eq_total (system : System Call Op Value Shared) (part : Shared → M) (amount : Op → M)
    (hexec : ∀ op shared, part (system.exec op shared).2 = part shared + amount op)
    (shared : Shared) (events : List (Event Call)) :
    part (run system.step (.init shared) events).shared
      = part shared + system.total amount (run system.step (.init shared) events) := by
  induction events using List.reverseRecOn with
  | nil => exact (add_zero _).symm
  | append_singleton events event ih =>
      rw [run_concat]
      rcases system.step_cases (run system.step (.init shared) events) event with
        ⟨call, rfl, -⟩ | ⟨i, task, op, rfl, htask, hop, hstep⟩ | ⟨i, rfl, -, hstep⟩
      · rw [total_start]
        exact ih
      · rw [total_next htask hop, ← add_assoc, ← ih, hstep]
        exact hexec op _
      · rw [hstep]
        exact ih

theorem total_le_run {amount : Op → Nat} (events : List (Event Call)) :
    system.total amount s ≤ system.total amount (run system.step s events) := by
  induction events generalizing s with
  | nil => exact Nat.le_refl _
  | cons event events ih =>
      refine Nat.le_trans ?_ ih
      rcases system.step_cases s event with
        ⟨call, rfl, -⟩ | ⟨i, task, op, rfl, htask, hop, -⟩ | ⟨i, -, -, hstep⟩
      · rw [total_start]
      · rw [total_next htask hop]
        exact Nat.le_add_right ..
      · rw [hstep]

end Total

end Interleaving
