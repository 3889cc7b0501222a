import Mathlib.Data.List.TakeWhile
import QuicView.Library.IdleTimer
import QuicView.Session.Power

/-!
# A display sleeps when it is idle

Restricted to the entries of one display, a run is the run of the calls that concern it. A display
registered once has one entry, and that entry is an idle timer.
-/

namespace QuicView.PowerManager

open Execution

def Call.registers (id : DisplayId) : Call → Bool
  | .register other _ => other = id
  | _ => false

def event (id : DisplayId) : Call → Option (IdleTimer.Event UInt64)
  | .register other nowMs => if other = id then some (.activity nowMs) else none
  | .touch other nowMs => if other = id then some (.activity nowMs) else none
  | .wake other nowMs => if other = id then some (.activity nowMs) else none
  | .tick nowMs => some (.tick nowMs)

def Call.concerns (id : DisplayId) (call : Call) : Bool := (event id call).isSome

/-- The activities of the display and the ticks, from its registration on. -/
def timeline (id : DisplayId) (calls : List Call) : List (IdleTimer.Event UInt64) :=
  (calls.dropWhile fun call => !call.registers id).filterMap (event id)

def late (timeoutMs lastActiveMs nowMs : UInt64) : Bool :=
  nowMs.saturatingSub lastActiveMs > timeoutMs

/-! ### One display at a time -/

def focus (id : DisplayId) (pm : PowerManager) : PowerManager :=
  { pm with states := pm.states.filter (·.displayId = id) }

variable {id : DisplayId} {pm : PowerManager}

theorem filter_activate (other : DisplayId) (nowMs : UInt64) (entries : List PowerEntry) :
    (activate other nowMs entries).filter (·.displayId = id)
      = if other = id then activate other nowMs (entries.filter (·.displayId = id))
        else entries.filter (·.displayId = id) := by
  induction entries with
  | nil => simp [activate]
  | cons entry entries ih =>
      by_cases hother : entry.displayId = other
      · by_cases hid : other = id
        · simp [activate, hother, hid]
        · simp [activate, hother, hid]
      · by_cases hid : other = id
        · subst hid
          rw [if_pos rfl] at ih ⊢
          simp [activate, hother, ih]
        · rw [if_neg hid] at ih ⊢
          simp [activate, hother, ih, List.filter_cons]

theorem activate_of_absent {nowMs : UInt64} {entries : List PowerEntry}
    (habsent : entries.any (·.displayId = id) = false) :
    activate id nowMs entries = entries := by
  induction entries with
  | nil => rfl
  | cons entry entries ih =>
      simp only [List.any_cons, Bool.or_eq_false_iff, decide_eq_false_iff_not] at habsent
      rw [activate, if_neg habsent.1, ih habsent.2]

theorem wake_snd (pm : PowerManager) (id : DisplayId) (nowMs : UInt64) :
    (pm.wake id nowMs).2 = pm.touch id nowMs := by
  unfold wake touch
  split
  · rfl
  · rename_i habsent
    rw [activate_of_absent (Bool.eq_false_iff.mpr habsent)]

theorem focus_touch (other : DisplayId) (nowMs : UInt64) :
    focus id (pm.touch other nowMs)
      = if other = id then (focus id pm).touch other nowMs else focus id pm := by
  simp only [focus, touch, filter_activate]
  split <;> rfl

theorem focus_tick (nowMs : UInt64) :
    focus id (pm.tick nowMs).2 = ((focus id pm).tick nowMs).2 := by
  simp only [focus, tick, List.filter_map]
  congr 2
  apply List.filter_congr
  intro entry _
  simp only [Function.comp_apply]
  split <;> rfl

theorem focus_step (call : Call) :
    focus id (step pm call)
      = if call.concerns id then step (focus id pm) call else focus id pm := by
  unfold Call.concerns
  cases call with
  | register other nowMs =>
      by_cases hother : other = id
      · simp [step, register, focus, event, hother]
      · simp [step, register, focus, event, hother]
  | touch other nowMs =>
      rw [step, focus_touch]
      by_cases hother : other = id
      · simp [event, hother, step]
      · simp [event, hother]
  | tick nowMs => exact focus_tick nowMs
  | wake other nowMs =>
      rw [step, wake_snd, focus_touch]
      by_cases hother : other = id
      · simp [event, hother, step, wake_snd]
      · simp [event, hother]

theorem focus_run (calls : List Call) :
    focus id (run step pm calls)
      = run step (focus id pm) (calls.filter (Call.concerns id)) := by
  induction calls generalizing pm with
  | nil => rfl
  | cons call calls ih =>
      rw [run_cons, ih, focus_step, List.filter_cons]
      split <;> rfl

theorem state_focus : (focus id pm).state id = pm.state id := by
  simp [state, focus, List.find?_filter]

theorem filter_tick (nowMs : UInt64) :
    (pm.tick nowMs).1.filter (· = id) = ((focus id pm).tick nowMs).1 := by
  simp only [tick, focus, List.filter_map, List.filter_filter]
  congr 1
  apply List.filter_congr
  intro entry _
  simp [tooIdle, Bool.and_comm]

/-! ### An entry is an idle timer -/

def alone (timeoutMs : UInt64) (id : DisplayId) (timer : IdleTimer.Timer UInt64) :
    PowerManager where
  timeoutMs := timeoutMs
  states := [{
    displayId := id
    state := if timer.asleep then .sleep else .active
    lastActiveMs := timer.last }]

variable {timeoutMs : UInt64} {timer : IdleTimer.Timer UInt64}

theorem state_alone :
    (alone timeoutMs id timer).state id = some (if timer.asleep then .sleep else .active) := by
  simp [alone, state]

theorem tick_alone (nowMs : UInt64) :
    (alone timeoutMs id timer).tick nowMs
      = (if IdleTimer.rings (late timeoutMs) timer nowMs then [id] else [],
          alone timeoutMs id (IdleTimer.step (late timeoutMs) timer (.tick nowMs))) := by
  have hidle : ∀ pm : PowerManager, pm.timeoutMs = timeoutMs →
      pm.tooIdle nowMs ⟨id, if timer.asleep then .sleep else .active, timer.last⟩
        = IdleTimer.rings (late timeoutMs) timer nowMs := by
    rintro pm rfl
    cases hasleep : timer.asleep <;> simp [tooIdle, IdleTimer.rings, late, hasleep]
  cases hrings : IdleTimer.rings (late timeoutMs) timer nowMs <;>
    simp [tick, alone, hidle, hrings, IdleTimer.step]

theorem step_alone {call : Call} {timerEvent : IdleTimer.Event UInt64}
    (hcall : call.registers id = false) (hevent : event id call = some timerEvent) :
    step (alone timeoutMs id timer) call
      = alone timeoutMs id (IdleTimer.step (late timeoutMs) timer timerEvent) := by
  have htouch : ∀ nowMs, (alone timeoutMs id timer).touch id nowMs
      = alone timeoutMs id (IdleTimer.start nowMs) := by
    intro nowMs
    simp [touch, alone, activate, IdleTimer.start]
  cases call with
  | register other nowMs =>
      have hother : ¬ other = id := by simpa [Call.registers] using hcall
      simp [event, hother] at hevent
  | touch other nowMs =>
      simp only [event, Option.ite_none_right_eq_some, Option.some.injEq] at hevent
      obtain ⟨rfl, rfl⟩ := hevent
      exact htouch nowMs
  | wake other nowMs =>
      simp only [event, Option.ite_none_right_eq_some, Option.some.injEq] at hevent
      obtain ⟨rfl, rfl⟩ := hevent
      rw [step, wake_snd]
      exact htouch nowMs
  | tick nowMs =>
      obtain rfl := Option.some.inj hevent
      rw [step, tick_alone]

theorem run_alone {calls : List Call} (hcalls : ∀ call ∈ calls, call.registers id = false) :
    run step (alone timeoutMs id timer) (calls.filter (Call.concerns id))
      = alone timeoutMs id
          (run (IdleTimer.step (late timeoutMs)) timer (calls.filterMap (event id))) := by
  induction calls generalizing timer with
  | nil => rfl
  | cons call calls ih =>
      obtain ⟨hcall, hcalls⟩ := List.forall_mem_cons.mp hcalls
      cases hevent : event id call with
      | none =>
          rw [List.filter_cons_of_neg (by simp [Call.concerns, hevent]),
            List.filterMap_cons_none hevent]
          exact ih hcalls
      | some timerEvent =>
          rw [List.filter_cons_of_pos (by simp [Call.concerns, hevent]),
            List.filterMap_cons_some hevent, run_cons, run_cons, step_alone hcall hevent]
          exact ih hcalls

theorem run_new_of_unregistered {calls : List Call}
    (hcalls : ∀ call ∈ calls, call.registers id = false) :
    run step (new timeoutMs) (calls.filter (Call.concerns id)) = new timeoutMs := by
  induction calls with
  | nil => rfl
  | cons call calls ih =>
      obtain ⟨hcall, hcalls⟩ := List.forall_mem_cons.mp hcalls
      rw [List.filter_cons]
      split
      · have hstep : step (new timeoutMs) call = new timeoutMs := by
          cases call with
          | register other nowMs =>
              have hother : ¬ other = id := by simpa [Call.registers] using hcall
              simp_all [Call.concerns, event]
          | touch other nowMs => rfl
          | tick nowMs => rfl
          | wake other nowMs => rfl
        rw [run_cons, hstep]
        exact ih hcalls
      · exact ih hcalls

/-! ### One registration -/

theorem countP_registers_le_one_cases {calls : List Call}
    (honce : calls.countP (Call.registers id) ≤ 1) :
    (∀ call ∈ calls, call.registers id = false)
      ∨ ∃ before nowMs after, calls = before ++ .register id nowMs :: after
          ∧ (∀ call ∈ before, call.registers id = false)
          ∧ ∀ call ∈ after, call.registers id = false := by
  by_cases hnone : ∀ call ∈ calls, call.registers id = false
  · exact .inl hnone
  · simp only [not_forall, Bool.not_eq_false] at hnone
    obtain ⟨call, hmem, hregisters⟩ := hnone
    obtain ⟨before, after, rfl⟩ := List.append_of_mem hmem
    rw [List.countP_append, List.countP_cons_of_pos hregisters] at honce
    have hbefore : before.countP (Call.registers id) = 0 := by omega
    have hafter : after.countP (Call.registers id) = 0 := by omega
    cases call with
    | register other nowMs =>
        obtain rfl : other = id := by simpa [Call.registers] using hregisters
        refine .inr ⟨before, nowMs, after, rfl, ?_, ?_⟩
        · simpa using List.countP_eq_zero.mp hbefore
        · simpa using List.countP_eq_zero.mp hafter
    | touch other nowMs => cases hregisters
    | tick nowMs => cases hregisters
    | wake other nowMs => cases hregisters

theorem focus_run_cases (timeoutMs : UInt64) {calls : List Call}
    (honce : calls.countP (Call.registers id) ≤ 1) :
    (calls.countP (Call.registers id) = 0
        ∧ focus id (run step (new timeoutMs) calls) = new timeoutMs ∧ timeline id calls = [])
      ∨ ∃ timer, focus id (run step (new timeoutMs) calls) = alone timeoutMs id timer
          ∧ IdleTimer.Follows (late timeoutMs) timer (timeline id calls) := by
  have hnew : focus id (new timeoutMs) = new timeoutMs := rfl
  rcases countP_registers_le_one_cases honce with
    hnone | ⟨before, nowMs, after, rfl, hbefore, hafter⟩
  · refine .inl ⟨?_, ?_, ?_⟩
    · exact List.countP_eq_zero.mpr fun call hmem => by simp [hnone call hmem]
    · rw [focus_run, hnew, run_new_of_unregistered hnone]
    · rw [timeline, List.dropWhile_eq_nil_iff.mpr fun call hmem => by simp [hnone call hmem]]
      rfl
  · have htimeline : timeline id (before ++ .register id nowMs :: after)
        = .activity nowMs :: after.filterMap (event id) := by
      rw [timeline, List.dropWhile_append_of_pos fun call hmem => by simp [hbefore call hmem],
        List.dropWhile_cons_of_neg (by simp [Call.registers]), List.filterMap_cons_some]
      simp [event]
    have hregistered : step (new timeoutMs) (.register id nowMs)
        = alone timeoutMs id (IdleTimer.start nowMs) := rfl
    have hconcerns : (Call.register id nowMs).concerns id = true := by
      simp [Call.concerns, event]
    refine .inr ⟨run (IdleTimer.step (late timeoutMs)) (IdleTimer.start nowMs)
      (after.filterMap (event id)), ?_, ?_⟩
    · rw [focus_run, hnew, List.filter_append, List.filter_cons_of_pos hconcerns, run_append,
        run_new_of_unregistered hbefore, run_cons, hregistered, run_alone hafter]
    · rw [htimeline]
      exact IdleTimer.follows_run nowMs _

theorem count_tick_eq (nowMs : UInt64) :
    (pm.tick nowMs).1.count id = ((focus id pm).tick nowMs).1.length := by
  rw [← filter_tick, List.count_eq_length_filter]
  congr 1

theorem mem_tick_iff (nowMs : UInt64) :
    id ∈ (pm.tick nowMs).1 ↔ ((focus id pm).tick nowMs).1 ≠ [] := by
  rw [← filter_tick]
  simp

variable {calls : List Call}

theorem state_run_cases (honce : calls.countP (Call.registers id) = 1) :
    (IdleTimer.Slept (late timeoutMs) (timeline id calls)
        ∧ (run step (new timeoutMs) calls).state id = some .sleep)
      ∨ (¬ IdleTimer.Slept (late timeoutMs) (timeline id calls)
        ∧ (run step (new timeoutMs) calls).state id = some .active) := by
  rcases focus_run_cases timeoutMs honce.le with ⟨hnone, _⟩ | ⟨timer, hfocus, hfollows⟩
  · omega
  · rw [← state_focus, hfocus, state_alone, ← hfollows.asleep_iff]
    cases timer.asleep with
    | true => exact .inl ⟨rfl, rfl⟩
    | false => exact .inr ⟨Bool.false_ne_true, rfl⟩

theorem tick_run_iff (honce : calls.countP (Call.registers id) ≤ 1) (nowMs : UInt64) :
    (id ∈ ((run step (new timeoutMs) calls).tick nowMs).1
        ↔ IdleTimer.FirstLate (late timeoutMs) (timeline id calls) nowMs)
      ∧ ((run step (new timeoutMs) calls).tick nowMs).1.count id ≤ 1 := by
  rw [mem_tick_iff, count_tick_eq]
  rcases focus_run_cases timeoutMs honce with ⟨_, hfocus, htimeline⟩ | ⟨timer, hfocus, hfollows⟩
  · rw [hfocus, htimeline]
    refine ⟨iff_of_false (not_not.mpr rfl) ?_, Nat.zero_le _⟩
    rintro ⟨time, since, hlast, _⟩
    exact absurd (List.suffix_nil.mp hlast.1) (List.cons_ne_nil _ _)
  · rw [hfocus, tick_alone, ← hfollows.rings_iff]
    split
    · exact ⟨iff_of_true (List.cons_ne_nil _ _) ‹_›, Nat.le_refl _⟩
    · exact ⟨iff_of_false (not_not.mpr rfl) ‹_›, Nat.zero_le _⟩

theorem state_run_congr {these those : List Call}
    (hsame : these.filter (Call.concerns id) = those.filter (Call.concerns id)) :
    (run step (new timeoutMs) these).state id = (run step (new timeoutMs) those).state id := by
  have hfocus : focus id (run step (new timeoutMs) these)
      = focus id (run step (new timeoutMs) those) := by
    rw [focus_run, focus_run, hsame]
  rw [← state_focus, hfocus, state_focus]

/-- **A display sleeps exactly when idle too long.** A display registered once is asleep if a tick
since its last activity came too late, and a tick returns it exactly if it is the first of these.
All this is the same in any run with the same ticks and calls on the display. -/
theorem sleeps_exactly_when_idle (timeoutMs : UInt64) (id : DisplayId) (calls : List Call)
    (honce : calls.countP (Call.registers id) = 1) :
    ((run step (new timeoutMs) calls).state id = some .sleep
        ↔ IdleTimer.Slept (late timeoutMs) (timeline id calls))
      ∧ ((run step (new timeoutMs) calls).state id = some .active
        ↔ ¬ IdleTimer.Slept (late timeoutMs) (timeline id calls))
      ∧ (∀ before nowMs, before ++ [.tick nowMs] <+: calls →
        (id ∈ ((run step (new timeoutMs) before).tick nowMs).1
            ↔ IdleTimer.FirstLate (late timeoutMs) (timeline id before) nowMs)
          ∧ ((run step (new timeoutMs) before).tick nowMs).1.count id ≤ 1)
      ∧ ∀ these those : List Call,
        these.filter (Call.concerns id) = those.filter (Call.concerns id) →
        (run step (new timeoutMs) these).state id = (run step (new timeoutMs) those).state id
          ∧ ∀ nowMs, id ∈ ((run step (new timeoutMs) these).tick nowMs).1
            ↔ id ∈ ((run step (new timeoutMs) those).tick nowMs).1 := by
  refine ⟨?_, ?_, fun before nowMs hbefore => ?_, fun these those hsame => ⟨?_, fun nowMs => ?_⟩⟩
  · rcases state_run_cases honce with ⟨hslept, hstate⟩ | ⟨hawake, hstate⟩
    · exact iff_of_true hstate hslept
    · exact iff_of_false (by simp [hstate]) hawake
  · rcases state_run_cases honce with ⟨hslept, hstate⟩ | ⟨hawake, hstate⟩
    · exact iff_of_false (by simp [hstate]) (not_not.mpr hslept)
    · exact iff_of_true hstate hawake
  · have hinitial : before <+: calls := (List.prefix_append _ _).trans hbefore
    exact tick_run_iff ((hinitial.sublist.countP_le).trans honce.le) nowMs
  · exact state_run_congr hsame
  · rw [mem_tick_iff, mem_tick_iff, focus_run, focus_run, hsame]

theorem sleeps_exactly_when_idle_clock_backwards :
    let calls : List Call := [.touch ⟨1⟩ 7, .register ⟨1⟩ 0, .register ⟨2⟩ 0, .tick 6000, .tick 3,
      .wake ⟨2⟩ 5, .tick 9000]
    (run step (new 5000) calls).state ⟨1⟩ = some .sleep
      ↔ IdleTimer.Slept (late 5000) (timeline ⟨1⟩ calls) :=
  (sleeps_exactly_when_idle 5000 ⟨1⟩ _ rfl).1

end QuicView.PowerManager
