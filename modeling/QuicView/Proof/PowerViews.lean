import QuicView.Library.Shadowing
import QuicView.Proof.PowerIdle

/-!
# Where the views of a display agree

Looking a display up, touching it and waking it stop at its first entry, while a tick and the list
of sleeping displays go through all. So a second entry is never active again.
-/

namespace QuicView.PowerManager

open Execution Shadowing

/-- A display is listed as sleeping exactly if its state is, and once. -/
def ViewsAgree (pm : PowerManager) : Prop :=
  (∀ id, id ∈ pm.sleepingDisplays ↔ pm.state id = some .sleep) ∧ pm.sleepingDisplays.Nodup

/-- What the tick returns sleeps right after it, and is returned once. -/
def TickAgrees (pm : PowerManager) (nowMs : UInt64) : Prop :=
  (∀ id ∈ (pm.tick nowMs).1, (pm.tick nowMs).2.state id = some .sleep) ∧ (pm.tick nowMs).1.Nodup

/-- A call registered the display at the time, after an earlier one had registered it already. -/
def Reregistered (calls : List Call) (id : DisplayId) (registeredMs : UInt64) : Prop :=
  ∃ before, before ++ [.register id registeredMs] <+: calls
    ∧ ∃ earlierMs, .register id earlierMs ∈ before

variable {pm : PowerManager}

def repeats (pm : PowerManager) : List PowerEntry := shadowed PowerEntry.displayId [] pm.states

theorem viewsAgree_iff : ViewsAgree pm ↔ ∀ entry ∈ pm.repeats, entry.state ≠ .sleep := by
  have hlookup : ∀ id, pm.state id = some .sleep
      ↔ ∃ entry, pm.states.find? (·.displayId = id) = some entry
          ∧ decide (entry.state = .sleep) = true := by
    intro id
    simp [state, Option.map_eq_some_iff]
  have hagrees : Agrees PowerEntry.displayId (fun entry => decide (entry.state = .sleep)) pm.states
      ↔ ∀ entry ∈ pm.repeats, decide (entry.state = .sleep) = false := agrees_iff pm.states
  simp only [decide_eq_false_iff_not] at hagrees
  rw [← hagrees, Agrees, ViewsAgree]
  simp only [hlookup]
  rfl

theorem tickAgrees_of_viewsAgree {nowMs : UInt64} (h : ViewsAgree (pm.tick nowMs).2) :
    TickAgrees pm nowMs := by
  have hsub : (pm.tick nowMs).1.Sublist (pm.tick nowMs).2.sleepingDisplays := by
    simp only [tick, sleepingDisplays, List.filter_map, List.map_map]
    have hkeys : PowerEntry.displayId ∘ (fun entry : PowerEntry =>
        if pm.tooIdle nowMs entry then { entry with state := .sleep } else entry)
        = PowerEntry.displayId := by
      funext entry
      simp only [Function.comp_apply]
      split <;> rfl
    rw [hkeys]
    apply List.Sublist.map
    apply List.monotone_filter_right
    intro entry hidle
    simp [hidle]
  exact ⟨fun id hmem => (h.1 id).mp (hsub.subset hmem), hsub.nodup h.2⟩

/-! ### What a call does to shadowed entries -/

theorem repeats_register (id : DisplayId) (nowMs : UInt64) :
    (pm.register id nowMs).repeats
      = pm.repeats ++ if id ∈ pm.states.map (·.displayId)
          then [{ displayId := id, state := .active, lastActiveMs := nowMs }] else [] := by
  simp only [repeats, register, shadowed_append_singleton, List.not_mem_nil, false_or]

theorem shadowed_activate {seen : List DisplayId} {id : DisplayId} (hid : id ∉ seen)
    (nowMs : UInt64) (entries : List PowerEntry) :
    shadowed PowerEntry.displayId seen (activate id nowMs entries)
      = shadowed PowerEntry.displayId seen entries := by
  induction entries generalizing seen with
  | nil => rfl
  | cons entry entries ih =>
      rw [activate]
      split
      · rename_i hfirst
        rw [shadowed, shadowed, if_neg (hfirst ▸ hid), if_neg (hfirst ▸ hid)]
      · rename_i hother
        rw [shadowed, shadowed, ih hid]
        split
        · rfl
        · exact ih fun hmem => (List.mem_cons.mp hmem).elim (fun heq => hother heq.symm) hid

theorem repeats_touch (id : DisplayId) (nowMs : UInt64) :
    (pm.touch id nowMs).repeats = pm.repeats :=
  shadowed_activate List.not_mem_nil nowMs pm.states

theorem repeats_tick (nowMs : UInt64) :
    (pm.tick nowMs).2.repeats = pm.repeats.map fun entry =>
      if pm.tooIdle nowMs entry then { entry with state := .sleep } else entry := by
  apply shadowed_map
  intro entry
  split <;> rfl

/-! ### Which registrations are shadowed -/

theorem displayIds_activate (id : DisplayId) (nowMs : UInt64) (entries : List PowerEntry) :
    (activate id nowMs entries).map (·.displayId) = entries.map (·.displayId) := by
  induction entries with
  | nil => rfl
  | cons entry entries ih =>
      rw [activate]
      split
      · rfl
      · rw [List.map_cons, List.map_cons, ih]

theorem displayIds_step (call : Call) :
    (step pm call).states.map (·.displayId)
      = match call with
        | .register id _ => pm.states.map (·.displayId) ++ [id]
        | _ => pm.states.map (·.displayId) := by
  cases call with
  | register id nowMs => simp [step, register]
  | touch id nowMs => exact displayIds_activate id nowMs pm.states
  | tick nowMs =>
      simp only [step, tick, List.map_map]
      apply List.map_congr_left
      intro entry _
      simp only [Function.comp_apply]
      split <;> rfl
  | wake id nowMs =>
      rw [step, wake_snd]
      exact displayIds_activate id nowMs pm.states

theorem mem_displayIds_run_iff (timeoutMs : UInt64) (id : DisplayId) (calls : List Call) :
    id ∈ (run step (new timeoutMs) calls).states.map (·.displayId)
      ↔ ∃ registeredMs, .register id registeredMs ∈ calls := by
  induction calls using List.reverseRec with
  | nil => simp [new]
  | append_singleton calls call ih =>
      rw [run_concat, displayIds_step]
      cases call with
      | register other nowMs => simp_all [or_comm, exists_or, eq_comm]
      | touch other nowMs => simpa using ih
      | tick nowMs => simpa using ih
      | wake other nowMs => simpa using ih

def registration (entry : PowerEntry) : DisplayId × UInt64 := (entry.displayId, entry.lastActiveMs)

theorem registrations_repeats_step (call : Call) :
    (step pm call).repeats.map registration
      = pm.repeats.map registration
        ++ match call with
          | .register id nowMs =>
              if id ∈ pm.states.map (·.displayId) then [(id, nowMs)] else []
          | _ => [] := by
  cases call with
  | register id nowMs =>
      rw [step, repeats_register, List.map_append]
      by_cases hknown : id ∈ pm.states.map (·.displayId)
      · simp only [if_pos hknown]
        rfl
      · simp only [if_neg hknown]
        rfl
  | touch id nowMs => rw [step, repeats_touch, List.append_nil]
  | tick nowMs =>
      rw [step, repeats_tick, List.map_map, List.append_nil]
      apply List.map_congr_left
      intro entry _
      simp only [Function.comp_apply]
      split <;> rfl
  | wake id nowMs => rw [step, wake_snd, repeats_touch, List.append_nil]

theorem reregistered_concat {calls : List Call} {call : Call} {id : DisplayId}
    {registeredMs : UInt64} :
    Reregistered (calls ++ [call]) id registeredMs
      ↔ Reregistered calls id registeredMs
        ∨ call = .register id registeredMs ∧ ∃ earlierMs, .register id earlierMs ∈ calls := by
  unfold Reregistered
  simp only [List.prefix_concat_iff]
  constructor
  · rintro ⟨before, heq | hinitial, hearlier⟩
    · obtain ⟨rfl, hsingle⟩ := List.append_inj' heq rfl
      exact .inr ⟨(List.singleton_inj.mp hsingle).symm, hearlier⟩
    · exact .inl ⟨before, hinitial, hearlier⟩
  · rintro (⟨before, hinitial, hearlier⟩ | ⟨rfl, hearlier⟩)
    · exact ⟨before, .inr hinitial, hearlier⟩
    · exact ⟨calls, .inl rfl, hearlier⟩

theorem mem_repeats_run_iff (timeoutMs : UInt64) (id : DisplayId) (registeredMs : UInt64)
    (calls : List Call) :
    (id, registeredMs) ∈ (run step (new timeoutMs) calls).repeats.map registration
      ↔ Reregistered calls id registeredMs := by
  induction calls using List.reverseRec with
  | nil => simp [new, repeats, shadowed, Reregistered]
  | append_singleton calls call ih =>
      rw [run_concat, registrations_repeats_step, List.mem_append, ih,
        reregistered_concat]
      refine or_congr_right ?_
      cases call with
      | register other nowMs =>
          by_cases hknown : other ∈ (run step (new timeoutMs) calls).states.map (·.displayId)
          · have hearlier := (mem_displayIds_run_iff timeoutMs other calls).mp hknown
            simp only [if_pos hknown, List.mem_singleton]
            constructor
            · rintro ⟨⟩
              exact ⟨rfl, hearlier⟩
            · rintro ⟨⟨⟩, _⟩
              rfl
          · simp only [if_neg hknown]
            refine iff_of_false List.not_mem_nil ?_
            rintro ⟨⟨⟩, hearlier⟩
            exact hknown ((mem_displayIds_run_iff timeoutMs _ calls).mpr hearlier)
      | touch other nowMs => simp
      | tick nowMs => simp
      | wake other nowMs => simp

/-! ### Along a run -/

theorem timeoutMs_step (call : Call) : (step pm call).timeoutMs = pm.timeoutMs := by
  cases call with
  | register id nowMs => rfl
  | touch id nowMs => rfl
  | tick nowMs => rfl
  | wake id nowMs =>
      rw [step, wake_snd]
      rfl

theorem timeoutMs_run (timeoutMs : UInt64) (calls : List Call) :
    (run step (new timeoutMs) calls).timeoutMs = timeoutMs := by
  induction calls using List.reverseRec with
  | nil => rfl
  | append_singleton calls call ih => rw [run_concat, timeoutMs_step, ih]

theorem late_eq_false_iff (timeoutMs lastActiveMs nowMs : UInt64) :
    late timeoutMs lastActiveMs nowMs = false
      ↔ nowMs.saturatingSub lastActiveMs ≤ timeoutMs := by
  rw [late, decide_eq_false_iff_not, gt_iff_lt, UInt64.not_lt]

def NoneWaking (pm : PowerManager) : Prop := ∀ entry ∈ pm.states, entry.state ≠ .waking

def RepeatsInTime (pm : PowerManager) (call : Call) : Prop :=
  ∀ nowMs, call = .tick nowMs →
    ∀ entry ∈ pm.repeats, late pm.timeoutMs entry.lastActiveMs nowMs = false

theorem noneWaking_activate {entries : List PowerEntry}
    (h : ∀ entry ∈ entries, entry.state ≠ .waking) (id : DisplayId) (nowMs : UInt64) :
    ∀ entry ∈ activate id nowMs entries, entry.state ≠ .waking := by
  induction entries with
  | nil => exact h
  | cons entry entries ih =>
      obtain ⟨hfirst, hothers⟩ := List.forall_mem_cons.mp h
      rw [activate]
      split
      · exact List.forall_mem_cons.mpr ⟨PowerState.noConfusion, hothers⟩
      · exact List.forall_mem_cons.mpr ⟨hfirst, ih hothers⟩

theorem NoneWaking.step (h : NoneWaking pm) (call : Call) : NoneWaking (step pm call) := by
  cases call with
  | register id nowMs =>
      intro entry hmem
      rcases List.mem_append.mp hmem with hmem | hnew
      · exact h entry hmem
      · rw [List.mem_singleton.mp hnew]
        exact PowerState.noConfusion
  | touch id nowMs => exact noneWaking_activate h id nowMs
  | tick nowMs =>
      refine List.forall_mem_map.mpr fun entry hmem => ?_
      split
      · exact PowerState.noConfusion
      · exact h entry hmem
  | wake id nowMs =>
      rw [PowerManager.step, wake_snd]
      exact noneWaking_activate h id nowMs

theorem tooIdle_eq_late {entry : PowerEntry} (hsleep : entry.state ≠ .sleep)
    (hwaking : entry.state ≠ .waking) (nowMs : UInt64) :
    pm.tooIdle nowMs entry = late pm.timeoutMs entry.lastActiveMs nowMs := by
  have hactive : entry.state = .active := by
    cases hstate : entry.state with
    | active => rfl
    | sleep => exact absurd hstate hsleep
    | waking => exact absurd hstate hwaking
  simp [tooIdle, hactive, late]

theorem viewsAgree_step_iff (hnone : NoneWaking pm) (hagree : ViewsAgree pm) (call : Call) :
    ViewsAgree (step pm call) ↔ RepeatsInTime pm call := by
  rw [viewsAgree_iff] at hagree ⊢
  cases call with
  | register id nowMs =>
      refine iff_of_true (fun entry hmem => ?_) fun _ htick => Call.noConfusion htick
      rw [step, repeats_register] at hmem
      rcases List.mem_append.mp hmem with hmem | hnew
      · exact hagree entry hmem
      · split at hnew
        · rw [List.mem_singleton.mp hnew]
          exact PowerState.noConfusion
        · cases hnew
  | touch id nowMs =>
      rw [step, repeats_touch]
      exact iff_of_true hagree fun _ htick => Call.noConfusion htick
  | wake id nowMs =>
      rw [step, wake_snd, repeats_touch]
      exact iff_of_true hagree fun _ htick => Call.noConfusion htick
  | tick nowMs =>
      have hidle : ∀ entry ∈ pm.repeats,
          pm.tooIdle nowMs entry = late pm.timeoutMs entry.lastActiveMs nowMs := by
        intro entry hmem
        have hwaking := hnone entry ((shadowed_sublist [] pm.states).subset hmem)
        exact tooIdle_eq_late (hagree entry hmem) hwaking nowMs
      rw [step, repeats_tick, List.forall_mem_map]
      constructor
      · rintro hawake _ ⟨⟩ entry hmem
        have hafter := hawake entry hmem
        rw [hidle entry hmem] at hafter
        by_contra hlate
        rw [if_pos (Bool.eq_true_of_not_eq_false hlate)] at hafter
        exact hafter rfl
      · intro hintime entry hmem
        rw [hidle entry hmem, hintime nowMs rfl entry hmem]
        exact hagree entry hmem

/-- **Where the views agree.** The views of every display agree in every state of a run exactly if
no tick comes later than the timeout after a display was registered that had been before. -/
theorem views_agree_iff_no_stale_reregistration (timeoutMs : UInt64) (calls : List Call) :
    (Always step ViewsAgree (new timeoutMs) calls
        ∧ ∀ before nowMs, before ++ [.tick nowMs] <+: calls →
          TickAgrees (run step (new timeoutMs) before) nowMs)
      ↔ ∀ before nowMs, before ++ [.tick nowMs] <+: calls →
          ∀ id registeredMs, Reregistered before id registeredMs →
            nowMs.saturatingSub registeredMs ≤ timeoutMs := by
  have hguarded : Always step ViewsAgree (new timeoutMs) calls
      ↔ Guarded step RepeatsInTime (new timeoutMs) calls := by
    refine always_iff_guarded NoneWaking (fun _ call hnone => hnone.step call)
      (fun _ call hnone hagree => viewsAgree_step_iff hnone hagree call) calls ?_ ?_
    · exact fun entry hmem => absurd hmem List.not_mem_nil
    · exact viewsAgree_iff.mpr fun entry hmem => absurd hmem List.not_mem_nil
  have hticks : Always step ViewsAgree (new timeoutMs) calls → ∀ before nowMs,
      before ++ [.tick nowMs] <+: calls → TickAgrees (run step (new timeoutMs) before) nowMs := by
    intro halways before nowMs hbefore
    apply tickAgrees_of_viewsAgree
    have hafter := halways _ hbefore
    rwa [run_concat] at hafter
  rw [and_iff_left_of_imp hticks, hguarded]
  constructor
  · rintro hintime before nowMs ⟨after, rfl⟩ id registeredMs hagain
    have hmem := (mem_repeats_run_iff timeoutMs id registeredMs before).mpr hagain
    obtain ⟨entry, hentry, hregistration⟩ := List.mem_map.mp hmem
    obtain ⟨rfl, rfl⟩ := Prod.mk.inj hregistration
    have hlate := hintime before (.tick nowMs) after (by simp) nowMs rfl entry hentry
    rwa [late_eq_false_iff, timeoutMs_run] at hlate
  · rintro hintime before call after rfl nowMs rfl entry hentry
    have hagain := (mem_repeats_run_iff timeoutMs entry.displayId entry.lastActiveMs before).mp
      (List.mem_map_of_mem hentry)
    have hle := hintime before nowMs ⟨after, by simp⟩ entry.displayId entry.lastActiveMs hagain
    rwa [late_eq_false_iff, timeoutMs_run]

theorem views_disagree_after_reregistration :
    ¬ ∀ (timeoutMs : UInt64) (calls : List Call),
      Always step ViewsAgree (new timeoutMs) calls
        ∧ ∀ before nowMs, before ++ [.tick nowMs] <+: calls →
          TickAgrees (run step (new timeoutMs) before) nowMs := by
  intro hagree
  have hviews := (hagree 5000
    [.register ⟨1⟩ 0, .register ⟨1⟩ 0, .touch ⟨1⟩ 5000, .tick 6000]).1.last
  have hstate := (hviews.1 ⟨1⟩).mp (by decide)
  revert hstate
  decide

end QuicView.PowerManager
