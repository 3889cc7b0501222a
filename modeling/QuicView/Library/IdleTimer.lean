import QuicView.Library.Execution

/-!
# Idle timers

A timer remembers when there was last activity, and falls asleep at a tick that finds this too long
ago. Falling asleep leaves the remembered time alone, so whether it sleeps is settled by the last
activity and the ticks since, in whatever order the clock was read.
-/

namespace IdleTimer

open Execution

inductive Event (Time : Type*) where
  | activity (time : Time)
  | tick (now : Time)
  deriving DecidableEq

structure Timer (Time : Type*) where
  asleep : Bool
  last : Time
  deriving DecidableEq

variable {Time : Type*} (late : Time → Time → Bool)

def start (time : Time) : Timer Time where
  asleep := false
  last := time

def rings (timer : Timer Time) (now : Time) : Bool := !timer.asleep && late timer.last now

def step (timer : Timer Time) : Event Time → Timer Time
  | .activity time => start time
  | .tick now => if rings late timer now then { timer with asleep := true } else timer

/-! ### What a history says -/

/-- The last activity was at the time, and only these ticks have come since. -/
def LastActive (events : List (Event Time)) (time : Time) (since : List (Event Time)) : Prop :=
  .activity time :: since <:+ events ∧ ∀ later, .activity later ∉ since

def Slept (events : List (Event Time)) : Prop :=
  ∃ time since, LastActive events time since ∧ ∃ now, .tick now ∈ since ∧ late time now

def FirstLate (events : List (Event Time)) (now : Time) : Prop :=
  ∃ time since, LastActive events time since ∧ late time now
    ∧ ∀ earlier, .tick earlier ∈ since → ¬ late time earlier

variable {late} {events since since' : List (Event Time)} {time time' : Time}

theorem LastActive.eq_of_suffix (h' : LastActive events time' since')
    (hsuffix : .activity time :: since <:+ .activity time' :: since') :
    time = time' ∧ since = since' := by
  rcases List.suffix_cons_iff.mp hsuffix with heq | hlater
  · obtain ⟨htime, hsame⟩ := List.cons.inj heq
    exact ⟨Event.activity.inj htime, hsame⟩
  · exact absurd (hlater.subset List.mem_cons_self) (h'.2 time)

theorem LastActive.unique (h : LastActive events time since) (h' : LastActive events time' since') :
    time = time' ∧ since = since' := by
  rcases List.suffix_or_suffix_of_suffix h.1 h'.1 with hsuffix | hsuffix
  · exact h'.eq_of_suffix hsuffix
  · obtain ⟨htime, hsame⟩ := h.eq_of_suffix hsuffix
    exact ⟨htime.symm, hsame.symm⟩

theorem lastActive_concat_activity (time : Time) :
    LastActive (events ++ [.activity time]) time [] :=
  ⟨List.suffix_append _ _, nofun⟩

theorem LastActive.concat_tick (h : LastActive events time since) (now : Time) :
    LastActive (events ++ [.tick now]) time (since ++ [.tick now]) := by
  obtain ⟨⟨before, rfl⟩, hsince⟩ := h
  refine ⟨⟨before, by simp⟩, fun later hmem => ?_⟩
  rcases List.mem_append.mp hmem with hmem | hlast
  · exact hsince later hmem
  · cases List.mem_singleton.mp hlast

/-! ### A timer follows its history -/

/-- The timer remembers the last activity of the history, and whether it slept since. -/
def Follows (late : Time → Time → Bool) (timer : Timer Time) (events : List (Event Time)) : Prop :=
  ∃ since, LastActive events timer.last since
    ∧ (timer.asleep = true ↔ ∃ now, .tick now ∈ since ∧ late timer.last now)

variable {timer : Timer Time}

theorem follows_activity (time : Time) :
    Follows late (start time) (events ++ [.activity time]) := by
  refine ⟨[], lastActive_concat_activity time, ?_⟩
  simp [start]

theorem Follows.tick (h : Follows late timer events) (now : Time) :
    Follows late (step late timer (.tick now)) (events ++ [.tick now]) := by
  obtain ⟨since, hlast, hasleep⟩ := h
  have hafter : (step late timer (.tick now)).asleep = true
      ↔ timer.asleep = true ∨ late timer.last now = true := by
    cases htimer : timer.asleep <;> cases hlate : late timer.last now <;>
      simp [step, rings, htimer, hlate]
  have hsame : (step late timer (.tick now)).last = timer.last := by
    simp only [step]
    split <;> rfl
  refine ⟨since ++ [.tick now], ?_, ?_⟩
  · rw [hsame]
    exact hlast.concat_tick now
  · rw [hafter, hsame, hasleep]
    simp [or_and_right, exists_or]

theorem Follows.step (h : Follows late timer events) (event : Event Time) :
    Follows late (step late timer event) (events ++ [event]) := by
  cases event with
  | activity time => exact follows_activity time
  | tick now => exact h.tick now

/-- **A timer follows its history** from the activity that starts it. -/
theorem follows_run (time : Time) (events : List (Event Time)) :
    Follows late (run (IdleTimer.step late) (start time) events) (.activity time :: events) := by
  induction events using List.reverseRec with
  | nil =>
      have hfirst : Follows late (start time) ([] ++ [.activity time]) := follows_activity time
      exact hfirst
  | append_singleton events event ih =>
      rw [run_concat, ← List.cons_append]
      exact ih.step event

theorem Follows.asleep_iff (h : Follows late timer events) :
    timer.asleep = true ↔ Slept late events := by
  obtain ⟨since, hlast, hasleep⟩ := h
  rw [hasleep]
  constructor
  · intro hslept
    exact ⟨timer.last, since, hlast, hslept⟩
  · rintro ⟨time, since', hlast', hslept⟩
    obtain ⟨rfl, rfl⟩ := hlast'.unique hlast
    exact hslept

theorem Follows.rings_iff (h : Follows late timer events) (now : Time) :
    rings late timer now = true ↔ FirstLate late events now := by
  obtain ⟨since, hlast, hasleep⟩ := h
  have hawake : timer.asleep = false ↔ ∀ earlier, .tick earlier ∈ since →
      ¬ late timer.last earlier = true := by
    rw [← Bool.not_eq_true, hasleep]
    simp
  rw [rings, Bool.and_eq_true, Bool.not_eq_true', hawake]
  constructor
  · rintro ⟨hfirst, hlate⟩
    exact ⟨timer.last, since, hlast, hlate, hfirst⟩
  · rintro ⟨time, since', hlast', hlate, hfirst⟩
    obtain ⟨rfl, rfl⟩ := hlast'.unique hlast
    exact ⟨hfirst, hlate⟩

end IdleTimer
