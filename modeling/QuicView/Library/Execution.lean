import Mathlib.Data.List.Basic
import Mathlib.Data.List.Infix

/-!
# Executions of a step function

A run is a left fold, and a property of its whole history is a property of every prefix. A *guard*
is a condition on one event and the state it meets: when one step from a good state stays good
exactly if its guard holds, the runs that are good throughout are those whose events all meet the
guard. A *simulation* relates two runs whose events are related pointwise.
-/

namespace Execution

variable {State Event State' Event' : Type*}

def run (step : State → Event → State) (state : State) (events : List Event) : State :=
  events.foldl step state

variable {step : State → Event → State} {state : State} {event : Event} {events : List Event}

@[simp]
theorem run_nil : run step state [] = state := rfl

@[simp]
theorem run_cons : run step state (event :: events) = run step (step state event) events := rfl

@[simp]
theorem run_append (more : List Event) :
    run step state (events ++ more) = run step (run step state events) more :=
  List.foldl_append

theorem run_concat :
    run step state (events ++ [event]) = step (run step state events) event := by
  rw [run_append, run_cons, run_nil]

/-! ### Properties of a whole history -/

/-- `Good` holds in every state the run passes through, the first and the last included. -/
def Always (step : State → Event → State) (Good : State → Prop) (state : State)
    (events : List Event) : Prop :=
  ∀ before, before <+: events → Good (run step state before)

/-- Every event of the run meets its guard in the state it is taken in. -/
def Guarded (step : State → Event → State) (Guard : State → Event → Prop) (state : State)
    (events : List Event) : Prop :=
  ∀ before event after, events = before ++ event :: after → Guard (run step state before) event

def tally (step : State → Event → State) (hit : State → Event → Bool) (state : State) :
    List Event → Nat
  | [] => 0
  | event :: events => (hit state event).toNat + tally step hit (step state event) events

variable {Good : State → Prop} {Guard : State → Event → Prop} {hit : State → Event → Bool}

theorem tally_concat :
    tally step hit state (events ++ [event])
      = tally step hit state events + (hit (run step state events) event).toNat := by
  induction events generalizing state with
  | nil => exact Nat.add_comm ..
  | cons first events ih =>
      rw [List.cons_append, tally, tally, run_cons, ih, Nat.add_assoc]

@[simp]
theorem always_nil : Always step Good state [] ↔ Good state := by
  simp [Always]

@[simp]
theorem always_cons :
    Always step Good state (event :: events)
      ↔ Good state ∧ Always step Good (step state event) events := by
  constructor
  · intro halways
    refine ⟨halways [] List.nil_prefix, fun before hbefore => ?_⟩
    exact halways (event :: before) (List.cons_prefix_cons.mpr ⟨rfl, hbefore⟩)
  · rintro ⟨hfirst, hrest⟩ before hbefore
    cases before with
    | nil => exact hfirst
    | cons head before =>
        obtain ⟨hhead, htail⟩ := List.cons_prefix_cons.mp hbefore
        rw [hhead]
        exact hrest before htail

theorem always_append (more : List Event) :
    Always step Good state (events ++ more)
      ↔ Always step Good state events ∧ Always step Good (run step state events) more := by
  induction events generalizing state with
  | nil =>
      have hfirst : Always step Good state more → Good state := fun halways =>
        halways [] List.nil_prefix
      simpa using hfirst
  | cons event events ih => rw [List.cons_append, always_cons, always_cons, ih, run_cons, and_assoc]

/-- Two runs whose events are related pointwise stay related, when one pair of steps does, given
what holds throughout either run. -/
theorem run_simulation {step' : State' → Event' → State'} {Good' : State' → Prop}
    {Rel : State → State' → Prop} {Matches : Event → Event' → Prop}
    (hstep : ∀ s s' e e', Good (step s e) → Good' (step' s' e') → Rel s s' → Matches e e' →
      Rel (step s e) (step' s' e')) :
    ∀ {events : List Event} {events' : List Event'}, List.Forall₂ Matches events events' →
      ∀ {state : State} {state' : State'}, Always step Good state events →
        Always step' Good' state' events' → Rel state state' →
        Rel (run step state events) (run step' state' events') := by
  intro events events' hmatches
  induction hmatches with
  | nil => exact fun _ _ hrel => hrel
  | cons hmatch _ ih =>
      intro state state' hgood hgood' hrel
      obtain ⟨_, hlater⟩ := always_cons.mp hgood
      obtain ⟨_, hlater'⟩ := always_cons.mp hgood'
      have hfirst := hstep _ _ _ _ (hlater [] List.nil_prefix) (hlater' [] List.nil_prefix) hrel
        hmatch
      exact ih hlater hlater' hfirst

instance Always.decidable [DecidablePred Good] :
    ∀ (events : List Event) (state : State), Decidable (Always step Good state events)
  | [], state => decidable_of_iff (Good state) always_nil.symm
  | event :: events, state =>
      have := Always.decidable events (step state event)
      decidable_of_iff (Good state ∧ Always step Good (step state event) events) always_cons.symm

theorem invariant_run {Inv : State → Prop} (hstep : ∀ s e, Inv s → Inv (step s e)) :
    ∀ (events : List Event) {state : State}, Inv state → Inv (run step state events) := by
  intro events
  induction events with
  | nil => exact fun hstate => hstate
  | cons event events ih => exact fun hstate => ih (hstep _ event hstate)

theorem exists_cause (Fact : State → Prop) {Causes : Event → Prop}
    (hstep : ∀ s e, Fact (step s e) → Fact s ∨ Causes e) :
    ∀ (events : List Event) {state : State}, Fact (run step state events) →
      Fact state ∨ ∃ event ∈ events, Causes event := by
  intro events
  induction events with
  | nil => exact fun hfact => .inl hfact
  | cons event events ih =>
      intro state hfact
      rcases ih hfact with hfirst | ⟨later, hmem, hcauses⟩
      · exact (hstep state event hfirst).imp_right fun hcauses =>
          ⟨event, List.mem_cons_self, hcauses⟩
      · exact .inr ⟨later, List.mem_cons_of_mem _ hmem, hcauses⟩

theorem always_iff_take :
    Always step Good state events ↔ ∀ i, Good (run step state (events.take i)) := by
  constructor
  · exact fun halways i => halways _ (List.take_prefix i events)
  · intro hall before hbefore
    rw [List.prefix_iff_eq_take.mp hbefore]
    exact hall _

theorem Always.of_prefix {before : List Event} (halways : Always step Good state events)
    (hbefore : before <+: events) : Always step Good state before :=
  fun first hfirst => halways first (hfirst.trans hbefore)

theorem Always.last (halways : Always step Good state events) :
    Good (run step state events) :=
  halways events List.prefix_rfl

@[simp]
theorem guarded_nil : Guarded step Guard state [] := by
  simp [Guarded]

@[simp]
theorem guarded_cons :
    Guarded step Guard state (event :: events)
      ↔ Guard state event ∧ Guarded step Guard (step state event) events := by
  constructor
  · intro hguarded
    refine ⟨hguarded [] event events rfl, fun before next after heq => ?_⟩
    exact hguarded (event :: before) next after (by rw [heq, List.cons_append])
  · rintro ⟨hfirst, hrest⟩ before next after heq
    cases before with
    | nil =>
        obtain ⟨rfl, rfl⟩ := List.cons.inj heq
        exact hfirst
    | cons head before =>
        obtain ⟨hhead, htail⟩ := List.cons.inj heq
        rw [← hhead]
        exact hrest before next after htail

theorem guarded_append (more : List Event) :
    Guarded step Guard state (events ++ more)
      ↔ Guarded step Guard state events ∧ Guarded step Guard (run step state events) more := by
  induction events generalizing state with
  | nil => simp
  | cons event events ih =>
      rw [List.cons_append, guarded_cons, guarded_cons, ih, run_cons, and_assoc]

/-- **Exact guards.** When, under an invariant, a step from a good state is good exactly if its
guard holds, the runs good throughout are exactly the guarded ones. -/
theorem always_iff_guarded (Inv : State → Prop) (hinv : ∀ s e, Inv s → Inv (step s e))
    (hstep : ∀ s e, Inv s → Good s → (Good (step s e) ↔ Guard s e)) :
    ∀ (events : List Event) {state : State}, Inv state → Good state →
      (Always step Good state events ↔ Guarded step Guard state events) := by
  intro events
  induction events with
  | nil => simp
  | cons event events ih =>
      intro state hstate hgood
      have hnext := hinv state event hstate
      rw [always_cons, guarded_cons]
      constructor
      · rintro ⟨_, hrest⟩
        have hstays : Good (step state event) := hrest [] List.nil_prefix
        exact ⟨(hstep state event hstate hgood).mp hstays, (ih hnext hstays).mp hrest⟩
      · rintro ⟨hguard, hrest⟩
        have hstays : Good (step state event) := (hstep state event hstate hgood).mpr hguard
        exact ⟨hgood, (ih hnext hstays).mpr hrest⟩

/-! ### Runs that come to rest

Where every step that changes something uses up some of a finite supply, a run changes the state no
more often than that, and it can be brought to a state in which nothing changes any more.
-/

def Quiet (step : State → Event → State) (May : Event → Prop) (state : State) : Prop :=
  ∀ event, May event → step state event = state

open Classical in
noncomputable def changes (step : State → Event → State) (state : State) (events : List Event) :
    Nat :=
  tally step (fun state event => decide (step state event ≠ state)) state events

section Supply

variable {Inv : State → Prop} {May : Event → Prop} {supply : State → Nat}

theorem changes_le (hinv : ∀ s e, Inv s → Inv (step s e))
    (hstep : ∀ s e, Inv s → May e → step s e = s ∨ supply (step s e) < supply s) :
    ∀ (events : List Event) {state : State}, Inv state → (∀ event ∈ events, May event) →
      changes step state events + supply (run step state events) ≤ supply state := by
  intro events
  induction events with
  | nil => exact fun _ _ => (Nat.zero_add _).le
  | cons event events ih =>
      intro state hstate hmay
      have hrest : changes step (step state event) events
          + supply (run step (step state event) events) ≤ supply (step state event) :=
        ih (hinv state event hstate) fun later hlater => hmay later (List.mem_cons_of_mem _ hlater)
      have hcount : changes step state (event :: events)
          = (open Classical in decide (step state event ≠ state)).toNat
            + changes step (step state event) events := rfl
      rw [run_cons, hcount]
      rcases hstep state event hstate (hmay event List.mem_cons_self) with hsame | hless
      · rw [hsame] at hrest ⊢
        simpa using hrest
      · have hone := Bool.toNat_le (open Classical in decide (step state event ≠ state))
        omega

theorem exists_run_quiet (hinv : ∀ s e, Inv s → Inv (step s e))
    (hstep : ∀ s e, Inv s → May e → step s e = s ∨ supply (step s e) < supply s) :
    ∀ (bound : Nat) {state : State}, Inv state → supply state ≤ bound →
      ∃ events, (∀ event ∈ events, May event) ∧ events.length ≤ bound
        ∧ Quiet step May (run step state events) := by
  intro bound
  induction bound with
  | zero =>
      intro state hstate hsupply
      refine ⟨[], fun _ hmem => absurd hmem List.not_mem_nil, Nat.le_refl 0, fun event hmay => ?_⟩
      exact (hstep state event hstate hmay).resolve_right (by omega)
  | succ bound ih =>
      intro state hstate hsupply
      by_cases hquiet : Quiet step May state
      · exact ⟨[], fun _ hmem => absurd hmem List.not_mem_nil, Nat.zero_le _, hquiet⟩
      obtain ⟨event, hevent⟩ := not_forall.mp hquiet
      obtain ⟨hmay, hchanges⟩ := Classical.not_imp.mp hevent
      have hless := (hstep state event hstate hmay).resolve_left hchanges
      obtain ⟨events, hevents, hlength, hlast⟩ := ih (hinv state event hstate) (by omega)
      refine ⟨event :: events, ?_, Nat.succ_le_succ hlength, hlast⟩
      intro later hlater
      rcases List.mem_cons.mp hlater with rfl | hlater
      · exact hmay
      · exact hevents later hlater

end Supply

/-! ### Steps that can stop the run

A step that answers nothing stops the run for good. An invariant under which no step does keeps
every run going to its end.
-/

def attempt (step : State → Event → Option State) (state : State) (events : List Event) :
    Option State :=
  events.foldlM step state

variable {partialStep : State → Event → Option State}

@[simp]
theorem attempt_nil : attempt partialStep state [] = some state := rfl

@[simp]
theorem attempt_cons :
    attempt partialStep state (event :: events)
      = (partialStep state event).bind fun next => attempt partialStep next events := rfl

theorem attempt_invariant
    (hstep : ∀ s e, Good s → ∃ next, partialStep s e = some next ∧ Good next) :
    ∀ (events : List Event) {state : State}, Good state →
      ∃ last, attempt partialStep state events = some last ∧ Good last := by
  intro events
  induction events with
  | nil => exact fun hgood => ⟨_, rfl, hgood⟩
  | cons event events ih =>
      intro state hgood
      obtain ⟨next, hnext, hgoodNext⟩ := hstep state event hgood
      obtain ⟨last, hlast, hgoodLast⟩ := ih hgoodNext
      refine ⟨last, ?_, hgoodLast⟩
      rw [attempt_cons, hnext]
      exact hlast

end Execution
