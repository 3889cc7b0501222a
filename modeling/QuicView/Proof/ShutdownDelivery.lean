import Mathlib.Data.List.Count
import QuicView.Library.Execution
import QuicView.Runtime.Shutdown

/-!
# Shutdown requests that are lost

The flag of a controller is the value of its channel, and a send that finds no receiver leaves it
unset. A request is *heard* if it was made while a signal was alive, and the flag says whether one
was: no request is lost exactly when no signal is handed out after requests of which none was heard.
-/

namespace QuicView.Shutdown

open Execution

variable {W : Watch Bool}

structure Observed (W : Watch Bool) where
  shutdown : Shutdown W
  triggered : Bool
  /-- Shutdown was requested while some signal was alive. -/
  heard : Bool

namespace Observed

def start (shutdown : Shutdown W) : Observed W := ⟨shutdown, false, false⟩

def apply (o : Observed W) : Call → Observed W
  | .trigger =>
      { shutdown := o.shutdown.trigger
        triggered := true
        heard := o.heard || o.shutdown.signals.contains true }
  | call => { o with shutdown := o.shutdown.apply call }

def step (o : Observed W) (call : Call) : Observed W :=
  if o.shutdown.Callable call then o.apply call else o

theorem shutdown_step (o : Observed W) (call : Call) :
    (o.step call).shutdown = o.shutdown.step call := by
  unfold step Shutdown.step
  split
  · cases call <;> rfl
  · rfl

theorem shutdown_run (o : Observed W) (calls : List Call) :
    (run Observed.step o calls).shutdown = run Shutdown.step o.shutdown calls := by
  induction calls generalizing o with
  | nil => rfl
  | cons call calls ih => rw [run_cons, run_cons, ih, shutdown_step]

def Delivered (o : Observed W) : Prop :=
  o.triggered = true → ∀ signal, o.shutdown.IsLive signal → o.shutdown.isShutdown signal = true

/-- A signal handed out after requests comes after one that was heard. -/
def HandsOutHeard (o : Observed W) (call : Call) : Prop :=
  call = .signal → 0 < o.shutdown.controllers → o.triggered = true → o.heard = true

/-- The channel counts the live signals, and holds `true` exactly if a request was heard. -/
structure Consistent (o : Observed W) : Prop where
  receivers : W.receiverCount o.shutdown.channel = o.shutdown.signals.count true
  flag : W.borrow o.shutdown.channel = o.heard

end Observed

theorem borrow_dropController (hW : W.Lawful) (s : Shutdown W) :
    W.borrow s.dropController.channel = W.borrow s.channel := by
  unfold dropController
  split
  · exact hW.borrow_dropSender _
  · rfl

theorem receiverCount_dropController (hW : W.Lawful) (s : Shutdown W) :
    W.receiverCount s.dropController.channel = W.receiverCount s.channel := by
  unfold dropController
  split
  · exact hW.receiverCount_dropSender _
  · rfl

theorem count_concat_true (signals : List Bool) :
    (signals ++ [true]).count true = signals.count true + 1 := by
  rw [List.count_append]
  rfl

theorem count_set_false {signals : List Bool} {signal : Nat}
    (hlive : signals[signal]? = some true) :
    (signals.set signal false).count true = signals.count true - 1 := by
  obtain ⟨hlt, htrue⟩ := List.getElem?_eq_some_iff.mp hlive
  rw [List.count_set hlt, htrue]
  rfl

theorem isLive_of_set_false {signals : List Bool} {dropped signal : Nat}
    (hlive : (signals.set dropped false)[signal]? = some true) : signals[signal]? = some true := by
  by_cases heq : dropped = signal
  · subst heq
    obtain ⟨_, hfalse⟩ := List.getElem?_eq_some_iff.mp hlive
    rw [List.getElem_set_self] at hfalse
    cases hfalse
  · rwa [List.getElem?_set_ne heq] at hlive

namespace Observed

variable {o : Observed W}

theorem consistent_new (hW : W.Lawful) : (start (W := W) .new).Consistent :=
  ⟨hW.receiverCount_channel false, hW.borrow_channel false⟩

theorem consistent_default (hW : W.Lawful) : (start (W := W) .default).Consistent := by
  refine ⟨?_, ?_⟩
  · calc
      W.receiverCount (W.dropReceiver (W.channel false))
          = W.receiverCount (W.channel false) - 1 := hW.receiverCount_dropReceiver _
      _ = 0 := by rw [hW.receiverCount_channel]
  · calc
      W.borrow (W.dropReceiver (W.channel false))
          = W.borrow (W.channel false) := hW.borrow_dropReceiver _
      _ = false := hW.borrow_channel false

theorem Consistent.trigger (hW : W.Lawful) (h : o.Consistent) : (o.apply .trigger).Consistent := by
  refine ⟨(hW.receiverCount_send _ _).trans h.receivers, ?_⟩
  have hflag : W.borrow (W.send o.shutdown.channel true).2
      = if o.shutdown.signals.count true = 0 then o.heard else true := by
    rw [hW.borrow_send, h.receivers, h.flag]
  -- the send is heard exactly if there is a live signal
  refine hflag.trans ?_
  by_cases hlive : true ∈ o.shutdown.signals
  · have hcount : ¬ o.shutdown.signals.count true = 0 := (List.count_pos_iff.mpr hlive).ne'
    simp [apply, hcount, hlive]
  · have hcount : o.shutdown.signals.count true = 0 := List.count_eq_zero.mpr hlive
    simp [apply, hcount, hlive]

theorem Consistent.apply (hW : W.Lawful) (h : o.Consistent) {call : Call}
    (hcallable : o.shutdown.Callable call) : (o.apply call).Consistent := by
  cases call with
  | clone => exact ⟨h.receivers, h.flag⟩
  | dropController =>
      refine ⟨?_, ?_⟩
      · exact (receiverCount_dropController hW o.shutdown).trans h.receivers
      · exact (borrow_dropController hW o.shutdown).trans h.flag
  | trigger => exact h.trigger hW
  | signal =>
      refine ⟨?_, (hW.borrow_subscribe _).trans h.flag⟩
      calc
        W.receiverCount (W.subscribe o.shutdown.channel)
            = o.shutdown.signals.count true + 1 := by rw [hW.receiverCount_subscribe, h.receivers]
        _ = (o.shutdown.signals ++ [true]).count true := (count_concat_true _).symm
  | cloneSignal signal =>
      refine ⟨?_, (hW.borrow_cloneReceiver _).trans h.flag⟩
      calc
        W.receiverCount (W.cloneReceiver o.shutdown.channel)
            = o.shutdown.signals.count true + 1 := by
          rw [hW.receiverCount_cloneReceiver, h.receivers]
        _ = (o.shutdown.signals ++ [true]).count true := (count_concat_true _).symm
  | dropSignal signal =>
      refine ⟨?_, (hW.borrow_dropReceiver _).trans h.flag⟩
      calc
        W.receiverCount (W.dropReceiver o.shutdown.channel)
            = o.shutdown.signals.count true - 1 := by
          rw [hW.receiverCount_dropReceiver, h.receivers]
        _ = (o.shutdown.signals.set signal false).count true := (count_set_false hcallable).symm

theorem Consistent.step (hW : W.Lawful) (h : o.Consistent) (call : Call) :
    (o.step call).Consistent := by
  unfold Observed.step
  by_cases hcallable : o.shutdown.Callable call
  · rw [if_pos hcallable]
    exact h.apply hW hcallable
  · rw [if_neg hcallable]
    exact h

theorem Consistent.delivered_iff (h : o.Consistent) :
    o.Delivered ↔ (o.triggered = true → ∀ signal, o.shutdown.IsLive signal → o.heard = true) := by
  rw [Delivered]
  simp only [isShutdown, h.flag]

theorem Consistent.delivered_step_iff (hW : W.Lawful) (h : o.Consistent) (hdelivered : o.Delivered)
    (call : Call) : (o.step call).Delivered ↔ o.HandsOutHeard call := by
  rw [(h.step hW call).delivered_iff]
  rw [h.delivered_iff] at hdelivered
  by_cases hcallable : o.shutdown.Callable call
  · rw [Observed.step, if_pos hcallable]
    cases call with
    | clone => exact iff_of_true hdelivered nofun
    | dropController => exact iff_of_true hdelivered nofun
    | trigger =>
        refine iff_of_true (fun _ signal hlive => ?_) nofun
        have hmem : true ∈ o.shutdown.signals := List.mem_of_getElem? hlive
        simp [Observed.apply, hmem]
    | signal =>
        have hnew : (o.apply .signal).shutdown.IsLive o.shutdown.signals.length :=
          List.getElem?_concat_length
        constructor
        · exact fun hdelivered _ _ htriggered => hdelivered htriggered _ hnew
        · exact fun hheard htriggered _ _ => hheard rfl hcallable htriggered
    | cloneSignal signal =>
        -- the signal cloned is itself alive
        exact iff_of_true (fun htriggered _ _ => hdelivered htriggered signal hcallable) nofun
    | dropSignal signal =>
        refine iff_of_true (fun htriggered live hlive => ?_) nofun
        exact hdelivered htriggered live (isLive_of_set_false hlive)
  · rw [Observed.step, if_neg hcallable]
    refine iff_of_true hdelivered ?_
    rintro rfl hpos
    exact absurd hpos hcallable

end Observed

/-! ### A program with any number of controllers -/

/-- A call a program makes: one that makes a controller, or one on the handles of the controller
made `controller`-th. -/
inductive ProgramCall where
  | new
  | default
  | on (controller : Nat) (call : Call)
  deriving DecidableEq

abbrev Program (W : Watch Bool) := List (Observed W)

def observe (program : Program W) : ProgramCall → Program W
  | .new => program ++ [.start .new]
  | .default => program ++ [.start .default]
  | .on controller call => program.modify controller (·.step call)

def AllDelivered (program : Program W) : Prop := ∀ o ∈ program, o.Delivered

def HandsOutHeard (program : Program W) : ProgramCall → Prop
  | .new | .default => True
  | .on controller call => ∀ o, program[controller]? = some o → o.HandsOutHeard call

theorem forall_mem_modify {α : Type*} {P : α → Prop} {l : List α} {i : Nat} {f : α → α}
    (hall : ∀ a ∈ l, P a) : (∀ a ∈ l.modify i f, P a) ↔ ∀ a, l[i]? = some a → P (f a) := by
  constructor
  · intro hmodified a ha
    apply hmodified
    apply List.mem_of_getElem? (i := i)
    rw [List.getElem?_modify_eq, ha]
    rfl
  · intro hnext a hmem
    obtain ⟨j, hj⟩ := List.getElem?_of_mem hmem
    by_cases heq : i = j
    · subst heq
      rw [List.getElem?_modify_eq] at hj
      obtain ⟨b, hb, rfl⟩ := Option.map_eq_some_iff.mp hj
      exact hnext b hb
    · rw [List.getElem?_modify_ne _ _ heq] at hj
      exact hall a (List.mem_of_getElem? hj)

theorem consistent_observe (hW : W.Lawful) (program : Program W) (call : ProgramCall)
    (h : ∀ o ∈ program, o.Consistent) : ∀ o ∈ observe program call, o.Consistent := by
  cases call with
  | new =>
      exact List.forall_mem_append.mpr
        ⟨h, List.forall_mem_singleton.mpr (Observed.consistent_new hW)⟩
  | default =>
      exact List.forall_mem_append.mpr
        ⟨h, List.forall_mem_singleton.mpr (Observed.consistent_default hW)⟩
  | on controller call =>
      apply (forall_mem_modify h).mpr
      exact fun o ho => (h o (List.mem_of_getElem? ho)).step hW call

theorem allDelivered_observe_iff (hW : W.Lawful) (program : Program W) (call : ProgramCall)
    (hconsistent : ∀ o ∈ program, o.Consistent) (h : AllDelivered program) :
    AllDelivered (observe program call) ↔ HandsOutHeard program call := by
  have hquiet : ∀ s : Shutdown W, (Observed.start s).Delivered := fun _ => nofun
  cases call with
  | new =>
      exact iff_of_true
        (List.forall_mem_append.mpr ⟨h, List.forall_mem_singleton.mpr (hquiet _)⟩) trivial
  | default =>
      exact iff_of_true
        (List.forall_mem_append.mpr ⟨h, List.forall_mem_singleton.mpr (hquiet _)⟩) trivial
  | on controller call =>
      rw [AllDelivered, observe, forall_mem_modify h, HandsOutHeard]
      refine forall₂_congr fun o ho => ?_
      have hmem := List.mem_of_getElem? ho
      exact (hconsistent o hmem).delivered_step_iff hW (h o hmem) call

/-- **When no shutdown request is lost.** Every live signal reports a request in every state,
exactly when no signal is handed out by a controller on which shutdown was requested but never while
a signal was alive. -/
theorem allDelivered_iff_handsOutHeard (hW : W.Lawful) (calls : List ProgramCall) :
    Always observe AllDelivered ([] : Program W) calls
      ↔ Guarded observe HandsOutHeard ([] : Program W) calls :=
  always_iff_guarded _ (consistent_observe hW) (allDelivered_observe_iff hW) calls nofun nofun

theorem allDelivered_iff_handsOutHeard_cell :
    Always observe AllDelivered ([] : Program (Watch.cell Bool))
        [.default, .on 0 .trigger, .on 0 .signal]
      ↔ Guarded observe HandsOutHeard ([] : Program (Watch.cell Bool))
          [.default, .on 0 .trigger, .on 0 .signal] :=
  allDelivered_iff_handsOutHeard (Watch.cell_lawful Bool) _

theorem request_lost_without_signals :
    ¬ ∀ (W : Watch Bool), W.Lawful → ∀ calls : List ProgramCall,
        Always observe AllDelivered ([] : Program W) calls := by
  intro hall
  have halways := hall (Watch.cell Bool) (Watch.cell_lawful Bool)
    [.default, .on 0 .trigger, .on 0 .signal]
  have hdelivered := halways.last _ List.mem_cons_self rfl 1 rfl
  cases hdelivered

end QuicView.Shutdown
