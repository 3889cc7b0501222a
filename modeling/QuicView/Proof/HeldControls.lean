import Mathlib.Data.List.Forall2
import QuicView.Library.Switches
import QuicView.Proof.InputBatch

/-!
# Presses and releases

The records say of buttons and virtual keys what the events injected say of buttons and key codes.
The two agree however often a batch is cut short, since the record of a press or release is the last
of its event.
-/

namespace QuicView.WindowsInputInjector

open Execution Standing Switches

variable {user32 : User32}

/-! ### What goes down and up -/

inductive Control where
  | button (button : MouseButton)
  | key (keycode : UInt32)
  deriving DecidableEq, Repr

inductive RecordControl where
  | leftButton
  | rightButton
  | middleButton
  | xButton (number : UInt32)
  | virtualKey (vk : UInt16)
  deriving DecidableEq, Repr

def recordControl : Control → RecordControl
  | .button .left => .leftButton
  | .button .right => .rightButton
  | .button .middle => .middleButton
  | .button .back => .xButton 1
  | .button .forward => .xButton 2
  | .key keycode => .virtualKey keycode.toUInt16

def eventTurns : InputEvent → List (Turn Control)
  | .mouse mouse => mouse.button.toList.map fun pressed => ⟨.button pressed.1, pressed.2 = .press⟩
  | .key key => [⟨.key key.keycode, key.action = .press⟩]
  | .scroll _ => []

def flagTurn (mouseData : UInt32) : MouseFlag → Option (Turn RecordControl)
  | .leftDown => some ⟨.leftButton, true⟩
  | .leftUp => some ⟨.leftButton, false⟩
  | .rightDown => some ⟨.rightButton, true⟩
  | .rightUp => some ⟨.rightButton, false⟩
  | .middleDown => some ⟨.middleButton, true⟩
  | .middleUp => some ⟨.middleButton, false⟩
  | .xDown => some ⟨.xButton mouseData, true⟩
  | .xUp => some ⟨.xButton mouseData, false⟩
  | .move | .absolute | .wheel | .hWheel => none

def recordTurns : Win32Input → List (Turn RecordControl)
  | .mouse _ _ mouseData flags => flags.filterMap (flagTurn mouseData)
  | .keyboard vk keyUp => [⟨.virtualKey vk, !keyUp⟩]

/-- The controls of which the last event is a press. -/
def eventsDown (events : List InputEvent) : Set Control := held (events.flatMap eventTurns)

variable (user32) in
def accepted : (before inputs : List Win32Input) → List Win32Input
  | _, [] => []
  | before, input :: inputs =>
      if user32.sendInput before input = 0 then accepted (before ++ [input]) inputs
      else input :: accepted (before ++ [input]) inputs

variable (user32) in
/-- The buttons and keys of which the last record taken is one of going down. -/
def recordsDown (passed : List Win32Input) : Set RecordControl :=
  held ((accepted user32 [] passed).flatMap recordTurns)

variable (user32) in
def injectBatches (batches : List (List InputEvent)) :
    List (Except InputError Unit) × WindowsInputInjector × List Win32Input :=
  run (fun state batch =>
    let taken := (inputInjector user32).injectBatch state.2 batch
    (state.1 ++ [taken.1], taken.2)) ([], new, []) batches

/-! ### One event -/

theorem recordTurns_buttonInput (pressed : MouseButton × KeyAction) :
    recordTurns (buttonInput pressed)
      = [⟨recordControl (.button pressed.1), pressed.2 = .press⟩] := by
  obtain ⟨button, action⟩ := pressed
  cases button <;> cases action <;> rfl

theorem recordTurns_scrollInputs {scroll : ScrollEvent} {input : Win32Input}
    (hmem : input ∈ scrollInputs scroll) : recordTurns input = [] := by
  unfold scrollInputs at hmem
  rcases List.mem_append.mp hmem with hmem | hmem
  · obtain ⟨-, hinput⟩ := List.mem_ite_nil_right.mp hmem
    obtain rfl := List.mem_singleton.mp hinput
    rfl
  · obtain ⟨-, hinput⟩ := List.mem_ite_nil_right.mp hmem
    obtain rfl := List.mem_singleton.mp hinput
    rfl

theorem inputsOf_turns {before : List Win32Input} {event : InputEvent} {inputs : List Win32Input}
    (hinputs : inputsOf user32 before event = .ok inputs) :
    inputs.flatMap recordTurns = (eventTurns event).map (.map recordControl)
      ∧ ∀ input ∈ inputs.dropLast, recordTurns input = [] := by
  cases event with
  | key key =>
      obtain rfl := Except.ok.inj hinputs
      refine ⟨?_, fun _ hmem => absurd hmem List.not_mem_nil⟩
      cases hkey : key.action <;> simp [eventTurns, recordTurns, Turn.map, recordControl, hkey]
  | scroll scroll =>
      obtain rfl := Except.ok.inj hinputs
      refine ⟨List.flatMap_eq_nil_iff.mpr fun _ => recordTurns_scrollInputs, fun input hmem => ?_⟩
      exact recordTurns_scrollInputs (List.mem_of_mem_dropLast hmem)
  | mouse mouse =>
      cases hsize : screenSize user32 before with
      | error err =>
          rw [inputsOf, hsize] at hinputs
          cases hinputs
      | ok size =>
          rw [inputsOf, hsize] at hinputs
          obtain rfl := Except.ok.inj hinputs
          cases hpressed : mouse.button with
          | none =>
              refine ⟨?_, fun _ hmem => absurd hmem List.not_mem_nil⟩
              rw [eventTurns, hpressed]
              rfl
          | some pressed =>
              constructor
              · rw [eventTurns, hpressed, List.flatMap_cons, Option.toList_some, List.map_singleton,
                  List.flatMap_singleton, recordTurns_buttonInput]
                rfl
              · intro input hmem
                obtain rfl := List.mem_singleton.mp hmem
                rfl

/-! ### A batch -/

theorem accepted_append (before inputs more : List Win32Input) :
    accepted user32 before (inputs ++ more)
      = accepted user32 before inputs ++ accepted user32 (before ++ inputs) more := by
  induction inputs generalizing before with
  | nil => rw [List.nil_append, List.append_nil, accepted, List.nil_append]
  | cons input inputs ih =>
      rw [List.cons_append, accepted, accepted, ih, List.append_assoc, List.singleton_append]
      split
      · rfl
      · exact (List.cons_append ..).symm

theorem accepted_of_taken {before inputs : List Win32Input} (htaken : Taken user32 before inputs) :
    accepted user32 before inputs = inputs := by
  induction inputs generalizing before with
  | nil => rfl
  | cons input inputs ih => rw [accepted, if_neg htaken.1, ih htaken.2]

theorem Inputs.turns {before : List Win32Input} {events : List InputEvent}
    {inputs : List Win32Input} (hinputs : Inputs user32 before events inputs) :
    inputs.flatMap recordTurns = (events.flatMap eventTurns).map (.map recordControl) := by
  induction hinputs with
  | nil => rfl
  | cons hevent _ ih =>
      rw [List.flatMap_append, List.flatMap_cons, List.map_append, (inputsOf_turns hevent).1, ih]

theorem Stop.turns {before cut : List Win32Input} {rest : List InputEvent}
    {result : Except InputError Unit} (hstop : Stop user32 before rest cut result) :
    (accepted user32 before cut).flatMap recordTurns = [] := by
  cases hstop with
  | done => rfl
  | noScreen _ => rfl
  | @refused _ _ sent unsent input hinputs htaken hrefused =>
      rw [accepted_append, accepted_of_taken htaken, accepted, if_pos hrefused, accepted,
        List.append_nil]
      refine List.flatMap_eq_nil_iff.mpr fun first hfirst => ?_
      apply (inputsOf_turns hinputs).2
      rw [List.dropLast_append_of_ne_nil (List.cons_ne_nil input unsent)]
      exact List.mem_append_left _ hfirst

variable (user32) in
theorem injectBatch_turns (injector : WindowsInputInjector) (before : List Win32Input)
    (batch : List InputEvent) :
    ∃ injected result after, injected <+: batch
      ∧ (inputInjector user32).injectBatch (injector, before) batch
        = (result, ⟨injector.eventsInjected + UInt64.ofNat injected.length⟩, after)
      ∧ (result = .ok () → injected = batch)
      ∧ (accepted user32 [] after).flatMap recordTurns
        = (accepted user32 [] before).flatMap recordTurns
          ++ (injected.flatMap eventTurns).map (.map recordControl) := by
  obtain ⟨injected, rest, passed, cut, result, rfl, hpassed, htaken, hstop, hbatch⟩ :=
    injectBatch_run injector before batch
  refine ⟨injected, result, _, List.prefix_append injected rest, hbatch, ?_, ?_⟩
  · rintro rfl
    rw [hstop.eq_nil_of_ok, List.append_nil]
  · rw [accepted_append, accepted_append, List.nil_append, List.nil_append,
      accepted_of_taken htaken, List.flatMap_append, List.flatMap_append, hpassed.turns,
      hstop.turns, List.append_nil]

/-! ### A run of batches -/

variable (user32) in
theorem injectBatches_turns (batches : List (List InputEvent)) :
    ∃ injected : List (List InputEvent),
      List.Forall₂ (fun front batch => front <+: batch) injected batches
      ∧ (injectBatches user32 batches).2.1.eventsInjected = UInt64.ofNat injected.flatten.length
      ∧ ((∀ result ∈ (injectBatches user32 batches).1, result = .ok ()) → injected = batches)
      ∧ (accepted user32 [] (injectBatches user32 batches).2.2).flatMap recordTurns
        = (injected.flatten.flatMap eventTurns).map (.map recordControl) := by
  induction batches using List.reverseRecOn with
  | nil => exact ⟨[], .nil, rfl, fun _ => rfl, rfl⟩
  | append_singleton batches batch ih =>
      obtain ⟨injected, hfronts, hcount, hall, hturns⟩ := ih
      generalize hbefore : injectBatches user32 batches = state at hcount hall hturns
      obtain ⟨results, injector, before⟩ := state
      obtain ⟨front, result, after, hprefix, hbatch, hok, hafter⟩ :=
        injectBatch_turns user32 injector before batch
      have hrun : injectBatches user32 (batches ++ [batch])
          = (results ++ [result],
            ⟨injector.eventsInjected + UInt64.ofNat front.length⟩, after) := by
        rw [injectBatches, run_concat, ← injectBatches, hbefore, hbatch]
      rw [hrun]
      refine ⟨injected ++ [front], List.rel_append hfronts (.cons hprefix .nil), ?_, ?_, ?_⟩
      · rw [List.flatten_append, List.flatten_singleton, List.length_append, UInt64.ofNat_add,
          ← hcount]
      · intro hresults
        rw [hall fun earlier hmem => hresults earlier (List.mem_append_left _ hmem),
          hok (hresults result (List.mem_append_right _ (List.mem_singleton_self result)))]
      · rw [hafter, hturns, List.flatten_append, List.flatten_singleton, List.flatMap_append,
          List.map_append]

theorem recordControl_injOn {controls : Set Control}
    (hkeys : ∀ keycode keycode', .key keycode ∈ controls → .key keycode' ∈ controls →
      keycode.toUInt16 = keycode'.toUInt16 → keycode = keycode') :
    Set.InjOn recordControl controls := by
  intro control hcontrol control' hcontrol' heq
  cases control with
  | button button =>
      cases control' with
      | button button' => revert heq; cases button <;> cases button' <;> decide
      | key keycode' => cases button <;> cases heq
  | key keycode =>
      cases control' with
      | button button' => cases button' <;> cases heq
      | key keycode' =>
          exact congrArg Control.key
            (hkeys _ _ hcontrol hcontrol' (RecordControl.virtualKey.inj heq))

/-- **The records follow the events.** Of a button or virtual key, the last record taken is one of
going down exactly if the last press or release injected that comes out in such was a press. -/
theorem records_follow_events (user32 : User32) (batches : List (List InputEvent)) :
    ∃ injected : List (List InputEvent),
      List.Forall₂ (fun front batch => front <+: batch) injected batches
      ∧ (injectBatches user32 batches).2.1.eventsInjected = UInt64.ofNat injected.flatten.length
      ∧ ((∀ result ∈ (injectBatches user32 batches).1, result = .ok ()) → injected = batches)
      ∧ (∀ control, control ∈ recordsDown user32 (injectBatches user32 batches).2.2
        ↔ Stands (fun turn => recordControl turn.switch = control ∧ turn.on = true)
            (fun turn => recordControl turn.switch = control) (injected.flatten.flatMap eventTurns))
      ∧ ((∀ keycode keycode', .key keycode ∈ named (injected.flatten.flatMap eventTurns) →
            .key keycode' ∈ named (injected.flatten.flatMap eventTurns) →
            keycode.toUInt16 = keycode'.toUInt16 → keycode = keycode') →
          recordsDown user32 (injectBatches user32 batches).2.2
            = recordControl '' eventsDown injected.flatten) := by
  obtain ⟨injected, hfronts, hcount, hall, hturns⟩ := injectBatches_turns user32 batches
  refine ⟨injected, hfronts, hcount, hall, fun control => ?_, fun hkeys => ?_⟩
  · rw [recordsDown, hturns, mem_held_map_iff]
  · rw [recordsDown, hturns, held_map (recordControl_injOn hkeys), eventsDown]

end QuicView.WindowsInputInjector
