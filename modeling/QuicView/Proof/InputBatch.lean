import QuicView.Input.Injector

namespace QuicView.WindowsInputInjector

variable (user32 : User32)

/-! ### The inputs of an event -/

def buttonInput : MouseButton × KeyAction → Win32Input
  | (.left, .press) => .mouse 0 0 0 [.leftDown]
  | (.left, .release) => .mouse 0 0 0 [.leftUp]
  | (.right, .press) => .mouse 0 0 0 [.rightDown]
  | (.right, .release) => .mouse 0 0 0 [.rightUp]
  | (.middle, .press) => .mouse 0 0 0 [.middleDown]
  | (.middle, .release) => .mouse 0 0 0 [.middleUp]
  | (.back, .press) => .mouse 0 0 1 [.xDown]
  | (.back, .release) => .mouse 0 0 1 [.xUp]
  | (.forward, .press) => .mouse 0 0 2 [.xDown]
  | (.forward, .release) => .mouse 0 0 2 [.xUp]

def scrollInputs (scroll : ScrollEvent) : List Win32Input :=
  let dx := Float32.ofBits scroll.dx.bits
  let dy := Float32.ofBits scroll.dy.bits
  (if dy.abs > f32Epsilon then [.mouse 0 0 (wheelDelta (-dy)) [.wheel]] else [])
    ++ if dx.abs > f32Epsilon then [.mouse 0 0 (wheelDelta dx) [.hWheel]] else []

/-- What an event asks the system to take; a mouse event fails where the screen has no size. -/
def inputsOf (before : List Win32Input) : InputEvent → Except InputError (List Win32Input)
  | .mouse mouse => do
      let (width, height) ← screenSize user32 before
      return .mouse (normalize mouse.x width) (normalize mouse.y height) 0 [.absolute, .move]
        :: mouse.button.toList.map buttonInput
  | .key key => .ok [.keyboard key.keycode.toUInt16 (key.action = .release)]
  | .scroll scroll => .ok (scrollInputs scroll)

/-- Passes inputs until one is refused, which is the last that the system sees. -/
def deliver (before : List Win32Input) : List Win32Input → Bool × List Win32Input
  | [] => (true, before)
  | input :: inputs =>
      if user32.sendInput before input = 0 then (false, before ++ [input])
      else deliver (before ++ [input]) inputs

def refused : InputError := .injectionFailed "SendInput returned 0"

variable {user32}

theorem sendOne_deliver (input : Win32Input) (before : List Win32Input) :
    (sendOne user32 input).run.run before
      = match deliver user32 before [input] with
        | (true, after) => (.ok (), after)
        | (false, after) => (.error refused, after) := by
  rw [sendOne_run, deliver]
  split <;> rfl

theorem deliver_append (inputs more before : List Win32Input) :
    deliver user32 before (inputs ++ more)
      = match deliver user32 before inputs with
        | (true, after) => deliver user32 after more
        | (false, after) => (false, after) := by
  induction inputs generalizing before with
  | nil => rfl
  | cons input inputs ih =>
      rw [List.cons_append, deliver, deliver]
      split
      · rfl
      · exact ih _

variable (user32) in
def Delivers (before : List Win32Input) (action : Injection Unit) (inputs : List Win32Input) :
    Prop :=
  action.run.run before
    = match deliver user32 before inputs with
      | (true, after) => (.ok (), after)
      | (false, after) => (.error refused, after)

variable {before : List Win32Input}

theorem Delivers.bind {first second : Injection Unit} {inputs more : List Win32Input}
    (hfirst : Delivers user32 before first inputs)
    (hsecond : ∀ after, Delivers user32 after second more) :
    Delivers user32 before (do first; second) (inputs ++ more) := by
  rw [Delivers, Injection.run_bind, hfirst, deliver_append]
  rcases deliver user32 before inputs with ⟨_ | _, after⟩
  · rfl
  · exact hsecond after

theorem delivers_pure : Delivers user32 before (pure ()) [] := rfl

theorem delivers_sendOne (input : Win32Input) :
    Delivers user32 before (sendOne user32 input) [input] :=
  sendOne_deliver input before

theorem delivers_move {size : Int32 × Int32} (x y : Int32)
    (hsize : screenSize user32 before = .ok size) :
    Delivers user32 before (injectMouseMove user32 x y)
      [.mouse (normalize x size.1) (normalize y size.2) 0 [.absolute, .move]] := by
  rw [Delivers, injectMouseMove_run, hsize]
  exact delivers_sendOne _

theorem delivers_button (button : MouseButton) (action : KeyAction) :
    Delivers user32 before (injectMouseButton user32 button action)
      [buttonInput (button, action)] := by
  cases button <;> cases action <;> exact delivers_sendOne _

theorem delivers_scroll (scroll : ScrollEvent) :
    Delivers user32 before (injectScroll user32 scroll) (scrollInputs scroll) := by
  unfold injectScroll scrollInputs
  dsimp only
  have hsome {c : Prop} [Decidable c] (input : Win32Input) (before : List Win32Input) :
      Delivers user32 before (if c then sendOne user32 input else pure ())
        (if c then [input] else []) := by
    split
    · exact delivers_sendOne input
    · exact delivers_pure
  by_cases hwheel : (Float32.ofBits scroll.dy.bits).abs > f32Epsilon
  · rw [if_pos hwheel, if_pos hwheel]
    exact (delivers_sendOne _).bind (hsome _)
  · rw [if_neg hwheel, if_neg hwheel, List.nil_append]
    exact hsome _ before

theorem inject_run (injector : WindowsInputInjector) (event : InputEvent)
    (before : List Win32Input) :
    (inject user32 injector event).run.run before
      = match inputsOf user32 before event with
        | .error err => (.error err, before)
        | .ok inputs =>
            match deliver user32 before inputs with
            | (true, after) => (.ok ⟨injector.eventsInjected + 1⟩, after)
            | (false, after) => (.error refused, after) := by
  have hcount {action : Injection Unit} {inputs : List Win32Input}
      (haction : Delivers user32 before action inputs) :
      (do action; return (⟨injector.eventsInjected + 1⟩ : WindowsInputInjector)
          : Injection WindowsInputInjector).run.run before
        = match deliver user32 before inputs with
          | (true, after) => (.ok ⟨injector.eventsInjected + 1⟩, after)
          | (false, after) => (.error refused, after) := by
    rw [Injection.run_bind, haction]
    rcases deliver user32 before inputs with ⟨_ | _, after⟩ <;> rfl
  cases event with
  | key key => exact hcount (delivers_sendOne _)
  | scroll scroll => exact hcount (delivers_scroll scroll)
  | mouse mouse =>
      cases hsize : screenSize user32 before with
      | error err =>
          have hinputs : inputsOf user32 before (.mouse mouse) = .error err := by
            rw [inputsOf, hsize]
            rfl
          have hmove := injectMouseMove_run user32 mouse.x mouse.y before
          rw [hsize] at hmove
          rw [hinputs, inject, Injection.run_bind, hmove]
      | ok size =>
          have hmove := delivers_move mouse.x mouse.y hsize
          have hinputs : inputsOf user32 before (.mouse mouse)
              = .ok (.mouse (normalize mouse.x size.1) (normalize mouse.y size.2) 0
                  [.absolute, .move] :: mouse.button.toList.map buttonInput) := by
            rw [inputsOf, hsize]
            rfl
          rw [hinputs, inject]
          cases mouse.button with
          | none => exact hcount hmove
          | some pressed =>
              have hboth := hcount (hmove.bind fun _ => delivers_button pressed.1 pressed.2)
              rw [bind_assoc] at hboth
              exact hboth

/-! ### Where a batch stops -/

variable (user32) in
def Taken : (before inputs : List Win32Input) → Prop
  | _, [] => True
  | before, input :: inputs => user32.sendInput before input ≠ 0 ∧ Taken (before ++ [input]) inputs

theorem taken_append {before inputs more : List Win32Input} (hinputs : Taken user32 before inputs)
    (hmore : Taken user32 (before ++ inputs) more) : Taken user32 before (inputs ++ more) := by
  induction inputs generalizing before with
  | nil => simpa using hmore
  | cons input inputs ih =>
      refine ⟨hinputs.1, ih hinputs.2 ?_⟩
      rwa [List.append_assoc, List.singleton_append]

variable (user32) in
theorem deliver_cases (before inputs : List Win32Input) :
    (Taken user32 before inputs ∧ deliver user32 before inputs = (true, before ++ inputs))
      ∨ ∃ sent input unsent, inputs = sent ++ input :: unsent ∧ Taken user32 before sent
        ∧ user32.sendInput (before ++ sent) input = 0
        ∧ deliver user32 before inputs = (false, before ++ sent ++ [input]) := by
  induction inputs generalizing before with
  | nil => exact .inl ⟨trivial, by rw [deliver, List.append_nil]⟩
  | cons first inputs ih =>
      rw [deliver]
      by_cases hfirst : user32.sendInput before first = 0
      · rw [if_pos hfirst]
        exact .inr ⟨[], first, inputs, rfl, trivial, by rwa [List.append_nil], by simp⟩
      rw [if_neg hfirst]
      rcases ih (before ++ [first]) with ⟨htaken, hdeliver⟩
        | ⟨sent, input, unsent, rfl, htaken, hrefused, hdeliver⟩
      · rw [hdeliver, List.append_assoc, List.singleton_append]
        exact .inl ⟨⟨hfirst, htaken⟩, rfl⟩
      · have hbefore : before ++ [first] ++ sent = before ++ first :: sent := by
          rw [List.append_assoc, List.singleton_append]
        rw [hbefore] at hrefused hdeliver
        exact .inr ⟨first :: sent, input, unsent, rfl, ⟨hfirst, htaken⟩, hrefused, hdeliver⟩

/-- Where a batch stops and why: at its end, at a mouse event where the screen has no size, or at an
input that is refused, which is the last one passed. -/
inductive Stop (user32 : User32) (before : List Win32Input) :
    (rest : List InputEvent) → (cut : List Win32Input) → Except InputError Unit → Prop where
  | done : Stop user32 before [] [] (.ok ())
  | noScreen {event : InputEvent} {later : List InputEvent} {err : InputError}
      (hinputs : inputsOf user32 before event = .error err) :
      Stop user32 before (event :: later) [] (.error err)
  | refused {event : InputEvent} {later : List InputEvent} {sent unsent : List Win32Input}
      {input : Win32Input} (hinputs : inputsOf user32 before event = .ok (sent ++ input :: unsent))
      (htaken : Taken user32 before sent) (hrefused : user32.sendInput (before ++ sent) input = 0) :
      Stop user32 before (event :: later) (sent ++ [input]) (.error refused)

variable (user32) in
inductive Inputs : (before : List Win32Input) → List InputEvent → List Win32Input → Prop where
  | nil {before : List Win32Input} : Inputs before [] []
  | cons {before : List Win32Input} {event : InputEvent} {events : List InputEvent}
      {inputs more : List Win32Input} (hevent : inputsOf user32 before event = .ok inputs)
      (hevents : Inputs (before ++ inputs) events more) :
      Inputs before (event :: events) (inputs ++ more)

theorem logInjector_injectBatch (injector : LogInjector) (events : List InputEvent) :
    LogInjector.inputInjector.injectBatch injector events
      = (.ok (), ⟨injector.eventsInjected + UInt64.ofNat events.length⟩) := by
  induction events generalizing injector with
  | nil =>
      have hzero : injector.eventsInjected + UInt64.ofNat 0 = injector.eventsInjected :=
        UInt64.add_zero _
      rw [List.length_nil, hzero]
      rfl
  | cons event events ih =>
      calc LogInjector.inputInjector.injectBatch injector (event :: events)
          = LogInjector.inputInjector.injectBatch ⟨injector.eventsInjected + 1⟩ events := rfl
        _ = (.ok (), ⟨injector.eventsInjected + 1 + UInt64.ofNat events.length⟩) := ih _
        _ = (.ok (), ⟨injector.eventsInjected + UInt64.ofNat (event :: events).length⟩) := by
          rw [List.length_cons, Nat.add_comm events.length, UInt64.ofNat_add, ← UInt64.add_assoc]
          rfl

theorem injectBatch_run (injector : WindowsInputInjector) (before : List Win32Input)
    (events : List InputEvent) :
    ∃ injected rest passed cut result, events = injected ++ rest
      ∧ Inputs user32 before injected passed
      ∧ Taken user32 before passed
      ∧ Stop user32 (before ++ passed) rest cut result
      ∧ (inputInjector user32).injectBatch (injector, before) events
        = (result, ⟨injector.eventsInjected + UInt64.ofNat injected.length⟩,
            before ++ passed ++ cut) := by
  have hzero (n : UInt64) : n + UInt64.ofNat ([] : List InputEvent).length = n := UInt64.add_zero n
  induction events generalizing injector before with
  | nil =>
      refine ⟨[], [], [], [], .ok (), rfl, .nil, trivial, .done, ?_⟩
      rw [hzero, List.append_nil, List.append_nil]
      rfl
  | cons event events ih =>
      have hrun : (inject user32 injector event).run.run before = _ :=
        inject_run injector event before
      cases hinputs : inputsOf user32 before event with
      | error err =>
          simp only [hinputs] at hrun
          have hstop : Stop user32 (before ++ []) (event :: events) [] (.error err) := by
            rw [List.append_nil]
            exact .noScreen hinputs
          refine ⟨[], event :: events, [], [], .error err, rfl, .nil, trivial, hstop, ?_⟩
          rw [hzero, List.append_nil, List.append_nil, InputInjector.injectBatch]
          simp only [inputInjector, hrun]
      | ok inputs =>
          simp only [hinputs] at hrun
          rcases deliver_cases user32 before inputs with ⟨htaken, hdeliver⟩
            | ⟨sent, input, unsent, rfl, htaken, hrefused, hdeliver⟩
          · simp only [hdeliver] at hrun
            obtain ⟨injected, rest, passed, cut, result, rfl, hpassed, hmore, hstop, hbatch⟩ :=
              ih ⟨injector.eventsInjected + 1⟩ (before ++ inputs)
            have hcount : injector.eventsInjected + 1 + UInt64.ofNat injected.length
                = injector.eventsInjected + UInt64.ofNat (event :: injected).length := by
              rw [List.length_cons, Nat.add_comm injected.length, UInt64.ofNat_add,
                ← UInt64.add_assoc]
              rfl
            rw [hcount] at hbatch
            refine ⟨event :: injected, rest, inputs ++ passed, cut, result, rfl,
              .cons hinputs hpassed, taken_append htaken hmore, ?_, ?_⟩
            · rwa [← List.append_assoc]
            · rw [InputInjector.injectBatch]
              simp only [inputInjector, hrun]
              rw [← List.append_assoc before]
              exact hbatch
          · simp only [hdeliver] at hrun
            refine ⟨[], event :: events, [], sent ++ [input], .error refused, rfl, .nil, trivial,
              ?_, ?_⟩
            · rw [List.append_nil]
              exact .refused hinputs htaken hrefused
            · rw [hzero, List.append_nil, ← List.append_assoc, InputInjector.injectBatch]
              simp only [inputInjector, hrun]

theorem Stop.eq_nil_of_ok {before cut : List Win32Input} {rest : List InputEvent}
    (hstop : Stop user32 before rest cut (.ok ())) : rest = [] := by
  cases hstop
  rfl

/-- **A batch stops at the first input that is refused.** Some events from the front are injected
whole; then the batch is at its end, or the next event fails and nothing behind the input that was
refused is passed. -/
theorem batch_stops_at_refusal (user32 : User32) (injector : WindowsInputInjector)
    (before : List Win32Input) (events : List InputEvent) :
    ∃ injected rest passed cut result, events = injected ++ rest
      ∧ Inputs user32 before injected passed
      ∧ Taken user32 before passed
      ∧ Stop user32 (before ++ passed) rest cut result
      ∧ (inputInjector user32).injectBatch (injector, before) events
        = (result, ⟨injector.eventsInjected + UInt64.ofNat injected.length⟩,
            before ++ passed ++ cut)
      ∧ (result = .ok () → LogInjector.inputInjector.injectBatch ⟨injector.eventsInjected⟩ events
        = (result, ⟨injector.eventsInjected + UInt64.ofNat injected.length⟩)) := by
  obtain ⟨injected, rest, passed, cut, result, hevents, hpassed, htaken, hstop, hbatch⟩ :=
    injectBatch_run injector before events
  refine ⟨injected, rest, passed, cut, result, hevents, hpassed, htaken, hstop, hbatch, ?_⟩
  rintro rfl
  rw [hevents, hstop.eq_nil_of_ok, List.append_nil]
  exact logInjector_injectBatch _ injected

end QuicView.WindowsInputInjector
