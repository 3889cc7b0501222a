import QuicView.Input.SendInput

namespace QuicView

structure InputInjector (Injector : Type) where
  inject : Injector → InputEvent → Except InputError Unit × Injector

namespace InputInjector

variable {Injector : Type}

def injectBatch (self : InputInjector Injector) (injector : Injector) :
    List InputEvent → Except InputError Unit × Injector
  | [] => (.ok (), injector)
  | event :: events =>
      match self.inject injector event with
      | (.error err, injector) => (.error err, injector)
      | (.ok (), injector) => injectBatch self injector events

end InputInjector

structure LogInjector where
  eventsInjected : UInt64
  deriving DecidableEq, Repr

namespace LogInjector

def new : LogInjector where
  eventsInjected := 0

def inject (injector : LogInjector) (_event : InputEvent) :
    Except InputError Unit × LogInjector :=
  (.ok (), { eventsInjected := injector.eventsInjected + 1 })

def inputInjector : InputInjector LogInjector where
  inject := inject

end LogInjector

def WindowsInputInjector.inputInjector (user32 : User32) :
    InputInjector (WindowsInputInjector × List Win32Input) where
  inject := fun (injector, before) event =>
    match (WindowsInputInjector.inject user32 injector event).run.run before with
    | (.error err, after) => (.error err, injector, after)
    | (.ok injector, after) => (.ok (), injector, after)

end QuicView
