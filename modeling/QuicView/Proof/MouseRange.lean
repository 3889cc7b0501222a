import QuicView.Input.SendInput
import QuicView.Library.SignedWords

namespace QuicView

namespace WindowsInputInjector

/-- A coordinate passed for a screen of the size is on the scale, and is the quotient itself, which
cutting it to 32 bits has not changed. -/
structure OnScale (coordinate size passed : Int32) : Prop where
  nonneg : 0 ≤ passed.toInt
  le : passed.toInt ≤ 65535
  exact : passed.toInt = (coordinate.toInt * 65535).tdiv size.toInt

/-- A pixel of the screen, or one so little beyond its edges that rounding takes it back onto the
scale. -/
def OnScreen (coordinate size : Int32) : Prop :=
  -size.toInt < coordinate.toInt * 65535 ∧ coordinate.toInt * 65535 < 65536 * size.toInt

instance (coordinate size : Int32) : Decidable (OnScreen coordinate size) :=
  inferInstanceAs (Decidable (_ ∧ _))

theorem toInt_normalize (coordinate : Int32) {size : Int32} (hsize : 0 < size) :
    (normalize coordinate size).toInt
      = ((coordinate.toInt * 65535).tdiv size.toInt).bmod (2 ^ 32) := by
  have hscale : (65535 : Int64) = (65535 : Int32).toInt64 := by decide
  have hvalue : (65535 : Int32).toInt = 65535 := by decide
  have hpos : 0 < size.toInt := Int32.lt_iff_toInt_lt.mp hsize
  rw [normalize, Int64.toInt_toInt32, hscale, Int32.toInt_mul_div_toInt64 _ _ hpos, hvalue]

theorem onScale_normalize_iff (coordinate : Int32) {size : Int32} (hsize : 0 < size) :
    OnScale coordinate size (normalize coordinate size) ↔ OnScreen coordinate size := by
  have hpos : 0 < size.toInt := Int32.lt_iff_toInt_lt.mp hsize
  have hquotient : _ ↔ OnScreen coordinate size :=
    Int.tdiv_nonneg_le_iff hpos (show (0 : Int) ≤ 65535 by decide)
  rw [← hquotient]
  constructor
  · rintro ⟨hnonneg, hle, hexact⟩
    rw [← hexact]
    exact ⟨hnonneg, hle⟩
  · rintro ⟨hnonneg, hle⟩
    have hexact := toInt_normalize coordinate hsize
    rw [Int.bmod_eq_of_fits (by omega)] at hexact
    exact ⟨hexact ▸ hnonneg, hexact ▸ hle, hexact⟩

theorem onScale_normalize_of_lt {coordinate size : Int32} (hnonneg : 0 ≤ coordinate)
    (hlt : coordinate < size) : OnScale coordinate size (normalize coordinate size) := by
  have hsize : 0 < size := Int32.lt_of_le_of_lt hnonneg hlt
  rw [Int32.le_iff_toInt_le, Int32.toInt_zero] at hnonneg
  rw [Int32.lt_iff_toInt_lt] at hlt
  rw [onScale_normalize_iff coordinate hsize, OnScreen]
  omega

/-! ### What is passed

A mouse event passes a move and, unless the system refuses that, the button's input, which does not
move the pointer.
-/

section

variable (user32 : User32)

def passed (injector : WindowsInputInjector) (event : InputEvent) (before : List Win32Input) :
    List Win32Input :=
  ((inject user32 injector event).run.run before).2.drop before.length

def move (mouse : MouseEvent) (before : List Win32Input) : Win32Input :=
  .mouse (normalize mouse.x (user32.getSystemMetrics before).1)
    (normalize mouse.y (user32.getSystemMetrics before).2) 0 [.absolute, .move]

variable {user32}

theorem injectMouseMove_eq (mouse : MouseEvent) (before : List Win32Input)
    (hwidth : 0 < (user32.getSystemMetrics before).1)
    (hheight : 0 < (user32.getSystemMetrics before).2) :
    (injectMouseMove user32 mouse.x mouse.y).run.run before
      = (sendOne user32 (move user32 mouse before)).run.run before := by
  have hsize : screenSize user32 before = .ok (user32.getSystemMetrics before) :=
    if_neg (not_or.mpr ⟨Int32.not_le.mpr hwidth, Int32.not_le.mpr hheight⟩)
  rw [injectMouseMove_run, hsize]
  rfl

theorem injectMouseButton_eq (button : MouseButton) (action : KeyAction) :
    ∃ mouseData flag, flag ≠ .move ∧
      injectMouseButton user32 button action = sendOne user32 (.mouse 0 0 mouseData [flag]) := by
  cases button <;> cases action <;> exact ⟨_, _, by decide, rfl⟩

theorem passed_mouse (injector : WindowsInputInjector) (mouse : MouseEvent)
    (before : List Win32Input) (hwidth : 0 < (user32.getSystemMetrics before).1)
    (hheight : 0 < (user32.getSystemMetrics before).2) :
    passed user32 injector (.mouse mouse) before = [move user32 mouse before] ∨
      ∃ mouseData flag, flag ≠ .move ∧
        passed user32 injector (.mouse mouse) before
          = [move user32 mouse before, .mouse 0 0 mouseData [flag]] := by
  unfold passed inject
  dsimp only
  rw [Injection.run_bind, injectMouseMove_eq mouse before hwidth hheight, ← Injection.run_bind,
    sendOne_bind_passed]
  split
  next hrefused => exact Or.inl List.drop_left
  next hsent =>
    cases hbutton : mouse.button with
    | none => exact Or.inl List.drop_left
    | some pressed =>
        obtain ⟨mouseData, flag, hflag, hinput⟩ :=
          @injectMouseButton_eq user32 pressed.1 pressed.2
        refine Or.inr ⟨mouseData, flag, hflag, ?_⟩
        have hdrop : ∀ button : Win32Input,
            (before ++ [move user32 mouse before] ++ [button]).drop before.length
              = [move user32 mouse before, button] := by
          intro button
          rw [List.append_assoc, List.drop_left]
          rfl
        dsimp only
        rw [hinput, sendOne_bind_passed]
        split <;> exact hdrop _

/-- **Where a mouse event lands.** What the host passes to the system to move the pointer is on the
scale from 0 to 65535 on both axes exactly for the coordinates of the screen. -/
theorem moves_on_scale_iff (injector : WindowsInputInjector) (mouse : MouseEvent)
    (before : List Win32Input) (hwidth : 0 < (user32.getSystemMetrics before).1)
    (hheight : 0 < (user32.getSystemMetrics before).2) :
    (∀ dx dy mouseData flags,
        .mouse dx dy mouseData flags ∈ passed user32 injector (.mouse mouse) before →
        .move ∈ flags →
        OnScale mouse.x (user32.getSystemMetrics before).1 dx ∧
          OnScale mouse.y (user32.getSystemMetrics before).2 dy)
      ↔ OnScreen mouse.x (user32.getSystemMetrics before).1 ∧
          OnScreen mouse.y (user32.getSystemMetrics before).2 := by
  rw [← onScale_normalize_iff mouse.x hwidth, ← onScale_normalize_iff mouse.y hheight]
  have hpassed := passed_mouse injector mouse before hwidth hheight
  constructor
  · intro hall
    refine hall _ _ 0 [.absolute, .move] ?_ (by decide)
    rcases hpassed with heq | ⟨_, _, _, heq⟩ <;> rw [heq] <;> exact List.mem_cons_self
  · rintro hmove dx dy mouseData flags hmem hflags
    rcases hpassed with heq | ⟨_, flag, hflag, heq⟩
    · rw [heq, List.mem_singleton] at hmem
      cases hmem
      exact hmove
    · rw [heq, List.mem_cons, List.mem_singleton] at hmem
      rcases hmem with hmem | hmem <;> cases hmem
      · exact hmove
      · exact absurd (List.mem_singleton.mp hflags).symm hflag

def willing (width height : Int32) : User32 where
  getSystemMetrics := fun _ => (width, height)
  sendInput := fun _ _ => 1

theorem moves_on_scale_iff_corner :
    (∀ dx dy mouseData flags,
        .mouse dx dy mouseData flags
          ∈ passed (willing 1920 1080) new (.mouse ⟨1919, 1079, some (.left, .press)⟩) [] →
        .move ∈ flags → OnScale 1919 1920 dx ∧ OnScale 1079 1080 dy)
      ↔ OnScreen 1919 1920 ∧ OnScreen 1079 1080 :=
  @moves_on_scale_iff (willing 1920 1080) new ⟨1919, 1079, some (.left, .press)⟩ []
    (by decide) (by decide)

theorem off_screen_passed :
    passed (willing 1920 1080) new (.mouse ⟨-1, 0, none⟩) []
        = [.mouse (-34) 0 0 [.absolute, .move]] ∧
      ¬ OnScale (-1) 1920 (-34) ∧
    passed (willing 1 1) new (.mouse ⟨2147483647, 0, none⟩) []
        = [.mouse 2147418113 0 0 [.absolute, .move]] ∧
      (2147418113 : Int32).toInt ≠ ((2147483647 : Int32).toInt * 65535).tdiv (1 : Int32).toInt := by
  refine ⟨by decide +kernel, fun hscale => ?_, by decide +kernel, by decide⟩
  exact absurd hscale.nonneg (by decide)

end

end WindowsInputInjector

end QuicView
