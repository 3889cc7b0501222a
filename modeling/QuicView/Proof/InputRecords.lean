import QuicView.Proof.InputWire

namespace QuicView

open Wire

/-- Checked on each of the 256 bytes: the low seven bits name the button and the eighth the action,
and no byte but the sentinel is left over. -/
theorem eq_buttonByte_of_decodeButton {v : UInt8} {button : Option (MouseButton × KeyAction)}
    (hread : decodeButton v = .ok button) : v = buttonByte button := by
  have hall : ∀ w : Fin 256, ∀ button ∈ (decodeButton (.ofFin w)).toOption,
      UInt8.ofFin w = buttonByte button := by
    decide +kernel
  apply hall v.toFin button
  rw [UInt8.ofFin_toFin, hread]
  rfl

namespace InputEvent

/-! ### What any string is read as -/

theorem parse_decode_nil :
    parse InputEvent.decode [] = some (.error (.decode "empty input event"), []) := rfl

theorem parse_decode_unknown {tag : UInt8} (hmouse : tag ≠ tagMouse) (hkey : tag ≠ tagKey)
    (hscroll : tag ≠ tagScroll) (rest : Bytes) :
    parse InputEvent.decode (tag :: rest) = some (.error (.unknownInputEvent tag), rest) := by
  simp [decode, hmouse, hkey, hscroll]

def bodyLength (tag : UInt8) : Option Nat :=
  if tag = tagMouse then some 9
  else if tag = tagKey then some 6
  else if tag = tagScroll then some 8
  else none

theorem parse_decode_truncated {tag : UInt8} {length : Nat} {rest : Bytes}
    (htag : bodyLength tag = some length) (hlen : rest.length < length) :
    ∃ error, parse InputEvent.decode (tag :: rest) = some (.error error, rest) := by
  unfold bodyLength at htag
  split_ifs at htag with hmouse hkey hscroll
  · obtain rfl := Option.some.inj htag
    exact ⟨.decode "truncated mouse event", by simp [decode, hmouse, hlen]⟩
  · obtain rfl := Option.some.inj htag
    exact ⟨.decode "truncated key event", by simp [decode, hkey, tagMouse, tagKey, hlen]⟩
  · obtain rfl := Option.some.inj htag
    exact ⟨.decode "truncated scroll event",
      by simp [decode, hscroll, tagMouse, tagKey, tagScroll, hlen]⟩

def Incomplete (b : Bytes) : Prop :=
  ∀ tag body, b = tag :: body → ∀ length, bodyLength tag = some length → body.length < length

theorem Incomplete.refused {b : Bytes} (h : Incomplete b) :
    ∃ error left, parse InputEvent.decode b = some (.error error, left) := by
  cases b with
  | nil => exact ⟨_, _, parse_decode_nil⟩
  | cons tag body =>
      cases hlength : bodyLength tag with
      | none =>
          unfold bodyLength at hlength
          split_ifs at hlength with hmouse hkey hscroll
          exact ⟨_, _, parse_decode_unknown hmouse hkey hscroll body⟩
      | some length =>
          obtain ⟨error, herror⟩ := parse_decode_truncated hlength (h tag body rfl length hlength)
          exact ⟨error, body, herror⟩

theorem fields_or_incomplete (b : Bytes) :
    (∃ (x y : Int32) (button : UInt8) (rest : Bytes), b = tagMouse ::
        (bigEndian 4 x.toUInt32.toNat ++ (bigEndian 4 y.toUInt32.toNat ++ button :: rest)))
      ∨ (∃ (keycode : UInt32) (action modifiers : UInt8) (rest : Bytes),
        b = tagKey :: (bigEndian 4 keycode.toNat ++ action :: modifiers :: rest))
      ∨ (∃ (dx dy : UInt32) (rest : Bytes),
        b = tagScroll :: (bigEndian 4 dx.toNat ++ (bigEndian 4 dy.toNat ++ rest)))
      ∨ Incomplete b := by
  by_cases hincomplete : Incomplete b
  · exact .inr (.inr (.inr hincomplete))
  · unfold Incomplete at hincomplete
    push Not at hincomplete
    obtain ⟨tag, body, rfl, length, hlength, hlong⟩ := hincomplete
    unfold bodyLength at hlength
    split_ifs at hlength with hmouse hkey hscroll
    · obtain rfl := Option.some.inj hlength
      obtain ⟨x, body, rfl, hleft5⟩ := exists_eq_i32_append hlong
      obtain ⟨y, body, rfl, hleft1⟩ := exists_eq_i32_append hleft5
      obtain ⟨button, body, rfl, _⟩ := exists_eq_cons hleft1
      exact .inl ⟨x, y, button, body, by rw [hmouse]⟩
    · obtain rfl := Option.some.inj hlength
      obtain ⟨keycode, body, rfl, hleft2⟩ := exists_eq_u32_append hlong
      obtain ⟨action, body, rfl, hleft1⟩ := exists_eq_cons hleft2
      obtain ⟨modifiers, body, rfl, _⟩ := exists_eq_cons hleft1
      exact .inr (.inl ⟨keycode, action, modifiers, body, by rw [hkey]⟩)
    · obtain rfl := Option.some.inj hlength
      obtain ⟨dx, body, rfl, hleft4⟩ := exists_eq_u32_append hlong
      obtain ⟨dy, body, rfl, _⟩ := exists_eq_u32_append hleft4
      exact .inr (.inr (.inl ⟨dx, dy, body, by rw [hscroll]⟩))

theorem parse_decode_ok_cases {b rest : Bytes} {event : InputEvent}
    (hparse : parse InputEvent.decode b = some (.ok event, rest)) :
    (∃ x y button, event = .mouse { x, y, button }
        ∧ b = tagMouse :: (bigEndian 4 x.toUInt32.toNat
          ++ (bigEndian 4 y.toUInt32.toNat ++ buttonByte button :: rest)))
      ∨ (∃ (keycode : UInt32) (action modifiers : UInt8),
        event = .key { keycode, action := if action = 1 then .press else .release, modifiers }
          ∧ b = tagKey :: (bigEndian 4 keycode.toNat ++ action :: modifiers :: rest))
      ∨ ∃ dx dy : UInt32, event = .scroll { dx := ⟨dx⟩, dy := ⟨dy⟩ }
        ∧ b = tagScroll :: (bigEndian 4 dx.toNat ++ (bigEndian 4 dy.toNat ++ rest)) := by
  obtain ⟨x, y, button, left, rfl⟩ | ⟨keycode, action, modifiers, left, rfl⟩ | ⟨dx, dy, left, rfl⟩
    | hincomplete := fields_or_incomplete b
  · rw [parse_decode_mouse] at hparse
    split at hparse
    · cases hparse
    · rename_i value hvalue
      cases hparse
      exact .inl ⟨x, y, value, rfl, by rw [eq_buttonByte_of_decodeButton hvalue]⟩
  · rw [parse_decode_key] at hparse
    cases hparse
    exact .inr (.inl ⟨keycode, action, modifiers, rfl, rfl⟩)
  · rw [parse_decode_scroll] at hparse
    cases hparse
    exact .inr (.inr ⟨dx, dy, rfl, rfl⟩)
  · obtain ⟨error, left, hrefused⟩ := hincomplete.refused
    cases hrefused.symm.trans hparse

theorem length_of_parse_decode_ok {b rest : Bytes} {event : InputEvent}
    (hparse : parse InputEvent.decode b = some (.ok event, rest)) :
    b.length = (event.encode []).length + rest.length := by
  obtain ⟨x, y, button, rfl, rfl⟩ | ⟨keycode, action, modifiers, rfl, rfl⟩ | ⟨dx, dy, rfl, rfl⟩ :=
    parse_decode_ok_cases hparse
  · simp [encode_mouse]
    omega
  · simp [encode_key]
    omega
  · simp [encode_scroll]
    omega

end InputEvent

/-! ### Canonical strings -/

/-- Whatever event is read from the front of the string, its encoding is what was read. -/
def Canonical (b : Bytes) : Prop :=
  ∀ event rest, parse InputEvent.decode b = some (.ok event, rest) → event.encode [] ++ rest = b

/-- The string is no complete key record, or its action byte is one that the encoder writes. -/
def ActionByteKnown (b : Bytes) : Prop :=
  b.head? = some tagKey → 7 ≤ b.length → b[5]? = some 0 ∨ b[5]? = some 1

theorem actionByteKnown_key_iff (keycode : UInt32) (action modifiers : UInt8) (rest : Bytes) :
    ActionByteKnown (tagKey :: (bigEndian 4 keycode.toNat ++ action :: modifiers :: rest))
      ↔ action = 0 ∨ action = 1 := by
  have hlen : 7 ≤ 4 + (rest.length + 1 + 1) + 1 := by omega
  simp [ActionByteKnown, hlen]

theorem actionByte_eq_iff (action : UInt8) :
    actionByte (if action = 1 then .press else .release) = action ↔ action = 0 ∨ action = 1 := by
  by_cases hpress : action = 1
  · simp [hpress, actionByte]
  · rw [if_neg hpress, actionByte, or_iff_left hpress, eq_comm]

theorem canonical_iff_actionByteKnown (b : Bytes) : Canonical b ↔ ActionByteKnown b := by
  constructor
  · intro hcanonical hhead hlong
    obtain ⟨b, rfl⟩ : ∃ tail, b = tagKey :: tail := List.head?_eq_some_iff.mp hhead
    have hlen : 6 ≤ b.length := Nat.le_of_succ_le_succ hlong
    obtain ⟨keycode, b, rfl, hleft2⟩ := exists_eq_u32_append hlen
    obtain ⟨action, b, rfl, hleft1⟩ := exists_eq_cons hleft2
    obtain ⟨modifiers, rest, rfl, _⟩ := exists_eq_cons hleft1
    have hagain := hcanonical _ _ (InputEvent.parse_decode_key keycode action modifiers rest)
    have haction : actionByte (if action = 1 then .press else .release) = action := by
      simpa [InputEvent.encode_key] using hagain
    exact (actionByteKnown_key_iff keycode action modifiers rest).mpr
      ((actionByte_eq_iff action).mp haction) hhead hlong
  · intro hknown event rest hparse
    obtain ⟨x, y, button, rfl, rfl⟩ | ⟨keycode, action, modifiers, rfl, rfl⟩ | ⟨dx, dy, rfl, rfl⟩ :=
      InputEvent.parse_decode_ok_cases hparse
    · simp [InputEvent.encode_mouse]
    · have haction := (actionByteKnown_key_iff keycode action modifiers rest).mp hknown
      simp [InputEvent.encode_key, (actionByte_eq_iff action).mpr haction]
    · simp [InputEvent.encode_scroll]

/-- **When input decoding is canonical.** The encoding of what is read from a string is what was
read, for exactly the strings whose action byte, if they begin with a key record, is 0 or 1. -/
theorem decoding_canonical_iff_actionByteKnown (b : Bytes) :
    (Canonical b ↔ ActionByteKnown b)
      ∧ ∀ a event, ActionByteKnown a → ActionByteKnown b →
          parse InputEvent.decode a = some (.ok event, []) →
          parse InputEvent.decode b = some (.ok event, []) → a = b := by
  refine ⟨canonical_iff_actionByteKnown b, fun a event ha hb hparse hparse' => ?_⟩
  have hfirst := (canonical_iff_actionByteKnown a).mpr ha event [] hparse
  have hsecond := (canonical_iff_actionByteKnown b).mpr hb event [] hparse'
  exact hfirst.symm.trans hsecond

theorem unknown_action_read_as_release :
    (¬ ∀ b, Canonical b)
      ∧ ¬ ∀ a b event, parse InputEvent.decode a = some (.ok event, []) →
          parse InputEvent.decode b = some (.ok event, []) → a = b := by
  constructor
  · intro hall
    have hagain := hall [1, 0, 0, 0, 4, 7, 0] (.key ⟨4, .release, 0⟩) [] rfl
    exact absurd hagain (by decide)
  · intro hall
    have hsame := hall [1, 0, 0, 0, 4, 7, 0] [1, 0, 0, 0, 4, 0, 0] (.key ⟨4, .release, 0⟩) rfl rfl
    exact absurd hsame (by decide)

end QuicView
