import QuicView.Protocol.Input

namespace QuicView

open Wire

theorem decodeButton_none : decodeButton 0xFF = .ok none := rfl

theorem decodeButton_some (btn : MouseButton) (action : KeyAction) :
    decodeButton (btn.toU8 ||| action.bit) = .ok (some (btn, action)) := by
  cases btn <;> cases action <;> rfl

def buttonByte : Option (MouseButton × KeyAction) → UInt8
  | none => 0xFF
  | some (btn, action) => btn.toU8 ||| action.bit

theorem decodeButton_buttonByte (button : Option (MouseButton × KeyAction)) :
    decodeButton (buttonByte button) = .ok button := by
  cases button with
  | none => exact decodeButton_none
  | some pair => exact decodeButton_some pair.1 pair.2

def actionByte : KeyAction → UInt8
  | .press => 1
  | .release => 0

theorem ite_actionByte (action : KeyAction) :
    (if actionByte action = 1 then KeyAction.press else .release) = action := by
  cases action <;> rfl

namespace InputEvent

theorem encode_eq_append (event : InputEvent) (dst : Bytes) :
    event.encode dst = dst ++ event.encode [] := by
  cases event with
  | mouse m =>
      rcases m with ⟨x, y, _ | ⟨btn, action⟩⟩ <;>
        simp [encode, putU8, putI32, putU32]
  | key k => simp [encode, putU8, putU32]
  | scroll s => simp [encode, putU8, putF32, putU32]

/-! ### What each record is written and read as -/

theorem encode_mouse (m : MouseEvent) :
    (InputEvent.mouse m).encode []
      = tagMouse :: (bigEndian 4 m.x.toUInt32.toNat
          ++ (bigEndian 4 m.y.toUInt32.toNat ++ [buttonByte m.button])) := by
  rcases m with ⟨x, y, _ | ⟨btn, action⟩⟩ <;> simp [encode, putU8, putI32, putU32, buttonByte]

theorem encode_key (k : KeyEvent) :
    (InputEvent.key k).encode []
      = tagKey :: (bigEndian 4 k.keycode.toNat ++ [actionByte k.action, k.modifiers]) := by
  rcases k with ⟨keycode, _ | _, modifiers⟩ <;> simp [encode, putU8, putU32, actionByte]

theorem encode_scroll (s : ScrollEvent) :
    (InputEvent.scroll s).encode []
      = tagScroll :: (bigEndian 4 s.dx.bits.toNat ++ bigEndian 4 s.dy.bits.toNat) := by
  simp [encode, putU8, putF32, putU32]

theorem parse_decode_mouse (x y : Int32) (button : UInt8) (rest : Bytes) :
    parse InputEvent.decode (tagMouse :: (bigEndian 4 x.toUInt32.toNat
        ++ (bigEndian 4 y.toUInt32.toNat ++ button :: rest)))
      = match decodeButton button with
        | .error error => some (.error error, rest)
        | .ok button => some (.ok (.mouse { x, y, button }), rest) := by
  have hfits : ¬ 4 + (4 + (rest.length + 1)) < 9 := by omega
  cases hbutton : decodeButton button with
  | error error => simp [decode, tagMouse, hfits, hbutton, -bind_pure_comp]
  | ok value => simp [decode, tagMouse, hfits, hbutton, -bind_pure_comp]

theorem parse_decode_key (keycode : UInt32) (action modifiers : UInt8) (rest : Bytes) :
    parse InputEvent.decode (tagKey :: (bigEndian 4 keycode.toNat ++ action :: modifiers :: rest))
      = some (.ok (.key { keycode, action := if action = 1 then .press else .release, modifiers }),
          rest) := by
  have hfits : ¬ 4 + (rest.length + 1 + 1) < 6 := by omega
  simp [decode, tagMouse, tagKey, hfits, -bind_pure_comp]

theorem parse_decode_scroll (dx dy : UInt32) (rest : Bytes) :
    parse InputEvent.decode (tagScroll :: (bigEndian 4 dx.toNat ++ (bigEndian 4 dy.toNat ++ rest)))
      = some (.ok (.scroll { dx := ⟨dx⟩, dy := ⟨dy⟩ }), rest) := by
  have hfits : ¬ 4 + (4 + rest.length) < 8 := by omega
  simp [decode, getF32, tagMouse, tagKey, tagScroll, hfits, -bind_pure_comp]

theorem parse_decode_encode (event : InputEvent) (rest : Bytes) :
    parse InputEvent.decode (event.encode [] ++ rest) = some (.ok event, rest) := by
  cases event with
  | mouse m =>
      rw [encode_mouse, List.cons_append, List.append_assoc, List.append_assoc,
        List.singleton_append, parse_decode_mouse, decodeButton_buttonByte]
  | key k =>
      rw [encode_key, List.cons_append, List.append_assoc, List.cons_append,
        List.singleton_append, parse_decode_key, ite_actionByte]
  | scroll s =>
      rw [encode_scroll, List.cons_append, List.append_assoc, parse_decode_scroll]

end InputEvent

/-- **Input events survive the wire.** Any events encoded into one buffer, with anything after them,
are decoded in order, leaving exactly what followed. -/
theorem parse_many_encodeEvents (events : List InputEvent) (trailing : Bytes) :
    parse (many InputEvent.decode events.length) (encodeEvents events [] ++ trailing)
      = some (.ok events, trailing) := by
  rw [encodeEvents, putMany_eq_append InputEvent.encode_eq_append, List.nil_append]
  exact parse_many events (fun event _ rest => event.parse_decode_encode rest) trailing

end QuicView
