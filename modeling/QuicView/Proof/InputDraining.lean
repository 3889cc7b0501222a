import QuicView.Proof.InputChunks

namespace QuicView

open Wire

/-- A complete record of a known kind, and for a mouse record a button byte that is known. -/
def WholeRecord (b : Bytes) : Prop :=
  (b.head? = some 0 ∧ 10 ≤ b.length ∧ ∃ v, b[9]? = some v ∧ (v = 0xFF ∨ v &&& 0x7F ≤ 4))
    ∨ (b.head? = some 1 ∧ 7 ≤ b.length)
    ∨ (b.head? = some 2 ∧ 9 ≤ b.length)

def InputEvent.recordLength : InputEvent → ℕ
  | .mouse _ => 10
  | .key _ => 7
  | .scroll _ => 9

def InputEvent.recordTag : InputEvent → UInt8
  | .mouse _ => 0
  | .key _ => 1
  | .scroll _ => 2

theorem exists_decodeButton_iff (v : UInt8) :
    (∃ button, decodeButton v = .ok button) ↔ v = 0xFF ∨ v &&& 0x7F ≤ 4 := by
  have hall : ∀ w : Fin 256, (decodeButton (.ofFin w)).toOption.isSome
      ↔ UInt8.ofFin w = 0xFF ∨ UInt8.ofFin w &&& 0x7F ≤ 4 := by
    decide +kernel
  have hv := hall v.toFin
  rw [UInt8.ofFin_toFin] at hv
  rw [← hv]
  cases decodeButton v with
  | ok button => exact iff_of_true ⟨button, rfl⟩ rfl
  | error error => exact iff_of_false (fun ⟨_, heq⟩ => by cases heq) Bool.false_ne_true

namespace InputEvent

theorem length_encode (event : InputEvent) : (event.encode []).length = event.recordLength := by
  cases event with
  | mouse m => simp [encode_mouse, recordLength]
  | key k => simp [encode_key, recordLength]
  | scroll s => simp [encode_scroll, recordLength]

theorem exists_bodyLength_of_wholeRecord {tag : UInt8} {b : Bytes}
    (hwhole : WholeRecord (tag :: b)) :
    ∃ length, bodyLength tag = some length ∧ length ≤ b.length := by
  obtain ⟨htag, hlen, -⟩ | ⟨htag, hlen⟩ | ⟨htag, hlen⟩ := hwhole
  · obtain rfl := Option.some.inj htag
    exact ⟨9, rfl, Nat.le_of_succ_le_succ hlen⟩
  · obtain rfl := Option.some.inj htag
    exact ⟨6, rfl, Nat.le_of_succ_le_succ hlen⟩
  · obtain rfl := Option.some.inj htag
    exact ⟨8, rfl, Nat.le_of_succ_le_succ hlen⟩

theorem Incomplete.not_wholeRecord {b : Bytes} (h : Incomplete b) : ¬ WholeRecord b := by
  intro hwhole
  cases b with
  | nil => simp [WholeRecord] at hwhole
  | cons tag body =>
      obtain ⟨length, hknown, hlong⟩ := exists_bodyLength_of_wholeRecord hwhole
      exact absurd (h tag body rfl length hknown) (Nat.not_lt.mpr hlong)

theorem wholeRecord_mouse_iff (x y : Int32) (button : UInt8) (rest : Bytes) :
    WholeRecord (tagMouse :: (bigEndian 4 x.toUInt32.toNat
        ++ (bigEndian 4 y.toUInt32.toNat ++ button :: rest)))
      ↔ button = 0xFF ∨ button &&& 0x7F ≤ 4 := by
  have hlen : 10 ≤ 4 + (4 + (rest.length + 1)) + 1 := by omega
  simp [WholeRecord, tagMouse, hlen, List.getElem?_append]

theorem exists_parse_decode (b : Bytes) :
    ∃ result rest, parse InputEvent.decode b = some (result, rest) := by
  obtain ⟨x, y, button, rest, rfl⟩ | ⟨keycode, action, modifiers, rest, rfl⟩ | ⟨dx, dy, rest, rfl⟩
    | hincomplete := fields_or_incomplete b
  · rw [parse_decode_mouse]
    cases decodeButton button with
    | error error => exact ⟨.error error, rest, rfl⟩
    | ok button => exact ⟨.ok _, rest, rfl⟩
  · exact ⟨_, rest, parse_decode_key keycode action modifiers rest⟩
  · exact ⟨_, rest, parse_decode_scroll dx dy rest⟩
  · obtain ⟨error, left, hrefused⟩ := hincomplete.refused
    exact ⟨_, left, hrefused⟩

theorem exists_parse_decode_ok_iff (b : Bytes) :
    (∃ event rest, parse InputEvent.decode b = some (.ok event, rest)) ↔ WholeRecord b := by
  obtain ⟨x, y, button, rest, rfl⟩ | ⟨keycode, action, modifiers, rest, rfl⟩ | ⟨dx, dy, rest, rfl⟩
    | hincomplete := fields_or_incomplete b
  · have hdecoded : (∃ event left, parse InputEvent.decode (tagMouse ::
          (bigEndian 4 x.toUInt32.toNat ++ (bigEndian 4 y.toUInt32.toNat ++ button :: rest)))
        = some (.ok event, left)) ↔ ∃ value, decodeButton button = .ok value := by
      rw [parse_decode_mouse]
      cases decodeButton button with
      | error error =>
          exact iff_of_false (fun ⟨_, _, heq⟩ => by cases heq) fun ⟨_, heq⟩ => by cases heq
      | ok value => exact iff_of_true ⟨_, rest, rfl⟩ ⟨value, rfl⟩
    rw [hdecoded, exists_decodeButton_iff, wholeRecord_mouse_iff]
  · refine iff_of_true ⟨_, rest, parse_decode_key keycode action modifiers rest⟩ ?_
    exact .inr (.inl ⟨rfl, by simp; omega⟩)
  · refine iff_of_true ⟨_, rest, parse_decode_scroll dx dy rest⟩ ?_
    exact .inr (.inr ⟨rfl, by simp; omega⟩)
  · refine iff_of_false ?_ hincomplete.not_wholeRecord
    obtain ⟨error, left, hrefused⟩ := hincomplete.refused
    rintro ⟨event, rest, hok⟩
    rw [hrefused] at hok
    cases hok

theorem eq_drop_of_parse_decode {b rest : Bytes} {event : InputEvent}
    (hparse : parse InputEvent.decode b = some (.ok event, rest)) :
    b.head? = some event.recordTag ∧ rest = b.drop event.recordLength
      ∧ event.recordLength ≤ b.length := by
  have hle : event.recordLength ≤ b.length := by
    rw [length_of_parse_decode_ok hparse, length_encode]
    exact Nat.le_add_right _ _
  obtain ⟨x, y, button, rfl, rfl⟩ | ⟨keycode, action, modifiers, rfl, rfl⟩ | ⟨dx, dy, rfl, rfl⟩ :=
    parse_decode_ok_cases hparse
  · exact ⟨rfl, by simp [recordLength, List.drop_append], hle⟩
  · exact ⟨rfl, by simp [recordLength, List.drop_append], hle⟩
  · exact ⟨rfl, by simp [recordLength, List.drop_append], hle⟩

end InputEvent

/-- **Draining hostile input is safe.** It ends for every string. No decode reads past the end; one
that succeeds takes a record of the kind that the first byte says, and it succeeds on exactly the
strings that begin with one. -/
theorem draining_is_safe (b : Bytes) :
    (∃ events error left, drain InputEvent.decode b = some (events, error, left))
      ∧ (∃ result rest, parse InputEvent.decode b = some (result, rest))
      ∧ (∀ event rest, parse InputEvent.decode b = some (.ok event, rest) →
          b.head? = some event.recordTag ∧ rest = b.drop event.recordLength
            ∧ event.recordLength ≤ b.length)
      ∧ ((∃ event rest, parse InputEvent.decode b = some (.ok event, rest)) ↔ WholeRecord b) := by
  refine ⟨?_, InputEvent.exists_parse_decode b, fun _ _ => InputEvent.eq_drop_of_parse_decode,
    InputEvent.exists_parse_decode_ok_iff b⟩
  apply exists_drainWithin InputEvent.exists_parse_decode
  · intro bytes event rest hparse
    have hpos := event.length_encode_pos
    have hlen := InputEvent.length_of_parse_decode_ok hparse
    omega
  · exact Nat.lt_succ_self _

end QuicView
