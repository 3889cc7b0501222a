import QuicView.Proof.InputRecords

/-!
# Input events that arrive in parts

The decoder reads the tag of a record before it knows whether the record is complete, and does not
put it back: a part that ends within a record loses that one byte, and with it a record too many to
be made up for by what follows.
-/

namespace QuicView

open Wire

/-- Decodes a first part until that fails, and then what this left unread with the second part. -/
def receiveInParts (first second : Bytes) : Option (List InputEvent) := do
  let (early, _, left) ← drain InputEvent.decode first
  let (late, _, _) ← drain InputEvent.decode (left ++ second)
  return early ++ late

def FailsUnread (part : Bytes) : Prop :=
  ∃ events error left, drain InputEvent.decode part = some (events, error, left)
    ∧ encodeEvents events [] ++ left = part

/-- The cut falls between two records, or before the first or after the last. -/
def OnBoundary (events : List InputEvent) (cut : Nat) : Prop :=
  ∃ before, before <+: events ∧ (encodeEvents events []).take cut = encodeEvents before []

theorem encodeEvents_eq_flatMap (events : List InputEvent) :
    encodeEvents events [] = events.flatMap (·.encode []) := by
  rw [encodeEvents, putMany_eq_append InputEvent.encode_eq_append, List.nil_append]

theorem encodeEvents_append (before after : List InputEvent) :
    encodeEvents (before ++ after) [] = encodeEvents before [] ++ encodeEvents after [] := by
  simp only [encodeEvents_eq_flatMap, List.flatMap_append]

theorem receiveInParts_of_drain {first left : Bytes} {early : List InputEvent}
    {error : ProtocolError} (hdrain : drain InputEvent.decode first = some (early, error, left))
    (second : Bytes) :
    receiveInParts first second
      = (drain InputEvent.decode (left ++ second)).map fun (late, _, _) => early ++ late := by
  simp only [receiveInParts, hdrain, Option.bind_eq_bind, Option.bind_some]
  cases drain InputEvent.decode (left ++ second) <;> rfl

theorem InputEvent.encode_eq_cons (event : InputEvent) :
    ∃ tag body, event.encode [] = tag :: body ∧ bodyLength tag = some body.length := by
  cases event with
  | mouse m =>
      refine ⟨tagMouse, _, encode_mouse m, ?_⟩
      simp [bodyLength]
  | key k =>
      refine ⟨tagKey, _, encode_key k, ?_⟩
      simp [bodyLength, tagMouse, tagKey]
  | scroll s =>
      refine ⟨tagScroll, _, encode_scroll s, ?_⟩
      simp [bodyLength, tagMouse, tagKey, tagScroll]

theorem InputEvent.length_encode_pos (event : InputEvent) : 0 < (event.encode []).length := by
  obtain ⟨tag, body, hencode, _⟩ := event.encode_eq_cons
  simp [hencode]

theorem drain_encodeEvents_append (events : List InputEvent) {bytes left : Bytes}
    {error : ProtocolError}
    (hbad : parse InputEvent.decode bytes = some (.error error, left)) :
    drain InputEvent.decode (encodeEvents events [] ++ bytes) = some (events, error, left) := by
  rw [encodeEvents_eq_flatMap]
  exact drain_append events (fun event _ rest => event.parse_decode_encode rest)
    (fun event _ => event.length_encode_pos) hbad

theorem drain_encodeEvents (events : List InputEvent) :
    drain InputEvent.decode (encodeEvents events [])
      = some (events, .decode "empty input event", []) := by
  have hdrain := drain_encodeEvents_append events InputEvent.parse_decode_nil
  rwa [List.append_nil] at hdrain

theorem length_encodeEvents_le {bytes left : Bytes} {events : List InputEvent}
    {error : ProtocolError} (hdrain : drain InputEvent.decode bytes = some (events, error, left)) :
    (encodeEvents events []).length ≤ bytes.length := by
  rw [encodeEvents_eq_flatMap]
  exact length_flatMap_le_of_drainWithin
    (fun _ _ _ hparse => InputEvent.length_of_parse_decode_ok hparse) hdrain

theorem parse_decode_take {event : InputEvent} {count : Nat} (hpos : 0 < count)
    (hcount : count < (event.encode []).length) :
    ∃ error left, parse InputEvent.decode ((event.encode []).take count)
        = some (.error error, left)
      ∧ left.length + 1 = count := by
  obtain ⟨tag, body, hencode, htag⟩ := event.encode_eq_cons
  obtain ⟨kept, rfl⟩ : ∃ kept, count = kept + 1 := ⟨count - 1, by omega⟩
  rw [hencode, List.length_cons] at hcount
  have hlen : (body.take kept).length = kept := List.length_take_of_le (by omega)
  have hshort : (body.take kept).length < body.length := by omega
  obtain ⟨error, herror⟩ := InputEvent.parse_decode_truncated htag hshort
  refine ⟨error, body.take kept, ?_, by rw [hlen]⟩
  rw [hencode, List.take_succ_cons, herror]

/-! ### On a boundary -/

theorem OnBoundary.drops {events : List InputEvent} {cut : Nat} (h : OnBoundary events cut) :
    ∃ before after, events = before ++ after
      ∧ (encodeEvents events []).take cut = encodeEvents before []
      ∧ (encodeEvents events []).drop cut = encodeEvents after [] := by
  obtain ⟨before, ⟨after, rfl⟩, htake⟩ := h
  refine ⟨before, after, rfl, htake, ?_⟩
  have hsplit := List.take_append_drop cut (encodeEvents (before ++ after) [])
  rw [htake, encodeEvents_append] at hsplit
  rw [encodeEvents_append]
  exact List.append_cancel_left hsplit

theorem OnBoundary.receiveInParts {events : List InputEvent} {cut : Nat}
    (h : OnBoundary events cut) :
    receiveInParts ((encodeEvents events []).take cut) ((encodeEvents events []).drop cut)
      = some events := by
  obtain ⟨before, after, rfl, htake, hdrop⟩ := h.drops
  rw [htake, hdrop, receiveInParts_of_drain (drain_encodeEvents before), List.nil_append,
    drain_encodeEvents]
  rfl

theorem OnBoundary.failsUnread {events : List InputEvent} {cut : Nat}
    (h : OnBoundary events cut) : FailsUnread ((encodeEvents events []).take cut) := by
  obtain ⟨before, _, htake⟩ := h
  rw [htake]
  exact ⟨before, _, [], drain_encodeEvents before, List.append_nil _⟩

/-! ### Within a record -/

theorem drain_take {events : List InputEvent} {cut : Nat} (h : ¬ OnBoundary events cut) :
    ∃ before value later error left, events = before ++ value :: later
      ∧ drain InputEvent.decode ((encodeEvents events []).take cut) = some (before, error, left)
      ∧ (encodeEvents before []).length + left.length + 1
          = ((encodeEvents events []).take cut).length := by
  have hcases := take_flatMap_cases (fun event : InputEvent => event.encode []) events cut
  simp only [← encodeEvents_eq_flatMap] at hcases
  obtain hboundary | ⟨before, value, later, count, rfl, hpos, hcount, htake⟩ := hcases
  · exact absurd hboundary h
  · obtain ⟨error, left, hparse, hleft⟩ := parse_decode_take hpos hcount
    refine ⟨before, value, later, error, left, rfl, ?_, ?_⟩
    · rw [htake]
      exact drain_encodeEvents_append before hparse
    · rw [htake, List.length_append, List.length_take_of_le hcount.le]
      omega

theorem receiveInParts_ne_of_not_onBoundary {events : List InputEvent} {cut : Nat}
    (h : ¬ OnBoundary events cut) :
    receiveInParts ((encodeEvents events []).take cut) ((encodeEvents events []).drop cut)
      ≠ some events := by
  obtain ⟨before, value, later, error, left, rfl, hdrain, hlen⟩ := drain_take h
  intro hreceived
  rw [receiveInParts_of_drain hdrain] at hreceived
  obtain ⟨⟨late, error', left'⟩, hlate, hall⟩ := Option.map_eq_some_iff.mp hreceived
  obtain rfl : late = value :: later := List.append_cancel_left hall
  -- the late events would need one byte more than there is
  have hfits := length_encodeEvents_le hlate
  have htotal := congrArg List.length
    (List.take_append_drop cut (encodeEvents (before ++ value :: later) []))
  rw [List.length_append, encodeEvents_append before (value :: later), List.length_append] at htotal
  rw [encodeEvents_append before (value :: later)] at hlen hfits
  rw [List.length_append] at hfits
  omega

theorem not_failsUnread_of_not_onBoundary {events : List InputEvent} {cut : Nat}
    (h : ¬ OnBoundary events cut) : ¬ FailsUnread ((encodeEvents events []).take cut) := by
  obtain ⟨before, _, _, error, left, _, hdrain, hlen⟩ := drain_take h
  rintro ⟨events', error', left', hdrain', hunread⟩
  rw [hdrain] at hdrain'
  cases hdrain'
  have hwhole := congrArg List.length hunread
  rw [List.length_append] at hwhole
  omega

/-- **When input decoding can be resumed.** Decoding the first part of the events until it fails and
then the rest yields the events exactly if the cut falls on a boundary between records. -/
theorem resumable_iff_onBoundary (events : List InputEvent) (cut : Nat) :
    (receiveInParts ((encodeEvents events []).take cut) ((encodeEvents events []).drop cut)
        = some events ↔ OnBoundary events cut)
      ∧ (FailsUnread ((encodeEvents events []).take cut) ↔ OnBoundary events cut) := by
  refine ⟨⟨fun hreceived => ?_, OnBoundary.receiveInParts⟩,
    ⟨fun hunread => ?_, OnBoundary.failsUnread⟩⟩
  · by_contra hwithin
    exact receiveInParts_ne_of_not_onBoundary hwithin hreceived
  · by_contra hwithin
    exact not_failsUnread_of_not_onBoundary hwithin hunread

theorem record_lost_across_parts :
    ¬ ∀ (events : List InputEvent) (cut : Nat),
        receiveInParts ((encodeEvents events []).take cut) ((encodeEvents events []).drop cut)
            = some events
          ∧ FailsUnread ((encodeEvents events []).take cut) := by
  intro hall
  have hreceived := (hall [.scroll { dx := ⟨1⟩, dy := ⟨2⟩ }] 3).1
  have hnothing : receiveInParts [2, 0, 0] [0, 1, 0, 0, 0, 2] = some [] := rfl
  exact absurd (hnothing.symm.trans hreceived) (by decide)

end QuicView
