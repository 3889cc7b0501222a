import Mathlib.Data.List.Basic

/-!
# Differencing against a reference

A stream of frames is compressed by sending each as its difference from the one before, or as it is
when there is no reference of its shape. Nothing on the wire says which of the two happened. The
transformation is its own inverse against one reference and keeps shapes, so two ends that hold the
same reference exchange frames exactly. If the difference is commutative and associative, two ends
of one shape stay apart by the difference of their references for as long as the shape lasts.
-/

/-- A difference of frames that keeps the shape and undoes itself against an equally shaped
reference. -/
structure Differencing (Frame Shape : Type*) where
  shape : Frame → Shape
  diff : Frame → Frame → Frame
  shape_diff : ∀ frame ref, shape ref = shape frame → shape (diff frame ref) = shape frame
  diff_diff : ∀ frame ref, shape ref = shape frame → diff (diff frame ref) ref = frame

namespace Differencing

variable {Frame Shape : Type*} [DecidableEq Shape] (D : Differencing Frame Shape)

def transform (ref : Option Frame) (frame : Frame) : Frame :=
  match ref with
  | none => frame
  | some prev => if D.shape prev = D.shape frame then D.diff frame prev else frame

@[simp]
theorem transform_none (frame : Frame) : D.transform none frame = frame := rfl

theorem transform_some (prev frame : Frame) :
    D.transform (some prev) frame
      = if D.shape prev = D.shape frame then D.diff frame prev else frame := rfl

theorem shape_transform (ref : Option Frame) (frame : Frame) :
    D.shape (D.transform ref frame) = D.shape frame := by
  cases ref with
  | none => rfl
  | some prev =>
      rw [transform_some]
      split
      · exact D.shape_diff frame prev ‹_›
      · rfl

theorem transform_transform (ref : Option Frame) (frame : Frame) :
    D.transform ref (D.transform ref frame) = frame := by
  cases ref with
  | none => rfl
  | some prev =>
      by_cases hshape : D.shape prev = D.shape frame
      · have hdiff : D.shape prev = D.shape (D.diff frame prev) :=
          hshape.trans (D.shape_diff frame prev hshape).symm
        have hinner : D.transform (some prev) frame = D.diff frame prev := if_pos hshape
        rw [hinner, transform_some, if_pos hdiff]
        exact D.diff_diff frame prev hshape
      · have hinner : D.transform (some prev) frame = frame := if_neg hshape
        rw [hinner, hinner]

/-- The frames a receiver reconstructs from a sender's stream, when the two start from the
references given. Each end then refers to the frame it last sent or reconstructed. -/
def relay (sender receiver : Option Frame) : List Frame → List Frame
  | [] => []
  | frame :: frames =>
      let received := D.transform receiver (D.transform sender frame)
      received :: relay (some frame) (some received) frames

@[simp]
theorem relay_cons (sender receiver : Option Frame) (frame : Frame) (frames : List Frame) :
    D.relay sender receiver (frame :: frames)
      = D.transform receiver (D.transform sender frame)
        :: D.relay (some frame) (some (D.transform receiver (D.transform sender frame))) frames :=
  rfl

theorem relay_self (ref : Option Frame) (frames : List Frame) :
    D.relay ref ref frames = frames := by
  induction frames generalizing ref with
  | nil => rfl
  | cons frame frames ih => rw [relay_cons, transform_transform, ih]

theorem relay_cons_eq_iff (sender receiver : Option Frame) (frame : Frame) (frames : List Frame) :
    D.relay sender receiver (frame :: frames) = frame :: frames
      ↔ D.transform receiver (D.transform sender frame) = frame := by
  constructor
  · intro hexact
    exact (List.cons.inj hexact).1
  · intro hfirst
    rw [relay_cons, hfirst, relay_self]

theorem transform_eq_self_iff (ref : Option Frame) (frame : Frame) :
    D.transform ref frame = frame
      ↔ ∀ prev, ref = some prev → D.shape prev = D.shape frame → D.diff frame prev = frame := by
  cases ref with
  | none => simp
  | some prev =>
      rw [transform_some]
      constructor
      · rintro hsame other ⟨rfl⟩ hshape
        rwa [if_pos hshape] at hsame
      · intro hsame
        split
        · exact hsame prev rfl ‹_›
        · rfl

/-! ### References that differ -/

structure Commutes (D : Differencing Frame Shape) : Prop where
  diff_comm : ∀ a b, D.diff a b = D.diff b a
  diff_assoc : ∀ a b c, D.diff (D.diff a b) c = D.diff a (D.diff b c)

variable {D}

omit [DecidableEq Shape] in
theorem Commutes.diff_diff_left (hD : D.Commutes) {ref mask : Frame}
    (hshape : D.shape ref = D.shape mask) : D.diff ref (D.diff ref mask) = mask :=
  calc D.diff ref (D.diff ref mask)
      = D.diff (D.diff mask ref) ref := by rw [hD.diff_comm ref mask, hD.diff_comm ref]
    _ = mask := D.diff_diff mask ref hshape

theorem Commutes.transform_masked (hD : D.Commutes) {ref mask frame : Frame}
    (href : D.shape ref = D.shape mask) (hframe : D.shape frame = D.shape mask) :
    D.transform (some (D.diff ref mask)) (D.transform (some ref) frame) = D.diff frame mask := by
  have hsent : D.transform (some ref) frame = D.diff frame ref := if_pos (href.trans hframe.symm)
  have hshape : D.shape (D.diff ref mask) = D.shape (D.diff frame ref) := by
    rw [D.shape_diff ref mask href.symm, D.shape_diff frame ref (href.trans hframe.symm)]
    exact href.trans hframe.symm
  rw [hsent, transform_some, if_pos hshape, hD.diff_assoc, hD.diff_diff_left href]

/-- **The mask stays.** As long as the shape lasts, each frame is received with the same mask, and
the references at the end differ by it still. -/
theorem Commutes.relay_masked (hD : D.Commutes) (mask : Frame) (more : List Frame) :
    ∀ {same : List Frame} {ref : Frame}, D.shape ref = D.shape mask →
      (∀ frame ∈ same, D.shape frame = D.shape mask) →
      ∃ last, D.shape last = D.shape mask
        ∧ D.relay (some ref) (some (D.diff ref mask)) (same ++ more)
          = same.map (D.diff · mask) ++ D.relay (some last) (some (D.diff last mask)) more := by
  intro same
  induction same with
  | nil => exact fun {ref} href _ => ⟨ref, href, rfl⟩
  | cons frame same ih =>
      intro ref href hsame
      obtain ⟨hframe, hlater⟩ := List.forall_mem_cons.mp hsame
      obtain ⟨last, hlast, hrelay⟩ := ih hframe hlater
      refine ⟨last, hlast, ?_⟩
      rw [List.cons_append, relay_cons, hD.transform_masked href hframe, hrelay, List.map_cons,
        List.cons_append]

theorem relay_of_other_shape {sender receiver frame : Frame} (more : List Frame)
    (hsender : D.shape sender ≠ D.shape frame) (hreceiver : D.shape receiver ≠ D.shape frame) :
    D.relay (some sender) (some receiver) (frame :: more) = frame :: more := by
  have hsent : D.transform (some sender) frame = frame := if_neg hsender
  have hreceived : D.transform (some receiver) frame = frame := if_neg hreceiver
  rw [relay_cons_eq_iff, hsent, hreceived]

/-- **The mask ends with the shape.** Frames of the shape of the references are received masked by
the difference of these, and all others exactly from the first of another shape on. -/
theorem Commutes.relay_until_other_shape (hD : D.Commutes) {sender receiver : Frame}
    (hshape : D.shape receiver = D.shape sender) {same more : List Frame}
    (hsame : ∀ frame ∈ same, D.shape frame = D.shape sender)
    (hmore : ∀ frame ∈ more.head?, D.shape frame ≠ D.shape sender) :
    D.relay (some sender) (some receiver) (same ++ more)
      = same.map (D.diff · (D.diff sender receiver)) ++ more := by
  have hmask : D.shape (D.diff sender receiver) = D.shape sender :=
    D.shape_diff sender receiver hshape
  have hreceiver : D.diff sender (D.diff sender receiver) = receiver :=
    hD.diff_diff_left hshape.symm
  obtain ⟨last, hlast, hrelay⟩ := hD.relay_masked (D.diff sender receiver) more
    hmask.symm fun frame hframe => (hsame frame hframe).trans hmask.symm
  rw [hreceiver] at hrelay
  rw [hrelay]
  cases more with
  | nil => rfl
  | cons frame more =>
      have hother : D.shape frame ≠ D.shape sender := hmore frame rfl
      have hdiff : D.shape (D.diff last (D.diff sender receiver)) = D.shape sender := by
        rw [D.shape_diff last _ hlast.symm, hlast, hmask]
      rw [relay_of_other_shape more]
      · rw [hlast, hmask]
        exact hother.symm
      · rw [hdiff]
        exact hother.symm

end Differencing
