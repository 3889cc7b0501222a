import Mathlib.Data.List.Basic
import Mathlib.Order.Defs.Unbundled

/-!
# Programs on a byte stream

A read of more bytes than the peer sends fails once the stream has ended, and waits for good while
the peer leaves it open. A write fails once the peer has stopped the stream.
-/

namespace ByteStream

structure Endpoint where
  /-- What the peer sends and the program has not read. -/
  incoming : List UInt8
  /-- The error of a read past that, or `none` while the peer leaves the stream open. -/
  ending : Option String
  outgoing : List UInt8
  buffers : List Nat
  /-- How many bytes the peer takes before it stops the stream, and the error of a write past them,
  or `none` while it takes all. -/
  stop : Option (Nat × String)

def Endpoint.opened (incoming : List UInt8) (ending : Option String) : Endpoint where
  incoming := incoming
  ending := ending
  outgoing := []
  buffers := []
  stop := none

def Endpoint.stopping (s : Endpoint) (stop : Option (Nat × String)) : Endpoint :=
  { s with stop := stop }

def Endpoint.stopWithin (s : Endpoint) (count : Nat) : Option (Nat × String) :=
  s.stop.filter fun stop => stop.1 < s.outgoing.length + count

inductive Halt (ε : Type) where
  | failed (err : ε)
  | waits

abbrev Program (ε : Type) := ExceptT (Halt ε) (StateM Endpoint)

variable {ε α β : Type}

def perform (program : Program ε α) (s : Endpoint) : Except (Halt ε) α × Endpoint :=
  StateT.run (ExceptT.run program) s

def pastEnd (wrap : String → ε) : Option String → Halt ε
  | none => .waits
  | some reason => .failed (wrap reason)

def readExact (wrap : String → ε) (count : Nat) : Program ε (List UInt8) := ExceptT.mk fun s =>
  if s.incoming.length < count then
    (.error (pastEnd wrap s.ending), { s with incoming := [] })
  else (.ok (s.incoming.take count), { s with incoming := s.incoming.drop count })

def writeAll (wrap : String → ε) (bytes : List UInt8) : Program ε Unit := ExceptT.mk fun s =>
  match s.stopWithin bytes.length with
  | none => (.ok (), { s with outgoing := s.outgoing ++ bytes })
  | some (taken, reason) =>
      (.error (.failed (wrap reason)),
        { s with outgoing := s.outgoing ++ bytes.take (taken - s.outgoing.length) })

def allocate (length : Nat) : Program ε Unit := ExceptT.mk fun s =>
  (.ok (), { s with buffers := s.buffers ++ [length] })

def fail (err : ε) : Program ε α := throw (.failed err)

def check {δ : Type} (wrap : δ → ε) : Except δ α → Program ε α
  | .ok value => pure value
  | .error err => fail (wrap err)

def mapError {δ : Type} (wrap : δ → ε) (program : Program δ α) : Program ε α := ExceptT.mk fun s =>
  match perform program s with
  | (.ok value, s') => (.ok value, s')
  | (.error (.failed err), s') => (.error (.failed (wrap err)), s')
  | (.error .waits, s') => (.error .waits, s')

variable {s : Endpoint}

theorem perform_bind (program : Program ε α) (next : α → Program ε β) (s : Endpoint) :
    perform (program >>= next) s
      = match perform program s with
        | (.ok value, s') => perform (next value) s'
        | (.error halt, s') => (.error halt, s') := by
  unfold perform
  rw [ExceptT.run_bind, StateT.run_bind]
  rcases StateT.run program.run s with ⟨_ | _, _⟩ <;> rfl

theorem perform_bind_ok {program : Program ε α} {next : α → Program ε β} {value : α}
    {s' : Endpoint} (hprogram : perform program s = (.ok value, s')) :
    perform (program >>= next) s = perform (next value) s' := by
  rw [perform_bind, hprogram]

theorem perform_writeAll_eq (wrap : String → ε) (bytes : List UInt8) (s : Endpoint) :
    perform (writeAll wrap bytes) s
      = match s.stopWithin bytes.length with
        | none => (.ok (), { s with outgoing := s.outgoing ++ bytes })
        | some (taken, reason) =>
            (.error (.failed (wrap reason)),
              { s with outgoing := s.outgoing ++ bytes.take (taken - s.outgoing.length) }) := rfl

theorem perform_writeAll {wrap : String → ε} {bytes : List UInt8}
    (hstop : s.stopWithin bytes.length = none) :
    perform (writeAll wrap bytes) s = (.ok (), { s with outgoing := s.outgoing ++ bytes }) := by
  rw [perform_writeAll_eq, hstop]

theorem stopWithin_eq_some_iff {count taken : Nat} {reason : String} :
    s.stopWithin count = some (taken, reason)
      ↔ s.stop = some (taken, reason) ∧ taken < s.outgoing.length + count := by
  rw [Endpoint.stopWithin, Option.filter_eq_some_iff, decide_eq_true_eq]

theorem stopWithin_eq_none_iff {count : Nat} :
    s.stopWithin count = none
      ↔ ∀ stop, s.stop = some stop → s.outgoing.length + count ≤ stop.1 := by
  rw [Endpoint.stopWithin, Option.filter_eq_none_iff]
  simp

@[simp]
theorem perform_allocate (length : Nat) (s : Endpoint) :
    perform (allocate length : Program ε Unit) s
      = (.ok (), { s with buffers := s.buffers ++ [length] }) := rfl

theorem perform_readExact_append (wrap : String → ε) {front rest : List UInt8} {count : Nat}
    (hcount : front.length = count) (hincoming : s.incoming = front ++ rest) :
    perform (readExact wrap count) s = (.ok front, { s with incoming := rest }) := by
  subst hcount
  have hlong : ¬ s.incoming.length < front.length := by simp [hincoming]
  have hread : perform (readExact wrap front.length) s
      = (.ok (s.incoming.take front.length),
          { s with incoming := s.incoming.drop front.length }) := if_neg hlong
  rw [hread, hincoming, List.take_left, List.drop_left]

theorem perform_readExact_short {wrap : String → ε} {count : Nat}
    (hshort : s.incoming.length < count) :
    perform (readExact wrap count) s
      = (.error (pastEnd wrap s.ending), { s with incoming := [] }) :=
  if_pos hshort

theorem exists_of_perform_readExact {wrap : String → ε} {count : Nat} {front : List UInt8}
    {s' : Endpoint} (hread : perform (readExact wrap count) s = (.ok front, s')) :
    front.length = count
      ∧ ∃ rest, s.incoming = front ++ rest ∧ s' = { s with incoming := rest } := by
  by_cases hshort : s.incoming.length < count
  · rw [perform_readExact_short hshort] at hread
    cases hread
  · have hlong : perform (readExact wrap count) s
        = (.ok (s.incoming.take count), { s with incoming := s.incoming.drop count }) :=
      if_neg hshort
    rw [hlong] at hread
    cases hread
    refine ⟨List.length_take_of_le (by omega), s.incoming.drop count, ?_, rfl⟩
    exact (List.take_append_drop count s.incoming).symm

theorem perform_bind_eq_ok_iff {program : Program ε α} {next : α → Program ε β} {value : β}
    {s' : Endpoint} :
    perform (program >>= next) s = (.ok value, s')
      ↔ ∃ first middle, perform program s = (.ok first, middle)
          ∧ perform (next first) middle = (.ok value, s') := by
  rw [perform_bind]
  rcases perform program s with ⟨halt | first, middle⟩
  · constructor
    · intro heq
      cases heq
    · rintro ⟨_, _, heq, -⟩
      cases heq
  · constructor
    · exact fun heq => ⟨first, middle, rfl, heq⟩
    · rintro ⟨_, _, heq, hnext⟩
      cases heq
      exact hnext

theorem perform_writeAll_append (wrap : String → ε) (front rest : List UInt8) (s : Endpoint) :
    perform (do writeAll wrap front; writeAll wrap rest) s
      = perform (writeAll wrap (front ++ rest)) s := by
  rw [perform_bind, perform_writeAll_eq wrap front, perform_writeAll_eq wrap (front ++ rest),
    List.length_append]
  cases hfront : s.stopWithin front.length with
  | some stop =>
      obtain ⟨taken, reason⟩ := stop
      obtain ⟨hstop, hbefore⟩ := stopWithin_eq_some_iff.mp hfront
      have hboth : s.stopWithin (front.length + rest.length) = some (taken, reason) :=
        stopWithin_eq_some_iff.mpr ⟨hstop, by omega⟩
      have htake : (front ++ rest).take (taken - s.outgoing.length)
          = front.take (taken - s.outgoing.length) := List.take_append_of_le_length (by omega)
      rw [hboth]
      simp only [htake]
  | none =>
      have hlater (count : Nat) :
          ({ s with outgoing := s.outgoing ++ front } : Endpoint).stopWithin count
            = s.stopWithin (front.length + count) := by
        rw [Endpoint.stopWithin, Endpoint.stopWithin, List.length_append, Nat.add_assoc]
      simp only [perform_writeAll_eq, hlater]
      cases hboth : s.stopWithin (front.length + rest.length) with
      | none => simp only [List.append_assoc]
      | some stop =>
          have hkept := stopWithin_eq_none_iff.mp hfront stop (stopWithin_eq_some_iff.mp hboth).1
          have htake : (front ++ rest).take (stop.1 - s.outgoing.length)
              = front ++ rest.take (stop.1 - (s.outgoing ++ front).length) := by
            rw [List.take_append, List.take_of_length_le (by omega), List.length_append,
              Nat.sub_add_eq]
          simp only [htake, List.append_assoc]

theorem perform_check_eq_ok_iff {δ : Type} {wrap : δ → ε} {result : Except δ α} {value : α}
    {s' : Endpoint} :
    perform (check wrap result) s = (.ok value, s') ↔ result = .ok value ∧ s' = s := by
  rcases result with err | value'
  · constructor
    · intro heq
      cases heq
    · rintro ⟨heq, -⟩
      cases heq
  · constructor
    · intro heq
      cases heq
      exact ⟨rfl, rfl⟩
    · rintro ⟨heq, rfl⟩
      cases heq
      rfl

theorem perform_mapError {δ : Type} (wrap : δ → ε) (program : Program δ α) (s : Endpoint) :
    perform (mapError wrap program) s
      = match perform program s with
        | (.ok value, s') => (.ok value, s')
        | (.error (.failed err), s') => (.error (.failed (wrap err)), s')
        | (.error .waits, s') => (.error .waits, s') := rfl

theorem perform_mapError_eq_ok_iff {δ : Type} {wrap : δ → ε} {program : Program δ α} {value : α}
    {s' : Endpoint} :
    perform (mapError wrap program) s = (.ok value, s')
      ↔ perform program s = (.ok value, s') := by
  rw [perform_mapError]
  rcases perform program s with ⟨(err | _) | first, middle⟩
  · constructor <;> exact fun heq => by cases heq
  · constructor <;> exact fun heq => by cases heq
  · constructor
    all_goals
      intro heq
      cases heq
      rfl

/-! ### Failures -/

/-- The program comes to an error on the stream, rather than to a value or a wait. -/
def Fails (program : Program ε α) (s : Endpoint) : Prop :=
  ∃ err, (perform program s).1 = .error (.failed err)

theorem fails_fail (err : ε) : Fails (fail err : Program ε α) s := ⟨err, rfl⟩

theorem not_fails_pure (value : α) : ¬ Fails (pure value : Program ε α) s := by
  rintro ⟨err, heq⟩
  cases heq

theorem fails_bind_iff {program : Program ε α} {next : α → Program ε β} :
    Fails (program >>= next) s
      ↔ Fails program s
        ∨ ∃ value s', perform program s = (.ok value, s') ∧ Fails (next value) s' := by
  rw [Fails, Fails, perform_bind]
  rcases perform program s with ⟨halt | value, middle⟩
  · constructor
    · rintro ⟨err, heq⟩
      cases heq
      exact .inl ⟨err, rfl⟩
    · rintro (⟨err, heq⟩ | ⟨_, _, heq, -⟩)
      · cases heq
        exact ⟨err, rfl⟩
      · cases heq
  · constructor
    · exact fun hnext => .inr ⟨value, middle, rfl, hnext⟩
    · rintro (⟨err, heq⟩ | ⟨_, _, heq, hnext⟩)
      · cases heq
      · cases heq
        exact hnext

theorem fails_readExact_iff {wrap : String → ε} {count : Nat} :
    Fails (readExact wrap count) s ↔ s.incoming.length < count ∧ s.ending ≠ none := by
  by_cases hshort : s.incoming.length < count
  · rw [Fails, perform_readExact_short hshort, and_iff_right hshort]
    cases s.ending with
    | none =>
        refine ⟨?_, fun hne => absurd rfl hne⟩
        rintro ⟨err, heq⟩
        cases heq
    | some reason => exact ⟨fun _ => Option.some_ne_none reason, fun _ => ⟨wrap reason, rfl⟩⟩
  · have hread : perform (readExact wrap count) s = _ := if_neg hshort
    rw [Fails, hread]
    refine ⟨?_, fun hand => absurd hand.1 hshort⟩
    rintro ⟨err, heq⟩
    cases heq

theorem fails_writeAll_iff {wrap : String → ε} {bytes : List UInt8} :
    Fails (writeAll wrap bytes) s ↔ s.stopWithin bytes.length ≠ none := by
  rw [Fails, perform_writeAll_eq]
  cases s.stopWithin bytes.length with
  | none => exact iff_of_false (fun ⟨_, heq⟩ => by cases heq) fun hne => hne rfl
  | some stop => exact iff_of_true ⟨wrap stop.2, rfl⟩ (Option.some_ne_none stop)

theorem fails_check_iff {δ : Type} {wrap : δ → ε} {result : Except δ α} :
    Fails (check wrap result) s ↔ ∃ err, result = .error err := by
  rcases result with err | value
  · exact ⟨fun _ => ⟨err, rfl⟩, fun _ => ⟨wrap err, rfl⟩⟩
  · constructor
    · rintro ⟨err, heq⟩
      cases heq
    · rintro ⟨err, heq⟩
      cases heq

theorem fails_mapError_iff {δ : Type} {wrap : δ → ε} {program : Program δ α} :
    Fails (mapError wrap program) s ↔ Fails program s := by
  rw [Fails, Fails, perform_mapError]
  rcases perform program s with ⟨(err | _) | value, middle⟩
  · exact ⟨fun _ => ⟨err, rfl⟩, fun _ => ⟨wrap err, rfl⟩⟩
  all_goals
    constructor
    · rintro ⟨err, heq⟩
      cases heq
    · rintro ⟨err, heq⟩
      cases heq

/-! ### What a program keeps -/

def Keeps (R : Endpoint → Endpoint → Prop) (program : Program ε α) : Prop :=
  ∀ s, R s (perform program s).2

def Silent (s s' : Endpoint) : Prop := s'.outgoing = s.outgoing

def AllocatesUpTo (bound : Nat) (s s' : Endpoint) : Prop :=
  ∀ length ∈ s'.buffers, length ∈ s.buffers ∨ length ≤ bound

instance : IsPreorder Endpoint Silent where
  refl _ := rfl
  trans _ _ _ hfirst hsecond := hsecond.trans hfirst

instance (bound : Nat) : IsPreorder Endpoint (AllocatesUpTo bound) where
  refl _ _ hmem := .inl hmem
  trans _ _ _ hfirst hsecond length hmem := (hsecond length hmem).elim (hfirst length) .inr

theorem AllocatesUpTo.of_buffers_eq {bound : Nat} {s' : Endpoint}
    (heq : s'.buffers = s.buffers) : AllocatesUpTo bound s s' :=
  fun _ hmem => .inl (heq ▸ hmem)

variable {R : Endpoint → Endpoint → Prop}

theorem Keeps.mapError {δ : Type} {program : Program δ α} (h : Keeps R program)
    (wrap : δ → ε) : Keeps R (mapError wrap program) := by
  intro s
  have hprogram := h s
  rw [perform_mapError]
  generalize perform program s = out at hprogram ⊢
  rcases out with ⟨(err | _) | value, middle⟩ <;> exact hprogram

section

variable [IsPreorder Endpoint R]

theorem keeps_pure (value : α) : Keeps R (pure value : Program ε α) := fun s => refl_of R s

theorem keeps_fail (err : ε) : Keeps R (fail err : Program ε α) := fun s => refl_of R s

theorem keeps_check {δ : Type} (wrap : δ → ε) (result : Except δ α) :
    Keeps R (check wrap result) := by
  cases result with
  | ok value => exact keeps_pure value
  | error err => exact keeps_fail (wrap err)

theorem Keeps.bind {program : Program ε α} {next : α → Program ε β} (h : Keeps R program)
    (hnext : ∀ value, Keeps R (next value)) : Keeps R (program >>= next) := by
  intro s
  have hfirst := h s
  rw [perform_bind]
  generalize perform program s = out at hfirst ⊢
  rcases out with ⟨halt | value, middle⟩
  · exact hfirst
  · exact trans_of R hfirst (hnext value middle)

theorem Keeps.exists_of_not_bind {program : Program ε α} {next : α → Program ε β}
    (h : Keeps R program) (hnot : ¬ R s (perform (program >>= next) s).2) :
    ∃ value middle, perform program s = (.ok value, middle)
      ∧ ¬ R middle (perform (next value) middle).2 := by
  have hfirst := h s
  rw [perform_bind] at hnot
  rcases hout : perform program s with ⟨halt | value, middle⟩
  · rw [hout] at hfirst hnot
    exact absurd hfirst hnot
  · rw [hout] at hfirst hnot
    exact ⟨value, middle, rfl, fun hnext => hnot (trans_of R hfirst hnext)⟩

end

theorem perform_readExact_snd (wrap : String → ε) (count : Nat) (s : Endpoint) :
    (perform (readExact wrap count) s).2 = { s with incoming := s.incoming.drop count } := by
  by_cases hshort : s.incoming.length < count
  · rw [perform_readExact_short hshort, List.drop_of_length_le (Nat.le_of_lt hshort)]
  · have hread : perform (readExact wrap count) s = _ := if_neg hshort
    rw [hread]

theorem silent_readExact (wrap : String → ε) (count : Nat) :
    Keeps Silent (readExact wrap count) := by
  intro s
  rw [perform_readExact_snd]
  rfl

theorem silent_allocate (length : Nat) : Keeps Silent (allocate length : Program ε Unit) :=
  fun _ => rfl

variable {bound : Nat}

theorem allocatesUpTo_readExact (wrap : String → ε) (count : Nat) :
    Keeps (AllocatesUpTo bound) (readExact wrap count) := by
  intro s
  rw [perform_readExact_snd]
  exact .of_buffers_eq rfl

theorem allocatesUpTo_writeAll (wrap : String → ε) (bytes : List UInt8) :
    Keeps (AllocatesUpTo bound) (writeAll wrap bytes) := by
  intro s
  rw [perform_writeAll_eq]
  cases s.stopWithin bytes.length <;> exact .of_buffers_eq rfl

theorem allocatesUpTo_allocate {length : Nat} (hle : length ≤ bound) :
    Keeps (AllocatesUpTo bound) (allocate length : Program ε Unit) := by
  intro s other hmem
  rcases List.mem_append.mp hmem with hmem | hmem
  · exact .inl hmem
  · exact .inr (List.mem_singleton.mp hmem ▸ hle)

end ByteStream
