import QuicView.Library.ByteStream

/-!
# Bytes that arrive later

What a program has written when it waits stays written, and a result it has come to stands. So it is
all one in which pieces the bytes arrive.
-/

namespace ByteStream

variable {ε α β : Type}

def Extends (s s' : Endpoint) : Prop := s.outgoing <+: s'.outgoing ∧ s'.ending = s.ending

instance : IsPreorder Endpoint Extends where
  refl _ := ⟨List.prefix_rfl, rfl⟩
  trans _ _ _ hfirst hsecond := ⟨hfirst.1.trans hsecond.1, hsecond.2.trans hfirst.2⟩

def Endpoint.more (s : Endpoint) (bytes : List UInt8) (ending : Option String) : Endpoint :=
  { s with incoming := s.incoming ++ bytes, ending := ending }

/-- What the program does on what has arrived stands when more arrives. -/
structure Causal (program : Program ε α) : Prop where
  keeps : Keeps Extends program
  /-- A result stands, and does not look at what comes later. -/
  settled : ∀ s result s' bytes ending, s.ending = none → perform program s = (result, s') →
    result ≠ .error .waits → perform program (s.more bytes ending) = (result, s'.more bytes ending)
  /-- What was written before waiting is written whatever comes later. -/
  waiting : ∀ s s' bytes ending, s.ending = none → perform program s = (.error .waits, s') →
    s'.outgoing <+: (perform program (s.more bytes ending)).2.outgoing

theorem causal_of_unread {program : Program ε α} (hkeeps : Keeps Extends program)
    (hunread : ∀ s bytes ending, perform program (s.more bytes ending)
      = ((perform program s).1, (perform program s).2.more bytes ending)) : Causal program where
  keeps := hkeeps
  settled := by
    intro s result s' bytes ending _ hperform _
    rw [hunread, hperform]
  waiting := by
    intro s s' bytes ending _ hperform
    rw [hunread, hperform]
    exact List.prefix_rfl

theorem causal_pure (value : α) : Causal (pure value : Program ε α) :=
  causal_of_unread (keeps_pure value) fun _ _ _ => rfl

theorem causal_fail (err : ε) : Causal (fail err : Program ε α) :=
  causal_of_unread (keeps_fail err) fun _ _ _ => rfl

theorem causal_check {δ : Type} (wrap : δ → ε) (result : Except δ α) :
    Causal (check wrap result) := by
  cases result with
  | ok value => exact causal_pure value
  | error err => exact causal_fail (wrap err)

theorem causal_writeAll (wrap : String → ε) (bytes : List UInt8) :
    Causal (writeAll wrap bytes) := by
  apply causal_of_unread
  · intro s
    rw [perform_writeAll_eq]
    cases s.stopWithin bytes.length <;> exact ⟨List.prefix_append _ _, rfl⟩
  · intro s more ending
    have hstop : (s.more more ending).stopWithin bytes.length = s.stopWithin bytes.length := rfl
    rw [perform_writeAll_eq, perform_writeAll_eq, hstop]
    cases s.stopWithin bytes.length <;> rfl

theorem causal_allocate (length : Nat) : Causal (allocate length : Program ε Unit) :=
  causal_of_unread (fun _ => ⟨List.prefix_rfl, rfl⟩) fun _ _ _ => rfl

theorem causal_readExact (wrap : String → ε) (count : Nat) : Causal (readExact wrap count) where
  keeps := by
    intro s
    rw [perform_readExact_snd]
    exact ⟨List.prefix_rfl, rfl⟩
  settled := by
    intro s result s' bytes ending hopen hperform hresult
    by_cases hshort : s.incoming.length < count
    · rw [perform_readExact_short hshort, hopen] at hperform
      exact absurd (congrArg Prod.fst hperform).symm hresult
    · have hsplit : s.incoming = s.incoming.take count ++ s.incoming.drop count :=
        (List.take_append_drop count s.incoming).symm
      have hlength : (s.incoming.take count).length = count :=
        List.length_take_of_le (Nat.not_lt.mp hshort)
      have hlater : (s.more bytes ending).incoming
          = s.incoming.take count ++ (s.incoming.drop count ++ bytes) := by
        rw [← List.append_assoc, ← hsplit]
        rfl
      rw [perform_readExact_append wrap hlength hsplit] at hperform
      obtain ⟨rfl, rfl⟩ := Prod.mk.inj hperform
      rw [perform_readExact_append wrap hlength hlater]
      rfl
  waiting := by
    intro s s' bytes ending _ hperform
    have hquiet := silent_readExact wrap count s
    rw [hperform] at hquiet
    have hlater := silent_readExact wrap count (s.more bytes ending)
    rw [hquiet, hlater]
    exact List.prefix_rfl

theorem Causal.bind {program : Program ε α} {next : α → Program ε β} (h : Causal program)
    (hnext : ∀ value, Causal (next value)) : Causal (program >>= next) where
  keeps := h.keeps.bind fun value => (hnext value).keeps
  settled := by
    intro s result s' bytes ending hopen hperform hresult
    rw [perform_bind] at hperform ⊢
    rcases hfirst : perform program s with ⟨halt | value, middle⟩
    · rw [hfirst] at hperform
      obtain ⟨rfl, rfl⟩ := Prod.mk.inj hperform
      have hhalt : (.error halt : Except (Halt ε) α) ≠ .error .waits := by
        rintro ⟨⟩
        exact hresult rfl
      rw [h.settled s _ middle bytes ending hopen hfirst hhalt]
    · rw [hfirst] at hperform
      have hmiddle : middle.ending = none := by
        have hkept := (h.keeps s).2
        rw [hfirst] at hkept
        exact hkept.trans hopen
      rw [h.settled s _ middle bytes ending hopen hfirst nofun]
      exact (hnext value).settled middle result s' bytes ending hmiddle hperform hresult
  waiting := by
    intro s s' bytes ending hopen hperform
    have hwhole : (perform program (s.more bytes ending)).2.outgoing
        <+: (perform (program >>= next) (s.more bytes ending)).2.outgoing := by
      rw [perform_bind]
      rcases perform program (s.more bytes ending) with ⟨halt | value, middle⟩
      · exact List.prefix_rfl
      · exact ((hnext value).keeps middle).1
    rw [perform_bind] at hperform
    rcases hfirst : perform program s with ⟨halt | value, middle⟩
    · rw [hfirst] at hperform
      obtain ⟨hhalt, rfl⟩ := Prod.mk.inj hperform
      obtain rfl : halt = .waits := Except.error.inj hhalt
      exact (h.waiting s middle bytes ending hopen hfirst).trans hwhole
    · rw [hfirst] at hperform
      have hmiddle : middle.ending = none := by
        have hkept := (h.keeps s).2
        rw [hfirst] at hkept
        exact hkept.trans hopen
      rw [perform_bind, h.settled s _ middle bytes ending hopen hfirst nofun]
      exact (hnext value).waiting middle s' bytes ending hmiddle hperform

theorem Causal.mapError {δ : Type} {program : Program δ α} (h : Causal program)
    (wrap : δ → ε) : Causal (mapError wrap program) where
  keeps := h.keeps.mapError wrap
  settled := by
    intro s result s' bytes ending hopen hperform hresult
    rw [perform_mapError] at hperform ⊢
    rcases hfirst : perform program s with ⟨(err | _) | value, middle⟩
    · rw [hfirst] at hperform
      obtain ⟨rfl, rfl⟩ := Prod.mk.inj hperform
      rw [h.settled s _ middle bytes ending hopen hfirst nofun]
    · rw [hfirst] at hperform
      exact absurd (congrArg Prod.fst hperform).symm hresult
    · rw [hfirst] at hperform
      obtain ⟨rfl, rfl⟩ := Prod.mk.inj hperform
      rw [h.settled s _ middle bytes ending hopen hfirst nofun]
  waiting := by
    intro s s' bytes ending hopen hperform
    have hsame (s : Endpoint) : (perform (ByteStream.mapError wrap program) s).2
        = (perform program s).2 := by
      rw [perform_mapError]
      rcases perform program s with ⟨(err | _) | value, middle⟩ <;> rfl
    rw [hsame]
    rw [perform_mapError] at hperform
    rcases hfirst : perform program s with ⟨(err | _) | value, middle⟩
    · rw [hfirst] at hperform
      cases hperform
    · rw [hfirst] at hperform
      obtain ⟨-, rfl⟩ := Prod.mk.inj hperform
      exact h.waiting s middle bytes ending hopen hfirst
    · rw [hfirst] at hperform
      cases hperform

/-! ### Streams that end -/

/-- Where the program waits for more, it fails once the stream ends, with the error of a read. -/
def EndsWith (wrap : String → ε) (program : Program ε α) : Prop :=
  ∀ s reason, s.ending = none → (perform program s).1 = .error .waits →
    (perform program { s with ending := some reason }).1 = .error (.failed (wrap reason))

variable {wrap : String → ε}

theorem endsWith_of_ne {program : Program ε α}
    (hresult : ∀ s, (perform program s).1 ≠ .error .waits) : EndsWith wrap program :=
  fun s _ _ hwaits => absurd hwaits (hresult s)

theorem endsWith_readExact (wrap : String → ε) (count : Nat) :
    EndsWith wrap (readExact wrap count) := by
  intro s reason _ hwaits
  by_cases hshort : s.incoming.length < count
  · have hshort' : ({ s with ending := some reason } : Endpoint).incoming.length < count := hshort
    rw [perform_readExact_short hshort']
    rfl
  · have hread : perform (readExact wrap count) s = _ := if_neg hshort
    rw [hread] at hwaits
    cases hwaits

theorem EndsWith.bind {program : Program ε α} {next : α → Program ε β} (h : EndsWith wrap program)
    (hcausal : Causal program) (hnext : ∀ value, EndsWith wrap (next value)) :
    EndsWith wrap (program >>= next) := by
  intro s reason hopen hwaits
  have hended : s.more [] (some reason) = { s with ending := some reason } := by
    rw [Endpoint.more, List.append_nil]
  rw [perform_bind] at hwaits ⊢
  rcases hfirst : perform program s with ⟨halt | value, middle⟩
  · rw [hfirst] at hwaits
    obtain rfl : halt = .waits := Except.error.inj hwaits
    have hfails := h s reason hopen (congrArg Prod.fst hfirst)
    generalize perform program { s with ending := some reason } = out at hfails ⊢
    obtain ⟨result, middle⟩ := out
    obtain rfl : result = .error (.failed (wrap reason)) := hfails
    rfl
  · rw [hfirst] at hwaits
    have hmiddle : middle.ending = none := by
      have hkept := (hcausal.keeps s).2
      rw [hfirst] at hkept
      exact hkept.trans hopen
    have hlater := hcausal.settled s _ middle [] (some reason) hopen hfirst nofun
    rw [hended] at hlater
    rw [hlater, Endpoint.more, List.append_nil]
    exact hnext value middle reason hmiddle hwaits

/-! ### Streams that a program has read to the end -/

theorem Causal.waits_of_shorter {program : Program ε α} (h : Causal program)
    {front rest : List UInt8} (hrest : rest ≠ []) (ending : Option String)
    (hall : (perform program (.opened (front ++ rest) ending)).2.incoming = []) :
    (perform program (.opened front none)).1 = .error .waits := by
  by_contra hresult
  have hlater := h.settled (.opened front none) _ _ rest ending rfl rfl hresult
  have hopened :
      (Endpoint.opened front none).more rest ending = .opened (front ++ rest) ending := rfl
  rw [hopened] at hlater
  rw [hlater] at hall
  exact hrest (List.append_eq_nil_iff.mp hall).2

end ByteStream
