import QuicView.Proof.HostAccounting

namespace QuicView

open ByteStream Execution Wire

variable {Q : Quinn} {W : Watch Bool} {J : SerdeJson} {s : Endpoint}

/-- No message can be read from the bytes: they end before its length or its body, the length is too
large, or the body is no message. -/
inductive BadMessage (J : SerdeJson) : List UInt8 → Option String → Prop where
  | noLength {bytes : List UInt8} {reason : String} (hshort : bytes.length < 4) :
      BadMessage J bytes (some reason)
  | tooLarge {len rest : List UInt8} {ending : Option String} (hwidth : len.length = 4)
      (hlarge : maxControlMessageSize < ofBigEndian len) : BadMessage J (len ++ rest) ending
  | cutShort {len rest : List UInt8} {reason : String} (hwidth : len.length = 4)
      (hfits : ofBigEndian len ≤ maxControlMessageSize) (hshort : rest.length < ofBigEndian len) :
      BadMessage J (len ++ rest) (some reason)
  | unparsed {len body rest : List UInt8} {ending : Option String} {err : J.Error}
      (hwidth : len.length = 4) (hfits : ofBigEndian len ≤ maxControlMessageSize)
      (hbody : body.length = ofBigEndian len) (hparse : J.fromSlice body = .error err) :
      BadMessage J (len ++ (body ++ rest)) ending

/-- The stream ends before its tag, its tag names no kind of stream, or it is a control stream
without a message. -/
inductive Malformed (J : SerdeJson) : List UInt8 → Option String → Prop where
  | untagged {reason : String} : Malformed J [] (some reason)
  | unknownKind {tag : UInt8} {rest : List UInt8} {ending : Option String} (hkind : 2 < tag) :
      Malformed J (tag :: rest) ending
  | badMessage {rest : List UInt8} {ending : Option String} (hbad : BadMessage J rest ending) :
      Malformed J (StreamKind.control.toU8 :: rest) ending

/-- The stream asks for a pong, of which the viewer does not take all. -/
def Refused (J : SerdeJson) (stream : ViewerStream) : Prop :=
  ∃ t taken reason, Asks J stream.arrived t ∧ stream.stop = some (taken, reason)
    ∧ taken < (answer t).length

/-! ### Where the handler fails -/

theorem not_fails_allocate (length : Nat) :
    ¬ Fails (allocate length : Program (ExchangeError Q J) Unit) s := by
  rintro ⟨err, heq⟩
  cases heq

theorem fails_readBody_iff {len : Nat} {rest : List UInt8} (hincoming : s.incoming = rest) :
    Fails (do
        allocate len
        let buf ← readExact .read len
        check .json (J.fromSlice buf) : Program (ExchangeError Q J) ControlMessage) s
      ↔ (rest.length < len ∧ s.ending ≠ none)
        ∨ ∃ body last err, rest = body ++ last ∧ body.length = len
            ∧ J.fromSlice body = .error err := by
  subst hincoming
  rw [fails_bind_iff, or_iff_right (not_fails_allocate len)]
  constructor
  · rintro ⟨_, s', hallocate, hread⟩
    obtain rfl : { s with buffers := s.buffers ++ [len] } = s' := congrArg Prod.snd hallocate
    rcases fails_bind_iff.mp hread with hshort | ⟨body, s', hbody, hcheck⟩
    · have hshort := fails_readExact_iff.mp hshort
      exact .inl hshort
    · obtain ⟨hlength, last, hincoming, -⟩ := exists_of_perform_readExact hbody
      obtain ⟨err, hparse⟩ := fails_check_iff.mp hcheck
      exact .inr ⟨body, last, err, hincoming, hlength, hparse⟩
  · intro hcases
    refine ⟨(), { s with buffers := s.buffers ++ [len] }, rfl, fails_bind_iff.mpr ?_⟩
    rcases hcases with hshort | ⟨body, last, err, hincoming, hlength, hparse⟩
    · exact .inl (fails_readExact_iff.mpr hshort)
    · right
      exact ⟨body, _, perform_readExact_append _ hlength hincoming,
        fails_check_iff.mpr ⟨err, hparse⟩⟩

theorem fails_readControl_iff {tooLarge : Nat → String} :
    Fails (readControl (Q := Q) J tooLarge) s ↔ BadMessage J s.incoming s.ending := by
  rw [readControl, fails_bind_iff, fails_readExact_iff]
  constructor
  · rintro (⟨hshort, hended⟩ | ⟨len, s', hread, hnext⟩)
    · obtain ⟨reason, hreason⟩ := Option.ne_none_iff_exists'.mp hended
      rw [hreason]
      exact .noLength hshort
    · obtain ⟨hwidth, rest, hincoming, rfl⟩ := exists_of_perform_readExact hread
      rw [hincoming]
      by_cases hlarge : maxControlMessageSize < ofBigEndian len
      · exact .tooLarge hwidth hlarge
      · have hfits := Nat.not_lt.mp hlarge
        rw [if_neg hlarge] at hnext
        rcases (fails_readBody_iff rfl).mp hnext with
          ⟨hshort, hended⟩ | ⟨body, last, err, rfl, hbody, hparse⟩
        · obtain ⟨reason, hreason⟩ := Option.ne_none_iff_exists'.mp hended
          rw [show s.ending = some reason from hreason]
          exact .cutShort hwidth hfits hshort
        · exact .unparsed hwidth hfits hbody hparse
  · intro hbad
    generalize hincoming : s.incoming = incoming at hbad
    generalize hending : s.ending = ending at hbad
    cases hbad with
    | noLength hshort => exact .inl ⟨hshort, Option.some_ne_none _⟩
    | tooLarge hwidth hlarge =>
        refine .inr ⟨_, _, perform_readExact_append _ hwidth hincoming, ?_⟩
        rw [if_pos hlarge]
        exact fails_fail _
    | cutShort hwidth hfits hshort =>
        refine .inr ⟨_, _, perform_readExact_append _ hwidth hincoming, ?_⟩
        rw [if_neg (Nat.not_lt.mpr hfits), fails_readBody_iff rfl]
        exact .inl ⟨hshort, hending ▸ Option.some_ne_none _⟩
    | unparsed hwidth hfits hbody hparse =>
        refine .inr ⟨_, _, perform_readExact_append _ hwidth hincoming, ?_⟩
        rw [if_neg (Nat.not_lt.mpr hfits), fails_readBody_iff rfl]
        exact .inr ⟨_, _, _, rfl, hbody, hparse⟩

theorem two_lt_iff {tag : UInt8} : 2 < tag ↔ tag ≠ 0 ∧ tag ≠ 1 ∧ tag ≠ 2 := by
  grind

theorem fromTag_eq_error_iff {tag : UInt8} :
    (∃ err, (StreamKind.fromTag tag : Except (TransportError Q) StreamKind) = .error err)
      ↔ 2 < tag := by
  rw [StreamKind.fromTag, two_lt_iff]
  constructor
  · rintro ⟨err, heq⟩
    split_ifs at heq with hvideo hinput hcontrol
    exact ⟨hvideo, hinput, hcontrol⟩
  · rintro ⟨hvideo, hinput, hcontrol⟩
    rw [if_neg hvideo, if_neg hinput, if_neg hcontrol]
    exact ⟨_, rfl⟩

theorem fails_accept_iff :
    Fails (StreamMux.accept : Program (TransportError Q) StreamKind) s
      ↔ (s.incoming = [] ∧ s.ending ≠ none) ∨ ∃ tag rest, s.incoming = tag :: rest ∧ 2 < tag := by
  rw [StreamMux.accept, fails_bind_iff, fails_readExact_iff, Nat.lt_one_iff,
    List.length_eq_zero_iff]
  apply or_congr_right
  constructor
  · rintro ⟨front, s', hread, hcheck⟩
    obtain ⟨hlength, rest, hincoming, rfl⟩ := exists_of_perform_readExact hread
    obtain ⟨tag, rfl⟩ := List.length_eq_one_iff.mp hlength
    exact ⟨tag, rest, hincoming, fromTag_eq_error_iff.mp (fails_check_iff.mp hcheck)⟩
  · rintro ⟨tag, rest, hincoming, hkind⟩
    refine ⟨[tag], _, perform_readExact_append _ rfl hincoming, ?_⟩
    exact fails_check_iff.mpr (fromTag_eq_error_iff.mpr hkind)

theorem exists_kind_of_not_lt {tag : UInt8} (hkind : ¬ 2 < tag) :
    ∃ kind : StreamKind, tag = kind.toU8 := by
  by_contra hnone
  refine hkind (two_lt_iff.mpr ⟨?_, ?_, ?_⟩)
  · exact fun hvideo => hnone ⟨.video, hvideo⟩
  · exact fun hinput => hnone ⟨.input, hinput⟩
  · exact fun hcontrol => hnone ⟨.control, hcontrol⟩

theorem fails_handleViewer_ping (hJ : J.Lawful) {t : UInt64} (hasks : Asks J s.incoming t) :
    Fails (handleViewer (Q := Q) J) s ↔ s.stopWithin (answer t).length ≠ none := by
  obtain ⟨body, rest, hincoming, hfits, hmsg⟩ := hasks
  rw [Fails, perform_handleViewer_ping (hJ.toVec_pong t) hfits hmsg hincoming]
  exact fails_writeAll_iff

theorem fails_handle_iff (hJ : J.Lawful) {kind : StreamKind} {rest : List UInt8}
    (hincoming : s.incoming = kind.toU8 :: rest) :
    Fails (handleViewer (Q := Q) J) s
      ↔ (kind = .control ∧ BadMessage J rest s.ending)
        ∨ ∃ t, Asks J s.incoming t ∧ s.stopWithin (answer t).length ≠ none := by
  have haccept : perform (mapError .transport StreamMux.accept : Program (ExchangeError Q J) _) s
      = (.ok kind, { s with incoming := rest }) :=
    perform_mapError_eq_ok_iff.mpr (perform_accept hincoming)
  constructor
  · intro hfails
    have hafter := hfails
    rw [handleViewer, Fails, perform_bind_ok haccept] at hafter
    cases kind with
    | video => exact absurd hafter (not_fails_pure ())
    | input => exact absurd hafter (not_fails_pure ())
    | control =>
        rcases fails_bind_iff.mp hafter with hread | ⟨msg, s', hread, hreply⟩
        · exact .inl ⟨rfl, fails_readControl_iff.mp hread⟩
        · obtain ⟨body, rest', hrest, hfits, hmsg⟩ := exists_of_perform_readControl hread
          cases msg with
          | ping t =>
              have hbody : rest = framed body ++ rest' := hrest
              have hasks : Asks J s.incoming t := ⟨body, rest', hbody ▸ hincoming, hfits, hmsg⟩
              exact .inr ⟨t, hasks, (fails_handleViewer_ping hJ hasks).mp hfails⟩
          | _ => exact absurd hreply (not_fails_pure ())
  · rintro (⟨rfl, hbad⟩ | ⟨t, hasks, hstop⟩)
    · rw [handleViewer, Fails, perform_bind_ok haccept]
      exact fails_bind_iff.mpr (.inl (fails_readControl_iff.mpr hbad))
    · exact (fails_handleViewer_ping hJ hasks).mpr hstop

theorem fails_handle_of_fails_accept
    (h : Fails (StreamMux.accept : Program (TransportError Q) StreamKind) s) :
    Fails (handleViewer (Q := Q) J) s :=
  fails_bind_iff.mpr (.inl (fails_mapError_iff.mpr h))

theorem refused_iff {stream : ViewerStream} :
    Refused J stream
      ↔ ∃ t, Asks J stream.arrived t
        ∧ ((Endpoint.opened stream.arrived stream.ending).stopping stream.stop).stopWithin
          (answer t).length ≠ none := by
  have hopened (t : UInt64) (taken : Nat) :
      taken < (Endpoint.opened stream.arrived stream.ending).outgoing.length + (answer t).length
        ↔ taken < (answer t).length := by
    rw [Endpoint.opened, List.length_nil, Nat.zero_add]
  constructor
  · rintro ⟨t, taken, reason, hasks, hstop, hbefore⟩
    refine ⟨t, hasks, Option.ne_none_iff_exists'.mpr ⟨(taken, reason), ?_⟩⟩
    exact stopWithin_eq_some_iff.mpr ⟨hstop, (hopened t taken).mpr hbefore⟩
  · rintro ⟨t, hasks, hwithin⟩
    obtain ⟨⟨taken, reason⟩, hwithin⟩ := Option.ne_none_iff_exists'.mp hwithin
    obtain ⟨hstop, hbefore⟩ := stopWithin_eq_some_iff.mp hwithin
    exact ⟨t, taken, reason, hasks, hstop, (hopened t taken).mp hbefore⟩

/-- **The handler fails on malformed streams and refused pongs alone.** -/
theorem fails_handleViewer_iff (hJ : J.Lawful) (stream : ViewerStream) :
    (∃ err, stream.result Q J = .error (.failed err))
      ↔ Malformed J stream.arrived stream.ending ∨ Refused J stream := by
  rw [refused_iff]
  let s := (Endpoint.opened stream.arrived stream.ending).stopping stream.stop
  show Fails (handleViewer (Q := Q) J) s ↔ Malformed J s.incoming s.ending
    ∨ ∃ t, Asks J s.incoming t ∧ s.stopWithin (answer t).length ≠ none
  generalize s = s
  constructor
  · intro hfails
    cases hincoming : s.incoming with
    | nil =>
        rcases fails_bind_iff.mp hfails with haccept | ⟨kind, s', haccept, -⟩
        · rcases fails_accept_iff.mp (fails_mapError_iff.mp haccept) with
            ⟨-, hended⟩ | ⟨tag, rest, hcons, -⟩
          · obtain ⟨reason, hreason⟩ := Option.ne_none_iff_exists'.mp hended
            exact .inl (hreason ▸ .untagged)
          · rw [hincoming] at hcons
            cases hcons
        · obtain ⟨front, _, hread, -⟩ :=
            perform_bind_eq_ok_iff.mp (perform_mapError_eq_ok_iff.mp haccept)
          obtain ⟨hlength, rest, hsplit, -⟩ := exists_of_perform_readExact hread
          rw [hincoming] at hsplit
          obtain ⟨rfl, -⟩ := List.append_eq_nil_iff.mp hsplit.symm
          cases hlength
    | cons tag rest =>
        by_cases hkind : 2 < tag
        · exact .inl (.unknownKind hkind)
        · obtain ⟨kind, rfl⟩ := exists_kind_of_not_lt hkind
          rcases (fails_handle_iff hJ hincoming).mp hfails with ⟨rfl, hbad⟩ | hrefused
          · exact .inl (.badMessage hbad)
          · exact .inr (hincoming ▸ hrefused)
  · rintro (hmalformed | ⟨t, hasks, hstop⟩)
    · generalize hincoming : s.incoming = incoming at hmalformed
      generalize hending : s.ending = ending at hmalformed
      cases hmalformed with
      | untagged =>
          apply fails_handle_of_fails_accept
          exact fails_accept_iff.mpr (.inl ⟨hincoming, hending ▸ Option.some_ne_none _⟩)
      | unknownKind hkind =>
          apply fails_handle_of_fails_accept
          exact fails_accept_iff.mpr (.inr ⟨_, _, hincoming, hkind⟩)
      | badMessage hbad => exact (fails_handle_iff hJ hincoming).mpr (.inl ⟨rfl, hending ▸ hbad⟩)
    · exact (fails_handleViewer_ping hJ hasks).mpr hstop

/-! ### The log of the host -/

namespace Host

/-- **The log names the failed streams.** The error counter is the length of the log, which names no
session twice. A session that it names has failed, and as long as Ctrl+C has not come, every session
that has ended and failed is in it. -/
theorem log_names_failed_streams (hW : W.Lawful) (hJ : J.Lawful)
    (describe : ExchangeError Q J → String) (events : List (HostEvent Q)) :
    let host := run (step J describe) (start : Host Q W) events
    let fails (i : Nat) :=
      Malformed J (host.streams i).arrived (host.streams i).ending ∨ Refused J (host.streams i)
    host.server.metrics.errors = UInt64.ofNat host.log.length
      ∧ (host.log.map Prod.fst).Nodup
      ∧ (∀ i ∈ host.log.map Prod.fst, host.server.Ended i ∧ fails i)
      ∧ (.ctrlC ∉ events → ∀ i, host.server.Ended i → (i ∈ host.log.map Prod.fst ↔ fails i)) := by
  intro host fails
  have haccounted : host.Accounted J describe := accounted_run hW events
  obtain ⟨accepted, hcounted⟩ := haccounted.counted
  have hlogged : ∀ i ∈ host.log.map Prod.fst, host.server.Ended i ∧ fails i := by
    intro i hmem
    obtain ⟨entry, hentry, rfl⟩ := List.mem_map.mp hmem
    obtain ⟨hended, err, hresult, -⟩ := haccounted.failed entry hentry
    exact ⟨hended, (fails_handleViewer_iff hJ _).mp ⟨err, hresult⟩⟩
  refine ⟨hcounted.errors, haccounted.nodup, hlogged, fun hctrlC i hended => ?_⟩
  refine ⟨fun hmem => (hlogged i hmem).2, fun hfails => ?_⟩
  apply (haccounted.handled (awaitsCtrlC_run hctrlC) i hended).resolve_right
  intro hok
  obtain ⟨err, hresult⟩ := (fails_handleViewer_iff (Q := Q) hJ _).mpr hfails
  rw [hok] at hresult
  cases hresult

theorem log_names_failed_streams_three :
    let events : List (HostEvent ⟨Unit, Unit, Unit⟩) :=
      [.accept (some (.ok ())), .accept (some (.ok ())), .accept (some (.ok ())),
        .arrived 0 [7, 1], .arrived 1 (2 :: framed (timestampText "Ping" 7)), .arrived 2 [0],
        .refused 1 4 "stopped", .handled 2, .finished 2 "reset", .handled 1, .handled 0]
    let host := run (step textJson fun _ => "error") (start : Host _ (Watch.cell Bool)) events
    host.log = [(1, "error"), (0, "error")]
      ∧ ¬ Malformed textJson (host.streams 2).arrived (host.streams 2).ending := by
  intro events host
  have hlog : host.log = [(1, "error"), (0, "error")] := rfl
  have hnames := log_names_failed_streams (Watch.cell_lawful Bool) textJson_lawful
    (fun _ => "error") events
  have hctrlC : HostEvent.ctrlC ∉ events := by simp [events]
  have hended : host.server.Ended 2 := ⟨_, rfl, nofun⟩
  refine ⟨hlog, fun hmalformed => ?_⟩
  have hmem : 2 ∈ host.log.map Prod.fst := (hnames.2.2.2 hctrlC 2 hended).mpr (.inl hmalformed)
  rw [hlog] at hmem
  simp at hmem

end Host

end QuicView
