import QuicView.Cli.Session

/-!
# What a viewer is answered

The handler of a viewer writes only after it has read a whole ping: the tag of a control stream, a
length that is not too large and a body of that length.
-/

namespace QuicView

open ByteStream Wire

variable {Q : Quinn} {J : SerdeJson} {s s' : Endpoint}

/-- A message as it is written, after its length. -/
def framed (body : List UInt8) : List UInt8 := bigEndian 4 body.length ++ body

/-- The stream starts with a ping. -/
def Asks (J : SerdeJson) (bytes : List UInt8) (t : UInt64) : Prop :=
  ∃ body rest, bytes = StreamKind.control.toU8 :: (framed body ++ rest)
    ∧ body.length ≤ maxControlMessageSize ∧ J.fromSlice body = .ok (.ping t)

def Frames (J : SerdeJson) (msg : ControlMessage) (bytes : List UInt8) : Prop :=
  ∃ body, J.toVec msg = .ok body ∧ body.length < 2 ^ 32 ∧ bytes = framed body

/-! ### Kinds of streams -/

theorem fromTag_eq_control_iff {tag : UInt8} :
    (StreamKind.fromTag tag : Except (TransportError Q) StreamKind) = .ok .control ↔ tag = 2 := by
  constructor
  · intro heq
    rw [StreamKind.fromTag] at heq
    split_ifs at heq with hvideo hinput hcontrol
    · cases heq
    · cases heq
    · exact hcontrol
  · rintro rfl
    rfl

theorem fromTag_toU8 (kind : StreamKind) :
    (StreamKind.fromTag kind.toU8 : Except (TransportError Q) StreamKind) = .ok kind := by
  cases kind <;> rfl

theorem perform_accept {kind : StreamKind} {rest : List UInt8}
    (hincoming : s.incoming = kind.toU8 :: rest) :
    perform (StreamMux.accept : Program (TransportError Q) StreamKind) s
      = (.ok kind, { s with incoming := rest }) := by
  have hread := perform_readExact_append (TransportError.recvFailed (Q := Q))
    (show [kind.toU8].length = 1 from rfl) hincoming
  rw [StreamMux.accept, perform_bind_ok hread]
  exact perform_check_eq_ok_iff.mpr ⟨fromTag_toU8 kind, rfl⟩

theorem exists_of_perform_accept
    (h : perform (StreamMux.accept : Program (TransportError Q) StreamKind) s
      = (.ok .control, s')) :
    ∃ rest, s.incoming = StreamKind.control.toU8 :: rest ∧ s' = { s with incoming := rest } := by
  obtain ⟨front, middle, hread, hcheck⟩ := perform_bind_eq_ok_iff.mp h
  obtain ⟨hlength, rest, hincoming, rfl⟩ := exists_of_perform_readExact hread
  obtain ⟨htag, rfl⟩ := perform_check_eq_ok_iff.mp hcheck
  obtain ⟨tag, rfl⟩ := List.length_eq_one_iff.mp hlength
  obtain rfl : tag = 2 := fromTag_eq_control_iff.mp htag
  exact ⟨rest, hincoming, rfl⟩

/-! ### Reading and writing a message -/

theorem maxControlMessageSize_lt : maxControlMessageSize < 256 ^ 4 := by
  decide

theorem perform_readControl {tooLarge : Nat → String} {body rest : List UInt8}
    (hfits : body.length ≤ maxControlMessageSize) (hincoming : s.incoming = framed body ++ rest) :
    perform (readControl (Q := Q) J tooLarge) s
      = perform (check .json (J.fromSlice body) : Program (ExchangeError Q J) ControlMessage)
          { s with incoming := rest, buffers := s.buffers ++ [body.length] } := by
  have hlength : ofBigEndian (bigEndian 4 body.length) = body.length :=
    ofBigEndian_bigEndian (hfits.trans_lt maxControlMessageSize_lt)
  have hprefix := perform_readExact_append (ExchangeError.read (Q := Q) (J := J))
    (length_bigEndian 4 body.length) (hincoming.trans (List.append_assoc _ _ _))
  have hbody := perform_readExact_append (ExchangeError.read (Q := Q) (J := J))
    (s := { s with incoming := body ++ rest, buffers := s.buffers ++ [body.length] })
    (show body.length = body.length from rfl) rfl
  rw [readControl, perform_bind_ok hprefix, hlength, if_neg (by omega),
    perform_bind_ok (perform_allocate _ _), perform_bind_ok hbody]

theorem exists_of_perform_readControl {tooLarge : Nat → String} {msg : ControlMessage}
    (h : perform (readControl (Q := Q) J tooLarge) s = (.ok msg, s')) :
    ∃ body rest, s.incoming = framed body ++ rest ∧ body.length ≤ maxControlMessageSize
      ∧ J.fromSlice body = .ok msg := by
  obtain ⟨lenBuf, middle, hprefix, h⟩ := perform_bind_eq_ok_iff.mp h
  obtain ⟨hwidth, rest, hincoming, rfl⟩ := exists_of_perform_readExact hprefix
  by_cases hlarge : maxControlMessageSize < ofBigEndian lenBuf
  · rw [if_pos hlarge] at h
    cases h
  · rw [if_neg hlarge, perform_bind_ok (perform_allocate _ _)] at h
    obtain ⟨body, middle, hbody, hcheck⟩ := perform_bind_eq_ok_iff.mp h
    obtain ⟨hlength, rest', hrest, -⟩ := exists_of_perform_readExact hbody
    refine ⟨body, rest', ?_, by omega, (perform_check_eq_ok_iff.mp hcheck).1⟩
    have hlenBuf : bigEndian 4 body.length = lenBuf := by
      rw [hlength, ← hwidth, bigEndian_ofBigEndian]
    rw [framed, hlenBuf, hincoming, List.append_assoc]
    exact congrArg (lenBuf ++ ·) hrest

theorem perform_writeControl_eq {msg : ControlMessage} {body : List UInt8}
    (hbody : J.toVec msg = .ok body) (s : Endpoint) :
    perform (writeControl J msg : Program (ExchangeError Q J) Unit) s
      = perform (writeAll .write (framed body)) s := by
  have hcheck : perform (check .json (J.toVec msg) : Program (ExchangeError Q J) (List UInt8)) s
      = (.ok body, s) := perform_check_eq_ok_iff.mpr ⟨hbody, rfl⟩
  rw [writeControl, perform_bind_ok hcheck, perform_writeAll_append, framed]

theorem stopWithin_of_open (hstop : s.stop = none) (count : Nat) : s.stopWithin count = none := by
  rw [Endpoint.stopWithin, hstop, Option.filter_none]

theorem perform_writeControl {msg : ControlMessage} {body : List UInt8}
    (hbody : J.toVec msg = .ok body) (hstop : s.stop = none) :
    perform (writeControl J msg : Program (ExchangeError Q J) Unit) s
      = (.ok (), { s with outgoing := s.outgoing ++ framed body }) :=
  (perform_writeControl_eq hbody s).trans (perform_writeAll (stopWithin_of_open hstop _))

/-! ### What the handler does to its stream -/

theorem silent_accept :
    Keeps Silent (StreamMux.accept : Program (TransportError Q) StreamKind) :=
  (silent_readExact _ _).bind fun _ => keeps_check _ _

theorem keeps_readControl {R : Endpoint → Endpoint → Prop} [IsPreorder Endpoint R]
    (hread : ∀ count, Keeps R (readExact (ExchangeError.read (Q := Q) (J := J)) count))
    (hallocate : ∀ length ≤ maxControlMessageSize,
      Keeps R (allocate length : Program (ExchangeError Q J) Unit)) (tooLarge : Nat → String) :
    Keeps R (readControl (Q := Q) J tooLarge) := by
  apply (hread 4).bind
  intro lenBuf
  by_cases hlarge : maxControlMessageSize < ofBigEndian lenBuf
  · rw [if_pos hlarge]
    exact keeps_fail _
  · rw [if_neg hlarge]
    apply (hallocate _ (Nat.not_lt.mp hlarge)).bind
    intro _
    exact (hread _).bind fun _ => keeps_check _ _

theorem silent_readControl (tooLarge : Nat → String) :
    Keeps Silent (readControl (Q := Q) J tooLarge) :=
  keeps_readControl (silent_readExact _) (fun length _ => silent_allocate length) tooLarge

theorem allocatesUpTo_readControl (tooLarge : Nat → String) :
    Keeps (AllocatesUpTo maxControlMessageSize) (readControl (Q := Q) J tooLarge) :=
  keeps_readControl (allocatesUpTo_readExact _) (fun _ hle => allocatesUpTo_allocate hle) tooLarge

theorem allocatesUpTo_writeControl {bound : Nat} (msg : ControlMessage) :
    Keeps (AllocatesUpTo bound) (writeControl J msg : Program (ExchangeError Q J) Unit) :=
  (keeps_check _ _).bind fun _ =>
    (allocatesUpTo_writeAll _ _).bind fun _ => allocatesUpTo_writeAll _ _

theorem allocatesUpTo_handleViewer :
    Keeps (AllocatesUpTo maxControlMessageSize) (handleViewer (Q := Q) J) := by
  have haccept : Keeps (AllocatesUpTo maxControlMessageSize)
      (StreamMux.accept : Program (TransportError Q) StreamKind) :=
    (allocatesUpTo_readExact _ _).bind fun _ => keeps_check _ _
  apply (haccept.mapError _).bind
  intro kind
  cases kind with
  | video => exact keeps_pure ()
  | input => exact keeps_pure ()
  | control =>
      apply (allocatesUpTo_readControl _).bind
      intro msg
      cases msg with
      | ping timestampMs => exact allocatesUpTo_writeControl _
      | _ => exact keeps_pure ()

theorem exists_asks_of_not_silent
    (hwritten : ¬ Silent s (perform (handleViewer (Q := Q) J) s).2) :
    ∃ t, Asks J s.incoming t := by
  obtain ⟨kind, middle, haccept, hwritten⟩ := (silent_accept.mapError _).exists_of_not_bind hwritten
  have haccept := perform_mapError_eq_ok_iff.mp haccept
  -- of the three parts of the handler only the last writes, so each part before it has returned
  cases kind with
  | video => exact absurd (keeps_pure () middle) hwritten
  | input => exact absurd (keeps_pure () middle) hwritten
  | control =>
      obtain ⟨rest, hincoming, rfl⟩ := exists_of_perform_accept haccept
      obtain ⟨msg, middle, hread, hwritten⟩ := (silent_readControl _).exists_of_not_bind hwritten
      obtain ⟨body, rest', hbody, hfits, hmsg⟩ := exists_of_perform_readControl hread
      cases msg with
      | ping t =>
          have hrest : rest = framed body ++ rest' := hbody
          exact ⟨t, body, rest', by rw [hincoming, hrest], hfits, hmsg⟩
      | _ => exact absurd (keeps_pure () middle) hwritten

theorem perform_handleViewer_ping {t : UInt64} {payload body rest : List UInt8}
    (hpayload : J.toVec (.pong t) = .ok payload) (hfits : body.length ≤ maxControlMessageSize)
    (hmsg : J.fromSlice body = .ok (.ping t))
    (hincoming : s.incoming = StreamKind.control.toU8 :: (framed body ++ rest)) :
    perform (handleViewer (Q := Q) J) s
      = perform (writeAll .write (framed payload))
          { s with incoming := rest, buffers := s.buffers ++ [body.length] } := by
  have haccept : perform (mapError .transport StreamMux.accept : Program (ExchangeError Q J) _) s
      = (.ok .control, { s with incoming := framed body ++ rest }) :=
    perform_mapError_eq_ok_iff.mpr (perform_accept hincoming)
  have hread (tooLarge : Nat → String) :
      perform (readControl (Q := Q) J tooLarge) { s with incoming := framed body ++ rest }
        = (.ok (.ping t), { s with incoming := rest, buffers := s.buffers ++ [body.length] }) :=
    (perform_readControl hfits rfl).trans (perform_check_eq_ok_iff.mpr ⟨hmsg, rfl⟩)
  exact (perform_bind_ok haccept).trans
    ((perform_bind_ok (hread _)).trans (perform_writeControl_eq hpayload _))

theorem outgoing_handleViewer {t : UInt64} {payload : List UInt8}
    (hpayload : J.toVec (.pong t) = .ok payload) (hasks : Asks J s.incoming t)
    (hstop : s.stop = none) :
    (perform (handleViewer (Q := Q) J) s).2.outgoing = s.outgoing ++ framed payload := by
  obtain ⟨body, rest, hincoming, hfits, hmsg⟩ := hasks
  rw [perform_handleViewer_ping hpayload hfits hmsg hincoming, perform_writeAll]
  exact stopWithin_of_open hstop _

/-! ### The texts of a ping and a pong -/

theorem length_asciiBytes (text : String) : (asciiBytes text).length = text.length := by
  rw [asciiBytes, List.length_map, String.length_toList]

theorem length_timestampText_le {variant : String} (hvariant : variant.length ≤ 16) (t : UInt64) :
    (timestampText variant t).length ≤ 64 := by
  have hdigits : t.toNat.repr.length ≤ 20 :=
    (Nat.length_repr_le_iff (by omega)).mpr (t.toNat_lt.trans (by decide))
  have hopening : "\x7b\"".length = 2 := rfl
  have hfield : "\":\x7b\"timestamp_ms\":".length = 18 := rfl
  have hclosing : "\x7d\x7d".length = 2 := rfl
  rw [timestampText, length_asciiBytes]
  simp only [String.length_append, Nat.toString_eq_repr]
  omega

theorem SerdeJson.Lawful.frames_pong (hJ : J.Lawful) (t : UInt64) :
    Frames J (.pong t) (framed (timestampText "Pong" t)) := by
  refine ⟨_, hJ.toVec_pong t, ?_, rfl⟩
  exact (length_timestampText_le (by decide) t).trans_lt (by decide)

/-! ### The exchange -/

def handled (Q : Quinn) (J : SerdeJson) (incoming : List UInt8) (ending : Option String) :
    Endpoint :=
  (perform (handleViewer (Q := Q) J) (Endpoint.opened incoming ending)).2

def request (Q : Quinn) (J : SerdeJson) (t : UInt64) : List UInt8 :=
  (perform (connect (Q := Q) J t) (Endpoint.opened [] none)).2.outgoing

theorem perform_connect (hJ : J.Lawful) (t : UInt64) (hstop : s.stop = none) :
    perform (connect (Q := Q) J t) s
      = perform (readControl J fun len => s!"control response too large: {len} bytes")
          { s with outgoing := s.outgoing ++ StreamKind.control.toU8
                      :: framed (timestampText "Ping" t) } := by
  have hopen : perform (mapError .transport (StreamMux.open .control)
      : Program (ExchangeError Q J) Unit) s
      = (.ok (), { s with outgoing := s.outgoing ++ [StreamKind.control.toU8] }) :=
    perform_mapError_eq_ok_iff.mpr (perform_writeAll (stopWithin_of_open hstop _))
  have hwrite : perform (writeControl J (.ping t) : Program (ExchangeError Q J) Unit)
      { s with outgoing := s.outgoing ++ [StreamKind.control.toU8] } = _ :=
    perform_writeControl (hJ.toVec_ping t) hstop
  rw [connect, perform_bind_ok hopen, perform_bind_ok hwrite]
  simp only [List.append_assoc, List.singleton_append]

theorem request_eq (hJ : J.Lawful) (t : UInt64) :
    request Q J t = StreamKind.control.toU8 :: framed (timestampText "Ping" t) := by
  rw [request, perform_connect hJ t rfl]
  exact silent_readControl _ _

theorem asks_request (hJ : J.Lawful) (t : UInt64) : Asks J (request Q J t) t := by
  refine ⟨timestampText "Ping" t, [], ?_, ?_, hJ.fromSlice_toVec _ _ (hJ.toVec_ping t)⟩
  · rw [request_eq hJ, List.append_nil]
  · exact (length_timestampText_le (by decide) t).trans (by decide)

theorem exists_perform_connect (hJ : J.Lawful) (t : UInt64) (ending : Option String) :
    ∃ s', perform (connect (Q := Q) J t)
        (Endpoint.opened (framed (timestampText "Pong" t)) ending) = (.ok (.pong t), s')
      ∧ s'.outgoing = request Q J t ∧ s'.incoming = [] := by
  have hfits : (timestampText "Pong" t).length ≤ maxControlMessageSize :=
    (length_timestampText_le (by decide) t).trans (by decide)
  have hmsg := hJ.fromSlice_toVec _ _ (hJ.toVec_pong t)
  refine ⟨_, (perform_connect hJ t rfl).trans ((perform_readControl hfits
    (List.append_nil _).symm).trans (perform_check_eq_ok_iff.mpr ⟨hmsg, rfl⟩)), ?_, rfl⟩
  rw [request_eq hJ]
  rfl

/-- The handler answers exactly the pings, with one message, and allocates no buffer larger than a
message may be. What the `connect` command writes is answered, and it accepts the answer. -/
theorem control_exchange (Q : Quinn) (J : SerdeJson) (hJ : J.Lawful) :
    (∀ incoming ending,
      ((handled Q J incoming ending).outgoing ≠ [] ↔ ∃ t, Asks J incoming t)
        ∧ (∀ t, Asks J incoming t → Frames J (.pong t) (handled Q J incoming ending).outgoing)
        ∧ ∀ length ∈ (handled Q J incoming ending).buffers, length ≤ maxControlMessageSize)
      ∧ ∀ t ending ending',
        Frames J (.pong t) (handled Q J (request Q J t) ending).outgoing
          ∧ ∃ s', perform (connect (Q := Q) J t)
              (Endpoint.opened (handled Q J (request Q J t) ending).outgoing ending')
                = (.ok (.pong t), s')
            ∧ s'.outgoing = request Q J t ∧ s'.incoming = [] := by
  have hanswer : ∀ {t incoming} ending, Asks J incoming t →
      (handled Q J incoming ending).outgoing = framed (timestampText "Pong" t) :=
    fun ending hasks => outgoing_handleViewer (hJ.toVec_pong _) hasks rfl
  refine ⟨fun incoming ending => ⟨⟨fun hwritten => ?_, ?_⟩, ?_, ?_⟩, fun t ending ending' => ?_⟩
  · exact exists_asks_of_not_silent hwritten
  · rintro ⟨t, hasks⟩ hnothing
    rw [hanswer ending hasks] at hnothing
    exact absurd (congrArg List.length hnothing) (by simp [framed])
  · intro t hasks
    rw [hanswer ending hasks]
    exact hJ.frames_pong t
  · intro length hmem
    exact (allocatesUpTo_handleViewer _ length hmem).resolve_left List.not_mem_nil
  · rw [hanswer ending (asks_request hJ t)]
    exact ⟨hJ.frames_pong t, exists_perform_connect hJ t ending'⟩

/-- The texts of pings and pongs alone; the time is what the digits of a text say. -/
def textJson : SerdeJson where
  Error := Unit
  toVec
    | .ping t => .ok (timestampText "Ping" t)
    | .pong t => .ok (timestampText "Pong" t)
    | _ => .error ()
  fromSlice bytes :=
    let digits := bytes.filter fun b => 48 ≤ b ∧ b ≤ 57
    let t := UInt64.ofNat (Nat.ofDigitChars 10 (digits.map fun b => Char.ofNat b.toNat) 0)
    if bytes = timestampText "Ping" t then .ok (.ping t)
    else if bytes = timestampText "Pong" t then .ok (.pong t)
    else .error ()

theorem toNat_toUInt8_of_isDigit {c : Char} (hdigit : c.isDigit) :
    c.toNat.toUInt8.toNat = c.toNat ∧ 48 ≤ c.toNat ∧ c.toNat ≤ 57 := by
  obtain ⟨hle, hge⟩ := Char.isDigit_iff_toNat.mp hdigit
  exact ⟨UInt8.toNat_ofNat_of_lt' (hge.trans_lt (by decide)), hle, hge⟩

theorem asciiBytes_append (left right : String) :
    asciiBytes (left ++ right) = asciiBytes left ++ asciiBytes right := by
  rw [asciiBytes, String.toList_append, List.map_append]
  rfl

theorem filter_timestampText (variant : String) (t : UInt64)
    (hvariant : (asciiBytes variant).filter (fun b => 48 ≤ b ∧ b ≤ 57) = []) :
    (timestampText variant t).filter (fun b => 48 ≤ b ∧ b ≤ 57) = asciiBytes t.toNat.repr := by
  have hopening : (asciiBytes "\x7b\"").filter (fun b => 48 ≤ b ∧ b ≤ 57) = [] := by decide
  have hfield : (asciiBytes "\":\x7b\"timestamp_ms\":").filter (fun b => 48 ≤ b ∧ b ≤ 57) = [] := by
    decide
  have hclosing : (asciiBytes "\x7d\x7d").filter (fun b => 48 ≤ b ∧ b ≤ 57) = [] := by decide
  have hdigits : (asciiBytes t.toNat.repr).filter (fun b => 48 ≤ b ∧ b ≤ 57)
      = asciiBytes t.toNat.repr := by
    apply List.filter_eq_self.mpr
    intro b hmem
    obtain ⟨c, hc, rfl⟩ := List.mem_map.mp hmem
    rw [Nat.toList_repr] at hc
    obtain ⟨heq, hle, hge⟩ :=
      toNat_toUInt8_of_isDigit (Nat.isDigit_of_mem_toDigits (by decide) (by decide) hc)
    have hrange : 48 ≤ c.toNat.toUInt8 ∧ c.toNat.toUInt8 ≤ 57 := by
      rw [UInt8.le_iff_toNat_le, UInt8.le_iff_toNat_le, heq]
      exact ⟨hle, hge⟩
    exact decide_eq_true hrange
  rw [timestampText]
  simp only [asciiBytes_append, List.filter_append, hopening, hvariant, hfield, hclosing, hdigits,
    Nat.toString_eq_repr, List.nil_append, List.append_nil]

theorem ofDigitChars_asciiBytes (t : UInt64) :
    Nat.ofDigitChars 10 ((asciiBytes t.toNat.repr).map fun b => Char.ofNat b.toNat) 0
      = t.toNat := by
  have hchars : (asciiBytes t.toNat.repr).map (fun b => Char.ofNat b.toNat)
      = Nat.toDigits 10 t.toNat := by
    rw [asciiBytes, List.map_map, Nat.toList_repr]
    refine (List.map_congr_left fun c hc => ?_).trans (List.map_id _)
    obtain ⟨heq, -⟩ :=
      toNat_toUInt8_of_isDigit (Nat.isDigit_of_mem_toDigits (by decide) (by decide) hc)
    exact (congrArg Char.ofNat heq).trans c.ofNat_toNat
  rw [hchars, Nat.ofDigitChars_ten_toDigits]

theorem timestampText_pong_ne_ping (t t' : UInt64) :
    timestampText "Pong" t ≠ timestampText "Ping" t' := by
  intro heq
  simp only [timestampText, asciiBytes_append, List.append_assoc] at heq
  have hlength : (asciiBytes "Pong").length = (asciiBytes "Ping").length := by decide
  have hvariant : asciiBytes "Pong" = asciiBytes "Ping" :=
    List.append_inj_left (List.append_cancel_left heq) hlength
  exact absurd hvariant (by decide)

theorem textJson_lawful : textJson.Lawful where
  toVec_ping _ := rfl
  toVec_pong _ := rfl
  fromSlice_toVec msg bytes h := by
    cases msg with
    | ping t =>
        cases h
        have hdigits := filter_timestampText "Ping" t (by decide)
        simp only [textJson, hdigits, ofDigitChars_asciiBytes, UInt64.ofNat_toNat, if_pos]
    | pong t =>
        cases h
        have hdigits := filter_timestampText "Pong" t (by decide)
        simp only [textJson, hdigits, ofDigitChars_asciiBytes, UInt64.ofNat_toNat,
          if_neg (timestampText_pong_ne_ping t t), if_pos]
    | _ => cases h

theorem control_exchange_seven : textJson.Lawful
    ∧ (handled ⟨Unit, Unit, Unit⟩ textJson (2 :: (framed (timestampText "Ping" 7) ++ [0]))
        none).outgoing = framed (timestampText "Pong" 7) := by
  have hasks : Asks textJson (2 :: (framed (timestampText "Ping" 7) ++ [0])) 7 :=
    ⟨_, [0], rfl, (length_timestampText_le (by decide) 7).trans (by decide),
      textJson_lawful.fromSlice_toVec _ _ rfl⟩
  have hexchange := control_exchange ⟨Unit, Unit, Unit⟩ textJson textJson_lawful
  obtain ⟨payload, hpayload, -, heq⟩ := (hexchange.1 _ none).2.1 7 hasks
  cases hpayload
  exact ⟨textJson_lawful, heq⟩

end QuicView
