import QuicView.Net.AddrText

/-!
# Addresses are read back from their text

Of an IPv6 address every group ends before a colon or at the end, and none is mistaken for the
beginning of an embedded IPv4 address, which has a dot after its first number; the zeros left out
are as many as are missing.
-/

namespace QuicView.AddrParser

open Scanner

/-! ### Numbers -/

section Numbers

variable {bound radix : ℕ} {maxDigits : Option ℕ} {allowZeroPrefix : Bool}

theorem withinDigits_smaller (n n' k k' : ℕ) (hn : n ≤ n') (hk : k ≤ k')
    (hcheck : withinDigits bound maxDigits n' k' = true) :
    withinDigits bound maxDigits n k = true := by
  cases maxDigits with
  | none =>
      simp only [withinDigits, decide_eq_true_eq] at hcheck ⊢
      omega
  | some maxDigits =>
      simp only [withinDigits, decide_eq_true_eq] at hcheck ⊢
      omega

theorem run_readNumber (s : List Char) :
    (readNumber bound radix maxDigits allowZeroPrefix).run s
      = ((digits radix (withinDigits bound maxDigits) 0 0).run s).bind fun (read, rest) =>
          if read.2 ≠ 0 ∧ (allowZeroPrefix ∨ s.head? ≠ some '0' ∨ read.2 ≤ 1)
              ∧ read.1 < bound then some (read.1, rest)
          else none := by
  unfold readNumber
  rw [StateT.run_bind, StateT.run_get, pure_bind]
  dsimp only
  rw [StateT.run_bind]
  refine congrArg (Option.bind _) (funext fun (read, rest) => ?_)
  simp only [run_guard_bind, ite_and]
  rfl

theorem run_readNumber_of_noDigit {t : List Char} (ht : NoDigit radix t) :
    (readNumber bound radix maxDigits allowZeroPrefix).run t = none := by
  rw [run_readNumber, run_digits_of_noDigit ht]
  rfl

theorem endsAt_readNumber {t : List Char} (ht : NoDigit radix t) :
    (readNumber bound radix maxDigits allowZeroPrefix).EndsAt t := by
  intro s
  cases s with
  | nil =>
      rw [List.nil_append, run_readNumber_of_noDigit ht, run_readNumber_of_noDigit noDigit_nil]
      rfl
  | cons c rest =>
      rw [run_readNumber, run_readNumber, endsAt_digits ht (c :: rest)]
      cases (digits radix (withinDigits bound maxDigits) 0 0).run (c :: rest) with
      | none => rfl
      | some read =>
          show (if _ then _ else none) = Option.map _ (if _ then _ else none)
          rw [apply_ite (Option.map _)]
          rfl

theorem run_readNumber_toDigits (hbase : 1 < radix) (hradix : radix ≤ 16) {n : ℕ} (hn : n < bound)
    (hdigits : withinDigits bound maxDigits n (Nat.toDigits radix n).length = true)
    {t : List Char} (ht : NoDigit radix t) :
    (readNumber bound radix maxDigits allowZeroPrefix).run (Nat.toDigits radix n ++ t)
      = some (n, t) := by
  have hzero : (Nat.toDigits radix n).head? ≠ some '0' ∨ (Nat.toDigits radix n).length ≤ 1 := by
    obtain rfl | hpos := Nat.eq_zero_or_pos n
    · rw [Nat.toDigits_zero]
      exact Or.inr (Nat.le_refl 1)
    · exact Or.inl (head?_toDigits_ne_zero hbase hradix hpos)
  rw [endsAt_readNumber ht, run_readNumber,
    run_digits_toDigits hbase hradix withinDigits_smaller n hdigits]
  show Option.map _ (if _ then _ else none) = _
  rw [if_pos ⟨Nat.ne_of_gt Nat.length_toDigits_pos, Or.inr hzero, hn⟩]
  rfl

theorem suffix_of_run_readNumber {s rest : List Char} {n : ℕ}
    (hread : (readNumber bound radix maxDigits allowZeroPrefix).run s = some (n, rest)) :
    rest <:+ s := by
  rw [run_readNumber, Option.bind_eq_some_iff] at hread
  obtain ⟨⟨read, later⟩, hdigits, hpass⟩ := hread
  dsimp only at hpass
  split at hpass
  · cases hpass
    exact suffix_of_run_digits hdigits
  · cases hpass

end Numbers

section Separators

variable {α : Type} {sep : Char} {index : ℕ} {inner : Scanner α} {t : List Char}

theorem readSeparator_zero : readSeparator sep 0 inner = inner := rfl

theorem readSeparator_of_pos (hpos : 0 < index) :
    readSeparator sep index inner = char sep >>= fun _ => inner :=
  if_pos hpos

theorem run_readSeparator (hpos : 0 < index) (s : List Char) :
    (readSeparator sep index inner).run (sep :: s) = inner.run s := by
  rw [readSeparator_of_pos hpos]
  exact run_bind_of_some (run_char_self sep s)

theorem endsAt_readSeparator (hsep : t.head? ≠ some sep) (hinner : inner.EndsAt t) :
    (readSeparator sep index inner).EndsAt t := by
  obtain rfl | hpos := Nat.eq_zero_or_pos index
  · exact hinner
  · rw [readSeparator_of_pos hpos]
    exact (endsAt_char hsep).bind fun _ => hinner

theorem run_readSeparator_ne (hpos : 0 < index) {s : List Char} (hne : s.head? ≠ some sep) :
    (readSeparator sep index inner).run s = none := by
  rw [readSeparator_of_pos hpos]
  exact run_bind_of_none (run_char_ne hne)

end Separators

/-! ### IPv4 addresses -/

theorem endsAt_readOctet {t : List Char} (ht : NoDigit 10 t) : readOctet.EndsAt t :=
  (endsAt_readNumber ht).map UInt8.ofNat

theorem run_readOctet (octet : UInt8) {t : List Char} (ht : NoDigit 10 t) :
    readOctet.run (Nat.toDigits 10 octet.toNat ++ t) = some (octet, t) := by
  have hlt : octet.toNat < 256 := octet.toNat_lt
  have hlength : (Nat.toDigits 10 octet.toNat).length ≤ 3 :=
    (Nat.length_toDigits_le_iff (by omega) (by omega)).2 (by omega)
  have hdigits : withinDigits 256 (some 3) octet.toNat _ = true := decide_eq_true hlength
  rw [readOctet, run_map_of_some (run_readNumber_toDigits (by omega) (by omega) hlt hdigits ht),
    UInt8.ofNat_toNat]

theorem toList_fmtIpv4 (a b c d : UInt8) :
    (IpAddr.fmtIpv4 a b c d).toList
      = Nat.toDigits 10 a.toNat ++ '.' :: (Nat.toDigits 10 b.toNat ++ '.' ::
          (Nat.toDigits 10 c.toNat ++ '.' :: Nat.toDigits 10 d.toNat)) := by
  have hoctet : ∀ octet : UInt8, (toString octet).toList = Nat.toDigits 10 octet.toNat :=
    fun _ => Nat.toList_repr
  have hdot : (toString ".").toList = ['.'] := rfl
  simp [IpAddr.fmtIpv4, hoctet, hdot]

theorem run_readIpv4Addr (a b c d : UInt8) :
    readIpv4Addr.run (IpAddr.fmtIpv4 a b c d).toList = some ((a, b, c, d), []) := by
  have hnext : ∀ index, 0 < index → ∀ octet : UInt8, ∀ t, NoDigit 10 t →
      (readSeparator '.' index readOctet).run ('.' :: (Nat.toDigits 10 octet.toNat ++ t))
        = some (octet, t) := by
    intro index hpos octet t ht
    rw [run_readSeparator hpos, run_readOctet octet ht]
  have hdot : ∀ rest, NoDigit 10 ('.' :: rest) := fun rest => noDigit_cons rfl
  rw [toList_fmtIpv4, ← List.append_nil (Nat.toDigits 10 d.toNat)]
  unfold readIpv4Addr
  rw [readSeparator_zero, run_bind_of_some (run_readOctet a (hdot _)),
    run_bind_of_some (hnext 1 (by omega) b _ (hdot _)),
    run_bind_of_some (hnext 2 (by omega) c _ (hdot _)),
    run_bind_of_some (hnext 3 (by omega) d _ noDigit_nil)]
  rfl

theorem run_readIpv4Addr_of_noDigit {t : List Char} (ht : NoDigit 10 t) :
    readIpv4Addr.run t = none := by
  have hoctet : readOctet.run t = none := run_map_of_none (run_readNumber_of_noDigit ht)
  exact run_bind_of_none hoctet

theorem run_readIpv4Addr_of_no_dot {s : List Char} (hdot : '.' ∉ s) :
    readIpv4Addr.run s = none := by
  unfold readIpv4Addr
  rw [readSeparator_zero]
  cases hread : readOctet.run s with
  | none => exact run_bind_of_none hread
  | some read =>
      have hsuffix : read.2 <:+ s := by
        obtain ⟨n, _, hnumber⟩ := exists_of_run_map hread
        exact suffix_of_run_readNumber hnumber
      have hhead : read.2.head? ≠ some '.' := fun hhead =>
        hdot (hsuffix.subset (List.mem_of_mem_head? hhead))
      rw [run_bind_of_some hread]
      exact run_bind_of_none (run_readSeparator_ne (by omega) hhead)

theorem endsAt_readIpv4Addr {t : List Char} (ht : NoDigit 10 t) (hdot : t.head? ≠ some '.') :
    readIpv4Addr.EndsAt t := by
  have hoctet : ∀ index, (readSeparator '.' index readOctet).EndsAt t := fun _ =>
    endsAt_readSeparator hdot (endsAt_readOctet ht)
  exact (hoctet 0).bind fun a => (hoctet 1).bind fun b => (hoctet 2).bind fun c =>
    (hoctet 3).bind fun d => endsAt_pure (a, b, c, d)

/-! ### Groups -/

def groupText (index : ℕ) (group : UInt16) : List Char :=
  if index > 0 then ':' :: Nat.toDigits 16 group.toNat else Nat.toDigits 16 group.toNat

def groupsText (index : ℕ) : List UInt16 → List Char
  | [] => []
  | group :: groups => groupText index group ++ groupsText (index + 1) groups

theorem toList_fmtSubslice (groups : List UInt16) :
    (IpAddr.fmtSubslice groups).toList = groupsText 0 groups := by
  have htail : ∀ (groups : List UInt16) (index : ℕ) (text : String), 0 < index →
      (groups.foldl (fun text segment => text ++ ":" ++ IpAddr.lowerHex segment) text).toList
        = text.toList ++ groupsText index groups := by
    intro groups
    induction groups with
    | nil =>
        intro index text _
        exact (List.append_nil text.toList).symm
    | cons group groups ih =>
        intro index text hpos
        rw [List.foldl_cons, ih (index + 1) _ (by omega), groupsText, groupText, if_pos hpos]
        simp [IpAddr.lowerHex]
  cases groups with
  | nil => rfl
  | cons first tail =>
      rw [IpAddr.fmtSubslice, htail tail 1 _ (by omega)]
      simp [groupsText, groupText, IpAddr.lowerHex]

def Delimited (t : List Char) : Prop := ∀ c, t.head? = some c → c = ':'

def GroupsEnd (t : List Char) : Prop := t = [] ∨ ∃ u, t = ':' :: ':' :: u

variable {index left : ℕ} {t : List Char}

theorem delimited_nil : Delimited [] := fun _ hc => absurd hc (by simp)

theorem delimited_cons (u : List Char) : Delimited (':' :: u) :=
  fun _ hc => (Option.some.inj hc).symm

theorem GroupsEnd.delimited (ht : GroupsEnd t) : Delimited t := by
  obtain rfl | ⟨u, rfl⟩ := ht
  · exact delimited_nil
  · exact delimited_cons _

theorem Delimited.noDigit (ht : Delimited t) : NoDigit 16 t := by
  intro c hc
  rw [ht c hc]
  rfl

theorem delimited_groupsText (hpos : 0 < index) (groups : List UInt16) (ht : Delimited t) :
    Delimited (groupsText index groups ++ t) := by
  cases groups with
  | nil => exact ht
  | cons group groups =>
      rw [groupsText, groupText, if_pos hpos]
      exact delimited_cons _

theorem run_readGroup (group : UInt16) (ht : NoDigit 16 t) :
    readGroup.run (Nat.toDigits 16 group.toNat ++ t) = some (group, t) := by
  have hlt : group.toNat < 65536 := group.toNat_lt
  have hlength : (Nat.toDigits 16 group.toNat).length ≤ 4 :=
    (Nat.length_toDigits_le_iff (by omega) (by omega)).2 (by omega)
  have hdigits : withinDigits 65536 (some 4) group.toNat _ = true := decide_eq_true hlength
  rw [readGroup, run_map_of_some (run_readNumber_toDigits (by omega) (by omega) hlt hdigits ht),
    UInt16.ofNat_toNat]

theorem run_readGroup_of_noDigit (ht : NoDigit 16 t) : readGroup.run t = none :=
  run_map_of_none (run_readNumber_of_noDigit ht)

theorem run_readSeparator_group (group : UInt16) (ht : Delimited t) :
    (readSeparator ':' index readGroup).run (groupText index group ++ t) = some (group, t) := by
  obtain rfl | hpos := Nat.eq_zero_or_pos index
  · exact run_readGroup group ht.noDigit
  · rw [groupText, if_pos hpos, List.cons_append, run_readSeparator hpos]
    exact run_readGroup group ht.noDigit

theorem run_readSeparator_ipv4_group (group : UInt16) (ht : Delimited t) :
    (readSeparator ':' index readIpv4Addr).run (groupText index group ++ t) = none := by
  have hdot : t.head? ≠ some '.' := fun hhead => absurd (ht '.' hhead) (by decide)
  have hmem : '.' ∉ Nat.toDigits 16 group.toNat := by
    intro hmem
    obtain ⟨d, hd, heq⟩ := exists_digitChar_of_mem_toDigits (by omega) hmem
    have hne : ∀ d : Fin 16, '.' ≠ Nat.digitChar d := by decide
    exact hne ⟨d, hd⟩ heq
  have hnone : readIpv4Addr.run (Nat.toDigits 16 group.toNat ++ t) = none := by
    rw [endsAt_readIpv4Addr (ht.noDigit.of_le (by omega)) hdot, run_readIpv4Addr_of_no_dot hmem]
    rfl
  obtain rfl | hpos := Nat.eq_zero_or_pos index
  · exact hnone
  · rw [groupText, if_pos hpos, List.cons_append, run_readSeparator hpos]
    exact hnone

theorem run_readGroups_succ {s : List Char}
    (hipv4 : (readSeparator ':' index readIpv4Addr).run s = none) :
    (readGroups index (left + 1)).run s
      = ((optional (readSeparator ':' index readGroup)).run s).bind fun (group, rest) =>
          match group with
          | some group =>
              ((readGroups (index + 1) left).run rest).map fun ((groups, embedded), rest) =>
                ((group :: groups, embedded), rest)
          | none => some (([], false), rest) := by
  have hnone : ∀ f : Option (UInt8 × UInt8 × UInt8 × UInt8) → Scanner (List UInt16 × Bool),
      (if left > 0 then optional (readSeparator ':' index readIpv4Addr) >>= f
        else pure none >>= f).run s = (f none).run s := by
    intro f
    split
    · exact run_bind_of_some (run_optional_of_none hipv4)
    · rw [pure_bind]
  rw [readGroups, hnone]
  dsimp only
  rw [StateT.run_bind]
  refine congrArg (Option.bind _) (funext fun (group, rest) => ?_)
  cases group with
  | none => rfl
  | some group =>
      dsimp only
      rw [StateT.run_bind]
      cases (readGroups (index + 1) left).run rest <;> rfl

theorem run_readGroups_cons (group : UInt16) (ht : Delimited t) :
    (readGroups index (left + 1)).run (groupText index group ++ t)
      = ((readGroups (index + 1) left).run t).map fun ((groups, embedded), rest) =>
          ((group :: groups, embedded), rest) := by
  rw [run_readGroups_succ (run_readSeparator_ipv4_group group ht),
    run_optional_of_some (run_readSeparator_group group ht)]
  rfl

theorem run_readGroups_of_none (hipv4 : (readSeparator ':' index readIpv4Addr).run t = none)
    (hgroup : (readSeparator ':' index readGroup).run t = none) :
    (readGroups index left).run t = some (([], false), t) := by
  cases left with
  | zero => rfl
  | succ left =>
      rw [run_readGroups_succ hipv4, run_optional_of_none hgroup]
      rfl

theorem run_readGroups_end (ht : GroupsEnd t) :
    (readGroups index left).run t = some (([], false), t) := by
  have hfails : ∀ {α : Type} {inner : Scanner α}, (∀ t, NoDigit 16 t → inner.run t = none) →
      (readSeparator ':' index inner).run t = none := by
    intro α inner hinner
    obtain rfl | hpos := Nat.eq_zero_or_pos index
    · exact hinner t ht.delimited.noDigit
    · obtain rfl | ⟨u, rfl⟩ := ht
      · exact run_readSeparator_ne hpos (by simp)
      · rw [run_readSeparator hpos]
        exact hinner _ (noDigit_cons rfl)
  exact run_readGroups_of_none
    (hfails fun t ht => run_readIpv4Addr_of_noDigit (ht.of_le (by omega)))
    (hfails fun t ht => run_readGroup_of_noDigit ht)

theorem run_readGroups (groups : List UInt16) (hlength : groups.length ≤ left) (ht : GroupsEnd t) :
    (readGroups index left).run (groupsText index groups ++ t) = some ((groups, false), t) := by
  induction groups generalizing index left with
  | nil => exact run_readGroups_end ht
  | cons group groups ih =>
      cases left with
      | zero => exact absurd hlength (by simp)
      | succ left =>
          have hrest := delimited_groupsText (Nat.succ_pos index) groups ht.delimited
          rw [groupsText, List.append_assoc, run_readGroups_cons group hrest,
            ih (Nat.le_of_succ_le_succ hlength)]
          rfl

theorem run_readGroups_groupsText (groups : List UInt16) (hlength : groups.length ≤ left) :
    (readGroups index left).run (groupsText index groups) = some ((groups, false), []) := by
  have hread : (readGroups index left).run (groupsText index groups ++ [])
      = some ((groups, false), []) := run_readGroups groups hlength (Or.inl rfl)
  rwa [List.append_nil] at hread

theorem run_readGroups_embedded (hpos : 0 < index) (hleft : 0 < left) (a b c d : UInt8) :
    (readGroups index (left + 1)).run (':' :: (IpAddr.fmtIpv4 a b c d).toList)
      = some (([a.toUInt16 <<< 8 ||| b.toUInt16, c.toUInt16 <<< 8 ||| d.toUInt16], true), []) := by
  have hread : (readSeparator ':' index readIpv4Addr).run (':' :: (IpAddr.fmtIpv4 a b c d).toList)
      = some ((a, b, c, d), []) := by
    rw [run_readSeparator hpos]
    exact run_readIpv4Addr a b c d
  rw [readGroups, if_pos hleft, run_bind_of_some (run_optional_of_some hread)]
  rfl

theorem endsAt_readGroups (hdigit : NoDigit 16 t) (hdot : t.head? ≠ some '.')
    (hcolon : t.head? ≠ some ':') : (readGroups index left).EndsAt t := by
  have hipv4 : ∀ index, (optional (readSeparator ':' index readIpv4Addr)).EndsAt t := fun _ =>
    endsAt_optional
      (endsAt_readSeparator hcolon (endsAt_readIpv4Addr (hdigit.of_le (by omega)) hdot))
  have hgroup : ∀ index, (optional (readSeparator ':' index readGroup)).EndsAt t := fun _ =>
    endsAt_optional (endsAt_readSeparator hcolon ((endsAt_readNumber hdigit).map UInt16.ofNat))
  induction left generalizing index with
  | zero => exact endsAt_pure ([], false)
  | succ left ih =>
      have hnext : ∀ f : Option (UInt8 × UInt8 × UInt8 × UInt8) → Scanner (List UInt16 × Bool),
          (∀ ipv4, (f ipv4).EndsAt t) →
            (if left > 0 then optional (readSeparator ':' index readIpv4Addr) >>= f
              else pure none >>= f).EndsAt t := by
        intro f hf
        split
        · exact (hipv4 index).bind hf
        · exact (endsAt_pure none).bind hf
      rw [readGroups]
      refine hnext _ fun ipv4 => ?_
      cases ipv4 with
      | some octets => exact endsAt_pure _
      | none =>
          refine (hgroup index).bind fun group => ?_
          cases group with
          | some group => exact ih.bind fun _ => endsAt_pure _
          | none => exact endsAt_pure _

theorem endsAt_readSegments (hdigit : NoDigit 16 t) (hdot : t.head? ≠ some '.')
    (hcolon : t.head? ≠ some ':') : readSegments.EndsAt t := by
  have hgroups : ∀ left, (readGroups 0 left).EndsAt t := fun _ =>
    endsAt_readGroups hdigit hdot hcolon
  refine (hgroups 8).bind fun (head, headIpv4) => ?_
  dsimp only
  split
  · exact endsAt_pure head
  · exact (endsAt_guard _).bind fun _ => (endsAt_char hcolon).bind fun _ =>
      (endsAt_char hcolon).bind fun _ => (hgroups _).bind fun _ => endsAt_pure _

theorem run_readSegments_groups {segments : List UInt16} (hlength : segments.length = 8) :
    readSegments.run (groupsText 0 segments) = some (segments, []) := by
  rw [readSegments, run_bind_of_some (run_readGroups_groupsText segments (Nat.le_of_eq hlength))]
  dsimp only
  rw [if_pos hlength]
  rfl

theorem run_readSegments_of_ne (hdigit : NoDigit 16 t) (hcolon : t.head? ≠ some ':') :
    readSegments.run t = none := by
  have hread : (readGroups 0 8).run t = some (([], false), t) :=
    run_readGroups_of_none (run_readIpv4Addr_of_noDigit (hdigit.of_le (by omega)))
      (run_readGroup_of_noDigit hdigit)
  rw [readSegments, run_bind_of_some hread]
  dsimp only
  rw [if_neg (by decide), run_guard_bind, if_pos rfl]
  exact run_bind_of_none (run_char_ne hcolon)

theorem run_readSegments_zeros {head tail : List UInt16} {embedded : Bool} {u : List Char}
    (hlength : head.length < 8)
    (htail : (readGroups 0 (8 - (head.length + 1))).run u = some ((tail, embedded), [])) :
    readSegments.run (groupsText 0 head ++ ':' :: ':' :: u)
      = some (head ++ List.replicate (8 - head.length - tail.length) 0 ++ tail, []) := by
  have hhead : (readGroups 0 8).run (groupsText 0 head ++ ':' :: ':' :: u)
      = some ((head, false), ':' :: ':' :: u) :=
    run_readGroups head (Nat.le_of_lt hlength) (Or.inr ⟨u, rfl⟩)
  rw [readSegments, run_bind_of_some hhead]
  dsimp only
  rw [if_neg (Nat.ne_of_lt hlength), run_guard_bind, if_pos rfl,
    run_bind_of_some (run_char_self ':' _), run_bind_of_some (run_char_self ':' u),
    run_bind_of_some htail]
  rfl

/-! ### The longest run of zeros -/

def ZeroSpan (segments : List UInt16) (span : IpAddr.Span) : Prop :=
  ∀ i, span.start ≤ i → i < span.start + span.len → segments[i]? = some 0

theorem zeroSpan_empty (segments : List UInt16) (start : ℕ) : ZeroSpan segments ⟨start, 0⟩ :=
  fun _ hle hlt => absurd hlt (Nat.not_lt.2 hle)

theorem ZeroSpan.extend {segments : List UInt16} {start len : ℕ}
    (hspan : ZeroSpan segments ⟨start, len⟩) (hzero : segments[start + len]? = some 0) :
    ZeroSpan segments ⟨start, len + 1⟩ := by
  intro i hle hlt
  obtain hlt | rfl := Nat.lt_or_eq_of_le (Nat.lt_succ_iff.1 hlt)
  · exact hspan i hle hlt
  · exact hzero

theorem ZeroSpan.ending_at {segments : List UInt16} {i : ℕ} {current : IpAddr.Span}
    (hcurrent : ZeroSpan segments current)
    (hends : current.len = 0 ∨ current.start + current.len = i) :
    ∃ start, (if current.len = 0 then i else current.start) = start
      ∧ start + current.len = i ∧ ZeroSpan segments ⟨start, current.len⟩ := by
  by_cases hempty : current.len = 0
  · refine ⟨i, if_pos hempty, by omega, ?_⟩
    rw [hempty]
    exact zeroSpan_empty segments i
  · exact ⟨current.start, if_neg hempty, hends.resolve_left hempty, hcurrent⟩

/-- The current run is empty or ends before the index, so that a zero there makes it longer. -/
theorem zeroSpan_zeroes {segments rest : List UInt16} {i : ℕ} {longest current : IpAddr.Span}
    (hrest : segments.drop i = rest) (hlongest : ZeroSpan segments longest)
    (hcurrent : ZeroSpan segments current)
    (hends : current.len = 0 ∨ current.start + current.len = i) :
    ZeroSpan segments (IpAddr.zeroes i longest current rest) := by
  induction rest generalizing i longest current with
  | nil => exact hlongest
  | cons segment rest ih =>
      have hhead : segments[i]? = some segment := by
        rw [← List.head?_drop, hrest]
        rfl
      have hnext : segments.drop (i + 1) = rest := by
        rw [← List.tail_drop, hrest]
        rfl
      rw [IpAddr.zeroes]
      by_cases hzero : segment = 0
      · rw [if_pos hzero]
        obtain ⟨start, hstart, hi, hspan⟩ := hcurrent.ending_at hends
        rw [hstart]
        have hlonger : ZeroSpan segments ⟨start, current.len + 1⟩ :=
          hspan.extend (by rw [hi, hhead, hzero])
        refine ih hnext ?_ hlonger (Or.inr (by dsimp only; omega))
        split
        · exact hlonger
        · exact hlongest
      · rw [if_neg hzero]
        exact ih hnext hlongest (zeroSpan_empty segments 0) (Or.inl rfl)

theorem ZeroSpan.segments_eq {segments : List UInt16} {span : IpAddr.Span}
    (hspan : ZeroSpan segments span) :
    segments.take span.start ++ List.replicate span.len 0
        ++ segments.drop (span.start + span.len) = segments := by
  have hzeros : List.replicate span.len 0 = (segments.drop span.start).take span.len := by
    apply List.ext_getElem?
    intro i
    rw [List.getElem?_replicate, List.getElem?_take]
    split
    next hlt => rw [List.getElem?_drop, hspan (span.start + i) (by omega) (by omega)]
    next => rfl
  rw [hzeros, List.append_assoc, ← List.drop_drop, List.take_append_drop, List.take_append_drop]

theorem shiftLeft_or_bytes (segment : UInt16) :
    (segment >>> 8).toUInt8.toUInt16 <<< 8 ||| segment.toUInt8.toUInt16 = segment := by
  have hlt : segment.toNat < 65536 := segment.toNat_lt
  have hhigh : (segment.toNat >>> 8 % 256) <<< 8 % 65536 = (segment.toNat / 256) <<< 8 := by
    rw [Nat.shiftRight_eq_div_pow, Nat.shiftLeft_eq, Nat.shiftLeft_eq]
    omega
  have hlow : segment.toNat % 256 < 2 ^ 8 := Nat.mod_lt _ (by omega)
  apply UInt16.toNat_inj.1
  calc ((segment >>> 8).toUInt8.toUInt16 <<< 8 ||| segment.toUInt8.toUInt16).toNat
      = (segment.toNat >>> 8 % 256) <<< 8 % 65536 ||| segment.toNat % 256 := by simp
    _ = (segment.toNat / 256) <<< 8 + segment.toNat % 256 := by
        rw [hhigh, Nat.shiftLeft_add_eq_or_of_lt hlow]
    _ = segment.toNat := by
        rw [Nat.shiftLeft_eq]
        omega

/-! ### Addresses -/

theorem run_readIpAddr_of_segments {text : List Char} {segments : List UInt16}
    (hipv4 : readIpv4Addr.run text = none) (hread : readSegments.run text = some (segments, [])) :
    readIpAddr.run text = some (ofSegments segments, []) := by
  rw [readIpAddr, run_orElse, run_bind_of_none hipv4, Option.none_or]
  exact run_map_of_some hread

theorem run_readIpv4Addr_groups (groups : List UInt16) (ht : Delimited t) :
    readIpv4Addr.run (groupsText 0 groups ++ t) = none := by
  cases groups with
  | nil => exact run_readIpv4Addr_of_noDigit (ht.noDigit.of_le (by omega))
  | cons group groups =>
      have hrest := delimited_groupsText (Nat.succ_pos 0) groups ht
      rw [groupsText, List.append_assoc]
      show (readSeparator ':' 0 readIpv4Addr).run _ = none
      exact run_readSeparator_ipv4_group group hrest

theorem run_readIpAddr_groups {segments : List UInt16} (hlength : segments.length = 8) :
    readIpAddr.run (groupsText 0 segments) = some (ofSegments segments, []) := by
  have hipv4 := run_readIpv4Addr_groups segments delimited_nil
  rw [List.append_nil] at hipv4
  exact run_readIpAddr_of_segments hipv4 (run_readSegments_groups hlength)

theorem run_readIpAddr_zeros (head : List UInt16) {tail : List UInt16} {embedded : Bool}
    {u : List Char} (hlength : head.length < 8)
    (htail : (readGroups 0 (8 - (head.length + 1))).run u = some ((tail, embedded), [])) :
    readIpAddr.run (groupsText 0 head ++ ':' :: ':' :: u)
      = some (ofSegments (head ++ List.replicate (8 - head.length - tail.length) 0 ++ tail), []) :=
  run_readIpAddr_of_segments (run_readIpv4Addr_groups head (delimited_cons _))
    (run_readSegments_zeros hlength htail)

theorem run_readIpAddr_mapped (g h : UInt16) :
    readIpAddr.run ("::ffff:" ++ IpAddr.fmtIpv4 (g >>> 8).toUInt8 g.toUInt8 (h >>> 8).toUInt8
      h.toUInt8).toList = some (.v6 0 0 0 0 0 0xFFFF g h, []) := by
  have htail : (readGroups 0 7).run (groupText 0 0xFFFF ++ ':' :: (IpAddr.fmtIpv4 (g >>> 8).toUInt8
      g.toUInt8 (h >>> 8).toUInt8 h.toUInt8).toList) = some (([0xFFFF, g, h], true), []) := by
    rw [run_readGroups_cons 0xFFFF (delimited_cons _),
      run_readGroups_embedded (by omega) (by omega), shiftLeft_or_bytes, shiftLeft_or_bytes]
    rfl
  have hread := run_readIpAddr_zeros [] (by decide) htail
  rw [String.toList_append]
  exact hread

theorem run_readIpAddr_span {segments : List UInt16} {span : IpAddr.Span}
    (hspan : ZeroSpan segments span) (hlength : segments.length = 8) (hlen : span.len > 1) :
    readIpAddr.run (IpAddr.fmtSubslice (segments.take span.start) ++ "::"
        ++ IpAddr.fmtSubslice (segments.drop (span.start + span.len))).toList
      = some (ofSegments segments, []) := by
  have hend : span.start + span.len ≤ 8 := by
    have hlast := hspan (span.start + span.len - 1) (by omega) (by omega)
    obtain ⟨hlt, _⟩ := List.getElem?_eq_some_iff.1 hlast
    omega
  have hhead : (segments.take span.start).length = span.start := by
    rw [List.length_take]
    omega
  have htail : (segments.drop (span.start + span.len)).length = 8 - span.start - span.len := by
    rw [List.length_drop]
    omega
  have hread : (readGroups 0 (8 - (span.start + 1))).run
      (groupsText 0 (segments.drop (span.start + span.len)))
        = some ((segments.drop (span.start + span.len), false), []) :=
    run_readGroups_groupsText _ (by omega)
  have hzeros : 8 - span.start - (8 - span.start - span.len) = span.len := by omega
  rw [String.toList_append, String.toList_append, toList_fmtSubslice, toList_fmtSubslice,
    List.append_assoc]
  have haddr := run_readIpAddr_zeros (segments.take span.start) (by omega) (by rwa [hhead])
  rw [hhead, htail, hzeros, hspan.segments_eq] at haddr
  exact haddr

theorem run_readIpAddr_toString (ip : IpAddr) :
    readIpAddr.run ip.toString.toList = some (ip, []) := by
  cases ip with
  | v4 a b c d =>
      rw [IpAddr.toString, readIpAddr, run_orElse, run_bind_of_some (run_readIpv4Addr a b c d)]
      rfl
  | v6 a b c d e f g h =>
      rw [IpAddr.toString]
      split
      next hmapped =>
        obtain ⟨rfl, rfl, rfl, rfl, rfl, rfl⟩ := hmapped
        exact run_readIpAddr_mapped g h
      next =>
        have hempty := zeroSpan_empty [a, b, c, d, e, f, g, h] 0
        have hspan := zeroSpan_zeroes (i := 0) List.drop_zero hempty hempty (Or.inl rfl)
        dsimp only
        split
        next hlen => exact run_readIpAddr_span hspan rfl hlen
        next =>
          rw [toList_fmtSubslice]
          exact run_readIpAddr_groups rfl

theorem parseWith_eq_ok {α : Type} {inner : Scanner α} {kind : AddrKind} {text : String}
    {value : α} :
    parseWith inner kind text = .ok value ↔ inner.run text.toList = some (value, []) := by
  unfold parseWith
  split
  next read hread =>
    rw [hread, Except.ok.injEq, Option.some.injEq, Prod.mk.injEq]
    exact ⟨fun heq => ⟨heq, rfl⟩, And.left⟩
  next hfails => exact ⟨nofun, fun hread => absurd hread (hfails value)⟩

end QuicView.AddrParser

namespace QuicView

/-- **Every address is read back from its text.** -/
theorem IpAddr.fromStr_toString (ip : IpAddr) : IpAddr.fromStr ip.toString = .ok ip :=
  AddrParser.parseWith_eq_ok.2 (AddrParser.run_readIpAddr_toString ip)

end QuicView
