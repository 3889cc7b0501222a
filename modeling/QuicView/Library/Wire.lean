import Mathlib.Data.List.Induction
import Mathlib.Data.Nat.ModEq

/-!
# Byte buffers

A reader takes bytes from the front of a buffer and ends with a value, with an error of the format,
or, when a fixed-width read is attempted with too few bytes left, with the abort of the buffer
library. The last is `none` here, so that a decoder that never reads past the end can be proved not
to. On either of the first two the bytes not consumed are returned.
-/

/-! ### Big-endian numerals -/

/-- The low `width` bytes of a natural number, most significant first. -/
def bigEndian : (width value : Nat) → List UInt8
  | 0, _ => []
  | width + 1, value => bigEndian width (value / 256) ++ [UInt8.ofNat value]

def ofBigEndian (bytes : List UInt8) : Nat :=
  bytes.foldl (fun value byte => value * 256 + byte.toNat) 0

@[simp]
theorem length_bigEndian (width value : Nat) : (bigEndian width value).length = width := by
  induction width generalizing value with
  | zero => rfl
  | succ width ih => simp [bigEndian, ih]

@[simp]
theorem drop_bigEndian {width count : Nat} (value : Nat) (hcount : width ≤ count) :
    (bigEndian width value).drop count = [] :=
  List.drop_of_length_le (by rwa [length_bigEndian])

theorem ofBigEndian_concat (bytes : List UInt8) (byte : UInt8) :
    ofBigEndian (bytes ++ [byte]) = ofBigEndian bytes * 256 + byte.toNat := by
  simp [ofBigEndian]

theorem ofBigEndian_bigEndian {width value : Nat} (hvalue : value < 256 ^ width) :
    ofBigEndian (bigEndian width value) = value := by
  induction width generalizing value with
  | zero =>
      have hzero : value = 0 := by simpa using hvalue
      simp [bigEndian, ofBigEndian, hzero]
  | succ width ih =>
      have hhigh : value / 256 < 256 ^ width := by
        rw [pow_succ] at hvalue
        exact Nat.div_lt_of_lt_mul (by omega)
      rw [bigEndian, ofBigEndian_concat, ih hhigh, UInt8.toNat_ofNat']
      omega

theorem ofBigEndian_lt (bytes : List UInt8) : ofBigEndian bytes < 256 ^ bytes.length := by
  induction bytes using List.reverseRec with
  | nil => simp [ofBigEndian]
  | append_singleton bytes byte ih =>
      have hbyte := byte.toNat_lt
      rw [ofBigEndian_concat, List.length_append, List.length_singleton, pow_succ]
      omega

theorem bigEndian_ofBigEndian (bytes : List UInt8) :
    bigEndian bytes.length (ofBigEndian bytes) = bytes := by
  induction bytes using List.reverseRec with
  | nil => rfl
  | append_singleton bytes byte ih =>
      have hbyte := byte.toNat_lt
      have hhigh : (ofBigEndian bytes * 256 + byte.toNat) / 256 = ofBigEndian bytes := by omega
      have hlow : UInt8.ofNat (ofBigEndian bytes * 256 + byte.toNat) = byte := by
        apply UInt8.toNat_inj.mp
        rw [UInt8.toNat_ofNat']
        omega
      rw [List.length_append, List.length_singleton, bigEndian, ofBigEndian_concat, hhigh, hlow, ih]

namespace Wire

/-! ### Writing -/

abbrev Writer := List UInt8 → List UInt8

def putU8 (value : UInt8) : Writer := fun dst => dst ++ [value]

def putU16 (value : UInt16) : Writer := fun dst => dst ++ bigEndian 2 value.toNat

def putU32 (value : UInt32) : Writer := fun dst => dst ++ bigEndian 4 value.toNat

def putI32 (value : Int32) : Writer := putU32 value.toUInt32

def putMany {α : Type} (put : α → Writer) (values : List α) : Writer := fun dst =>
  values.foldl (fun dst value => put value dst) dst

theorem putMany_eq_append {α : Type} {put : α → Writer}
    (happend : ∀ value dst, put value dst = dst ++ put value []) (values : List α) :
    ∀ dst, putMany put values dst = dst ++ values.flatMap (put · []) := by
  induction values with
  | nil => exact fun dst => (List.append_nil dst).symm
  | cons value values ih =>
      intro dst
      calc
        putMany put (value :: values) dst = putMany put values (put value dst) := rfl
        _ = dst ++ put value [] ++ values.flatMap (put · []) := by rw [ih, happend]
        _ = dst ++ (value :: values).flatMap (put · []) := by
          rw [List.flatMap_cons, List.append_assoc]

/-! ### Reading -/

abbrev Reader (ε : Type) := ExceptT ε (StateT (List UInt8) Option)

variable {ε α β : Type}

/-- Runs a reader on a buffer: its result and the bytes left, or `none` if it read past the end. -/
def parse (reader : Reader ε α) (bytes : List UInt8) : Option (Except ε α × List UInt8) :=
  (reader.run).run bytes

def remaining : Reader ε Nat := do return (← get).length

def take (count : Nat) : Reader ε (List UInt8) := ExceptT.mk fun bytes =>
  if bytes.length < count then none else some (.ok (bytes.take count), bytes.drop count)

def getU8 : Reader ε UInt8 := do return UInt8.ofNat (ofBigEndian (← take 1))

def getU16 : Reader ε UInt16 := do return UInt16.ofNat (ofBigEndian (← take 2))

def getU32 : Reader ε UInt32 := do return UInt32.ofNat (ofBigEndian (← take 4))

def getI32 : Reader ε Int32 := do return (← getU32).toInt32

def check (result : Except ε α) : Reader ε α := ExceptT.mk (pure result)

def many (record : Reader ε α) : Nat → Reader ε (List α)
  | 0 => return []
  | count + 1 => do
      let first ← record
      let others ← many record count
      return first :: others

@[simp]
theorem parse_pure (value : α) (bytes : List UInt8) :
    parse (pure value : Reader ε α) bytes = some (.ok value, bytes) := rfl

@[simp]
theorem parse_throw (error : ε) (bytes : List UInt8) :
    parse (throw error : Reader ε α) bytes = some (.error error, bytes) := rfl

theorem parse_bind (reader : Reader ε α) (next : α → Reader ε β) (bytes : List UInt8) :
    parse (reader >>= next) bytes
      = match parse reader bytes with
        | none => none
        | some (.error error, rest) => some (.error error, rest)
        | some (.ok value, rest) => parse (next value) rest := by
  change (StateT.run reader.run bytes >>= fun p => _) = _
  unfold parse
  cases StateT.run reader.run bytes with
  | none => rfl
  | some result =>
      rcases result with ⟨_ | _, _⟩ <;> rfl

theorem parse_bind_ok {reader : Reader ε α} {next : α → Reader ε β} {bytes rest : List UInt8}
    {value : α} (hreader : parse reader bytes = some (.ok value, rest)) :
    parse (reader >>= next) bytes = parse (next value) rest := by
  rw [parse_bind, hreader]

theorem parse_bind_error {reader : Reader ε α} {next : α → Reader ε β} {bytes rest : List UInt8}
    {error : ε} (hreader : parse reader bytes = some (.error error, rest)) :
    parse (reader >>= next) bytes = some (.error error, rest) := by
  rw [parse_bind, hreader]

/-! ### Reading what was written

Each of these runs one read against the bytes of the matching write and continues with the value
and the rest, so that `simp` steps a decoder through an encoding. -/

@[simp]
theorem parse_remaining_bind {next : Nat → Reader ε β} (bytes : List UInt8) :
    parse (remaining >>= next) bytes = parse (next bytes.length) bytes :=
  parse_bind_ok rfl

@[simp]
theorem parse_check_ok_bind {next : α → Reader ε β} (value : α) (bytes : List UInt8) :
    parse (check (.ok value) >>= next) bytes = parse (next value) bytes :=
  parse_bind_ok rfl

@[simp]
theorem parse_check_error_bind {next : α → Reader ε β} (error : ε) (bytes : List UInt8) :
    parse (check (.error error) >>= next) bytes = some (.error error, bytes) :=
  parse_bind_error rfl

theorem parse_take_append {front : List UInt8} (rest : List UInt8) {count : Nat}
    (hcount : front.length = count) :
    parse (take count : Reader ε (List UInt8)) (front ++ rest) = some (.ok front, rest) := by
  subst hcount
  have hfits : ¬ (front ++ rest).length < front.length := by simp
  have hread : parse (take front.length : Reader ε (List UInt8)) (front ++ rest)
      = some (.ok ((front ++ rest).take front.length), (front ++ rest).drop front.length) :=
    if_neg hfits
  rw [hread, List.take_left, List.drop_left]

@[simp]
theorem parse_getU8_cons_bind {next : UInt8 → Reader ε β} (byte : UInt8) (rest : List UInt8) :
    parse (getU8 >>= next) (byte :: rest) = parse (next byte) rest := by
  have hread : parse (getU8 : Reader ε UInt8) ([byte] ++ rest) = some (.ok byte, rest) := by
    have htake : parse (take 1 : Reader ε (List UInt8)) ([byte] ++ rest)
        = some (.ok [byte], rest) := parse_take_append rest rfl
    rw [getU8, parse_bind_ok htake]
    simp [ofBigEndian]
  exact parse_bind_ok hread

@[simp]
theorem parse_getU16_append_bind {next : UInt16 → Reader ε β} (value : UInt16)
    (rest : List UInt8) :
    parse (getU16 >>= next) (bigEndian 2 value.toNat ++ rest) = parse (next value) rest := by
  have hread : parse (getU16 : Reader ε UInt16) (bigEndian 2 value.toNat ++ rest)
      = some (.ok value, rest) := by
    rw [getU16, parse_bind_ok (parse_take_append rest (length_bigEndian _ _)),
      ofBigEndian_bigEndian (by simpa using value.toNat_lt)]
    simp
  exact parse_bind_ok hread

@[simp]
theorem parse_getU32_append_bind {next : UInt32 → Reader ε β} (value : UInt32)
    (rest : List UInt8) :
    parse (getU32 >>= next) (bigEndian 4 value.toNat ++ rest) = parse (next value) rest := by
  have hread : parse (getU32 : Reader ε UInt32) (bigEndian 4 value.toNat ++ rest)
      = some (.ok value, rest) := by
    rw [getU32, parse_bind_ok (parse_take_append rest (length_bigEndian _ _)),
      ofBigEndian_bigEndian (by simpa using value.toNat_lt)]
    simp
  exact parse_bind_ok hread

@[simp]
theorem parse_getI32_append_bind {next : Int32 → Reader ε β} (value : Int32)
    (rest : List UInt8) :
    parse (getI32 >>= next) (bigEndian 4 value.toUInt32.toNat ++ rest)
      = parse (next value) rest := by
  rw [getI32, bind_assoc, parse_getU32_append_bind]
  simp

/-! ### Writing what was read

A read has an inverse too: enough bytes begin with the encoding of some value of the width. Each of
these splits it off and says how many bytes are left at least, so that a record is taken apart field
by field. -/

variable {left : Nat}

theorem exists_eq_cons {bytes : List UInt8} (hlen : left + 1 ≤ bytes.length) :
    ∃ byte rest, bytes = byte :: rest ∧ left ≤ rest.length := by
  cases bytes with
  | nil => exact absurd hlen (Nat.not_succ_le_zero left)
  | cons byte rest => exact ⟨byte, rest, rfl, Nat.le_of_succ_le_succ hlen⟩

theorem exists_eq_bigEndian_append {bytes : List UInt8} {width : Nat}
    (hlen : left + width ≤ bytes.length) :
    ∃ value rest, value < 256 ^ width ∧ bytes = bigEndian width value ++ rest
      ∧ left ≤ rest.length := by
  have htake : (bytes.take width).length = width := List.length_take_of_le (by omega)
  refine ⟨ofBigEndian (bytes.take width), bytes.drop width, ?_, ?_, ?_⟩
  · have hlt := ofBigEndian_lt (bytes.take width)
    rwa [htake] at hlt
  · have hinverse := bigEndian_ofBigEndian (bytes.take width)
    rw [htake] at hinverse
    rw [hinverse, List.take_append_drop]
  · rw [List.length_drop]
    exact Nat.le_sub_of_add_le hlen

theorem exists_eq_u16_append {bytes : List UInt8} (hlen : left + 2 ≤ bytes.length) :
    ∃ (value : UInt16) (rest : List UInt8), bytes = bigEndian 2 value.toNat ++ rest
      ∧ left ≤ rest.length := by
  obtain ⟨value, rest, hvalue, heq, hleft⟩ := exists_eq_bigEndian_append hlen
  refine ⟨UInt16.ofNat value, rest, ?_, hleft⟩
  rw [UInt16.toNat_ofNat_of_lt' hvalue, heq]

theorem exists_eq_u32_append {bytes : List UInt8} (hlen : left + 4 ≤ bytes.length) :
    ∃ (value : UInt32) (rest : List UInt8), bytes = bigEndian 4 value.toNat ++ rest
      ∧ left ≤ rest.length := by
  obtain ⟨value, rest, hvalue, heq, hleft⟩ := exists_eq_bigEndian_append hlen
  refine ⟨UInt32.ofNat value, rest, ?_, hleft⟩
  rw [UInt32.toNat_ofNat_of_lt' hvalue, heq]

theorem exists_eq_i32_append {bytes : List UInt8} (hlen : left + 4 ≤ bytes.length) :
    ∃ (value : Int32) (rest : List UInt8), bytes = bigEndian 4 value.toUInt32.toNat ++ rest
      ∧ left ≤ rest.length := by
  obtain ⟨value, rest, heq, hleft⟩ := exists_eq_u32_append hlen
  exact ⟨value.toInt32, rest, by simpa using heq, hleft⟩

/-! ### Streams of records -/

section Records

variable {record : Reader ε α} {encode : α → List UInt8}

theorem parse_many (values : List α)
    (hrecord : ∀ value ∈ values, ∀ rest,
      parse record (encode value ++ rest) = some (.ok value, rest))
    (rest : List UInt8) :
    parse (many record values.length) (values.flatMap encode ++ rest)
      = some (.ok values, rest) := by
  induction values with
  | nil => rfl
  | cons value values ih =>
      obtain ⟨hfirst, hothers⟩ := List.forall_mem_cons.mp hrecord
      rw [List.flatMap_cons, List.append_assoc, List.length_cons, many,
        parse_bind_ok (hfirst _), parse_bind_ok (ih hothers)]
      rfl

theorem parse_many_error (values : List α)
    (hrecord : ∀ value ∈ values, ∀ rest,
      parse record (encode value ++ rest) = some (.ok value, rest))
    {bytes rest : List UInt8} {error : ε} (hbad : parse record bytes = some (.error error, rest)) :
    parse (many record (values.length + 1)) (values.flatMap encode ++ bytes)
      = some (.error error, rest) := by
  induction values with
  | nil => exact parse_bind_error hbad
  | cons value values ih =>
      obtain ⟨hfirst, hothers⟩ := List.forall_mem_cons.mp hrecord
      rw [List.flatMap_cons, List.append_assoc, List.length_cons, many,
        parse_bind_ok (hfirst _), parse_bind_error (ih hothers)]

/-- Reads records until one is refused, `fuel` of them at most: the values read, the refusal and the
bytes left. -/
def drainWithin (record : Reader ε α) : Nat → List UInt8 → Option (List α × ε × List UInt8)
  | 0, _ => none
  | fuel + 1, bytes =>
      match parse record bytes with
      | none => none
      | some (.error error, left) => some ([], error, left)
      | some (.ok value, rest) =>
          (drainWithin record fuel rest).map fun (values, error, left) =>
            (value :: values, error, left)

def drain (record : Reader ε α) (bytes : List UInt8) : Option (List α × ε × List UInt8) :=
  drainWithin record (bytes.length + 1) bytes

theorem drainWithin_append (values : List α)
    (hrecord : ∀ value ∈ values, ∀ rest,
      parse record (encode value ++ rest) = some (.ok value, rest))
    (fuel : Nat) (bytes : List UInt8) :
    drainWithin record (values.length + fuel) (values.flatMap encode ++ bytes)
      = (drainWithin record fuel bytes).map fun (later, error, left) =>
          (values ++ later, error, left) := by
  induction values with
  | nil => simp
  | cons value values ih =>
      obtain ⟨hfirst, hothers⟩ := List.forall_mem_cons.mp hrecord
      rw [List.flatMap_cons, List.append_assoc, List.length_cons, Nat.add_right_comm, drainWithin,
        hfirst]
      simp [ih hothers, Function.comp_def]

theorem length_le_length_flatMap (values : List α)
    (hnonempty : ∀ value ∈ values, 0 < (encode value).length) :
    values.length ≤ (values.flatMap encode).length := by
  induction values with
  | nil => exact Nat.zero_le _
  | cons value values ih =>
      obtain ⟨hfirst, hothers⟩ := List.forall_mem_cons.mp hnonempty
      have hrest := ih hothers
      rw [List.flatMap_cons, List.length_append, List.length_cons]
      omega

theorem drain_append (values : List α)
    (hrecord : ∀ value ∈ values, ∀ rest,
      parse record (encode value ++ rest) = some (.ok value, rest))
    (hnonempty : ∀ value ∈ values, 0 < (encode value).length)
    {bytes left : List UInt8} {error : ε} (hbad : parse record bytes = some (.error error, left)) :
    drain record (values.flatMap encode ++ bytes) = some (values, error, left) := by
  obtain ⟨spare, hspare⟩ := Nat.exists_eq_add_of_le (length_le_length_flatMap values hnonempty)
  rw [drain, List.length_append, hspare,
    show values.length + spare + bytes.length + 1 = values.length + (spare + bytes.length + 1) by
      omega,
    drainWithin_append values hrecord, drainWithin, hbad]
  simp

theorem length_flatMap_le_of_drainWithin
    (hconsumes : ∀ bytes value rest, parse record bytes = some (.ok value, rest) →
      bytes.length = (encode value).length + rest.length) :
    ∀ {fuel : Nat} {bytes left : List UInt8} {values : List α} {error : ε},
      drainWithin record fuel bytes = some (values, error, left) →
      (values.flatMap encode).length ≤ bytes.length := by
  intro fuel
  induction fuel with
  | zero => exact nofun
  | succ fuel ih =>
      intro bytes left values error hdrain
      rw [drainWithin] at hdrain
      split at hdrain
      · cases hdrain
      · cases hdrain
        exact Nat.zero_le _
      · rename_i value rest hparse
        obtain ⟨⟨later, error', left'⟩, hlater, heq⟩ := Option.map_eq_some_iff.mp hdrain
        cases heq
        have hlen := hconsumes bytes value rest hparse
        have hrest := ih hlater
        rw [List.flatMap_cons, List.length_append]
        omega

/-- **Draining ends.** A record that never reads past the end and takes a byte when it succeeds is
refused before there are as many reads as bytes and one. -/
theorem exists_drainWithin
    (hwithin : ∀ bytes, ∃ result rest, parse record bytes = some (result, rest))
    (htakes : ∀ bytes value rest, parse record bytes = some (.ok value, rest) →
      rest.length < bytes.length) :
    ∀ {fuel : Nat} {bytes : List UInt8}, bytes.length < fuel →
      ∃ values error left, drainWithin record fuel bytes = some (values, error, left) := by
  intro fuel
  induction fuel with
  | zero => exact fun hlt => absurd hlt (Nat.not_lt_zero _)
  | succ fuel ih =>
      intro bytes hlt
      obtain ⟨result, rest, hparse⟩ := hwithin bytes
      rw [drainWithin, hparse]
      cases result with
      | error error => exact ⟨[], error, rest, rfl⟩
      | ok value =>
          have hshorter : rest.length < fuel :=
            Nat.lt_of_lt_of_le (htakes bytes value rest hparse) (Nat.le_of_lt_succ hlt)
          obtain ⟨values, error, left, hdrain⟩ := ih hshorter
          exact ⟨value :: values, error, left, by simp only [hdrain, Option.map_some]⟩

theorem take_flatMap_cases (encode : α → List UInt8) (values : List α) (cut : Nat) :
    (∃ before, before <+: values ∧ (values.flatMap encode).take cut = before.flatMap encode)
      ∨ ∃ before value later count, values = before ++ value :: later ∧ 0 < count
          ∧ count < (encode value).length
          ∧ (values.flatMap encode).take cut
              = before.flatMap encode ++ (encode value).take count := by
  induction values generalizing cut with
  | nil => exact .inl ⟨[], List.nil_prefix, List.take_nil⟩
  | cons value values ih =>
      rcases Nat.lt_or_ge cut (encode value).length with hwithin | hbeyond
      · have htake : ((value :: values).flatMap encode).take cut = (encode value).take cut := by
          rw [List.flatMap_cons, List.take_append_of_le_length hwithin.le]
        rcases Nat.eq_zero_or_pos cut with rfl | hpos
        · exact .inl ⟨[], List.nil_prefix, rfl⟩
        · exact .inr ⟨[], value, values, cut, rfl, hpos, hwithin, htake⟩
      · obtain ⟨beyond, rfl⟩ := Nat.exists_eq_add_of_le hbeyond
        have htake : ((value :: values).flatMap encode).take ((encode value).length + beyond)
            = encode value ++ (values.flatMap encode).take beyond := by
          rw [List.flatMap_cons, List.take_length_add_append]
        rcases ih beyond with ⟨before, hbefore, heq⟩ | ⟨before, last, later, count, rfl, hcount⟩
        · refine .inl ⟨value :: before, List.cons_prefix_cons.mpr ⟨rfl, hbefore⟩, ?_⟩
          rw [htake, heq, List.flatMap_cons]
        · obtain ⟨hpos, hlt, heq⟩ := hcount
          refine .inr ⟨value :: before, last, later, count, rfl, hpos, hlt, ?_⟩
          rw [htake, heq, List.flatMap_cons, List.append_assoc]

end Records

end Wire
