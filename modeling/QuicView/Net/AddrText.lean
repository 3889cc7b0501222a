import QuicView.Library.Scanner
import QuicView.Net.SocketAddr

/-!
# The text of addresses

How the standard library writes an address and how it reads one. The reader goes over bytes; every
byte of a character that is not ASCII is as wrong everywhere as the character.
-/

namespace QuicView

namespace IpAddr

def isIpv4 : IpAddr → Bool
  | v4 .. => true
  | v6 .. => false

/-! ### Writing -/

def fmtIpv4 (a b c d : UInt8) : String := s!"{a}.{b}.{c}.{d}"

def lowerHex (segment : UInt16) : String := String.ofList (Nat.toDigits 16 segment.toNat)

def fmtSubslice : List UInt16 → String
  | [] => ""
  | first :: tail =>
      tail.foldl (fun text segment => text ++ ":" ++ lowerHex segment) (lowerHex first)

structure Span where
  start : Nat
  len : Nat
  deriving DecidableEq, Repr

/-- The longest run of zeros, the first of them if there are several. The second span is the run
that the segments before end with. -/
def zeroes (i : Nat) (longest current : Span) : List UInt16 → Span
  | [] => longest
  | segment :: rest =>
      if segment = 0 then
        let current : Span :=
          { start := if current.len = 0 then i else current.start, len := current.len + 1 }
        zeroes (i + 1) (if current.len > longest.len then current else longest) current rest
      else zeroes (i + 1) longest ⟨0, 0⟩ rest

protected def toString : IpAddr → String
  | v4 a b c d => fmtIpv4 a b c d
  | v6 a b c d e f g h =>
      if a = 0 ∧ b = 0 ∧ c = 0 ∧ d = 0 ∧ e = 0 ∧ f = 0xFFFF then
        "::ffff:" ++ fmtIpv4 (g >>> 8).toUInt8 g.toUInt8 (h >>> 8).toUInt8 h.toUInt8
      else
        let segments := [a, b, c, d, e, f, g, h]
        let span := zeroes 0 ⟨0, 0⟩ ⟨0, 0⟩ segments
        if span.len > 1 then
          fmtSubslice (segments.take span.start) ++ "::"
            ++ fmtSubslice (segments.drop (span.start + span.len))
        else fmtSubslice segments

end IpAddr

/-! ### Reading -/

inductive AddrKind where
  | ip
  | socket
  deriving DecidableEq, Repr

structure AddrParseError where
  kind : AddrKind
  deriving DecidableEq, Repr

namespace AddrParser

open Scanner

def readSeparator {α : Type} (sep : Char) (index : Nat) (inner : Scanner α) : Scanner α := do
  if index > 0 then char sep
  inner

/-- With a bound on the digits the number is checked for its type at the end, without one after each
digit. -/
def withinDigits (bound : Nat) (maxDigits : Option Nat) (result digitCount : Nat) : Bool :=
  match maxDigits with
  | some maxDigits => digitCount ≤ maxDigits
  | none => result < bound

def readNumber (bound radix : Nat) (maxDigits : Option Nat) (allowZeroPrefix : Bool) :
    Scanner Nat := do
  let hasLeadingZero := (← get).head? = some '0'
  let (result, digitCount) ← digits radix (withinDigits bound maxDigits) 0 0
  guard (digitCount ≠ 0)
  guard (allowZeroPrefix ∨ ¬ hasLeadingZero ∨ digitCount ≤ 1)
  guard (result < bound)
  return result

/-- Without leading zeros, which elsewhere mark an octal number. -/
def readOctet : Scanner UInt8 := UInt8.ofNat <$> readNumber 256 10 (some 3) false

def readIpv4Addr : Scanner (UInt8 × UInt8 × UInt8 × UInt8) := do
  let a ← readSeparator '.' 0 readOctet
  let b ← readSeparator '.' 1 readOctet
  let c ← readSeparator '.' 2 readOctet
  let d ← readSeparator '.' 3 readOctet
  return (a, b, c, d)

def readGroup : Scanner UInt16 := UInt16.ofNat <$> readNumber 65536 16 (some 4) true

/-- The groups that are there, from one with the index to as many as are left, and whether the last
two of them were an embedded IPv4 address. -/
def readGroups (index : Nat) : Nat → Scanner (List UInt16 × Bool)
  | 0 => return ([], false)
  | left + 1 => do
      let ipv4 ← if left > 0 then optional (readSeparator ':' index readIpv4Addr) else pure none
      match ipv4 with
      | some (a, b, c, d) =>
          return ([a.toUInt16 <<< 8 ||| b.toUInt16, c.toUInt16 <<< 8 ||| d.toUInt16], true)
      | none =>
          match ← optional (readSeparator ':' index readGroup) with
          | some group => do
              let (groups, embedded) ← readGroups (index + 1) left
              return (group :: groups, embedded)
          | none => return ([], false)

def ofSegments (segments : List UInt16) : IpAddr :=
  let segment (i : Nat) : UInt16 := segments.getD i 0
  .v6 (segment 0) (segment 1) (segment 2) (segment 3)
    (segment 4) (segment 5) (segment 6) (segment 7)

def readSegments : Scanner (List UInt16) := do
  let (head, headIpv4) ← readGroups 0 8
  if head.length = 8 then return head
  guard (headIpv4 = false)
  char ':'
  char ':'
  let (tail, _) ← readGroups 0 (8 - (head.length + 1))
  return head ++ List.replicate (8 - head.length - tail.length) 0 ++ tail

def readIpv6Addr : Scanner IpAddr := ofSegments <$> readSegments

def readIpAddr : Scanner IpAddr :=
  (do let (a, b, c, d) ← readIpv4Addr; return .v4 a b c d) <|> readIpv6Addr

def readPort : Scanner UInt16 := do
  char ':'
  UInt16.ofNat <$> readNumber 65536 10 none true

def readScopeId : Scanner UInt32 := do
  char '%'
  UInt32.ofNat <$> readNumber 4294967296 10 none true

def readSocketAddrV4 : Scanner SocketAddr := do
  let (a, b, c, d) ← readIpv4Addr
  let port ← readPort
  return { ip := .v4 a b c d, port }

def readSocketAddrV6 : Scanner SocketAddr := do
  char '['
  let ip ← readIpv6Addr
  let scopeId ← optional readScopeId
  char ']'
  let port ← readPort
  return { ip, port, scopeId := scopeId.getD 0 }

def readSocketAddr : Scanner SocketAddr := readSocketAddrV4 <|> readSocketAddrV6

def parseWith {α : Type} (inner : Scanner α) (kind : AddrKind) (text : String) :
    Except AddrParseError α :=
  match inner.run text.toList with
  | some (value, []) => .ok value
  | _ => .error ⟨kind⟩

end AddrParser

def IpAddr.fromStr (text : String) : Except AddrParseError IpAddr :=
  AddrParser.parseWith AddrParser.readIpAddr .ip text

def SocketAddr.fromStr (text : String) : Except AddrParseError SocketAddr :=
  AddrParser.parseWith AddrParser.readSocketAddr .socket text

end QuicView
