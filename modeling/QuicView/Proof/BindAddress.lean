import QuicView.Cli.Serve
import QuicView.Proof.AddrText

/-!
# The configured bind address

The text of an IPv6 address goes into a socket address in brackets only, and they are not put around
it: what is parsed is no IPv4 address and has no bracket in front.
-/

namespace QuicView

namespace AddrParser

open Scanner

theorem run_readIpAddr_cases {s : List Char} {ip : IpAddr}
    (hread : readIpAddr.run s = some (ip, [])) :
    (∃ a b c d, ip = .v4 a b c d ∧ readIpv4Addr.run s = some ((a, b, c, d), []))
      ∨ (ip.isIpv4 = false ∧ readIpv4Addr.run s = none ∧ readIpv6Addr.run s = some (ip, [])) := by
  rw [readIpAddr, run_orElse] at hread
  cases hipv4 : readIpv4Addr.run s with
  | some read =>
      obtain ⟨⟨a, b, c, d⟩, rest⟩ := read
      rw [run_bind_of_some hipv4] at hread
      cases hread
      exact Or.inl ⟨a, b, c, d, rfl, rfl⟩
  | none =>
      rw [run_bind_of_none hipv4, Option.none_or] at hread
      refine Or.inr ⟨?_, rfl, hread⟩
      obtain ⟨segments, rfl, _⟩ := exists_of_run_map hread
      rfl

theorem run_readPort (port : UInt16) :
    readPort.run (':' :: Nat.toDigits 10 port.toNat) = some (port, []) := by
  have hlt : port.toNat < 65536 := port.toNat_lt
  have hdigits : withinDigits 65536 none port.toNat (Nat.toDigits 10 port.toNat).length = true :=
    decide_eq_true hlt
  have hread : (readNumber 65536 10 none true).run (Nat.toDigits 10 port.toNat ++ [])
      = some (port.toNat, []) :=
    run_readNumber_toDigits (by omega) (by omega) hlt hdigits noDigit_nil
  rw [List.append_nil] at hread
  rw [readPort, run_bind_of_some (run_char_self ':' _), run_map_of_some hread,
    UInt16.ofNat_toNat]

variable {s : List Char} {a b c d : UInt8} {port : UInt16}

theorem run_readIpv4Addr_append_colon (u : List Char) :
    readIpv4Addr.run (s ++ ':' :: u)
      = (readIpv4Addr.run s).map fun (octets, rest) => (octets, rest ++ ':' :: u) :=
  endsAt_readIpv4Addr (noDigit_cons rfl) (by simp) s

theorem run_readSocketAddr_of_ipv4 (hread : readIpv4Addr.run s = some ((a, b, c, d), [])) :
    readSocketAddr.run (s ++ ':' :: Nat.toDigits 10 port.toNat)
      = some ({ ip := .v4 a b c d, port }, []) := by
  have hipv4 := run_readIpv4Addr_append_colon (s := s) (Nat.toDigits 10 port.toNat)
  rw [hread] at hipv4
  rw [readSocketAddr, run_orElse, readSocketAddrV4, run_bind_of_some hipv4]
  dsimp only
  rw [List.nil_append, run_bind_of_some (run_readPort port)]
  rfl

theorem head?_ne_of_run_readIpv6Addr {ip : IpAddr} (hread : readIpv6Addr.run s = some (ip, [])) :
    s.head? ≠ some '[' := by
  intro hhead
  have hdigit : NoDigit 16 s := by
    intro c hc
    obtain rfl : '[' = c := Option.some.inj (hhead.symm.trans hc)
    rfl
  have hfails : readIpv6Addr.run s = none :=
    run_map_of_none (run_readSegments_of_ne hdigit (by simp [hhead]))
  rw [hfails] at hread
  cases hread

theorem run_readSocketAddr_of_ipv6 {ip : IpAddr} (hipv4 : readIpv4Addr.run s = none)
    (hread : readIpv6Addr.run s = some (ip, [])) (u : List Char) :
    readSocketAddr.run (s ++ ':' :: u) = none := by
  have hv4 : readIpv4Addr.run (s ++ ':' :: u) = none := by
    rw [run_readIpv4Addr_append_colon, hipv4]
    rfl
  have hbracket : (s ++ ':' :: u).head? ≠ some '[' := by
    have hhead := head?_ne_of_run_readIpv6Addr hread
    cases s with
    | nil => simp
    | cons c rest => exact hhead
  rw [readSocketAddr, run_orElse, readSocketAddrV4, run_bind_of_none hv4, Option.none_or]
  exact run_bind_of_none (run_char_ne hbracket)

theorem run_readSocketAddr_of_brackets {ip : IpAddr} (hread : readIpv6Addr.run s = some (ip, [])) :
    readSocketAddr.run ('[' :: (s ++ ']' :: ':' :: Nat.toDigits 10 port.toNat))
      = some ({ ip, port }, []) := by
  have hipv4 : ∀ u, readIpv4Addr.run ('[' :: u) = none := fun u =>
    run_readIpv4Addr_of_noDigit (noDigit_cons rfl)
  have hipv6 : ∀ u, readIpv6Addr.run (s ++ ']' :: u) = some (ip, ']' :: u) := by
    intro u
    have hends : readSegments.EndsAt (']' :: u) :=
      endsAt_readSegments (noDigit_cons rfl) (by simp) (by simp)
    rw [readIpv6Addr, hends.map ofSegments s, ← readIpv6Addr, hread]
    rfl
  have hscope : ∀ u, readScopeId.run (']' :: u) = none := fun u =>
    run_bind_of_none (run_char_ne (by simp))
  rw [readSocketAddr, run_orElse, readSocketAddrV4, run_bind_of_none (hipv4 _), Option.none_or,
    readSocketAddrV6, run_bind_of_some (run_char_self '[' _), run_bind_of_some (hipv6 _),
    run_bind_of_some (run_optional_of_none (hscope _)), run_bind_of_some (run_char_self ']' _),
    run_bind_of_some (run_readPort port)]
  rfl

end AddrParser

variable {config : Config} {ip : IpAddr}

theorem Config.toList_bindAddr (config : Config) :
    config.bindAddr.toList
      = config.network.bindAddress.toList ++ ':' :: Nat.toDigits 10 config.network.port.toNat := by
  have hport : (toString config.network.port).toList = Nat.toDigits 10 config.network.port.toNat :=
    Nat.toList_repr
  have hcolon : (toString ":").toList = [':'] := rfl
  have htext : toString config.network.bindAddress = config.network.bindAddress := rfl
  simp [Config.bindAddr, hport, hcolon, htext]

theorem serveAddr_of_isIpv4 (htext : IpAddr.fromStr config.network.bindAddress = .ok ip)
    (hip : ip.isIpv4 = true) :
    serveAddr none config = .ok { ip, port := config.network.port } := by
  apply AddrParser.parseWith_eq_ok.2
  rw [Option.getD_none, config.toList_bindAddr]
  obtain ⟨a, b, c, d, rfl, hread⟩ | ⟨hne, _⟩ :=
    AddrParser.run_readIpAddr_cases (AddrParser.parseWith_eq_ok.1 htext)
  · exact AddrParser.run_readSocketAddr_of_ipv4 hread
  · rw [hip] at hne
    cases hne

theorem serveAddr_of_not_isIpv4 (htext : IpAddr.fromStr config.network.bindAddress = .ok ip)
    (hip : ip.isIpv4 = false) : serveAddr none config = .error ⟨.socket⟩ := by
  have hfails : AddrParser.readSocketAddr.run config.bindAddr.toList = none := by
    rw [config.toList_bindAddr]
    obtain ⟨a, b, c, d, rfl, _⟩ | ⟨_, hipv4, hread⟩ :=
      AddrParser.run_readIpAddr_cases (AddrParser.parseWith_eq_ok.1 htext)
    · cases hip
    · exact AddrParser.run_readSocketAddr_of_ipv6 hipv4 hread _
  rw [serveAddr, Option.getD_none, SocketAddr.fromStr, AddrParser.parseWith, hfails]

theorem serveAddr_of_brackets {text : String} (htext : IpAddr.fromStr text = .ok ip)
    (hip : ip.isIpv4 = false) (hconfig : config.network.bindAddress = "[" ++ text ++ "]") :
    serveAddr none config = .ok { ip, port := config.network.port } := by
  apply AddrParser.parseWith_eq_ok.2
  obtain ⟨a, b, c, d, rfl, _⟩ | ⟨_, _, hread⟩ :=
    AddrParser.run_readIpAddr_cases (AddrParser.parseWith_eq_ok.1 htext)
  · cases hip
  · have htext : config.bindAddr.toList
        = '[' :: (text.toList ++ ']' :: ':' :: Nat.toDigits 10 config.network.port.toNat) := by
      rw [config.toList_bindAddr, hconfig]
      simp
    rw [Option.getD_none, htext]
    exact AddrParser.run_readSocketAddr_of_brackets hread

/-- **An IPv4 address is bound to, and no other.** With any text of an address in the configuration,
the command gets the address and the port if and only if it is an IPv4 address. -/
theorem serveAddr_bindAddress_iff (ip : IpAddr) (port : UInt16) :
    IpAddr.fromStr ip.toString = .ok ip ∧
      ∀ config : Config, config.network.port = port →
        IpAddr.fromStr config.network.bindAddress = .ok ip →
        (serveAddr none config = .ok { ip, port } ↔ ip.isIpv4 = true) := by
  refine ⟨ip.fromStr_toString, ?_⟩
  rintro config rfl htext
  constructor
  · intro haddr
    by_contra hip
    rw [serveAddr_of_not_isIpv4 htext (Bool.eq_false_of_not_eq_true hip)] at haddr
    cases haddr
  · exact serveAddr_of_isIpv4 htext

theorem serveAddr_default :
    serveAddr none .default = .ok { ip := .v4 0 0 0 0, port := 4433 } :=
  ((serveAddr_bindAddress_iff (.v4 0 0 0 0) 4433).2 .default rfl rfl).2 rfl

theorem serveAddr_loopback :
    let loopback : IpAddr := .v6 0 0 0 0 0 0 0 1
    let config : Config :=
      { Config.default with network := { NetworkConfig.default with bindAddress := "::1" } }
    loopback.toString = "::1" ∧ IpAddr.fromStr "::1" = .ok loopback ∧ config.bindAddr = "::1:4433"
      ∧ serveAddr none config = .error ⟨.socket⟩ :=
  ⟨rfl, rfl, rfl, rfl⟩

end QuicView
