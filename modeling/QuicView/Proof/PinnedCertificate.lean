import Mathlib.Data.List.Basic
import QuicView.Transport.Cert

namespace QuicView

namespace CertFingerprint

theorem toList_hexByte (b : UInt8) :
    (hexByte b).toList = [(b.toNat / 16).digitChar, (b.toNat % 16).digitChar] := by
  have hlt : b.toNat < 256 := b.toNat_lt
  rw [hexByte, String.toList_ofList]
  by_cases hsmall : b.toNat < 16
  · have hhigh : b.toNat / 16 = 0 := Nat.div_eq_of_lt hsmall
    rw [Nat.toDigits_of_lt_base hsmall, hhigh, Nat.mod_eq_of_lt hsmall]
    rfl
  · have hhigh : b.toNat / 16 < 16 := by omega
    rw [Nat.toDigits_of_base_le (by decide) (Nat.not_lt.mp hsmall), Nat.toDigits_of_lt_base hhigh]
    rfl

theorem digitChar_inj {i j : Nat} (hi : i < 16) (hj : j < 16)
    (heq : i.digitChar = j.digitChar) : i = j := by
  have hall : ∀ i j : Fin 16, i.val.digitChar = j.val.digitChar → i = j := by decide
  exact congrArg Fin.val (hall ⟨i, hi⟩ ⟨j, hj⟩ heq)

theorem digitChar_ne_colon {i : Nat} (hi : i < 16) : i.digitChar ≠ ':' := by
  have hall : ∀ i : Fin 16, i.val.digitChar ≠ ':' := by decide
  exact hall ⟨i, hi⟩

theorem hexByte_injective {b b' : UInt8} (heq : hexByte b = hexByte b') : b = b' := by
  have hlt : b.toNat < 256 := b.toNat_lt
  have hlt' : b'.toNat < 256 := b'.toNat_lt
  have hdigits := congrArg String.toList heq
  rw [toList_hexByte, toList_hexByte, List.cons.injEq, List.cons.injEq] at hdigits
  have hhigh := digitChar_inj (by omega) (by omega) hdigits.1
  have hlow := digitChar_inj (by omega) (by omega) hdigits.2.1
  apply UInt8.toNat_inj.mp
  omega

theorem splitOn_toHex (fingerprint : CertFingerprint) :
    fingerprint.toHex.toList.splitOn ':'
      = fingerprint.bytes.toList.map fun b => (hexByte b).toList := by
  have hcolon : ":".toList = [':'] := rfl
  rw [toHex, String.toList_intercalate, hcolon, List.map_map]
  apply List.splitOn_intercalate
  · intro digits hmem
    obtain ⟨b, -, rfl⟩ := List.mem_map.mp hmem
    have hlt : b.toNat < 256 := b.toNat_lt
    have hdigits : (String.toList ∘ hexByte) b = _ := toList_hexByte b
    rw [hdigits]
    simp [(digitChar_ne_colon (show b.toNat / 16 < 16 by omega)).symm,
      (digitChar_ne_colon (show b.toNat % 16 < 16 by omega)).symm]
  · intro hnil
    have hlength := congrArg List.length hnil
    simp at hlength

theorem toHex_injective {fingerprint fingerprint' : CertFingerprint}
    (heq : fingerprint.toHex = fingerprint'.toHex) : fingerprint = fingerprint' := by
  have hwords := splitOn_toHex fingerprint
  rw [heq, splitOn_toHex] at hwords
  have hbytes : fingerprint.bytes.toList = fingerprint'.bytes.toList := by
    refine List.map_injective_iff.mpr ?_ hwords.symm
    exact fun b b' hsame => hexByte_injective (String.toList_injective hsame)
  obtain ⟨bytes⟩ := fingerprint
  obtain ⟨bytes'⟩ := fingerprint'
  exact congrArg CertFingerprint.mk (Vector.toList_inj.mp hbytes)

theorem length_intercalate {words : List (List Char)} (hwords : ∀ word ∈ words, word.length = 2) :
    ([':'].intercalate words).length = 3 * words.length - 1 := by
  induction words with
  | nil => rfl
  | cons word words ih =>
      obtain ⟨hword, hwords⟩ := List.forall_mem_cons.mp hwords
      cases words with
      | nil => rw [List.intercalate_singleton, hword]; rfl
      | cons next words =>
          rw [List.intercalate_cons_cons, List.length_append, List.length_append, hword, ih hwords]
          simp only [List.length_cons, List.length_nil]
          omega

theorem length_toHex (fingerprint : CertFingerprint) : fingerprint.toHex.length = 95 := by
  have hcolon : ":".toList = [':'] := rfl
  have hbytes : fingerprint.bytes.toList.length = 32 := Vector.length_toList
  rw [← String.length_toList, toHex, String.toList_intercalate, hcolon, List.map_map,
    length_intercalate, List.length_map, hbytes]
  intro digits hmem
  obtain ⟨b, -, rfl⟩ := List.mem_map.mp hmem
  exact congrArg List.length (toList_hexByte b)

end CertFingerprint

/-- **A pin is its text.** A client that pins a fingerprint takes a certificate exactly if the text
of its fingerprint is that of the pin. Otherwise the refusal shows the two texts, which are of the
same length and differ. -/
theorem pinned_by_text (ring : Ring) (pinned : CertFingerprint) (cert : SelfSignedCert)
    (intermediates : List (List UInt8)) (serverName : String) (ocspResponse : List UInt8)
    (now : UInt64) :
    let shown := (cert.fingerprint ring).toHex
    let verdict := (SelfSignedCert.pinnedClientConfig pinned).verifyServerCert ring cert.certDer
      intermediates serverName ocspResponse now
    (verdict = .ok () ↔ shown = pinned.toHex)
      ∧ (∀ err, verdict = .error err →
        err = .general s!"certificate fingerprint mismatch: expected {pinned.toHex}, got {shown}"
          ∧ shown ≠ pinned.toHex)
      ∧ shown.length = pinned.toHex.length := by
  intro shown verdict
  have hverdict : verdict = if cert.fingerprint ring = pinned then .ok () else
      .error (.general
        s!"certificate fingerprint mismatch: expected {pinned.toHex}, got {shown}") := rfl
  have htext : shown = pinned.toHex ↔ cert.fingerprint ring = pinned :=
    ⟨CertFingerprint.toHex_injective, congrArg CertFingerprint.toHex⟩
  refine ⟨?_, fun err herr => ?_, ?_⟩
  · rw [htext, hverdict]
    by_cases hsame : cert.fingerprint ring = pinned
    · rw [if_pos hsame]
      exact iff_of_true rfl hsame
    · rw [if_neg hsame]
      exact iff_of_false nofun hsame
  · by_cases hsame : cert.fingerprint ring = pinned
    · rw [hverdict, if_pos hsame] at herr
      cases herr
    · rw [hverdict, if_neg hsame] at herr
      exact ⟨(Except.error.inj herr).symm, fun heq => hsame (htext.mp heq)⟩
  · rw [CertFingerprint.length_toHex, CertFingerprint.length_toHex]

end QuicView
