import Mathlib.Data.List.Forall2
import Mathlib.Logic.Function.Basic

/-!
# Coders in lockstep, over several channels

A coder and a decoder are in lockstep when, from states that are related, every message is coded and
decoded again and the states are related afterwards. Several channels may share one sequence, each
message under a label that says which it belongs to.
-/

namespace Lockstep

structure Codec (ε Encoder Decoder Raw Code : Type) where
  encode : Encoder → Raw → Except ε Code × Encoder
  decode : Decoder → Code → Except ε Raw × Decoder

variable {ε Encoder Decoder Raw Code Label Channel : Type}

def Codec.Faithful (codec : Codec ε Encoder Decoder Raw Code) (Rel : Encoder → Decoder → Prop)
    (Fits : Raw → Code → Prop) : Prop :=
  ∀ encoder decoder raw, Rel encoder decoder →
    ∃ code encoder' decoder', codec.encode encoder raw = (.ok code, encoder')
      ∧ codec.decode decoder code = (.ok raw, decoder') ∧ Fits raw code ∧ Rel encoder' decoder'

section Channels

variable [DecidableEq Channel] (codec : Codec ε Encoder Decoder Raw Code)
  (channel : Label → Channel)

def encodeAll : (Channel → Encoder) → List (Label × Raw) → Except ε (List (Label × Code))
  | _, [] => .ok []
  | encoders, (label, raw) :: items => do
      let (result, encoder) := codec.encode (encoders (channel label)) raw
      let code ← result
      let later ← encodeAll (Function.update encoders (channel label) encoder) items
      return (label, code) :: later

def decodeAll : (Channel → Decoder) → List (Label × Code) → Except ε (List (Label × Raw))
  | _, [] => .ok []
  | decoders, (label, code) :: codes => do
      let (result, decoder) := codec.decode (decoders (channel label)) code
      let raw ← result
      let later ← decodeAll (Function.update decoders (channel label) decoder) codes
      return (label, raw) :: later

variable {codec channel}

theorem encodeAll_cons {encoders : Channel → Encoder} {label : Label} {raw : Raw} {code : Code}
    {encoder : Encoder} {items : List (Label × Raw)} {later : List (Label × Code)}
    (hencode : codec.encode (encoders (channel label)) raw = (.ok code, encoder))
    (hlater : encodeAll codec channel (Function.update encoders (channel label) encoder) items
      = .ok later) :
    encodeAll codec channel encoders ((label, raw) :: items) = .ok ((label, code) :: later) := by
  rw [encodeAll, hencode]
  dsimp only
  rw [hlater]
  rfl

theorem decodeAll_cons {decoders : Channel → Decoder} {label : Label} {raw : Raw} {code : Code}
    {decoder : Decoder} {codes : List (Label × Code)} {later : List (Label × Raw)}
    (hdecode : codec.decode (decoders (channel label)) code = (.ok raw, decoder))
    (hlater : decodeAll codec channel (Function.update decoders (channel label) decoder) codes
      = .ok later) :
    decodeAll codec channel decoders ((label, code) :: codes) = .ok ((label, raw) :: later) := by
  rw [decodeAll, hdecode]
  dsimp only
  rw [hlater]
  rfl

theorem exists_of_mem_right {α β : Type} {Rel : α → β → Prop} {as : List α} {bs : List β} {b : β}
    (hall : List.Forall₂ Rel as bs) (hmem : b ∈ bs) : ∃ a ∈ as, Rel a b := by
  induction hall with
  | nil => exact absurd hmem List.not_mem_nil
  | cons hfirst _ ih =>
      rcases List.mem_cons.mp hmem with rfl | hlater
      · exact ⟨_, List.mem_cons_self, hfirst⟩
      · obtain ⟨a, ha, hrel⟩ := ih hlater
        exact ⟨a, List.mem_cons_of_mem _ ha, hrel⟩

theorem related_update {Rel : Encoder → Decoder → Prop} {encoders : Channel → Encoder}
    {decoders : Channel → Decoder} {encoder : Encoder} {decoder : Decoder}
    (hrel : ∀ c, Rel (encoders c) (decoders c)) (hnew : Rel encoder decoder) (c c' : Channel) :
    Rel (Function.update encoders c encoder c') (Function.update decoders c decoder c') := by
  rw [Function.update_apply, Function.update_apply]
  by_cases hsame : c' = c
  · rwa [if_pos hsame, if_pos hsame]
  · rw [if_neg hsame, if_neg hsame]
    exact hrel c'

variable (channel) in
/-- **Every sequence gets through.** Where each channel's coder and decoder are in lockstep, what is
decoded of any sequence of messages, mixed in any way, is that sequence. -/
theorem Codec.Faithful.decodeAll_encodeAll {Rel : Encoder → Decoder → Prop}
    {Fits : Raw → Code → Prop} (h : codec.Faithful Rel Fits) (items : List (Label × Raw)) :
    ∀ {encoders : Channel → Encoder} {decoders : Channel → Decoder},
      (∀ c, Rel (encoders c) (decoders c)) →
      ∃ codes, encodeAll codec channel encoders items = .ok codes
        ∧ decodeAll codec channel decoders codes = .ok items
        ∧ List.Forall₂ (fun item code => code.1 = item.1 ∧ Fits item.2 code.2) items codes := by
  induction items with
  | nil => exact fun _ => ⟨[], rfl, rfl, .nil⟩
  | cons item items ih =>
      intro encoders decoders hrel
      obtain ⟨label, raw⟩ := item
      obtain ⟨code, encoder', decoder', hencode, hdecode, hfits, hnew⟩ :=
        h _ _ raw (hrel (channel label))
      obtain ⟨codes, hcodes, hitems, hall⟩ := ih (related_update hrel hnew (channel label))
      exact ⟨(label, code) :: codes, encodeAll_cons hencode hcodes, decodeAll_cons hdecode hitems,
        .cons ⟨rfl, hfits⟩ hall⟩

end Channels

end Lockstep
