import Mathlib.Data.List.Induction
import QuicView.Library.Catalogue
import QuicView.Library.Execution
import QuicView.Library.Standing
import QuicView.Session.Discovery

/-!
# What the registry shows

The registry keeps its own record both in the map and in the slot, but advertising again empties
only the slot: under another address the earlier record stays in the map for good.
-/

namespace QuicView.MemoryDiscovery

open Catalogue Execution Standing

/-- The record is the one last injected under its address, and not removed since. -/
def Injected (calls : List Call) (record : ServiceRecord) : Prop :=
  Stands (· = .injectService record)
    (fun call => call = .removeService record.addr
      ∨ ∃ other, other.addr = record.addr ∧ call = .injectService other) calls

/-- The record is the one last advertised, and advertising has not stopped since. -/
def Advertised (calls : List Call) (record : ServiceRecord) : Prop :=
  Stands (· = .advertise record)
    (fun call => call = .stopAdvertise ∨ ∃ other, call = .advertise other) calls

def Stopped (calls : List Call) : Prop :=
  Stands (· = .stopAdvertise) (fun call => ∃ record, call = .advertise record) calls

/-- The instance advertises under addresses at which no other host comes or goes. -/
def Separate (calls : List Call) : Prop :=
  ∀ record, .advertise record ∈ calls →
    .removeService record.addr ∉ calls
      ∧ ∀ other, .injectService other ∈ calls → other.addr ≠ record.addr

/-- The records are those that are live after the calls, one to an address, and once advertising has
stopped none that was ever advertised. -/
structure ShowsLive (records : List ServiceRecord) (calls : List Call) : Prop where
  live : ∀ record, record ∈ records ↔ Injected calls record ∨ Advertised calls record
  distinct : (records.map ServiceRecord.addr).Nodup
  stopped : Stopped calls → ∀ record, .advertise record ∈ calls → record ∉ records

/-- No call advertises while a record under another address is advertised. -/
def OneAddress (calls : List Call) : Prop :=
  ∀ before record after, calls = before ++ .advertise record :: after →
    ∀ old, Advertised before old → old.addr = record.addr

variable {calls : List Call} {record : ServiceRecord}

theorem Injected.mem (h : Injected calls record) : .injectService record ∈ calls := by
  obtain ⟨_, hmem, rfl⟩ := h.exists_mem
  exact hmem

theorem Advertised.mem (h : Advertised calls record) : .advertise record ∈ calls := by
  obtain ⟨_, hmem, rfl⟩ := h.exists_mem
  exact hmem

theorem Separate.of_prefix {before : List Call} (h : Separate calls) (hbefore : before <+: calls) :
    Separate before := by
  intro record hadvertised
  obtain ⟨hremoved, hinjected⟩ := h record (hbefore.subset hadvertised)
  refine ⟨fun hmem => hremoved (hbefore.subset hmem), ?_⟩
  exact fun other hmem => hinjected other (hbefore.subset hmem)

theorem Separate.not_injected (h : Separate calls) (hadvertised : .advertise record ∈ calls)
    {other : ServiceRecord} (haddr : other.addr = record.addr) : ¬ Injected calls other :=
  fun hinjected => (h record hadvertised).2 other hinjected.mem haddr

/-! ### One more call -/

theorem injected_inject (other : ServiceRecord) :
    Injected (calls ++ [.injectService other]) record
      ↔ other = record ∨ (Injected calls record ∧ other.addr ≠ record.addr) := by
  rw [Injected, stands_concat]
  simp [Injected]

theorem injected_remove (addr : SocketAddr) :
    Injected (calls ++ [.removeService addr]) record
      ↔ Injected calls record ∧ addr ≠ record.addr := by
  rw [Injected, stands_concat]
  simp [Injected]

theorem injected_advertise (other : ServiceRecord) :
    Injected (calls ++ [.advertise other]) record ↔ Injected calls record := by
  rw [Injected, stands_concat]
  simp [Injected]

theorem injected_stop : Injected (calls ++ [.stopAdvertise]) record ↔ Injected calls record := by
  rw [Injected, stands_concat]
  simp [Injected]

theorem advertised_advertise (other : ServiceRecord) :
    Advertised (calls ++ [.advertise other]) record ↔ other = record := by
  rw [Advertised, stands_concat]
  simp

theorem not_advertised_stop : ¬ Advertised (calls ++ [.stopAdvertise]) record := by
  rw [Advertised, stands_concat]
  simp

theorem advertised_inject (other : ServiceRecord) :
    Advertised (calls ++ [.injectService other]) record ↔ Advertised calls record := by
  rw [Advertised, stands_concat]
  simp [Advertised]

theorem advertised_remove (addr : SocketAddr) :
    Advertised (calls ++ [.removeService addr]) record ↔ Advertised calls record := by
  rw [Advertised, stands_concat]
  simp [Advertised]

theorem Stopped.not_advertised (h : Stopped calls) : ¬ Advertised calls record := by
  induction calls using List.reverseRecOn with
  | nil => exact absurd h not_stands_nil
  | append_singleton calls call ih =>
      rw [Stopped, stands_concat] at h
      rcases h with rfl | ⟨hstopped, hcall⟩
      · exact not_advertised_stop
      · rw [Advertised, stands_concat]
        rintro (rfl | ⟨hadvertised, -⟩)
        · exact hcall ⟨record, rfl⟩
        · exact ih hstopped hadvertised

/-! ### The map and the slot -/

structure Tracks (disc : MemoryDiscovery) (calls : List Call) : Prop where
  services : Lists ServiceRecord.addr disc.services fun record =>
    Injected calls record ∨ Advertised calls record
  advertised : ∀ record, disc.advertised = some record ↔ Advertised calls record

variable {disc : MemoryDiscovery}

theorem discover_eq (disc : MemoryDiscovery) : disc.discover = .ok (values disc.services) := rfl

theorem tracks_new : Tracks new [] := by
  constructor
  · apply lists_empty.congr
    intro record
    exact iff_of_false id (not_or.mpr ⟨not_stands_nil, not_stands_nil⟩)
  · intro record
    exact iff_of_false (Option.some_ne_none record).symm not_stands_nil

theorem Tracks.advertise (h : Tracks disc calls) {record : ServiceRecord}
    (hseparate : Separate (calls ++ [.advertise record]))
    (hone : ∀ old, Advertised calls old → old.addr = record.addr) :
    Tracks (disc.advertise record).2 (calls ++ [.advertise record]) := by
  constructor
  · apply (h.services.insert record).congr
    intro other
    rw [injected_advertise, advertised_advertise]
    constructor
    · rintro (rfl | ⟨hinjected | hadvertised, hother⟩)
      · exact .inr rfl
      · exact .inl hinjected
      · exact absurd (hone other hadvertised) hother
    · rintro (hinjected | rfl)
      · refine .inr ⟨.inl hinjected, fun haddr => ?_⟩
        have hadvertised : .advertise record ∈ calls ++ [Call.advertise record] :=
          List.mem_append_right _ (List.mem_singleton_self _)
        exact hseparate.not_injected hadvertised haddr ((injected_advertise record).mpr hinjected)
      · exact .inl rfl
  · intro other
    rw [advertised_advertise]
    exact Option.some_inj

theorem Tracks.stopAdvertise (h : Tracks disc calls)
    (hseparate : Separate (calls ++ [.stopAdvertise])) :
    Tracks disc.stopAdvertise.2 (calls ++ [.stopAdvertise]) := by
  cases hslot : disc.advertised with
  | none =>
      have hnone : ∀ record, ¬ Advertised calls record := by
        intro record hadvertised
        rw [(h.advertised record).mpr hadvertised] at hslot
        cases hslot
      have hstop : disc.stopAdvertise.2 = disc := by
        rw [MemoryDiscovery.stopAdvertise, hslot]
      rw [hstop]
      constructor
      · apply h.services.congr
        intro record
        rw [injected_stop]
        exact or_congr_right (iff_of_false (hnone record) not_advertised_stop)
      · intro record
        rw [h.advertised]
        exact iff_of_false (hnone record) not_advertised_stop
  | some rec =>
      have hrec : Advertised calls rec := (h.advertised rec).mp hslot
      have hstop : disc.stopAdvertise.2 = ⟨disc.services.erase rec.addr, none⟩ := by
        rw [MemoryDiscovery.stopAdvertise, hslot]
      rw [hstop]
      constructor
      · apply (h.services.erase rec.addr).congr
        intro record
        rw [injected_stop, or_iff_left not_advertised_stop]
        constructor
        · rintro ⟨hinjected | hadvertised, hother⟩
          · exact hinjected
          · have hsame := (h.advertised record).mpr hadvertised
            rw [hslot, Option.some.injEq] at hsame
            exact absurd (congrArg ServiceRecord.addr hsame.symm) hother
        · intro hinjected
          refine ⟨.inl hinjected, fun haddr => ?_⟩
          exact hseparate.not_injected (List.mem_append_left _ hrec.mem) haddr
            (injected_stop.mpr hinjected)
      · intro record
        exact iff_of_false (Option.some_ne_none record).symm not_advertised_stop

theorem Tracks.injectService (h : Tracks disc calls) {other : ServiceRecord}
    (hseparate : Separate (calls ++ [.injectService other])) :
    Tracks (disc.injectService other) (calls ++ [.injectService other]) := by
  have hfree : ∀ record, Advertised calls record → record.addr ≠ other.addr := by
    intro record hadvertised haddr
    have hinjected : Injected (calls ++ [.injectService other]) other :=
      (injected_inject other).mpr (.inl rfl)
    exact hseparate.not_injected (List.mem_append_left _ hadvertised.mem) haddr.symm hinjected
  constructor
  · apply (h.services.insert other).congr
    intro record
    rw [injected_inject, advertised_inject]
    constructor
    · rintro (rfl | ⟨hinjected | hadvertised, hother⟩)
      · exact .inl (.inl rfl)
      · exact .inl (.inr ⟨hinjected, hother.symm⟩)
      · exact .inr hadvertised
    · rintro ((rfl | ⟨hinjected, hother⟩) | hadvertised)
      · exact .inl rfl
      · exact .inr ⟨.inl hinjected, hother.symm⟩
      · exact .inr ⟨.inr hadvertised, hfree record hadvertised⟩
  · intro record
    rw [advertised_inject]
    exact h.advertised record

theorem Tracks.removeService (h : Tracks disc calls) {addr : SocketAddr}
    (hseparate : Separate (calls ++ [.removeService addr])) :
    Tracks (disc.removeService addr) (calls ++ [.removeService addr]) := by
  have hfree : ∀ record, Advertised calls record → record.addr ≠ addr := by
    rintro record hadvertised rfl
    apply (hseparate record (List.mem_append_left _ hadvertised.mem)).1
    exact List.mem_append_right _ (List.mem_singleton_self _)
  constructor
  · apply (h.services.erase addr).congr
    intro record
    rw [injected_remove, advertised_remove]
    constructor
    · rintro ⟨hinjected | hadvertised, hother⟩
      · exact .inl ⟨hinjected, hother.symm⟩
      · exact .inr hadvertised
    · rintro (⟨hinjected, hother⟩ | hadvertised)
      · exact ⟨.inl hinjected, hother.symm⟩
      · exact ⟨.inr hadvertised, hfree record hadvertised⟩
  · intro record
    rw [advertised_remove]
    exact h.advertised record

theorem OneAddress.of_prefix {before : List Call} (h : OneAddress calls)
    (hbefore : before <+: calls) : OneAddress before := by
  obtain ⟨more, rfl⟩ := hbefore
  rintro first record after rfl
  exact h first record (after ++ more) (by simp)

theorem tracks_run (hseparate : Separate calls) (hone : OneAddress calls) :
    Tracks (run step new calls) calls := by
  induction calls using List.reverseRecOn with
  | nil => exact tracks_new
  | append_singleton calls call ih =>
      have hbefore : calls <+: calls ++ [call] := List.prefix_append ..
      have h := ih (hseparate.of_prefix hbefore) (hone.of_prefix hbefore)
      rw [run_concat]
      cases call with
      | advertise record => exact h.advertise hseparate (hone calls record [] rfl)
      | stopAdvertise => exact h.stopAdvertise hseparate
      | injectService other => exact h.injectService hseparate
      | removeService addr => exact h.removeService hseparate

theorem Tracks.showsLive (h : Tracks disc calls) (hseparate : Separate calls) :
    ShowsLive (values disc.services) calls := by
  constructor
  · exact h.services.mem_values
  · exact h.services.nodup_keys
  · intro hstopped record hadvertised hmem
    rcases (h.services.mem_values record).mp hmem with hinjected | hlast
    · exact hseparate.not_injected hadvertised rfl hinjected
    · exact hstopped.not_advertised hlast

/-! ### Advertising under another address -/

def Keyed (disc : MemoryDiscovery) : Prop := ∃ Live, Lists ServiceRecord.addr disc.services Live

theorem Keyed.step (h : Keyed disc) (call : Call) : Keyed (step disc call) := by
  obtain ⟨Live, hlists⟩ := h
  cases call with
  | advertise record => exact ⟨_, hlists.insert record⟩
  | stopAdvertise =>
      rw [MemoryDiscovery.step, MemoryDiscovery.stopAdvertise]
      split
      · exact ⟨_, hlists.erase _⟩
      · exact ⟨Live, hlists⟩
  | injectService other => exact ⟨_, hlists.insert other⟩
  | removeService addr => exact ⟨_, hlists.erase addr⟩

theorem keyed_run (calls : List Call) : Keyed (run step new calls) :=
  invariant_run (fun _ call h => h.step call) calls ⟨_, lists_empty⟩

theorem mem_values_advertise {old : ServiceRecord}
    (hmem : old ∈ values (run step new calls).services)
    (haddr : old.addr ≠ record.addr) :
    old ∈ values (run step new (calls ++ [.advertise record])).services := by
  obtain ⟨Live, hlists⟩ := keyed_run calls
  have hlive : Live old := (hlists.mem_values old).mp hmem
  rw [run_concat]
  exact ((hlists.insert record).mem_values old).mpr (.inr ⟨hlive, haddr⟩)

/-- **When the registry shows what is live.** It does so in every state exactly if the instance
never advertises under one address while its record under another is advertised. -/
theorem discovery_shows_live_iff (calls : List Call) (hseparate : Separate calls) :
    (∀ before, before <+: calls → ∃ records,
        (run step new before).discover = .ok records ∧ ShowsLive records before)
      ↔ OneAddress calls := by
  constructor
  · rintro hshows before record after rfl old hold
    by_contra haddr
    have hbefore : before <+: before ++ .advertise record :: after := List.prefix_append ..
    have hnext : before ++ [.advertise record] <+: before ++ .advertise record :: after :=
      ⟨after, by simp⟩
    obtain ⟨records, hrecords, hshown⟩ := hshows before hbefore
    obtain ⟨records', hrecords', hshown'⟩ := hshows _ hnext
    obtain rfl := Except.ok.inj ((discover_eq _).symm.trans hrecords)
    obtain rfl := Except.ok.inj ((discover_eq _).symm.trans hrecords')
    have hmem := mem_values_advertise ((hshown.live old).mpr (.inr hold)) haddr
    rcases (hshown'.live old).mp hmem with hinjected | hadvertised
    · have hmemOld : .advertise old ∈ before ++ [Call.advertise record] :=
        List.mem_append_left _ hold.mem
      exact (hseparate.of_prefix hnext).not_injected hmemOld rfl hinjected
    · rw [advertised_advertise] at hadvertised
      exact haddr (congrArg ServiceRecord.addr hadvertised.symm)
  · intro hone before hbefore
    have hseparate' := hseparate.of_prefix hbefore
    exact ⟨_, rfl, (tracks_run hseparate' (hone.of_prefix hbefore)).showsLive hseparate'⟩

theorem discovery_shows_live_iff_stop :
    let record : ServiceRecord := ⟨"devbox", ⟨.v4 192 168 1 5, 4433, 0, 0⟩, "host"⟩
    let other : ServiceRecord := ⟨"rpi-1", ⟨.v4 192 168 1 20, 4433, 0, 0⟩, "extender"⟩
    let calls : List Call := [.advertise record, .injectService other, .stopAdvertise]
    ∃ records, (run step new calls).discover = .ok records ∧ ShowsLive records calls := by
  intro record other calls
  have hseparate : Separate calls := by
    intro r hadvertised
    obtain rfl : r = record := by simpa [calls] using hadvertised
    exact ⟨by decide, fun o hinjected => by simp_all [calls, record, other]⟩
  apply (discovery_shows_live_iff calls hseparate).mpr _ calls List.prefix_rfl
  intro before r after heq old hold
  have hnone : before = [] := by
    cases before with
    | nil => rfl
    | cons first before =>
        rw [List.cons_append, List.cons_eq_cons] at heq
        have hmem : Call.advertise r ∈ [.injectService other, .stopAdvertise] := by
          rw [heq.2]
          exact List.mem_append_right _ List.mem_cons_self
        simp at hmem
  rw [hnone] at hold
  exact absurd hold not_stands_nil

theorem stale_record_after_stop :
    ¬ ∀ calls : List Call, Separate calls →
        ∃ records, (run step new calls).discover = .ok records ∧ ShowsLive records calls := by
  intro hall
  let record : ServiceRecord := ⟨"devbox", ⟨.v4 10 0 0 1, 4433, 0, 0⟩, "host"⟩
  let moved : ServiceRecord := ⟨"devbox", ⟨.v4 10 0 0 2, 4433, 0, 0⟩, "host"⟩
  let calls : List Call := [.advertise record, .advertise moved, .stopAdvertise]
  have hseparate : Separate calls := by
    intro r _
    simp [calls]
  obtain ⟨records, hrecords, hshown⟩ := hall calls hseparate
  obtain rfl := Except.ok.inj ((discover_eq _).symm.trans hrecords)
  have hstopped : Stopped calls :=
    ⟨[.advertise record, .advertise moved], .stopAdvertise, [], rfl, rfl, by simp⟩
  apply hshown.stopped hstopped record List.mem_cons_self
  decide

end QuicView.MemoryDiscovery
