import Mathlib.Algebra.Ring.Nat
import Mathlib.Data.List.Induction
import QuicView.Capture.VirtualDisplay
import QuicView.Library.Entries
import QuicView.Library.Execution

namespace QuicView.StubVirtualDisplay

open Entries Execution

def Call.creates : Call → Bool
  | .create _ _ => true
  | _ => false

def created (vd : StubVirtualDisplay) : List Call → List DisplayId
  | [] => []
  | .create resolution refreshHz :: calls =>
      let (result, next) := vd.create resolution refreshHz
      (result.toOption.toList) ++ next.created calls
  | call :: calls => (vd.step call).created calls

def Destroyed (calls : List Call) (id : DisplayId) : Prop :=
  ∃ before after, calls = before ++ .destroy id :: after ∧ id ∈ created new before

def contents (vd : StubVirtualDisplay) : DisplayId → Option (Resolution × UInt32) :=
  find vd.displays

variable {vd : StubVirtualDisplay} {calls : List Call}

/-! ### What each call does -/

theorem list_create (vd : StubVirtualDisplay) (resolution : Resolution) (refreshHz : UInt32) :
    (vd.create resolution refreshHz).2.list = vd.list ++ [⟨vd.nextId⟩] := by
  rw [list, create, List.map_append]
  rfl

theorem contents_create (hfresh : ⟨vd.nextId⟩ ∉ vd.list) (resolution : Resolution)
    (refreshHz : UInt32) :
    (vd.create resolution refreshHz).2.contents
      = Function.update vd.contents ⟨vd.nextId⟩ (some (resolution, refreshHz)) :=
  find_concat hfresh

theorem setResolution_of_mem {displays : List (DisplayId × Resolution × UInt32)} {id : DisplayId}
    (hmem : id ∈ displays.map Prod.fst) (resolution : Resolution) :
    ∃ resized, setResolution id resolution displays = some resized
      ∧ resized.map Prod.fst = displays.map Prod.fst
      ∧ find resized = Function.update (find displays) id
          ((find displays id).map fun value => (resolution, value.2)) := by
  induction displays with
  | nil => cases hmem
  | cons entry displays ih =>
      rw [setResolution]
      by_cases hid : entry.1 = id
      · refine ⟨_, if_pos hid, rfl, ?_⟩
        rw [find_cons, find_cons, hid, Function.update_self, Function.update_idem]
        rfl
      · rw [List.map_cons, List.mem_cons] at hmem
        obtain ⟨resized, hresized, hkeys, hfind⟩ := ih (hmem.resolve_left (Ne.symm hid))
        refine ⟨entry :: resized, ?_, ?_, ?_⟩
        · rw [if_neg hid, hresized]
          rfl
        · rw [List.map_cons, List.map_cons, hkeys]
        · rw [find_cons, find_cons, hfind, Function.update_of_ne (Ne.symm hid),
            Function.update_comm hid]

theorem setResolution_of_notMem {displays : List (DisplayId × Resolution × UInt32)}
    {id : DisplayId} (hmem : id ∉ displays.map Prod.fst) (resolution : Resolution) :
    setResolution id resolution displays = none := by
  induction displays with
  | nil => rfl
  | cons entry displays ih =>
      rw [List.map_cons, List.mem_cons, not_or] at hmem
      rw [setResolution, if_neg (Ne.symm hmem.1), ih hmem.2]
      rfl

theorem resize_of_mem {id : DisplayId} (hmem : id ∈ vd.list) (resolution : Resolution) :
    (vd.resize id resolution).1 = .ok ()
      ∧ (vd.resize id resolution).2.list = vd.list
      ∧ (vd.resize id resolution).2.contents = Function.update vd.contents id
          ((vd.contents id).map fun value => (resolution, value.2)) := by
  obtain ⟨resized, hresized, hkeys, hfind⟩ := setResolution_of_mem hmem resolution
  rw [resize, hresized]
  exact ⟨rfl, hkeys, hfind⟩

theorem resize_of_notMem {id : DisplayId} (hmem : id ∉ vd.list) (resolution : Resolution) :
    vd.resize id resolution = (.error (.displayNotFound id.id), vd) := by
  rw [resize, setResolution_of_notMem hmem]

theorem nextId_resize (id : DisplayId) (resolution : Resolution) :
    (vd.resize id resolution).2.nextId = vd.nextId := by
  rw [resize]
  split <;> rfl

theorem list_resize (id : DisplayId) (resolution : Resolution) :
    (vd.resize id resolution).2.list = vd.list := by
  by_cases hmem : id ∈ vd.list
  · exact (resize_of_mem hmem resolution).2.1
  · rw [resize_of_notMem hmem]

theorem destroy_snd (vd : StubVirtualDisplay) (id : DisplayId) :
    (vd.destroy id).2 = { vd with displays := vd.displays.filter fun entry => entry.1 != id } := by
  rw [destroy]
  split <;> rfl

theorem list_destroy (vd : StubVirtualDisplay) (id : DisplayId) :
    (vd.destroy id).2.list = vd.list.filter fun other => other != id := by
  rw [destroy_snd, list, list, List.filter_map]
  rfl

theorem contents_destroy (vd : StubVirtualDisplay) (id : DisplayId) :
    (vd.destroy id).2.contents = Function.update vd.contents id none := by
  rw [destroy_snd]
  exact find_filter_ne id vd.displays

theorem destroy_of_mem {id : DisplayId} (hmem : id ∈ vd.list) : (vd.destroy id).1 = .ok () := by
  obtain ⟨entry, hentry, rfl⟩ := List.mem_map.mp hmem
  have hfewer : (vd.displays.filter fun other => other.1 != entry.1).length
      < vd.displays.length := by
    rw [List.length_filter_lt_length_iff_exists]
    exact ⟨entry, hentry, by simp⟩
  rw [destroy, if_neg hfewer.ne]

theorem destroy_of_notMem {id : DisplayId} (hmem : id ∉ vd.list) :
    vd.destroy id = (.error (.displayNotFound id.id), vd) := by
  have hsame : (vd.displays.filter fun entry => entry.1 != id) = vd.displays := by
    rw [List.filter_eq_self]
    intro entry hentry
    rw [bne_iff_ne]
    rintro rfl
    exact hmem (List.mem_map_of_mem hentry)
  rw [destroy, hsame, if_pos rfl]

/-! ### Along a run -/

theorem created_append (vd : StubVirtualDisplay) (calls more : List Call) :
    vd.created (calls ++ more) = vd.created calls ++ (run step vd calls).created more := by
  induction calls generalizing vd with
  | nil => rfl
  | cons call calls ih =>
      cases call with
      | create resolution refreshHz => exact congrArg (_ :: ·) (ih _)
      | resize id resolution => exact ih _
      | destroy id => exact ih _

theorem length_created (vd : StubVirtualDisplay) (calls : List Call) :
    (vd.created calls).length = calls.countP Call.creates := by
  induction calls generalizing vd with
  | nil => rfl
  | cons call calls ih =>
      cases call with
      | create resolution refreshHz =>
          rw [List.countP_cons_of_pos rfl, ← ih (vd.create resolution refreshHz).2]
          rfl
      | resize id resolution =>
          rw [List.countP_cons_of_neg Bool.false_ne_true]
          exact ih _
      | destroy id =>
          rw [List.countP_cons_of_neg Bool.false_ne_true]
          exact ih _

theorem destroyed_concat {call : Call} {id : DisplayId} :
    Destroyed (calls ++ [call]) id
      ↔ Destroyed calls id ∨ call = .destroy id ∧ id ∈ created new calls := by
  constructor
  · rintro ⟨before, after, heq, hcreated⟩
    rcases List.eq_nil_or_concat' after with rfl | ⟨after, last, rfl⟩
    · obtain ⟨rfl, hcall⟩ := List.append_inj' heq rfl
      exact .inr ⟨List.singleton_inj.mp hcall, hcreated⟩
    · rw [← List.cons_append, ← List.append_assoc] at heq
      obtain ⟨rfl, _⟩ := List.append_inj' heq rfl
      exact .inl ⟨before, after, rfl, hcreated⟩
  · rintro (⟨before, after, rfl, hcreated⟩ | ⟨rfl, hcreated⟩)
    · exact ⟨before, after ++ [call], by simp, hcreated⟩
    · exact ⟨calls, [], rfl, hcreated⟩

theorem Destroyed.mem_created {id : DisplayId} (h : Destroyed calls id) :
    id ∈ created new calls := by
  obtain ⟨before, after, rfl, hcreated⟩ := h
  rw [created_append]
  exact List.mem_append_left _ hcreated

structure Tracks (calls : List Call) (vd : StubVirtualDisplay) : Prop where
  next : vd.nextId.toNat = 100 + (created new calls).length
  numbered : ∀ id ∈ created new calls, 100 ≤ id.id.toNat ∧ id.id.toNat < vd.nextId.toNat
  nodup : (created new calls).Nodup
  sublist : vd.list.Sublist (created new calls)
  mem_iff : ∀ id, id ∈ vd.list ↔ id ∈ created new calls ∧ ¬ Destroyed calls id

theorem tracks_new : Tracks [] new where
  next := rfl
  numbered _ hmem := absurd hmem List.not_mem_nil
  nodup := List.nodup_nil
  sublist := .slnil
  mem_iff id := by simp [list, new, created]

theorem Tracks.notMem_created (h : Tracks calls vd) : ⟨vd.nextId⟩ ∉ created new calls :=
  fun hmem => Nat.lt_irrefl _ (h.numbered _ hmem).2

theorem Tracks.notMem_list (h : Tracks calls vd) : ⟨vd.nextId⟩ ∉ vd.list :=
  fun hmem => h.notMem_created (h.sublist.subset hmem)

theorem Tracks.create (h : Tracks calls (run step new calls)) (resolution : Resolution)
    (refreshHz : UInt32) (hcount : (created new calls).length + 1 < 2 ^ 32 - 100) :
    Tracks (calls ++ [.create resolution refreshHz])
      ((run step new calls).create resolution refreshHz).2 := by
  have hcreated : created new (calls ++ [.create resolution refreshHz])
      = created new calls ++ [⟨(run step new calls).nextId⟩] := created_append new calls _
  have hbound := h.next
  have hnext : ((run step new calls).create resolution refreshHz).2.nextId.toNat
      = (run step new calls).nextId.toNat + 1 := by
    rw [StubVirtualDisplay.create, UInt32.toNat_add, UInt32.toNat_one]
    omega
  constructor
  · rw [hnext, h.next, hcreated, List.length_append, List.length_singleton]
    rfl
  · intro id hmem
    rw [hnext]
    rw [hcreated] at hmem
    rcases List.mem_append.mp hmem with hmem | hlast
    · have hnumbered := h.numbered id hmem
      omega
    · obtain rfl := List.mem_singleton.mp hlast
      exact ⟨hbound ▸ Nat.le_add_right _ _, Nat.lt_succ_self _⟩
  · rw [hcreated, (List.perm_append_singleton _ _).nodup_iff]
    exact List.nodup_cons.mpr ⟨h.notMem_created, h.nodup⟩
  · rw [hcreated, list_create]
    exact h.sublist.append_right _
  · intro id
    have hdestroyed : Destroyed (calls ++ [.create resolution refreshHz]) id
        ↔ Destroyed calls id :=
      destroyed_concat.trans (or_iff_left fun hdestroy => Call.noConfusion hdestroy.1)
    rw [list_create, hcreated, List.mem_append, List.mem_append, h.mem_iff, List.mem_singleton,
      hdestroyed]
    constructor
    · rintro (⟨hmem, hkept⟩ | rfl)
      · exact ⟨.inl hmem, hkept⟩
      · exact ⟨.inr rfl, fun hdestroyed => h.notMem_created hdestroyed.mem_created⟩
    · rintro ⟨hmem | rfl, hkept⟩
      · exact Or.inl ⟨hmem, hkept⟩
      · exact Or.inr rfl

theorem Tracks.resize (h : Tracks calls (run step new calls)) (id : DisplayId)
    (resolution : Resolution) :
    Tracks (calls ++ [.resize id resolution]) ((run step new calls).resize id resolution).2 := by
  have hcreated : created new (calls ++ [.resize id resolution]) = created new calls :=
    (created_append new calls _).trans (List.append_nil _)
  constructor
  · rw [nextId_resize, hcreated, h.next]
  · rw [nextId_resize, hcreated]
    exact h.numbered
  · rw [hcreated]
    exact h.nodup
  · rw [list_resize, hcreated]
    exact h.sublist
  · intro other
    rw [list_resize, hcreated, h.mem_iff, destroyed_concat,
      or_iff_left fun hdestroy => Call.noConfusion hdestroy.1]

theorem Tracks.destroy (h : Tracks calls (run step new calls)) (id : DisplayId) :
    Tracks (calls ++ [.destroy id]) ((run step new calls).destroy id).2 := by
  have hcreated : created new (calls ++ [.destroy id]) = created new calls :=
    (created_append new calls _).trans (List.append_nil _)
  constructor
  · rw [destroy_snd, hcreated, h.next]
  · rw [destroy_snd, hcreated]
    exact h.numbered
  · rw [hcreated]
    exact h.nodup
  · rw [list_destroy, hcreated]
    exact List.filter_sublist.trans h.sublist
  · intro other
    rw [list_destroy, hcreated, List.mem_filter, h.mem_iff, destroyed_concat, bne_iff_ne]
    constructor
    · rintro ⟨⟨hmem, hkept⟩, hother⟩
      refine ⟨hmem, ?_⟩
      rintro (hdestroyed | ⟨hdestroy, _⟩)
      · exact hkept hdestroyed
      · exact hother (Call.destroy.inj hdestroy).symm
    · rintro ⟨hmem, hkept⟩
      refine ⟨⟨hmem, fun hdestroyed => hkept (.inl hdestroyed)⟩, ?_⟩
      rintro rfl
      exact hkept (.inr ⟨rfl, hmem⟩)

theorem tracks_run (calls : List Call) (hcount : calls.countP Call.creates < 2 ^ 32 - 100) :
    Tracks calls (run step new calls) := by
  induction calls using List.reverseRec with
  | nil => exact tracks_new
  | append_singleton calls call ih =>
      rw [List.countP_append] at hcount
      have hbefore := ih (by omega)
      rw [run_concat]
      cases call with
      | create resolution refreshHz =>
          apply hbefore.create
          rwa [length_created]
      | resize id resolution => exact hbefore.resize id resolution
      | destroy id => exact hbefore.destroy id

/-- **Virtual displays are a map with fresh keys.** With fewer than 2³² - 100 calls to `create`, no
identifier is returned twice, creating a display adds an entry, resizing one replaces its
resolution, and destroying one removes its entry. -/
theorem virtual_displays_are_a_map (calls : List Call)
    (hcount : calls.countP Call.creates < 2 ^ 32 - 100) :
    let vd := run step new calls
    (vd.list.Sublist (created new calls) ∧ vd.list.Nodup
        ∧ ∀ id, id ∈ vd.list ↔ id ∈ created new calls ∧ ¬ Destroyed calls id)
      ∧ ((created new calls).Nodup ∧ ∀ id ∈ created new calls, 100 ≤ id.id)
      ∧ (∀ resolution refreshHz, ∃ id ∉ created new calls,
          (vd.create resolution refreshHz).1 = .ok id
            ∧ (vd.create resolution refreshHz).2.list = vd.list ++ [id]
            ∧ (vd.create resolution refreshHz).2.contents
              = Function.update vd.contents id (some (resolution, refreshHz)))
      ∧ (∀ id ∈ vd.list, ∀ resolution,
          (vd.resize id resolution).1 = .ok ()
            ∧ (vd.resize id resolution).2.list = vd.list
            ∧ (vd.resize id resolution).2.contents = Function.update vd.contents id
                ((vd.contents id).map fun value => (resolution, value.2)))
      ∧ (∀ id ∈ vd.list,
          (vd.destroy id).1 = .ok ()
            ∧ (vd.destroy id).2.list = vd.list.filter (fun other => other != id)
            ∧ (vd.destroy id).2.contents = Function.update vd.contents id none)
      ∧ ∀ id ∉ vd.list,
          (∀ resolution, vd.resize id resolution = (.error (.displayNotFound id.id), vd))
            ∧ vd.destroy id = (.error (.displayNotFound id.id), vd) := by
  intro vd
  have htracks : Tracks calls vd := tracks_run calls hcount
  refine ⟨⟨htracks.sublist, htracks.sublist.nodup htracks.nodup, htracks.mem_iff⟩,
    ⟨htracks.nodup, fun id hmem => ?_⟩, fun resolution refreshHz => ?_, fun id hmem resolution =>
      resize_of_mem hmem resolution, fun id hmem => ?_, fun id hmem => ?_⟩
  · exact UInt32.le_iff_toNat_le.mpr (htracks.numbered id hmem).1
  · exact ⟨⟨vd.nextId⟩, htracks.notMem_created, rfl, list_create vd resolution refreshHz,
      contents_create htracks.notMem_list resolution refreshHz⟩
  · exact ⟨destroy_of_mem hmem, list_destroy vd id, contents_destroy vd id⟩
  · exact ⟨resize_of_notMem hmem, destroy_of_notMem hmem⟩

theorem virtual_displays_are_a_map_twice :
    let vd := run step new [.create ⟨1920, 1080⟩ 60, .destroy ⟨7⟩, .create ⟨1280, 720⟩ 30]
    vd.list.Nodup :=
  (virtual_displays_are_a_map _ (by decide)).1.2.1

end QuicView.StubVirtualDisplay
