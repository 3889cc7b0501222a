import QuicView.Capture.GdiHandles

/-!
# Every handle of a capture is given back

A grab is followed call by call with the ledger of what it holds. The bitmap has to be out of the
memory context before it is deleted, so the old object must have been selected back: that is where
the answers of the system matter.
-/

namespace QuicView.GdiCaptureSource

open Execution Custody GdiCalls

variable {system : GdiSystem} {source : GdiCaptureSource} {before : List GdiEvent}

/-! ### The calls and the source without them -/

theorem run_bind_call {α β : Type} (answer : List GdiEvent → α) (event : α → GdiEvent)
    (next : α → GdiCalls β) (before : List GdiEvent) :
    (call answer event >>= next).run before
      = (next (answer before)).run (before ++ [event (answer before)]) := rfl

theorem run_ite_fst {α : Type} {c : Prop} [Decidable c] (p q : GdiCalls α) :
    ((if c then p else q).run before).1 = if c then (p.run before).1 else (q.run before).1 := by
  split <;> rfl

theorem grabCalls_result (system : GdiSystem) (source : GdiCaptureSource)
    (before : List GdiEvent) :
    ((grabCalls system source).run before).1 = grab (view system before source) source := by
  unfold grabCalls grab view
  cases source.active
  · rfl
  simp only [run_bind_call, run_ite_fst, deleteObject, deleteDC, releaseDC]
  refine if_congr (by simp) rfl (if_congr (by simp) rfl (if_congr (by simp) rfl
    (if_congr (by simp) rfl (if_congr (by simp) rfl ?_))))
  exact if_congr Iff.rfl rfl rfl

/-! ### Calls that end with nothing held -/

def deedsOf (events : List GdiEvent) : List (Deed GdiHandle) := events.flatMap GdiEvent.deeds

/-- Made with what the ledger says in hand, the calls are allowed one by one, hold three handles at
most, and leave nothing. -/
def GivesBack {α : Type} (before : List GdiEvent) (ledger : Ledger GdiHandle)
    (calls : GdiCalls α) : Prop :=
  ∃ events, (calls.run before).2 = before ++ events ∧ Moves 3 ledger (deedsOf events) empty

variable {α β : Type} {ledger : Ledger GdiHandle}

theorem givesBack_pure (value : α) : GivesBack before empty (pure value : GdiCalls α) :=
  ⟨[], (List.append_nil before).symm, moves_nil (Nat.zero_le 3)⟩

theorem givesBack_call {answer : List GdiEvent → α} {event : α → GdiEvent}
    {next : α → GdiCalls β} (after : Ledger GdiHandle)
    (hdeeds : Moves 3 ledger (event (answer before)).deeds after)
    (hnext : GivesBack (before ++ [event (answer before)]) after (next (answer before))) :
    GivesBack before ledger (call answer event >>= next) := by
  obtain ⟨events, hevents, hmoves⟩ := hnext
  refine ⟨event (answer before) :: events, ?_, ?_⟩
  · rw [run_bind_call, hevents, List.append_assoc, List.singleton_append]
  · rw [deedsOf, List.flatMap_cons]
    exact hdeeds.append hmoves

variable {dc memory bitmap replaced : Int64} {last : GdiCalls α}

theorem givesBack_releaseDC (hlast : ∀ before, GivesBack before empty last) :
    GivesBack before ⟨[.screen dc], []⟩ (do releaseDC 0 dc; last) := by
  have hstep : step ⟨[.screen dc], []⟩ (.release (GdiHandle.screen dc)) = empty := by
    simp [step, empty]
  refine givesBack_call empty (.cons (by simp [Allowed]) (by simp) ?_) (hlast _)
  rw [hstep]
  exact moves_nil (Nat.zero_le 3)

theorem givesBack_deleteDC {attached : List (GdiHandle × GdiHandle)}
    (hattached : ∀ entry ∈ attached, entry.1 = .memory memory ∧ ∃ object, entry.2 = .bitmap object)
    (hlast : ∀ before, GivesBack before empty last) :
    GivesBack before ⟨[.memory memory, .screen dc], attached⟩
      (do deleteDC memory; releaseDC 0 dc; last) := by
  have hcleared : (attached.filter fun entry => entry.1 ≠ GdiHandle.memory memory) = [] :=
    List.filter_eq_nil_iff.mpr fun entry hentry => by simp [(hattached entry hentry).1]
  refine givesBack_call ⟨[.screen dc], []⟩ ?_ (givesBack_releaseDC hlast)
  refine .cons ⟨List.mem_cons_self, fun entry hentry => ?_⟩ (by simp) ?_
  · obtain ⟨_, object, hobject⟩ := hattached entry hentry
    simp [hobject]
  · have hstep : step ⟨[.memory memory, .screen dc], attached⟩ (.release (.memory memory))
        = ⟨[.screen dc], []⟩ := by
      simp only [step, hcleared, List.erase_cons_head]
    rw [hstep]
    exact moves_nil (by simp)

def selection (memory bitmap replaced : Int64) : List (GdiHandle × GdiHandle) :=
  if replaced = 0 then [] else [(.memory memory, .bitmap bitmap)]

theorem givesBack_restore (hne : replaced ≠ bitmap)
    (hrestored : replaced ≠ 0 → system.selectObject before memory replaced ≠ 0)
    (hlast : ∀ before, GivesBack before empty last) :
    GivesBack before
      ⟨[.bitmap bitmap, .memory memory, .screen dc], selection memory bitmap replaced⟩
      (do
        let _ ← call (system.selectObject · memory replaced) (.selectObject memory replaced)
        deleteObject bitmap
        deleteDC memory
        releaseDC 0 dc
        last) := by
  -- whether or not the bitmap was selected, it is not selected after this
  obtain ⟨attached, hmoves, hattached⟩ : ∃ attached,
      Moves 3 ⟨[.bitmap bitmap, .memory memory, .screen dc], selection memory bitmap replaced⟩
        (GdiEvent.selectObject memory replaced
          (system.selectObject before memory replaced)).deeds
        ⟨[.bitmap bitmap, .memory memory, .screen dc], attached⟩
        ∧ ∀ entry ∈ attached, entry.1 = .memory memory
          ∧ ∃ object, entry.2 = .bitmap object ∧ object ≠ bitmap := by
    by_cases hanswer : system.selectObject before memory replaced = 0
    · have hzero : replaced = 0 := by
        by_contra hreplaced
        exact hrestored hreplaced hanswer
      refine ⟨[], ?_, fun _ hentry => absurd hentry List.not_mem_nil⟩
      rw [GdiEvent.deeds, if_pos hanswer, selection, if_pos hzero]
      exact .cons (by simp [Allowed]) (by simp) (moves_nil (by simp [step]))
    · refine ⟨[(.memory memory, .bitmap replaced)], ?_, ?_⟩
      · rw [GdiEvent.deeds, if_neg hanswer]
        refine .cons (by simp [Allowed]) (by simp) ?_
        refine .cons (by simp [Allowed, step]) (by simp [step]) ?_
        have hcleared : ((selection memory bitmap replaced).filter
            fun entry => entry.1 ≠ GdiHandle.memory memory) = [] := by
          unfold selection
          split <;> simp
        simp only [step, hcleared]
        exact moves_nil (by simp)
      · intro entry hentry
        obtain rfl := List.mem_singleton.mp hentry
        exact ⟨rfl, replaced, rfl, hne⟩
  refine givesBack_call _ hmoves ?_
  refine givesBack_call ⟨[.memory memory, .screen dc], attached⟩ ?_
    (givesBack_deleteDC (fun entry hentry => ?_) hlast)
  · refine .cons ⟨List.mem_cons_self, fun entry hentry => ?_⟩ (by simp) ?_
    · obtain ⟨hwhole, object, hpart, hother⟩ := hattached entry hentry
      simp [hwhole, hpart, hother]
    · have hkept : (attached.filter fun entry => entry.1 ≠ GdiHandle.bitmap bitmap) = attached :=
        List.filter_eq_self.mpr fun entry hentry => by simp [(hattached entry hentry).1]
      simp only [step, hkept, List.erase_cons_head]
      exact moves_nil (by simp)
  · obtain ⟨hwhole, object, hpart, _⟩ := hattached entry hentry
    exact ⟨hwhole, object, hpart⟩

/-! ### One grab, and any run -/

theorem moves_given {kind : Int64 → GdiHandle} {handle : Int64} (hgiven : handle ≠ 0)
    (hroom : ledger.held.length < 3) :
    Moves 3 ledger (given handle kind)
      { ledger with held := kind handle :: ledger.held } := by
  rw [given, if_neg hgiven]
  exact .cons trivial hroom.le (moves_nil hroom)

theorem moves_not_given {kind : Int64 → GdiHandle} {handle : Int64} (hgiven : handle = 0)
    (hroom : ledger.held.length < 3) : Moves 3 ledger (given handle kind) ledger := by
  rw [given, if_pos hgiven]
  exact moves_nil hroom.le

theorem grabCalls_givesBack (hlawful : system.Lawful) :
    GivesBack before empty (grabCalls system source) := by
  unfold grabCalls
  cases source.active
  · exact givesBack_pure _
  show GivesBack before empty (call _ _ >>= _)
  -- the device context of the screen
  by_cases hdc : system.getDC before 0 = 0
  · refine givesBack_call empty (moves_not_given hdc (Nat.zero_lt_succ 2)) ?_
    rw [if_pos hdc]
    exact givesBack_pure _
  refine givesBack_call ⟨[.screen (system.getDC before 0)], []⟩
    (moves_given hdc (Nat.zero_lt_succ 2)) ?_
  rw [if_neg hdc]
  generalize system.getDC before 0 = dc
  generalize before ++ [GdiEvent.getDC 0 dc] = before
  -- the one in memory
  by_cases hmemory : system.createCompatibleDC before dc = 0
  · refine givesBack_call ⟨[.screen dc], []⟩
      (.cons (by simp [Allowed]) (by simp) (moves_not_given hmemory (by simp [step]))) ?_
    rw [if_pos hmemory]
    exact givesBack_releaseDC fun _ => givesBack_pure _
  refine givesBack_call ⟨[.memory (system.createCompatibleDC before dc), .screen dc], []⟩
    (.cons (by simp [Allowed]) (by simp) (moves_given hmemory (by simp [step]))) ?_
  rw [if_neg hmemory]
  generalize system.createCompatibleDC before dc = memory
  generalize before ++ [GdiEvent.createCompatibleDC dc memory] = before
  -- the bitmap
  generalize source.resolution.width.toInt32 = w
  generalize source.resolution.height.toInt32 = h
  by_cases hbitmap : system.createCompatibleBitmap before dc w h = 0
  · refine givesBack_call ⟨[.memory memory, .screen dc], []⟩
      (.cons (by simp [Allowed]) (by simp) (moves_not_given hbitmap (by simp [step]))) ?_
    rw [if_pos hbitmap]
    exact givesBack_deleteDC (fun _ hentry => absurd hentry List.not_mem_nil)
      fun _ => givesBack_pure _
  have hne := hlawful.replaced_ne before dc w h _ memory hbitmap
  refine givesBack_call
    ⟨[.bitmap (system.createCompatibleBitmap before dc w h), .memory memory, .screen dc], []⟩
    (.cons (by simp [Allowed]) (by simp) (moves_given hbitmap (by simp [step]))) ?_
  rw [if_neg hbitmap]
  generalize system.createCompatibleBitmap before dc w h = bitmap at hne
  generalize before ++ [GdiEvent.createCompatibleBitmap dc w h bitmap] = before at hne
  -- its selection, which lasts until the old object is selected back
  have hrestored := hlawful.restored before memory bitmap (system.selectObject before memory bitmap)
  generalize hreplaced : system.selectObject before memory bitmap = replaced at hne hrestored
  let selected : Ledger GdiHandle :=
    ⟨[.bitmap bitmap, .memory memory, .screen dc], selection memory bitmap replaced⟩
  have hselect : Moves 3 ⟨[.bitmap bitmap, .memory memory, .screen dc], []⟩
      (GdiEvent.selectObject memory bitmap replaced).deeds selected := by
    refine .cons (by simp [Allowed]) (by simp) ?_
    unfold selected selection
    split
    · exact moves_nil (by simp [step])
    · exact .cons (by simp [Allowed, step]) (by simp [step]) (moves_nil (by simp [step]))
  refine givesBack_call selected (hreplaced ▸ hselect) ?_
  rw [hreplaced]
  -- drawing leaves the ledger as it is
  have huse : ∀ first second, first ∈ selected.held → second ∈ selected.held →
      Moves 3 selected [.use first, .use second] selected := fun first second hfirst hsecond =>
    .cons hfirst (Nat.le_refl 3) (.cons hsecond (Nat.le_refl 3) (moves_nil (Nat.le_refl 3)))
  refine givesBack_call selected (huse _ _ (by simp [selected]) (by simp [selected])) ?_
  by_cases hok : system.bitBlt (before ++ [.selectObject memory bitmap replaced]) memory w h dc = 0
  · rw [if_pos hok]
    refine givesBack_restore hne (fun hreplaced => ?_) fun _ => givesBack_pure _
    rw [List.append_assoc, List.singleton_append]
    exact hrestored _ hreplaced (by simp [GdiEvent.Draws])
  rw [if_neg hok]
  refine givesBack_call selected (huse _ _ (by simp [selected]) (by simp [selected])) ?_
  refine givesBack_restore hne (fun hreplaced => ?_) fun before => ?_
  · rw [List.append_assoc, List.append_assoc, List.singleton_append]
    exact hrestored _ hreplaced (by simp [GdiEvent.Draws])
  · split <;> exact givesBack_pure _

theorem takeCalls_givesBack (hlawful : system.Lawful) (capture : CaptureCall) :
    GivesBack before empty (takeCalls system source capture) := by
  cases capture with
  | enumerateDisplays =>
      exact givesBack_call empty (moves_nil (Nat.zero_le 3)) (givesBack_pure _)
  | start displayId =>
      exact givesBack_call empty (moves_nil (Nat.zero_le 3)) (givesBack_pure _)
  | grab =>
      have hgrab : GivesBack before empty (grabCalls system source) := grabCalls_givesBack hlawful
      obtain ⟨events, hevents, hmoves⟩ := hgrab
      exact ⟨events, hevents, hmoves⟩
  | stop => exact givesBack_pure _

theorem settled_runCalls (hlawful : system.Lawful) (calls : List CaptureCall) :
    Settled 3 (deedsOf (runCalls system calls).2) := by
  induction calls using List.reverseRecOn with
  | nil => exact moves_nil (Nat.zero_le 3)
  | append_singleton calls capture ih =>
      have hcalls : GivesBack (runCalls system calls).2 empty
          (takeCalls system (runCalls system calls).1 capture) :=
        takeCalls_givesBack hlawful capture
      obtain ⟨events, hevents, hmoves⟩ := hcalls
      have hafter : (runCalls system (calls ++ [capture])).2
          = (runCalls system calls).2 ++ events := by
        rw [runCalls, run_concat]
        exact hevents
      rw [hafter, deedsOf, List.flatMap_append]
      exact ih.append hmoves

def willing : GdiSystem where
  getSystemMetrics := fun _ => (2, 1)
  getDC := fun _ _ => 1
  createCompatibleDC := fun _ _ => 2
  createCompatibleBitmap := fun _ _ _ _ => 3
  selectObject := fun _ _ object => if object = 7 then 3 else 7
  bitBlt := fun _ _ _ _ _ => 1
  getDIBits := fun _ _ _ _ lines _ _ buffer => (lines.toInt32, ⟨buffer, rfl⟩)

theorem willing_lawful : willing.Lawful where
  replaced_ne := by
    intro before dc width height bitmap memory _
    show (if bitmap = 7 then (3 : Int64) else 7) ≠ bitmap
    by_cases hbitmap : bitmap = 7
    · rw [if_pos hbitmap, hbitmap]
      decide
    · rw [if_neg hbitmap]
      exact fun heq => hbitmap heq.symm
  restored := by
    intro before memory bitmap replaced drawn _ _
    show (if replaced = 7 then (3 : Int64) else 7) ≠ 0
    split <;> decide

end QuicView.GdiCaptureSource
