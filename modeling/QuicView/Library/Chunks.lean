import Mathlib.Data.List.OfFn

/-!
# Chunks of one size

A list is cut into chunks of a fixed size, and what does not fill a last chunk is left over. The
size of a chunk is part of its type, so what is done to a chunk never runs past its end.
-/

namespace Chunks

variable {α β : Type*} {size : ℕ}

theorem chunk_index_lt_mul {count i c : ℕ} (hi : i < count) (hc : c < size) :
    size * i + c < size * count :=
  calc size * i + c < size * (i + 1) := by rw [Nat.mul_succ]; omega
    _ ≤ size * count := Nat.mul_le_mul_left size hi

theorem chunk_index_lt {length i c : ℕ} (hi : i < length / size) (hc : c < size) :
    size * i + c < length :=
  calc size * i + c < size * (length / size) := chunk_index_lt_mul hi hc
    _ ≤ length := Nat.mul_div_le length size

def chunksExact (size : ℕ) (l : List α) : List (Vector α size) :=
  List.ofFn fun i : Fin (l.length / size) =>
    Vector.ofFn fun c : Fin size => l.get ⟨size * i + c, chunk_index_lt i.isLt c.isLt⟩

def chunksRemainder (size : ℕ) (l : List α) : List α := l.drop (size * (l.length / size))

def ofChunks (chunks : List (Vector α size)) : List α := chunks.flatMap Vector.toList

def modifyChunks (size : ℕ) (f : Vector α size → Vector α size) (l : List α) : List α :=
  ofChunks ((chunksExact size l).map f) ++ chunksRemainder size l

@[simp]
theorem length_chunksExact (l : List α) : (chunksExact size l).length = l.length / size :=
  List.length_ofFn

theorem some_getElem_chunksExact (l : List α) {i c : ℕ} (hi : i < (chunksExact size l).length)
    (hc : c < size) : some (chunksExact size l)[i][c] = l[size * i + c]? := by
  have hlt := chunk_index_lt (length_chunksExact l ▸ hi) hc
  rw [List.getElem?_eq_getElem hlt]
  simp [chunksExact]

@[simp]
theorem ofChunks_nil : ofChunks ([] : List (Vector α size)) = [] := rfl

@[simp]
theorem ofChunks_cons (chunk : Vector α size) (chunks : List (Vector α size)) :
    ofChunks (chunk :: chunks) = chunk.toList ++ ofChunks chunks := rfl

@[simp]
theorem length_ofChunks (chunks : List (Vector α size)) :
    (ofChunks chunks).length = size * chunks.length := by
  induction chunks with
  | nil => rfl
  | cons chunk chunks ih =>
      rw [ofChunks_cons, List.length_append, ih, Vector.length_toList, List.length_cons,
        Nat.mul_succ, Nat.add_comm]

theorem getElem?_ofChunks (chunks : List (Vector α size)) (i : ℕ) {c : ℕ} (hc : c < size) :
    (ofChunks chunks)[size * i + c]? = chunks[i]?.map fun chunk => chunk[c] := by
  induction chunks generalizing i with
  | nil => rfl
  | cons chunk chunks ih =>
      cases i with
      | zero =>
          rw [ofChunks_cons, Nat.mul_zero, Nat.zero_add,
            List.getElem?_append_left (by rwa [Vector.length_toList])]
          simp [hc]
      | succ i =>
          have hskip : size * (i + 1) + c - chunk.toList.length = size * i + c := by
            rw [Vector.length_toList, Nat.mul_succ]
            omega
          have hpast : chunk.toList.length ≤ size * (i + 1) + c := by
            rw [Vector.length_toList, Nat.mul_succ]
            omega
          rw [ofChunks_cons, List.getElem?_append_right hpast, hskip, ih, List.getElem?_cons_succ]

/-! ### Cutting and joining

Chunks that are joined and cut again are the same chunks, and what was left over is left over again.
-/

theorem chunksExact_append (hpos : 0 < size) (chunks : List (Vector α size)) {rest : List α}
    (hrest : rest.length < size) : chunksExact size (ofChunks chunks ++ rest) = chunks := by
  have hlength : (chunksExact size (ofChunks chunks ++ rest)).length = chunks.length := by
    rw [length_chunksExact, List.length_append, length_ofChunks, Nat.mul_add_div hpos,
      Nat.div_eq_of_lt hrest, Nat.add_zero]
  refine List.ext_getElem hlength fun i hi hi' => Vector.ext fun c hc => ?_
  have hlt : size * i + c < (ofChunks chunks).length := by
    rw [length_ofChunks]
    exact chunk_index_lt_mul hi' hc
  apply Option.some.inj
  rw [some_getElem_chunksExact _ hi hc, List.getElem?_append_left hlt, getElem?_ofChunks _ _ hc,
    List.getElem?_eq_getElem hi', Option.map_some]

theorem chunksRemainder_append (hpos : 0 < size) (chunks : List (Vector α size)) {rest : List α}
    (hrest : rest.length < size) : chunksRemainder size (ofChunks chunks ++ rest) = rest := by
  have hlength : (ofChunks chunks ++ rest).length / size = chunks.length := by
    rw [List.length_append, length_ofChunks, Nat.mul_add_div hpos, Nat.div_eq_of_lt hrest,
      Nat.add_zero]
  rw [chunksRemainder, hlength, ← length_ofChunks, List.drop_left]

theorem length_chunksRemainder (l : List α) :
    (chunksRemainder size l).length = l.length % size := by
  rw [chunksRemainder, List.length_drop, Nat.mod_eq_sub_mul_div]

theorem ofChunks_chunksExact (hpos : 0 < size) (l : List α) :
    ofChunks (chunksExact size l) = l.take (size * (l.length / size)) := by
  have hle := Nat.mul_div_le l.length size
  have hlength : (ofChunks (chunksExact size l)).length
      = (l.take (size * (l.length / size))).length := by
    rw [length_ofChunks, length_chunksExact, List.length_take, Nat.min_eq_left hle]
  refine List.ext_getElem hlength fun k hk hk' => ?_
  rw [length_ofChunks] at hk
  have hi : k / size < (chunksExact size l).length := Nat.div_lt_of_lt_mul hk
  have hc := Nat.mod_lt k hpos
  have hchunk := getElem?_ofChunks (chunksExact size l) (k / size) hc
  rw [List.getElem?_eq_getElem hi, Option.map_some, some_getElem_chunksExact l hi hc,
    Nat.div_add_mod] at hchunk
  apply Option.some.inj
  rw [← List.getElem?_eq_getElem, ← List.getElem?_eq_getElem, hchunk, List.getElem?_take_of_lt]
  rwa [length_chunksExact] at hk

theorem ofChunks_append_chunksRemainder (hpos : 0 < size) (l : List α) :
    ofChunks (chunksExact size l) ++ chunksRemainder size l = l := by
  rw [ofChunks_chunksExact hpos, chunksRemainder, List.take_append_drop]

/-! ### Replacing in place -/

theorem chunksExact_modifyChunks (hpos : 0 < size) (f : Vector α size → Vector α size)
    (l : List α) : chunksExact size (modifyChunks size f l) = (chunksExact size l).map f :=
  chunksExact_append hpos _ (length_chunksRemainder l ▸ Nat.mod_lt _ hpos)

theorem length_modifyChunks (f : Vector α size → Vector α size) (l : List α) :
    (modifyChunks size f l).length = l.length := by
  rw [modifyChunks, List.length_append, length_ofChunks, List.length_map, length_chunksExact,
    length_chunksRemainder, Nat.div_add_mod]

theorem getElem?_modifyChunks (f : Vector α size → Vector α size) (l : List α) {i c : ℕ}
    (hi : i < (chunksExact size l).length) (hc : c < size) :
    (modifyChunks size f l)[size * i + c]? = some (f (chunksExact size l)[i])[c] := by
  have hlt : size * i + c < (ofChunks ((chunksExact size l).map f)).length := by
    rw [length_ofChunks, List.length_map]
    exact chunk_index_lt_mul hi hc
  rw [modifyChunks, List.getElem?_append_left hlt, getElem?_ofChunks _ _ hc, List.getElem?_map,
    List.getElem?_eq_getElem hi, Option.map_some, Option.map_some]

theorem modifyChunks_modifyChunks (hpos : 0 < size) {f g : Vector α size → Vector α size}
    (hinverse : ∀ chunk, g (f chunk) = chunk) (l : List α) :
    modifyChunks size g (modifyChunks size f l) = l := by
  have hrest : chunksRemainder size (modifyChunks size f l) = chunksRemainder size l :=
    chunksRemainder_append hpos _ (length_chunksRemainder l ▸ Nat.mod_lt _ hpos)
  have hmap : ((chunksExact size l).map f).map g = chunksExact size l := by
    rw [List.map_map]
    exact List.map_id'' hinverse _
  rw [modifyChunks, chunksExact_modifyChunks hpos, hrest, hmap,
    ofChunks_append_chunksRemainder hpos]

end Chunks
