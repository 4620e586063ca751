import EntropySeal.Proofs.Pool.State

/-!
# The windows that drawing passes over

The block of number `j` that is drawn from a pool masks one window, at a place that
depends on `j` alone (`position_after`).  The places of blocks whose numbers differ by
less than the number of windows are apart (`not_covers_place`).  So as long as drawing
has not come round, each block masks a window that no other block has touched
(`field_after`), and whatever lies outside these windows stays what it was
(`getElem?_after`).
-/

namespace EntropySeal.Pool.State

variable {s : State}

/-! ## One block after the other -/

/-- The pool after `k` blocks were taken. -/
def after (s : State) : Nat → State
  | 0 => s
  | k + 1 => s.advance.after k

theorem after_add (s : State) (j k : Nat) : s.after (j + k) = (s.after j).after k := by
  induction j generalizing s with
  | zero => rw [Nat.zero_add, after]
  | succ j ih => rw [Nat.succ_add, after, after, ih]

theorem after_succ (s : State) (k : Nat) : s.after (k + 1) = (s.after k).advance :=
  s.after_add k 1

/-- The first `k` blocks of a pool. -/
def blocks (s : State) (k : Nat) : List Bytes :=
  (List.range k).map fun j => (s.after j).block

theorem length_of_mem_blocks {k : Nat} {block : Bytes} (member : block ∈ s.blocks k) :
    block.length = blockSize := by
  obtain ⟨j, -, rfl⟩ := List.mem_map.mp member
  exact Digest.Sha2.length_sha256 _

theorem Valid.after (valid : s.Valid) (k : Nat) : (s.after k).Valid := by
  induction k generalizing s with
  | zero => exact valid
  | succ k ih => exact ih valid.advance

/-! ## Places -/

/-- The place of the window that the block of number `j` masks. -/
def place (s : State) (j : Nat) : Nat :=
  (s.position + blockSize * j) % poolSize

theorem position_after (valid : s.Valid) (k : Nat) : (s.after k).position = s.place k := by
  induction k with
  | zero => exact (Nat.mod_eq_of_lt valid.inside).symm
  | succ k ih =>
      rw [after_succ]
      change ((s.after k).position + blockSize) % poolSize = _
      rw [ih, place, place, Nat.mod_add_mod, Nat.mul_succ, Nat.add_assoc]

theorem place_after (valid : s.Valid) (j k : Nat) : (s.after j).place k = s.place (j + k) := by
  rw [place, position_after valid, place, place, Nat.mod_add_mod, Nat.mul_add, Nat.add_assoc]

/-- The byte of number `i` lies in the window at a place. -/
def Covers (place i : Nat) : Prop :=
  place ≤ i ∧ i < place + blockSize

/-- Windows in a pool. -/
def windowCount : Nat :=
  poolSize / blockSize

/-- Windows lie side by side, and drawing passes over all of them before it comes round. -/
theorem not_covers_place (valid : s.Valid) {j m i : Nat} (later : j < m)
    (near : m < j + windowCount) (covers : Covers (s.place m) i) : ¬Covers (s.place j) i := by
  obtain ⟨a, aligned⟩ := valid.aligned
  intro covers'
  simp only [Covers, place, aligned, windowCount, poolSize, blockSize] at *
  omega

/-! ## One step -/

/-- Parts of two byte strings are equal that have the same bytes. -/
theorem field_congr {a b : Bytes} {offset size : Nat}
    (same : ∀ i, offset ≤ i → i < offset + size → a[i]? = b[i]?) :
    field a offset size = field b offset size := by
  apply List.ext_getElem?
  intro i
  rw [field, field, List.getElem?_take, List.getElem?_take]
  by_cases inside : i < size
  · rw [if_pos inside, if_pos inside, List.getElem?_drop, List.getElem?_drop]
    exact same (offset + i) (Nat.le_add_right _ _) (Nat.add_lt_add_left inside _)
  · rw [if_neg inside, if_neg inside]

namespace Valid

variable (valid : s.Valid)

include valid

theorem length_front : (s.bytes.take s.position).length = s.position := by
  have window := valid.window
  exact List.length_take_of_le (by omega)

theorem length_masked :
    (Bytes.xor (field s.bytes s.position blockSize) (advanceMask s.block)).length = blockSize := by
  rw [Bytes.length_xor, length_field valid.window, length_advanceMask, Nat.min_self]

/-- The window at the position is masked. -/
theorem field_advance : field s.advance.bytes s.position blockSize =
    Bytes.xor (field s.bytes s.position blockSize) (advanceMask s.block) := by
  have start := valid.length_front
  have long := valid.length_masked
  change field (s.bytes.take s.position ++ _ ++ _) s.position blockSize = _
  rw [List.append_assoc]
  exact field_append start long _

/-- The other windows are left alone. -/
theorem getElem?_advance {i : Nat} (outside : ¬Covers s.position i) :
    s.advance.bytes[i]? = s.bytes[i]? := by
  have start := valid.length_front
  have long := valid.length_masked
  have window := valid.window
  change (s.bytes.take s.position ++ Bytes.xor (field s.bytes s.position blockSize) _ ++
    s.bytes.drop (s.position + blockSize))[i]? = _
  rw [Covers, not_and_or, Nat.not_le, Nat.not_lt] at outside
  rcases outside with before | behind
  · rw [List.append_assoc, List.getElem?_append_left (by omega), List.getElem?_take_of_lt before]
  · rw [List.getElem?_append_right (by rw [List.length_append]; omega), List.length_append, start,
      long, List.getElem?_drop, Nat.add_sub_cancel' behind]

/-! ## Many steps -/

/-- What lies outside the windows of `k` blocks stays what it was. -/
theorem getElem?_after {k i : Nat} (outside : ∀ j < k, ¬Covers (s.place j) i) :
    (s.after k).bytes[i]? = s.bytes[i]? := by
  induction k with
  | zero => rfl
  | succ k ih =>
      have last : ¬Covers (s.after k).position i := by
        rw [position_after valid]
        exact outside k (Nat.lt_succ_self k)
      rw [after_succ, (valid.after k).getElem?_advance last]
      exact ih fun j before => outside j (Nat.lt_succ_of_lt before)

/-- The window of a block is as it was before the block is taken, and stays as it was
masked for it. -/
theorem field_after {j k : Nat} (taken : j < k) (few : k ≤ windowCount) :
    field (s.after k).bytes (s.place j) blockSize =
      Bytes.xor (field s.bytes (s.place j) blockSize) (advanceMask (s.after j).block) := by
  obtain ⟨rest, rfl⟩ := Nat.exists_eq_add_of_lt taken
  have before : field (s.after j).bytes (s.place j) blockSize =
      field s.bytes (s.place j) blockSize := by
    apply field_congr
    intro i low high
    apply valid.getElem?_after
    intro m earlier
    exact not_covers_place valid earlier (by omega) ⟨low, high⟩
  have masked := (valid.after j).field_advance
  rw [← after_succ, position_after valid, before] at masked
  have behind : field (s.after (j + rest + 1)).bytes (s.place j) blockSize =
      field (s.after (j + 1)).bytes (s.place j) blockSize := by
    apply field_congr
    intro i low high
    rw [Nat.add_right_comm, after_add]
    apply (valid.after (j + 1)).getElem?_after
    intro m later covers
    rw [place_after valid] at covers
    exact not_covers_place valid (by omega) (by omega) covers ⟨low, high⟩
  exact behind.trans masked

end Valid

end EntropySeal.Pool.State
