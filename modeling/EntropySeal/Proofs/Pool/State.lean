import EntropySeal.Pool.State
import EntropySeal.Proofs.Pool.Record

/-!
# A pool keeps its shape

The size of a pool is a multiple of the size of a window, and the position
moves on by whole windows.  So the window at the position never runs over the
end of the pool (`Valid.window`), and neither drawing nor stirring makes a pool
that could not be on disk.

`advanceWithin` refuses to cut a window that is not all there; for a valid pool
it never does, whatever is drawn (`drawWithin_eq`).
-/

namespace EntropySeal

namespace Bytes

/-- Where the size of the blocks divides the length, no block is cut short. -/
theorem length_of_mem_blocks {size : Nat} (pos : 0 < size) {data block : Bytes}
    (whole : size ∣ data.length) (member : block ∈ blocks size data) :
    block.length = size := by
  fun_induction blocks size data with
  | case1 => simp at member
  | case2 b rest ih =>
      have full : size ≤ rest.length + 1 := Nat.le_of_dvd (Nat.succ_pos _) whole
      rcases List.mem_cons.mp member with rfl | later
      · rw [List.length_cons, List.length_take]
        omega
      · apply ih _ later
        have left : (rest.drop (size - 1)).length = (b :: rest).length - size := by
          rw [List.length_drop, List.length_cons]
          omega
        rw [left]
        exact Nat.dvd_sub whole (Nat.dvd_refl size)

end Bytes

namespace Pool.State

variable {s : State}

theorem length_advanceMask (block : Bytes) : (advanceMask block).length = blockSize :=
  Digest.Sha2.length_sha256 _

theorem length_stirMask (material : Bytes) (i : Nat) (window : Bytes) :
    (stirMask material i window).length = blockSize :=
  Digest.Sha2.length_sha256 _

/-- Stirring masks windows in place: none is longer than its mask. -/
theorem length_stirWindows (material : Bytes) {windows : List Bytes}
    (short : ∀ window ∈ windows, window.length ≤ blockSize) (i : Nat) :
    (stirWindows material i windows).length = windows.flatten.length := by
  induction windows generalizing i with
  | nil => rfl
  | cons window rest ih =>
      have covered : window.length ≤ blockSize := short window List.mem_cons_self
      rw [stirWindows, List.length_append, Bytes.length_xor, length_stirMask,
        Nat.min_eq_left covered, ih fun w member => short w (List.mem_cons_of_mem _ member),
        List.flatten_cons, List.length_append]

namespace Valid

/-- The window at the position lies within the pool. -/
theorem window (valid : s.Valid) : s.position + blockSize ≤ s.bytes.length := by
  obtain ⟨k, aligned⟩ := valid.aligned
  have inside := valid.inside
  rw [valid.size]
  simp only [poolSize, blockSize] at *
  omega

/-- The position moves on by one window, from the last one to the first. -/
theorem advance (valid : s.Valid) : s.advance.Valid where
  size := by
    have window := valid.window
    have size := valid.size
    simp only [State.advance, List.length_append, Bytes.length_xor, length_advanceMask,
      List.length_take, List.length_drop]
    omega
  inside := Nat.mod_lt _ (by decide)
  aligned := by
    have divides : blockSize ∣ poolSize := by decide
    exact (Nat.dvd_mod_iff divides).mpr (Nat.dvd_add valid.aligned (Nat.dvd_refl _))

theorem draw (valid : s.Valid) (k : Nat) : (State.draw k s).2.Valid := by
  induction k generalizing s with
  | zero => exact valid
  | succ k ih => exact ih valid.advance

theorem take (valid : s.Valid) (n : Nat) : (State.take n s).2.Valid :=
  valid.draw (blockCount n)

/-- Every window that is stirred is a whole one. -/
theorem length_window (valid : s.Valid) {window : Bytes}
    (member : window ∈ Bytes.blocks blockSize s.bytes) : window.length = blockSize := by
  apply Bytes.length_of_mem_blocks (by decide) _ member
  rw [valid.size]
  decide

theorem stir (valid : s.Valid) (material : Bytes) : (s.stir material).Valid where
  size := by
    have short : ∀ window ∈ Bytes.blocks blockSize s.bytes, window.length ≤ blockSize :=
      fun _ member => Nat.le_of_eq (valid.length_window member)
    rw [State.stir, length_stirWindows material short, Bytes.flatten_blocks, valid.size]
  inside := valid.inside
  aligned := valid.aligned

end Valid

/-! ## Drawing within bounds -/

/-- Taking the next block from a pool that holds the whole window for it. -/
def advanceWithin (s : State) : Option State := do
  let window ← field? s.bytes s.position blockSize
  pure {
    position := (s.position + blockSize) % poolSize
    bytes :=
      s.bytes.take s.position ++ Bytes.xor window (advanceMask s.block) ++
        s.bytes.drop (s.position + blockSize) }

/-- Drawing that gives nothing at all once a window runs over the end. -/
def drawWithin : Nat → State → Option (List Bytes × State)
  | 0, s => some ([], s)
  | k + 1, s => do
      let next ← s.advanceWithin
      let (blocks, last) ← drawWithin k next
      pure (s.block :: blocks, last)

theorem advanceWithin_eq (valid : s.Valid) : s.advanceWithin = some s.advance := by
  rw [advanceWithin, field?_eq_some valid.window]
  rfl

/-- No draw from a valid pool cuts a window that is not all there. -/
theorem drawWithin_eq (valid : s.Valid) (k : Nat) : drawWithin k s = some (draw k s) := by
  induction k generalizing s with
  | zero => rfl
  | succ k ih =>
      rw [drawWithin, advanceWithin_eq valid]
      change (drawWithin k s.advance).bind _ = _
      rw [ih valid.advance]
      rfl

end Pool.State

end EntropySeal
