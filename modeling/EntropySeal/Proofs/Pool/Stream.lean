import EntropySeal.Proofs.Generator.Stretch
import EntropySeal.Proofs.Pool.Stored
import EntropySeal.Proofs.Pool.Windows

/-!
# The stream of a pool

A request is served from the first blocks of the pool, as many as hold it, so a pool
has one stream that every request begins (`bytes_take_prefix`).  A request for whole
blocks can be cut off in front of another one: the pool goes on where it stopped
(`take_add`).

For a pool that is kept in a file, the same is said of the file.
-/

namespace EntropySeal

namespace Pool.State

variable {s : State}

/-- What drawing `k` blocks makes of a pool. -/
structure Drawn (s : State) (k : Nat) (next : State) : Prop where
  size : next.bytes.length = 3072
  position : next.position = (s.position + 32 * k) % 3072
  /-- Before drawing comes round, each block masks one window, and no two mask the same. -/
  masked : k ≤ 96 → ∀ j < k,
    field next.bytes ((s.position + 32 * j) % 3072) 32 =
      Bytes.xor (field s.bytes ((s.position + 32 * j) % 3072) 32)
        (advanceMask (s.after j).block)
  /-- Outside these windows nothing changes. -/
  kept : ∀ i, (∀ j < k, ¬((s.position + 32 * j) % 3072 ≤ i ∧
      i < (s.position + 32 * j) % 3072 + 32)) → next.bytes[i]? = s.bytes[i]?

theorem Valid.drawn (valid : s.Valid) (k : Nat) : s.Drawn k (s.after k) where
  size := (valid.after k).size
  position := position_after valid k
  masked few _ taken := valid.field_after taken few
  kept _ outside := valid.getElem?_after outside

end Pool.State

namespace StoredPool

open Pool (State)

variable {σ : Type} [Machine σ]

/-- The pool after `k` more blocks were taken. -/
def after (p : StoredPool) (k : Nat) : StoredPool :=
  { p with state := p.state.after k }

/-- What a request takes from the pool does not depend on the write that follows. -/
theorem fill_fst (p : StoredPool) (n : Nat) (t : Traced σ) :
    (p.fill n t).1.1.bytes = (p.state.take n).1 ∧
      (p.fill n t).1.2 = { p with state := (p.state.take n).2 } := by
  rcases Nat.eq_zero_or_pos n with rfl | positive
  · exact ⟨rfl, rfl⟩
  · rw [run_fill p positive]
    exact ⟨rfl, rfl⟩

end StoredPool

end EntropySeal
