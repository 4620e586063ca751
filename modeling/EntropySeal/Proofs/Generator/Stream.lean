import EntropySeal.Proofs.Generator.Stretch

/-!
# The stream of a stretching generator

The blocks that a generator makes one after the other are its stream.  With a digest
that honours its announced size, a request is a piece of the stream: it begins with
the next block, and what it leaves of its last block is dropped.  So a request is the
beginning of every greater one, and requests for whole blocks can be put together
(`nextBytes_stream`).
-/

namespace EntropySeal.Stretcher

variable {g : Stretcher}

/-! ## Pieces of the stream -/

section Pieces

variable (honours : g.digest.Honours) (sizePos : 0 < g.digest.size)

include honours sizePos

/-- The stream is read block by block. -/
theorem getElem?_flatten_blocksFrom {i k : Nat} (inside : i < k * g.digest.size) :
    (g.blocksFrom k).flatten[i]? =
      (g.after (i / g.digest.size + 1)).block[i % g.digest.size]? := by
  induction k generalizing g i with
  | zero =>
      rw [Nat.zero_mul] at inside
      exact absurd inside (Nat.not_lt_zero i)
  | succ k ih =>
      have honours' : g.generate.digest.Honours := by rwa [digest_generate]
      have length : g.generate.block.length = g.digest.size := by
        rw [block_generate]
        exact honours _
      rw [blocksFrom, List.flatten_cons]
      rcases Nat.lt_or_ge i g.digest.size with first | later
      · rw [List.getElem?_append_left (by omega), Nat.div_eq_of_lt first, Nat.mod_eq_of_lt first]
        rfl
      · have rest : i - g.digest.size < k * g.digest.size := by
          rw [Nat.succ_mul] at inside
          omega
        rw [List.getElem?_append_right (by omega), length, Nat.div_eq_sub_div sizePos later,
          Nat.mod_eq_sub_mod later, after]
        have shifted := ih honours' (by rwa [digest_generate]) (by rwa [digest_generate])
        rwa [digest_generate] at shifted

theorem getElem?_bytes_served {i n : Nat} (inside : i < n) :
    (g.served n (blocksFor g.digest.size n)).bytes[i]? =
      (g.after (i / g.digest.size + 1)).block[i % g.digest.size]? := by
  have held := le_blocksFor_mul sizePos n
  rw [← getElem?_flatten_blocksFrom honours sizePos (Nat.lt_of_lt_of_le inside held)]
  exact List.getElem?_take_of_lt inside

theorem bytes_served_prefix {m n : Nat} (le : m ≤ n) :
    (g.served m (blocksFor g.digest.size m)).bytes <+:
      (g.served n (blocksFor g.digest.size n)).bytes := by
  obtain ⟨k, more⟩ := Nat.exists_eq_add_of_le (blocksFor_mono g.digest.size le)
  have enough : m ≤ (g.blocksFrom (blocksFor g.digest.size m)).flatten.length := by
    rw [length_flatten_blocksFrom honours]
    exact le_blocksFor_mul sizePos m
  simp only [served]
  rw [more, blocksFrom_add, List.flatten_append, ← List.take_append_of_le_length enough]
  exact List.take_prefix_take_left le

/-- A request for whole blocks and the one after it are one request. -/
theorem nextBytes_add {m : Nat} (whole : g.digest.size ∣ m) (n : Nat) :
    ∃ first second, g.nextBytes m = .ok first ∧ first.next.nextBytes n = .ok second ∧
      g.nextBytes (m + n) =
        .ok ⟨first.bytes ++ second.bytes, first.blocks + second.blocks, second.next⟩ := by
  have honours' : (g.after (blocksFor g.digest.size m)).digest.Honours := by rwa [digest_after]
  have sizePos' : 0 < (g.after (blocksFor g.digest.size m)).digest.size := by rwa [digest_after]
  refine ⟨_, _, nextBytes_eq honours sizePos m, nextBytes_eq honours' sizePos' n, ?_⟩
  rw [nextBytes_eq honours sizePos, blocksFor_add_of_dvd sizePos whole, digest_after,
    ← bytes_served_add honours sizePos whole]
  simp only [served, after_add]

/-- A request is served with the beginning of the stream, from the least number of
blocks that hold it, each byte from the block that its place falls into.  So it is the
beginning of every greater request, requests that take equally many blocks leave the
same generator, and after a request for whole blocks the next one goes on where it
stopped. -/
theorem nextBytes_stream :
    (∀ n, g.nextBytes n = .ok (g.served n (blocksFor g.digest.size n)) ∧
      (g.served n (blocksFor g.digest.size n)).bytes.length = n ∧
      ∀ i < n, (g.served n (blocksFor g.digest.size n)).bytes[i]? =
        (g.after (i / g.digest.size + 1)).block[i % g.digest.size]?) ∧
    (∀ m n less more, g.nextBytes m = .ok less → g.nextBytes n = .ok more →
      (m ≤ n → less.bytes <+: more.bytes) ∧
      (less.blocks = more.blocks → less.next = more.next)) ∧
    ∀ m n, g.digest.size ∣ m → ∃ first second,
      g.nextBytes m = .ok first ∧ first.next.nextBytes n = .ok second ∧
      g.nextBytes (m + n) =
        .ok ⟨first.bytes ++ second.bytes, first.blocks + second.blocks, second.next⟩ := by
  constructor
  · intro n
    constructor
    · exact nextBytes_eq honours sizePos n
    · constructor
      · exact length_bytes_served honours sizePos n
      · intro i inside
        exact getElem?_bytes_served honours sizePos inside
  · constructor
    · intro m n less more served served'
      rw [nextBytes_eq honours sizePos] at served served'
      cases served
      cases served'
      constructor
      · exact bytes_served_prefix honours sizePos
      · intro blocks
        exact congrArg g.after blocks
    · intro m n whole
      exact nextBytes_add honours sizePos whole n

end Pieces

/-! ### A stream that shows its counter -/

/-- The first two bytes of what is hashed, which are the low ones of the counter. -/
def counting : Digest :=
  ⟨"counting", 16, fun data => (data ++ [0, 0]).take 2⟩

theorem honours_counting : counting.Honours := by
  intro data
  change ((data ++ [0, 0]).take 2).length = 2
  simp

/-- Two bytes and then three are five bytes from three blocks. -/
theorem nextBytes_stream_counting : ∃ first second,
    (new counting).nextBytes 2 = .ok first ∧ first.next.nextBytes 3 = .ok second ∧
    (new counting).nextBytes 5 =
      .ok ⟨first.bytes ++ second.bytes, first.blocks + second.blocks, second.next⟩ ∧
    first.bytes ++ second.bytes = [1, 0, 2, 0, 3] ∧ first.blocks + second.blocks = 3 := by
  obtain ⟨whole, -, pieces⟩ := nextBytes_stream (g := new counting) honours_counting (by decide)
  obtain ⟨first, second, served, served', together⟩ := pieces 2 3 (by decide)
  have five := (whole 5).1
  rw [together] at five
  have same := Except.ok.inj five
  exact ⟨first, second, served, served', together, (congrArg Stretched.bytes same).trans (by decide),
    (congrArg Stretched.blocks same).trans (by decide)⟩

end EntropySeal.Stretcher
