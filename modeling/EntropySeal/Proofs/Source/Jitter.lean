import EntropySeal.Source.Jitter
import Mathlib.Data.List.Basic

/-!
# Folding jitter

The bytes taken from successive durations are laid out in rows of the width asked
for, and each byte of the result is the exclusive or of one column
(`foldInto_eq_columns`).  So every byte goes into the result, and into one place of
it only.

Three durations go into a byte and the next byte takes one more, so the durations
that are read make more bytes than are asked for, and folding never comes up short.
-/

namespace EntropySeal.Jitter

/-! ## Timing -/

section Neighbours

variable {α β γ : Type}

@[simp]
theorem length_neighbours (f : α → α → β) (l : List α) :
    (neighbours f l).length = l.length - 1 := by
  fun_induction neighbours f l with
  | case1 x y rest ih => simp [ih]
  | case2 l short =>
      match l, short with
      | [], _ => rfl
      | [_], _ => rfl
      | x :: y :: rest, short => exact absurd rfl (short x y rest)

theorem neighbours_map (f : β → β → γ) (g : α → β) (l : List α) :
    neighbours f (l.map g) = neighbours (fun x y => f (g x) (g y)) l := by
  fun_induction neighbours (fun x y => f (g x) (g y)) l with
  | case1 x y rest ih =>
      rw [← ih]
      rfl
  | case2 l short =>
      match l, short with
      | [], _ => rfl
      | [_], _ => rfl
      | x :: y :: rest, short => exact absurd rfl (short x y rest)

end Neighbours

theorem length_timingBytes (readings : List UInt64) (m : Nat) :
    (timingBytes readings m).length = min m (readings.length - 2) := by
  simp only [timingBytes, List.length_take, length_neighbours, Nat.sub_sub]

/-- Only differences of readings count, so it does not matter when a clock was
started. -/
theorem timingBytes_map_add (readings : List UInt64) (c : UInt64) (m : Nat) :
    timingBytes (readings.map (· + c)) m = timingBytes readings m := by
  have cancel (x y : UInt64) : y + c - (x + c) = y - x := by grind
  simp only [timingBytes, neighbours_map, cancel]

/-! ## Columns -/

/-- The exclusive or of bytes. -/
def total (bs : Bytes) : UInt8 :=
  bs.foldr (· ^^^ ·) 0

/-- The bytes at the places with remainder `j` modulo `n`, where the first byte is at
place `start`. -/
def column (n j start : Nat) (raw : Bytes) : Bytes :=
  ((raw.zipIdx start).filter fun p => p.2 % n = j).map Prod.fst

variable {n j start : Nat}

theorem total_cons (b : UInt8) (bs : Bytes) : total (b :: bs) = b ^^^ total bs :=
  rfl

theorem total_append (a b : Bytes) : total (a ++ b) = total a ^^^ total b := by
  induction a with
  | nil => exact UInt8.zero_xor.symm
  | cons x a ih => rw [List.cons_append, total_cons, total_cons, ih, UInt8.xor_assoc]

theorem total_column_cons (b : UInt8) (bs : Bytes) :
    total (column n j start (b :: bs)) =
      (if start % n = j then b else 0) ^^^ total (column n j (start + 1) bs) := by
  rw [column, List.zipIdx_cons, List.filter_cons]
  by_cases here : start % n = j
  · simp only [here, decide_true, if_true]
    rfl
  · simp only [here, decide_false, if_false, UInt8.zero_xor]
    rfl

theorem total_column_append (a b : Bytes) :
    total (column n j start (a ++ b)) =
      total (column n j start a) ^^^ total (column n j (start + a.length) b) := by
  rw [column, List.zipIdx_append, List.filter_append, List.map_append, total_append]
  rfl

/-- Columns start anew with every row. -/
theorem total_column_add (raw : Bytes) :
    total (column n j (start + n) raw) = total (column n j start raw) := by
  induction raw generalizing start with
  | nil => rfl
  | cons b bs ih =>
      rw [total_column_cons, total_column_cons, Nat.add_mod_right, Nat.add_right_comm, ih]

/-- Of one row, a column has the byte at its place. -/
theorem total_column_row {row : Bytes} (less : j < n) (short : start + row.length ≤ n) :
    total (column n j start row) = if start ≤ j then row.getD (j - start) 0 else 0 := by
  induction row generalizing start with
  | nil => simp [column, total]
  | cons b bs ih =>
      rw [List.length_cons] at short
      rw [total_column_cons, Nat.mod_eq_of_lt (by omega), ih (by omega)]
      -- Within one row the place of the column is met at most once.
      rcases Nat.lt_trichotomy start j with before | rfl | behind
      · have next : j - start = j - (start + 1) + 1 := by omega
        rw [if_neg (Nat.ne_of_lt before), if_pos (Nat.succ_le_of_lt before),
          if_pos (Nat.le_of_lt before), next, UInt8.zero_xor, List.getD_cons_succ]
      · rw [if_pos rfl, if_neg (Nat.not_succ_le_self start), if_pos (Nat.le_refl start),
          UInt8.xor_zero, Nat.sub_self, List.getD_cons_zero]
      · rw [if_neg (Nat.ne_of_gt behind), if_neg (by omega), if_neg (Nat.not_le_of_lt behind),
          UInt8.xor_zero]

/-- A column has a byte of the first row, and the rest of it is below. -/
theorem total_column_rows {row rest : Bytes} (less : j < n) (short : row.length ≤ n)
    (full : rest ≠ [] → row.length = n) :
    total (column n j 0 (row ++ rest)) = row.getD j 0 ^^^ total (column n j 0 rest) := by
  have first := total_column_row less (by rwa [Nat.zero_add] : 0 + row.length ≤ n)
  rw [if_pos (Nat.zero_le j), Nat.sub_zero] at first
  rw [total_column_append, first]
  by_cases empty : rest = []
  · rw [empty]
    rfl
  · rw [full empty, total_column_add]

/-! ## Folding -/

/-- A row added to what was folded so far. -/
def stack (n : Nat) (acc row : Bytes) : Bytes :=
  Bytes.xor acc (row ++ Bytes.zeros (n - row.length))

theorem getElem?_stack {acc row : Bytes} {x : UInt8} (there : acc[j]? = some x) (less : j < n) :
    (stack n acc row)[j]? = some (x ^^^ row.getD j 0) := by
  have padded : (row ++ Bytes.zeros (n - row.length))[j]? = some (row.getD j 0) := by
    rw [List.getD_eq_getElem?_getD]
    rcases Nat.lt_or_ge j row.length with inside | outside
    · rw [List.getElem?_append_left inside, List.getElem?_eq_getElem inside, Option.getD_some]
    · rw [List.getElem?_append_right outside, List.getElem?_eq_none outside, Bytes.zeros,
        List.getElem?_replicate_of_lt (by omega), Option.getD_none]
  rw [stack, Bytes.xor, List.getElem?_zipWith, there, padded]

theorem length_stack {acc row : Bytes} (length : acc.length = n) :
    (stack n acc row).length = n := by
  rw [stack, Bytes.length_xor, List.length_append, Bytes.length_zeros, length]
  omega

/-- Folding rows onto bytes adds a column to each of them. -/
theorem getElem?_foldl_stack {raw acc : Bytes} {x : UInt8} (there : acc[j]? = some x)
    (less : j < n) :
    ((Bytes.blocks n raw).foldl (stack n) acc)[j]? = some (x ^^^ total (column n j 0 raw)) := by
  fun_induction Bytes.blocks n raw generalizing acc x with
  | case1 => rw [List.foldl_nil, there, column, total, List.zipIdx_nil, List.filter_nil,
      List.map_nil, List.foldr_nil, UInt8.xor_zero]
  | case2 b bs ih =>
      -- Only the last row can be short, and then there is nothing below it.
      have short : (b :: bs.take (n - 1)).length ≤ n := by
        rw [List.length_cons, List.length_take]
        omega
      have full : bs.drop (n - 1) ≠ [] → (b :: bs.take (n - 1)).length = n := by
        intro more
        have longer := List.length_lt_of_drop_ne_nil more
        rw [List.length_cons, List.length_take]
        omega
      have rows := total_column_rows less short full
      rw [List.cons_append, List.take_append_drop] at rows
      rw [List.foldl_cons, ih (getElem?_stack there less), rows, UInt8.xor_assoc]

theorem length_foldl_stack {rows : List Bytes} {acc : Bytes} (length : acc.length = n) :
    (rows.foldl (stack n) acc).length = n := by
  induction rows generalizing acc with
  | nil => exact length
  | cons row rows ih => exact ih (length_stack length)

/-- Each byte of the result is the exclusive or of one column. -/
theorem foldInto_eq_columns {raw : Bytes} (pos : 0 < n) (enough : n ≤ raw.length) :
    foldInto raw n = (List.range n).map fun j => total (column n j 0 raw) := by
  have rows : foldInto raw n = (Bytes.blocks n raw).foldl (stack n) (Bytes.zeros n) := by
    rw [foldInto, if_neg (by omega)]
    rfl
  have length : (foldInto raw n).length = n := by
    rw [rows, length_foldl_stack (Bytes.length_zeros n)]
  apply List.ext_getElem?
  intro j
  rcases Nat.lt_or_ge j n with less | beyond
  · have zero : (Bytes.zeros n)[j]? = some 0 := List.getElem?_replicate_of_lt less
    rw [rows, getElem?_foldl_stack zero less, List.getElem?_map, List.getElem?_range less,
      UInt8.zero_xor]
    rfl
  · rw [List.getElem?_eq_none (by omega), List.getElem?_eq_none (by simpa using beyond)]

/-- A byte that is changed changes its own column. -/
theorem total_column_modify {raw : Bytes} {i : Nat} (within : i < raw.length) (d : UInt8) :
    total (column n j start (raw.modify i (· ^^^ d))) =
      total (column n j start raw) ^^^ (if (start + i) % n = j then d else 0) := by
  induction raw generalizing i start with
  | nil => exact absurd within (Nat.not_lt_zero i)
  | cons b bs ih =>
      cases i with
      | zero =>
          rw [List.modify_zero_cons, total_column_cons, total_column_cons, Nat.add_zero start]
          by_cases here : start % n = j
          · rw [if_pos here, if_pos here, if_pos here, UInt8.xor_assoc, UInt8.xor_comm d,
              UInt8.xor_assoc]
          · rw [if_neg here, if_neg here, if_neg here, UInt8.xor_zero]
      | succ i =>
          have place : start + 1 + i = start + (i + 1) := by omega
          rw [List.modify_succ_cons, total_column_cons, total_column_cons,
            ih (Nat.lt_of_succ_lt_succ within), place, UInt8.xor_assoc]

/-- What is added to one byte is added to one byte of the result. -/
theorem foldInto_modify {raw : Bytes} (pos : 0 < n) (enough : n ≤ raw.length) {i : Nat}
    (within : i < raw.length) (d : UInt8) :
    foldInto (raw.modify i (· ^^^ d)) n = (foldInto raw n).modify (i % n) (· ^^^ d) := by
  rw [foldInto_eq_columns pos enough,
    foldInto_eq_columns pos (by rwa [List.length_modify])]
  apply List.ext_getElem?
  intro j
  rw [List.getElem?_modify, List.getElem?_map, List.getElem?_map]
  rcases Nat.lt_or_ge j n with less | beyond
  · rw [List.getElem?_range less, Option.map_some, Option.map_some,
      total_column_modify within, Nat.zero_add]
    split
    · rfl
    · rw [UInt8.xor_zero]
      rfl
  · rw [List.getElem?_eq_none (by simpa using beyond)]
    rfl

/-! ## Enough bytes -/

theorem add_two_le_sampleCount (n : Nat) : n + 2 ≤ sampleCount n := by
  simp only [sampleCount, oversampling, extraSamples]
  omega

theorem length_foldInto {raw : Bytes} (pos : 0 < n) (enough : n ≤ raw.length) :
    (foldInto raw n).length = n := by
  rw [foldInto_eq_columns pos enough, List.length_map, List.length_range]

/-- The durations that are read make enough bytes. -/
theorem le_length_timingBytes {readings : List UInt64} {m : Nat}
    (length : readings.length = sampleCount n) (bound : n ≤ m) :
    n ≤ (timingBytes readings m).length := by
  have enough := add_two_le_sampleCount n
  rw [length_timingBytes, length]
  omega

theorem le_of_sampleCount {readings : List UInt64} (length : readings.length = sampleCount n) :
    n ≤ readings.length := by
  have enough := add_two_le_sampleCount n
  omega

theorem distil_eq_ok {readings : List UInt64} (pos : 0 < n)
    (length : readings.length = sampleCount n) :
    distil readings n = .ok (foldInto (timingBytes readings readings.length) n) := by
  have complete := length_foldInto pos (le_length_timingBytes length (le_of_sampleCount length))
  rw [distil, if_neg (by rw [complete]; exact Nat.lt_irrefl n)]

theorem fill_fst {σ : Type} [Machine σ] (pos : 0 < n) (t : Traced σ) :
    (fill n t).1 = .ofExcept (distil (Machine.durations (sampleCount n) t.world).1 n) := by
  rw [fill, if_neg (Nat.ne_of_gt pos)]
  rfl

/-- Folding never comes up short: where as many durations are read as are asked for,
a request gives all its bytes.  Nor does it lose a byte: each byte of the result is the
exclusive or of one column, so what is added to one byte is added to exactly one byte
of the result.  The bytes themselves are as many as the durations allow and do not
depend on when the clock was started. -/
theorem folds_every_sample {σ : Type} [Machine σ] (pos : 0 < n) :
    (∀ readings : List UInt64, readings.length = sampleCount n →
      (∀ m, n ≤ m → (foldInto (timingBytes readings m) n).length = n) ∧
      distil readings n = .ok (foldInto (timingBytes readings readings.length) n)) ∧
    (∀ t : Traced σ,
      (Machine.durations (sampleCount n) t.world).1.length = sampleCount n →
      (fill n t).1.failure = none ∧ (fill n t).1.bytes.length = n) ∧
    (∀ raw : Bytes, n ≤ raw.length →
      (foldInto raw n).length = n ∧
      (∀ j < n, (foldInto raw n)[j]? = some (total (column n j 0 raw))) ∧
      ∀ i < raw.length, ∀ d,
        foldInto (raw.modify i (· ^^^ d)) n = (foldInto raw n).modify (i % n) (· ^^^ d)) ∧
    ∀ (readings : List UInt64) (m : Nat),
      (timingBytes readings m).length = min m (readings.length - 2) ∧
      ∀ c, timingBytes (readings.map (· + c)) m = timingBytes readings m := by
  have complete {readings : List UInt64} (length : readings.length = sampleCount n) {m : Nat}
      (bound : n ≤ m) : (foldInto (timingBytes readings m) n).length = n :=
    length_foldInto pos (le_length_timingBytes length bound)
  refine ⟨?_, ?_, ?_, ?_⟩
  · intro readings length
    exact ⟨fun m bound => complete length bound, distil_eq_ok pos length⟩
  · intro t length
    rw [fill_fst pos, distil_eq_ok pos length]
    exact ⟨rfl, complete length (le_of_sampleCount length)⟩
  · intro raw enough
    refine ⟨length_foldInto pos enough, ?_, ?_⟩
    · intro j less
      rw [foldInto_eq_columns pos enough, List.getElem?_map, List.getElem?_range less]
      rfl
    · intro i within d
      exact foldInto_modify pos enough within d
  · intro readings m
    exact ⟨length_timingBytes readings m, fun c => timingBytes_map_add readings c m⟩

/-! ### Durations that grow -/

/-- A machine whose threads take longer and longer. -/
def slowing : Workstation where
  randomBytes := { byte := fun _ => 0 }
  duration := fun i => UInt64.ofNat (i * i)
  user := ⟨"", ""⟩
  files := ⟨[], []⟩

theorem length_durations (k : Nat) (m : Workstation) :
    (Machine.durations k m).1.length = k := by
  change ((List.range k).map _).length = k
  rw [List.length_map, List.length_range]

/-- Two bytes take 72 durations.  Six bytes fold into two columns of three. -/
theorem folds_every_sample_slowing :
    0 < 2 ∧ sampleCount 2 = 72 ∧
    (Machine.durations (sampleCount 2) slowing).1.length = sampleCount 2 ∧
    (foldInto (timingBytes (Machine.durations (sampleCount 2) slowing).1 2) 2).length = 2 ∧
    (fill 2 ⟨slowing, []⟩).1.failure = none ∧ (fill 2 ⟨slowing, []⟩).1.bytes.length = 2 ∧
    (foldInto [1, 2, 4, 8, 16, 32] 2)[0]? = some 21 ∧
    (foldInto [1, 2, 4, 8, 16, 32] 2)[1]? = some 42 ∧
    foldInto [1, 2, 4, 8 ^^^ 64, 16, 32] 2 =
      (foldInto [1, 2, 4, 8, 16, 32] 2).modify 1 (· ^^^ 64) := by
  have length := length_durations (sampleCount 2) slowing
  obtain ⟨enough, requests, columns, -⟩ := @folds_every_sample 2 Workstation _ Nat.two_pos
  obtain ⟨met, full⟩ := requests ⟨slowing, []⟩ length
  obtain ⟨-, bytes, added⟩ := columns [1, 2, 4, 8, 16, 32] (by decide)
  obtain ⟨folded, -⟩ := enough _ length
  exact ⟨Nat.two_pos, rfl, length, folded 2 (Nat.le_refl 2), met, full, bytes 0 (by decide), bytes 1 (by decide),
    added 3 (by decide) 64⟩

end EntropySeal.Jitter
