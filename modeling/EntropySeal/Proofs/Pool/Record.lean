import EntropySeal.Pool.Record
import Mathlib.Logic.Basic

/-!
# Records are read exactly

A record is the four parts that `decode` cuts it into (`append_fields`), and
`encode` writes the only parts that pass the checks of `decode`.  So `decode`
accepts the records of valid pools and nothing else (`decode_eq_ok_iff`).

Masking is exclusive or with a stream that depends on the key only
(`mask_eq_xor`), whatever is left for the last block.
-/

namespace EntropySeal

namespace Bytes

theorem xor_append {a b : Bytes} (same : a.length = b.length) (c d : Bytes) :
    xor (a ++ c) (b ++ d) = xor a b ++ xor c d :=
  List.zipWith_append same

/-- What a mask has beyond the byte string is not used. -/
theorem xor_append_right {a b : Bytes} (covered : a.length ≤ b.length) (d : Bytes) :
    xor a (b ++ d) = xor a b := by
  induction a generalizing b with
  | nil => simp [xor]
  | cons x a ih =>
      cases b with
      | nil => simp at covered
      | cons y b =>
          have rest := ih (b := b) (by simpa using covered)
          simp only [xor] at rest
          simp [xor, rest]

end Bytes

namespace Pool

/-! ## The parts of a record -/

/-- What a record starts with, which says how wide the position is. -/
def marker : Bytes :=
  Bytes.toLe positionWidth positionWidth

theorem length_checksum (s : State) : (checksum s).length = blockSize :=
  Digest.Sha2.length_sha256 _

theorem length_field {record : Bytes} {offset size : Nat}
    (inside : offset + size ≤ record.length) : (field record offset size).length = size := by
  simp only [field, List.length_take, List.length_drop]
  omega

/-- A part is what stands between what comes before it and what comes after. -/
theorem field_append {before part : Bytes} {offset size : Nat} (start : before.length = offset)
    (long : part.length = size) (after : Bytes) :
    field (before ++ (part ++ after)) offset size = part := by
  rw [field, List.drop_left' start, List.take_left' long]

/-- The parts of a record, one after the other, are the record. -/
theorem append_fields (record : Bytes) :
    field record 0 positionWidth ++
      (field record positionWidth positionWidth ++
        (field record (positionWidth + positionWidth) poolSize ++
          record.drop (positionWidth + positionWidth + poolSize))) = record := by
  have third : field record (positionWidth + positionWidth) poolSize ++
      record.drop (positionWidth + positionWidth + poolSize) =
      record.drop (positionWidth + positionWidth) := by
    rw [← List.drop_drop]
    exact List.take_append_drop _ _
  have second : field record positionWidth positionWidth ++
      record.drop (positionWidth + positionWidth) = record.drop positionWidth := by
    rw [← List.drop_drop]
    exact List.take_append_drop _ _
  rw [third, second]
  exact List.take_append_drop _ _

/-- A part that holds a number is the number written out. -/
theorem toLe_ofLe_field (record : Bytes) (offset size : Nat)
    (inside : offset + size ≤ record.length) :
    Bytes.toLe size (Bytes.ofLe (field record offset size)) = field record offset size := by
  have written := Bytes.toLe_ofLe (field record offset size)
  rwa [length_field inside] at written

/-! ## Acceptance -/

theorem encode_eq (s : State) :
    encode s = marker ++ (Bytes.toLe positionWidth s.position ++ (s.bytes ++ checksum s)) := by
  simp only [encode, marker, List.append_assoc]

namespace State.Valid

variable {s : State}

/-- The position of a valid pool fits into its four bytes. -/
theorem ofLe_toLe (valid : s.Valid) :
    Bytes.ofLe (Bytes.toLe positionWidth s.position) = s.position := by
  rw [Bytes.ofLe_toLe]
  exact Nat.mod_eq_of_lt (Nat.lt_trans valid.inside (by decide))

theorem length_encode (valid : s.Valid) : (encode s).length = recordSize := by
  simp only [encode, List.length_append, Bytes.length_toLe, valid.size, length_checksum]
  rfl

/-- The parts of a valid pool's record are what was written there. -/
theorem fields_encode (valid : s.Valid) :
    field (encode s) 0 positionWidth = marker ∧ fields (encode s) = s ∧
      (encode s).drop (positionWidth + positionWidth + poolSize) = checksum s := by
  have first : marker.length = positionWidth := Bytes.length_toLe _ _
  have second : (Bytes.toLe positionWidth s.position).length = positionWidth :=
    Bytes.length_toLe _ _
  have front : (marker ++ Bytes.toLe positionWidth s.position).length =
      positionWidth + positionWidth := by
    rw [List.length_append, first, second]
  rw [encode_eq]
  refine ⟨?_, ?_, ?_⟩
  · exact field_append List.length_nil first _
  · have position := field_append first second (s.bytes ++ checksum s)
    have bytes := field_append front valid.size (checksum s)
    rw [List.append_assoc] at bytes
    rw [fields, position, bytes, valid.ofLe_toLe]
  · rw [← List.append_assoc, ← List.append_assoc]
    apply List.drop_left'
    rw [List.length_append, front, valid.size]

end State.Valid

/-- A record that passes every check of its content. -/
structure Checked (record : Bytes) : Prop where
  long : record.length = recordSize
  marked : Bytes.ofLe (field record 0 positionWidth) = positionWidth
  summed : record.drop (positionWidth + positionWidth + poolSize) = checksum (fields record)
  placed : ¬((fields record).position ≥ poolSize ∨ (fields record).position % blockSize ≠ 0)

/-- Reading returns the fields of the records that pass every check. -/
theorem decode_eq_ok_iff_checked {record : Bytes} {s : State} :
    decode record = .ok s ↔ Checked record ∧ fields record = s := by
  constructor
  · fun_cases decode record with
    | case1 short => exact nofun
    | case2 long unmarked => exact nofun
    | case3 long marked _ unsummed => exact nofun
    | case4 long marked _ summed misplaced => exact nofun
    | case5 long marked _ summed placed =>
        intro returned
        exact ⟨⟨not_not.mp long, not_not.mp marked, not_not.mp summed, placed⟩,
          Except.ok.inj returned⟩
  · rintro ⟨⟨long, marked, summed, placed⟩, rfl⟩
    simp only [decode, long, marked, summed, placed, ne_eq, not_true_eq_false, if_false]

/-- A checked record is what the writer makes of its fields. -/
theorem Checked.eq_encode {record : Bytes} (checked : Checked record) :
    record = encode (fields record) := by
  have width : record.length = positionWidth + positionWidth + poolSize + blockSize := checked.long
  have first := toLe_ofLe_field record 0 positionWidth (by omega)
  have second := toLe_ofLe_field record positionWidth positionWidth (by omega)
  rw [checked.marked] at first
  have parts := append_fields record
  rw [← first, ← second, checked.summed] at parts
  rw [encode_eq]
  exact parts.symm

theorem Checked.valid {record : Bytes} (checked : Checked record) : (fields record).Valid where
  size := by
    have width : record.length = positionWidth + positionWidth + poolSize + blockSize :=
      checked.long
    exact length_field (by omega)
  inside := Nat.lt_of_not_ge fun outside => checked.placed (.inl outside)
  aligned := Nat.dvd_of_mod_eq_zero (not_not.mp fun crooked => checked.placed (.inr crooked))

/-- The record of a valid pool passes every check. -/
theorem State.Valid.checked {s : State} (valid : s.Valid) : Checked (encode s) := by
  obtain ⟨marked, read, summed⟩ := valid.fields_encode
  refine ⟨valid.length_encode, ?_, ?_, ?_⟩
  · rw [marked]
    decide
  · rw [read]
    exact summed
  · rw [read]
    rintro (outside | crooked)
    · exact Nat.not_lt_of_ge outside valid.inside
    · exact crooked (Nat.mod_eq_zero_of_dvd valid.aligned)

/-- Reading accepts the records of valid pools, and nothing else. -/
theorem decode_eq_ok_iff {record : Bytes} {s : State} :
    decode record = .ok s ↔ s.Valid ∧ record = encode s := by
  rw [decode_eq_ok_iff_checked]
  constructor
  · rintro ⟨checked, rfl⟩
    exact ⟨checked.valid, checked.eq_encode⟩
  · rintro ⟨valid, rfl⟩
    exact ⟨valid.checked, valid.fields_encode.2.1⟩

/-! ## Reading within bounds -/

/-- A part of a record, for a record that does not end before the part does. -/
def field? (record : Bytes) (offset size : Nat) : Option Bytes :=
  if offset + size ≤ record.length then some (field record offset size) else none

/-- Reading that gives nothing at all once it reads beyond the end. -/
def decodeWithin (record : Bytes) : Option (Except RecordFault State) :=
  if record.length ≠ recordSize then some (.error .length)
  else do
    let front ← field? record 0 positionWidth
    if Bytes.ofLe front ≠ positionWidth then pure (.error .marker)
    else
      let position ← field? record positionWidth positionWidth
      let bytes ← field? record (positionWidth + positionWidth) poolSize
      let stored ← field? record (positionWidth + positionWidth + poolSize) blockSize
      let s : State := ⟨Bytes.ofLe position, bytes⟩
      if stored ≠ checksum s then pure (.error .checksum)
      else if s.position ≥ poolSize ∨ s.position % blockSize ≠ 0 then pure (.error .position)
      else pure (.ok s)

theorem field?_eq_some {record : Bytes} {offset size : Nat}
    (inside : offset + size ≤ record.length) :
    field? record offset size = some (field record offset size) :=
  if_pos inside

/-- No record of any length is read beyond its end. -/
theorem decodeWithin_eq (record : Bytes) : decodeWithin record = some (decode record) := by
  by_cases long : record.length = recordSize
  case neg => rw [decodeWithin, decode, if_pos long, if_pos long]
  have width : record.length = positionWidth + positionWidth + poolSize + blockSize := long
  have last : field record (positionWidth + positionWidth + poolSize) blockSize =
      record.drop (positionWidth + positionWidth + poolSize) := by
    apply List.take_of_length_le
    rw [List.length_drop]
    omega
  have within {offset size : Nat} (inside : offset + size ≤ recordSize) :
      field? record offset size = some (field record offset size) :=
    field?_eq_some (long ▸ inside)
  rw [decodeWithin, decode, if_neg (not_not.mpr long), if_neg (not_not.mpr long),
    within (by decide), within (by decide), within (by decide), within (by decide), last]
  -- Every part is there, so one chain of checks is left, with `some` outside of it or inside.
  have outside (p : Prop) [Decidable p] (x y : Except RecordFault State) :
      some (if p then x else y) = if p then some x else some y := apply_ite some p x y
  rw [outside]
  apply congrArg (ite _ _)
  refine Eq.trans ?_ (outside _ _ _).symm
  apply congrArg (ite _ _)
  exact (outside _ _ _).symm

/-! ## Masking -/

/-- The pads of `n` blocks from number `i` on, one after the other. -/
def keystream (key : Bytes) : Nat → Nat → Bytes
  | _, 0 => []
  | i, n + 1 => pad key i ++ keystream key (i + 1) n

theorem length_pad (key : Bytes) (i : Nat) : (pad key i).length = blockSize :=
  Digest.Sha2.length_sha256 _

theorem length_keystream (key : Bytes) (i n : Nat) :
    (keystream key i n).length = blockSize * n := by
  induction n generalizing i with
  | zero => rfl
  | succ n ih => rw [keystream, List.length_append, length_pad, ih, Nat.mul_succ, Nat.add_comm]

/-- Masking block by block is exclusive or with the stream, also where the last
block is cut short. -/
theorem maskBlocks_eq_xor (key : Bytes) {data : Bytes} {n : Nat}
    (covered : data.length ≤ blockSize * n) (i : Nat) :
    maskBlocks key i (Bytes.blocks blockSize data) = Bytes.xor data (keystream key i n) := by
  fun_induction Bytes.blocks blockSize data generalizing i n with
  | case1 => simp [maskBlocks, Bytes.xor]
  | case2 b rest ih =>
      have split : (b :: rest.take (blockSize - 1)) ++ rest.drop (blockSize - 1) = b :: rest := by
        rw [List.cons_append, List.take_append_drop]
      cases n with
      | zero => simp at covered
      | succ n =>
          have left : (rest.drop (blockSize - 1)).length ≤ blockSize * n := by
            rw [List.length_cons, Nat.mul_succ] at covered
            rw [List.length_drop]
            omega
          rw [maskBlocks, ih left, keystream, ← split]
          by_cases full : blockSize - 1 ≤ rest.length
          · rw [Bytes.xor_append]
            rw [length_pad, List.length_cons, List.length_take_of_le full]
            rfl
          · have ended : rest.drop (blockSize - 1) = [] :=
              List.drop_of_length_le (Nat.le_of_not_le full)
            have short : (b :: rest.take (blockSize - 1)).length ≤ (pad key i).length := by
              rw [length_pad, List.length_cons, List.length_take]
              exact Nat.succ_le_succ (Nat.min_le_left _ _)
            have nothing : Bytes.xor [] (keystream key (i + 1) n) = [] := rfl
            rw [ended, nothing, List.append_nil, List.append_nil, Bytes.xor_append_right short]

/-- Masking is exclusive or with the stream of the key. -/
theorem mask_eq_xor (key : Bytes) {data : Bytes} {n : Nat}
    (covered : data.length ≤ blockSize * n) : mask key data = Bytes.xor data (keystream key 0 n) :=
  maskBlocks_eq_xor key covered 0

/-- Masking is its own inverse, for data of any length. -/
theorem mask_mask (key data : Bytes) : mask key (mask key data) = data := by
  have covered : data.length ≤ blockSize * data.length := Nat.le_mul_of_pos_left _ (by decide)
  have enough : data.length ≤ (keystream key 0 data.length).length := by
    rwa [length_keystream]
  have masked : (mask key data).length ≤ blockSize * data.length := by
    rw [mask_eq_xor key covered, Bytes.length_xor]
    exact Nat.le_trans (Nat.min_le_left _ _) covered
  rw [mask_eq_xor key masked, mask_eq_xor key covered, Bytes.xor_xor_cancel_right enough]

/-- A content that opens under a key is the masked record of the pool it opens to. -/
theorem opens_iff {key content : Bytes} {s : State} :
    decode (mask key content) = .ok s ↔ s.Valid ∧ content = mask key (encode s) := by
  rw [decode_eq_ok_iff]
  constructor
  · rintro ⟨valid, unmasked⟩
    exact ⟨valid, by rw [← unmasked, mask_mask]⟩
  · rintro ⟨valid, rfl⟩
    exact ⟨valid, mask_mask key _⟩

/-- What is not the record of a valid pool is refused, as a breach of integrity. -/
theorem exists_fault {record : Bytes} (foreign : ¬∃ s : State, s.Valid ∧ record = encode s) :
    ∃ fault, decode record = .error fault ∧
      (Error.corruptPool fault).family = .cryptographicIntegrity := by
  cases decoded : decode record with
  | error fault => exact ⟨fault, rfl, rfl⟩
  | ok s => exact absurd ⟨s, decode_eq_ok_iff.mp decoded⟩ foreign

/-- The records that are read are the ones that are written: reading returns a
pool exactly for the record of that pool, where the pool is valid, and refuses
every other byte string, without reading beyond the end of any.  Masking is
exclusive or with the stream of the key, and twice with one key it changes
nothing.  So every valid pool is opened again from its masked record, and
contents that open to one pool under one key are one content. -/
theorem record_exact :
    (∀ record s, decode record = .ok s ↔ s.Valid ∧ record = encode s) ∧
    (∀ record, (¬∃ s : State, s.Valid ∧ record = encode s) →
      ∃ fault, decode record = .error fault ∧
        (Error.corruptPool fault).family = .cryptographicIntegrity) ∧
    (∀ record, decodeWithin record = some (decode record)) ∧
    (∀ key data n, data.length ≤ blockSize * n →
      mask key data = Bytes.xor data (keystream key 0 n)) ∧
    (∀ key data, mask key (mask key data) = data) ∧
    (∀ key s, s.Valid → decode (mask key (mask key (encode s))) = .ok s) ∧
    ∀ key c₁ c₂ s₁ s₂, c₁ ≠ c₂ → decode (mask key c₁) = .ok s₁ → decode (mask key c₂) = .ok s₂ →
      s₁ ≠ s₂ := by
  refine ⟨fun _ _ => decode_eq_ok_iff, fun _ => exists_fault, decodeWithin_eq,
    fun key _ _ => mask_eq_xor key, mask_mask, ?_, ?_⟩
  · intro key s valid
    exact opens_iff.mpr ⟨valid, rfl⟩
  · rintro key c₁ c₂ s₁ s₂ differ opened₁ opened₂ rfl
    obtain ⟨-, rfl⟩ := opens_iff.mp opened₁
    obtain ⟨-, rfl⟩ := opens_iff.mp opened₂
    exact differ rfl

/-- A pool of zeros that gives its third block next. -/
def zeroed : State :=
  ⟨2 * blockSize, Bytes.zeros poolSize⟩

/-- A key of zeros. -/
def zeroKey : Bytes :=
  Bytes.zeros 32

/-- The pool of zeros is opened from its masked record, and no other content
opens to it. -/
theorem record_exact_zeroed :
    decode (mask zeroKey (mask zeroKey (encode zeroed))) = .ok zeroed ∧
    ∀ content, content ≠ mask zeroKey (encode zeroed) →
      decode (mask zeroKey content) ≠ .ok zeroed := by
  have valid : zeroed.Valid :=
    ⟨Bytes.length_zeros _, by decide, by decide⟩
  obtain ⟨-, -, -, -, -, opens, distinct⟩ := record_exact
  refine ⟨opens zeroKey zeroed valid, ?_⟩
  intro content differs opened
  exact distinct zeroKey _ _ _ _ differs opened (opens zeroKey zeroed valid) rfl

end Pool

end EntropySeal
