import EntropySeal.Generator.Draws
import EntropySeal.Generator.Scripted
import EntropySeal.Proofs.Effect
import Mathlib.Data.Int.CardIntervalMod

/-!
# Uniform integers

A uniform integer of a range is made from the first word below the zone that the
generator delivers.  The zone is a multiple of the span and more than half of
the words, so the words below it are shared out evenly between the integers of
the range (`SharedEvenly`), and all numbers on the way fit the words they are
computed in.  Words at or above the zone are drawn and dropped, and nothing is
drawn after the word that decides (`nextInRange_uniform`).
-/

namespace EntropySeal

theorem Bytes.ofLe_lt (bs : Bytes) : ofLe bs < Nat.pow 256 bs.length := by
  have written := ofLe_toLe bs.length (ofLe bs)
  rw [toLe_ofLe] at written
  rw [written]
  exact Nat.mod_lt _ (Nat.pow_pos (by decide))

namespace Fill

/-! ## Numbers in words -/

/-- A number, if a signed word of so many bits holds it. -/
def signed? (bits : Nat) (x : Int) : Option Int :=
  if -(2 ^ (bits - 1)) ≤ x ∧ x < 2 ^ (bits - 1) then some x else none

/-- A number, if an unsigned word of so many bits holds it. -/
def unsigned? (bits : Nat) (x : Int) : Option Int :=
  if 0 ≤ x ∧ x < 2 ^ bits then some x else none

/-- The span of a range, if words of 128 bits hold every number on the way. -/
def spanInWords? (least greatest : Int64) : Option Int := do
  let difference ← signed? 128 (greatest.toInt - least.toInt)
  let sum ← signed? 128 (difference + 1)
  unsigned? 128 sum

/-- The zone of a span that can be divided by, if words of 128 bits hold every
number on the way. -/
def zoneInWords? (span : Int) : Option Int :=
  if span = 0 then none
  else do
    let space ← unsigned? 128 wordCount
    let rest ← unsigned? 128 (space % span)
    unsigned? 128 (space - rest)

/-- The integer that a word stands for, if words of 128 bits hold every number
on the way and one of 64 bits the integer. -/
def pickInWords? (least : Int64) (span word : Int) : Option Int :=
  if span = 0 then none
  else do
    let rest ← unsigned? 128 (word % span)
    let offset ← signed? 128 rest
    let sum ← signed? 128 (least.toInt + offset)
    signed? 64 sum

theorem signed?_eq_some {bits : Nat} {x : Int} (low : -(2 ^ (bits - 1)) ≤ x)
    (high : x < 2 ^ (bits - 1)) : signed? bits x = some x :=
  if_pos ⟨low, high⟩

theorem unsigned?_eq_some {bits : Nat} {x : Int} (low : 0 ≤ x) (high : x < 2 ^ bits) :
    unsigned? bits x = some x :=
  if_pos ⟨low, high⟩

/-! ## Spans and zones -/

section Range

variable {least greatest : Int64}

/-- The span of a range that has an element, as a number. -/
theorem cast_span (le : least ≤ greatest) :
    (span least greatest : Int) = greatest.toInt - least.toInt + 1 := by
  have ordered := Int64.le_iff_toInt_le.mp le
  rw [span, Int.toNat_of_nonneg (by omega)]

theorem span_pos (le : least ≤ greatest) : 0 < span least greatest := by
  have ordered := Int64.le_iff_toInt_le.mp le
  have number := cast_span le
  omega

theorem span_le (le : least ≤ greatest) : span least greatest ≤ wordCount := by
  have number := cast_span le
  have low := least.le_toInt
  have high := greatest.toInt_lt
  change _ ≤ 18446744073709551616
  omega

theorem spanInWords?_eq (le : least ≤ greatest) :
    spanInWords? least greatest = some (span least greatest : Int) := by
  have ordered := Int64.le_iff_toInt_le.mp le
  have low := least.le_toInt
  have high := greatest.toInt_lt
  rw [cast_span le, spanInWords?, signed?_eq_some (by omega) (by omega), Option.bind_eq_bind,
    Option.bind_some, signed?_eq_some (by omega) (by omega), Option.bind_some,
    unsigned?_eq_some (by omega) (by omega)]

end Range

/-- The zone is the largest multiple of the span among the words. -/
theorem zone_eq_mul (size : Nat) : zone size = size * (wordCount / size) := by
  have whole := Nat.div_add_mod wordCount size
  rw [zone]
  omega

/-- More than half of the words are below the zone. -/
theorem lt_two_mul_zone {size : Nat} (pos : 0 < size) (le : size ≤ wordCount) :
    wordCount < 2 * zone size := by
  have whole := Nat.div_add_mod wordCount size
  have part := Nat.mod_lt wordCount pos
  have some : 1 ≤ wordCount / size := (Nat.one_le_div_iff pos).mpr le
  have one : size ≤ size * (wordCount / size) := Nat.le_mul_of_pos_right size some
  rw [zone]
  omega

theorem zoneInWords?_eq {size : Nat} (pos : 0 < size) :
    zoneInWords? size = some (zone size : Int) := by
  have divides : (size : Int) ≠ 0 := by omega
  have space : (wordCount : Int) = 18446744073709551616 := rfl
  have part := Int.emod_nonneg (wordCount : Int) divides
  have less : (wordCount : Int) % size ≤ wordCount := by
    rw [← Int.natCast_mod]
    exact Int.ofNat_le.mpr (Nat.mod_le _ _)
  have number : (zone size : Int) = wordCount - wordCount % size := by
    rw [zone, Nat.cast_sub (Nat.mod_le _ _), Int.natCast_mod]
  rw [number, zoneInWords?, if_neg divides, unsigned?_eq_some (by omega) (by omega),
    Option.bind_eq_bind, Option.bind_some, unsigned?_eq_some part (by omega), Option.bind_some,
    unsigned?_eq_some (by omega) (by omega)]

/-! ## Shares -/

section Shares

variable {least greatest : Int64}

/-- A range of all integers begins and ends with the extreme ones. -/
theorem extreme_of_span_eq (le : least ≤ greatest) (full : span least greatest = wordCount) :
    least.toInt = -(2 ^ 63) ∧ greatest.toInt = 2 ^ 63 - 1 := by
  have number := cast_span le
  have low := least.le_toInt
  have high := greatest.toInt_lt
  have space : (wordCount : Int) = 18446744073709551616 := rfl
  rw [full, space] at number
  omega

/-- An accepted word is counted from the least integer of the range. -/
theorem toInt_pick (le : least ≤ greatest) (proper : span least greatest ≠ wordCount)
    (word : Nat) : (pick least (span least greatest) word).toInt =
      least.toInt + (word % span least greatest : Nat) := by
  have number := cast_span le
  have below := Nat.mod_lt word (span_pos le)
  have low := least.le_toInt
  have high := greatest.toInt_lt
  rw [pick, if_neg proper, Int64.toInt_ofInt_of_le (by omega) (by omega)]

/-- A word stands for an integer of the range. -/
theorem pick_mem (le : least ≤ greatest) (word : Nat) :
    least ≤ pick least (span least greatest) word ∧
      pick least (span least greatest) word ≤ greatest := by
  rw [Int64.le_iff_toInt_le, Int64.le_iff_toInt_le]
  rcases eq_or_ne (span least greatest) wordCount with full | proper
  · obtain ⟨first, last⟩ := extreme_of_span_eq le full
    have low := (pick least (span least greatest) word).le_toInt
    have high := (pick least (span least greatest) word).toInt_lt
    omega
  · have number := cast_span le
    have below := Nat.mod_lt word (span_pos le)
    rw [toInt_pick le proper]
    omega

theorem pickInWords?_eq (le : least ≤ greatest) (proper : span least greatest ≠ wordCount)
    (word : Nat) : pickInWords? least (span least greatest) word =
      some (pick least (span least greatest) word).toInt := by
  have pos := span_pos le
  have few := span_le le
  have space : wordCount = 18446744073709551616 := rfl
  have number := toInt_pick le proper word
  have below := Nat.mod_lt word pos
  have low := (pick least (span least greatest) word).le_toInt
  have high := (pick least (span least greatest) word).toInt_lt
  have divides : (span least greatest : Int) ≠ 0 := by omega
  rw [pickInWords?, if_neg divides, ← Int.natCast_mod, unsigned?_eq_some (by omega) (by omega),
    Option.bind_eq_bind, Option.bind_some, signed?_eq_some (by omega) (by omega),
    Option.bind_some, ← number, signed?_eq_some (by omega) (by omega), Option.bind_some,
    signed?_eq_some low high]

/-- The words that stand for one integer of the range are those with one remainder. -/
theorem exists_pick_eq_iff (le : least ≤ greatest) {v : Int64} (low : least ≤ v)
    (high : v ≤ greatest) :
    ∃ r, ∀ word, pick least (span least greatest) word = v ↔
      word ≡ r [MOD span least greatest] := by
  rcases eq_or_ne (span least greatest) wordCount with full | proper
  · -- There are as many integers as words: a remainder is a word, read as an integer.
    refine ⟨(v.toInt % wordCount).toNat, ?_⟩
    intro word
    have nonneg : 0 ≤ v.toInt % (wordCount : Int) := Int.emod_nonneg _ (by decide)
    rw [pick, if_pos full, full, ← Int.natCast_modEq_iff, Int.toNat_of_nonneg nonneg,
      Int64.ofInt_eq_iff_bmod_eq_toInt, Int.ModEq, Int.emod_emod]
    have low := v.le_toInt
    have high := v.toInt_lt
    change (word : Int).bmod 18446744073709551616 = _ ↔
      (word : Int) % 18446744073709551616 = v.toInt % 18446744073709551616
    rw [Int.bmod_def]
    split <;> omega
  · refine ⟨(v.toInt - least.toInt).toNat, ?_⟩
    intro word
    have number := cast_span le
    have least' := Int64.le_iff_toInt_le.mp low
    have greatest' := Int64.le_iff_toInt_le.mp high
    have below := Nat.mod_lt word (span_pos le)
    have small : (v.toInt - least.toInt).toNat < span least greatest := by omega
    rw [← Int64.toInt_inj, toInt_pick le proper, Nat.ModEq, Nat.mod_eq_of_lt small]
    omega

/-- Every integer of the range has the same number of words below the zone. -/
theorem card_pick_eq (le : least ≤ greatest) {v : Int64} (low : least ≤ v)
    (high : v ≤ greatest) :
    ((Finset.range (zone (span least greatest))).filter
      fun word => pick least (span least greatest) word = v).card =
        zone (span least greatest) / span least greatest := by
  obtain ⟨r, stands⟩ := exists_pick_eq_iff le low high
  have pos := span_pos le
  have divides : zone (span least greatest) % span least greatest = 0 := by
    rw [zone_eq_mul]
    exact Nat.mul_mod_right _ _
  simp only [stands]
  rw [← Nat.count_eq_card_filter_range, Nat.count_modEq_card _ pos, divides]
  simp

end Shares

/-- The words below the zone are shared out evenly between the integers of a
range that has an element, and no number on the way is too great for its word. -/
structure SharedEvenly (least greatest : Int64) : Prop where
  span_held : spanInWords? least greatest = some (span least greatest : Int)
  zone_held : span least greatest ≠ wordCount →
    zoneInWords? (span least greatest) = some (zone (span least greatest) : Int)
  pick_held : span least greatest ≠ wordCount → ∀ word : Nat,
    pickInWords? least (span least greatest) word =
      some (pick least (span least greatest) word).toInt
  /-- A word stands for an integer of the range. -/
  mem : ∀ word, least ≤ pick least (span least greatest) word ∧
    pick least (span least greatest) word ≤ greatest
  /-- It is counted from the least one, modulo the span. -/
  toInt_pick : span least greatest ≠ wordCount → ∀ word,
    (pick least (span least greatest) word).toInt =
      least.toInt + (word % span least greatest : Nat)
  /-- Where the range has all integers, the word is read as one. -/
  pick_full : span least greatest = wordCount → ∀ word,
    pick least (span least greatest) word = (UInt64.ofNat word).toInt64
  /-- Every integer of the range has as many words below the zone as any other. -/
  shares : ∀ v, least ≤ v → v ≤ greatest →
    ((Finset.range (zone (span least greatest))).filter
      fun word => pick least (span least greatest) word = v).card =
        zone (span least greatest) / span least greatest
  /-- More than half of the words are below the zone. -/
  half : wordCount < 2 * zone (span least greatest)

theorem sharedEvenly {least greatest : Int64} (le : least ≤ greatest) :
    SharedEvenly least greatest where
  span_held := spanInWords?_eq le
  zone_held _ := zoneInWords?_eq (span_pos le)
  pick_held := pickInWords?_eq le
  mem := pick_mem le
  toInt_pick := toInt_pick le
  pick_full full word := by
    rw [pick, if_pos full]
    apply Int64.toBitVec_inj.mp
    simp
  shares _ := card_pick_eq le
  half := lt_two_mul_zone (span_pos le) (span_le le)

/-! ## Words that are drawn -/

variable {σ : Type} {fill : Fill σ}

/-- `Delivers fill t words t'`: asked for eight bytes again and again from `t` on,
the generator delivers these words, least significant byte first, and comes to
`t'`. -/
inductive Delivers (fill : Fill σ) : Traced σ → List Nat → Traced σ → Prop where
  | nothing (t : Traced σ) : Delivers fill t [] t
  | word {t between t' : Traced σ} {bytes : Bytes} {words : List Nat} :
      fill 8 t = (⟨bytes, none⟩, between) → bytes.length = 8 →
      Delivers fill between words t' → Delivers fill t (Bytes.ofLe bytes :: words) t'

theorem run_getBytes (fill : Fill σ) (n : Nat) (t : Traced σ) :
    (getBytes fill n).toAction t = ((fill n t).1.toExcept, (fill n t).2) :=
  rfl

/-- A word that is delivered is drawn. -/
theorem nextUInt64_of_delivered {t t' : Traced σ} {bytes : Bytes}
    (delivered : fill 8 t = (⟨bytes, none⟩, t')) (length : bytes.length = 8) :
    ∃ word : UInt64, word.toNat = Bytes.ofLe bytes ∧
      (nextUInt64 fill).toAction t = (.ok word, t') := by
  have fits := bytes.ofLe_lt
  rw [length] at fits
  refine ⟨UInt64.ofNat (Bytes.ofLe bytes), UInt64.toNat_ofNat_of_lt' fits, ?_⟩
  rw [nextUInt64, nextNat, Attempt.run_map, Attempt.run_map, run_getBytes, delivered]
  rfl

/-- A generator that fails gives no word. -/
theorem nextUInt64_of_failed {t t' : Traced σ} {bytes : Bytes} {e : Error}
    (failed : fill 8 t = (⟨bytes, some e⟩, t')) :
    (nextUInt64 fill).toAction t = (.error e, t') := by
  rw [nextUInt64, nextNat, Attempt.run_map, Attempt.run_map, run_getBytes, failed]
  rfl

/-- Words at or above the zone are drawn and dropped. -/
theorem Delivers.run_drawBelow {zone : Nat} {t t' : Traced σ} {words : List Nat}
    (delivers : Delivers fill t words t') (rejected : ∀ word ∈ words, zone ≤ word) (fuel : Nat) :
    (drawBelow fill zone (words.length + fuel)).toAction t =
      (drawBelow fill zone fuel).toAction t' := by
  induction delivers with
  | nothing t => rw [List.length_nil, Nat.zero_add]
  | word delivered length _ ih =>
      obtain ⟨high, later⟩ := List.forall_mem_cons.mp rejected
      obtain ⟨word, number, drawn⟩ := nextUInt64_of_delivered delivered length
      have refused : ¬word.toNat < zone := by
        rw [number]
        exact Nat.not_lt.mpr high
      rw [List.length_cons, Nat.add_right_comm, drawBelow, Attempt.run_bind_ok drawn,
        if_neg refused, ih later]

/-- The first word below the zone is drawn, and nothing after it. -/
theorem Delivers.drawBelow_accepted {zone word : Nat} {t t' : Traced σ}
    (delivers : Delivers fill t [word] t') (accepted : word < zone) (fuel : Nat) :
    (drawBelow fill zone (fuel + 1)).toAction t = (.ok (some word), t') := by
  cases delivers with
  | word delivered length rest =>
      cases rest
      obtain ⟨word, number, drawn⟩ := nextUInt64_of_delivered delivered length
      rw [← number] at accepted
      rw [drawBelow, Attempt.run_bind_ok drawn, if_pos accepted, number]
      rfl

theorem drawBelow_failed {zone : Nat} {t t' : Traced σ} {bytes : Bytes} {e : Error}
    (failed : fill 8 t = (⟨bytes, some e⟩, t')) (fuel : Nat) :
    (drawBelow fill zone (fuel + 1)).toAction t = (.error e, t') := by
  rw [drawBelow, Attempt.run_bind_error (nextUInt64_of_failed failed)]

/-! ## Draws from a range -/

/-- A range without an element is refused before anything is drawn. -/
theorem run_nextInRange_empty (fill : Fill σ) (fuel : Nat) {least greatest : Int64}
    (empty : greatest < least) (t : Traced σ) :
    (nextInRange fill fuel least greatest).toAction t =
      (.error (.emptyRange least.toInt greatest.toInt), t) := by
  simp only [nextInRange, if_pos empty]
  rfl

/-- A range with an element is served by the words that are drawn for it. -/
theorem run_nextInRange (fill : Fill σ) (fuel : Nat) {least greatest : Int64}
    (le : least ≤ greatest) (t : Traced σ) :
    (nextInRange fill fuel least greatest).toAction t =
      (((drawBelow fill (zone (span least greatest)) fuel).toAction t).1.map
        (Option.map (pick least (span least greatest))),
        ((drawBelow fill (zone (span least greatest)) fuel).toAction t).2) := by
  rw [← Attempt.run_map, map_eq_pure_bind]
  simp only [nextInRange, if_neg (Int64.not_lt.mpr le)]

/-- A range without an element is refused and nothing is drawn.  Otherwise the
words below the zone are shared out evenly between the integers of the range, and
whatever words the generator delivers: as long as they are at or above the zone
they are drawn and dropped; the first one below it decides, and nothing is drawn
after it; a failure before it is the failure of the whole. -/
theorem nextInRange_uniform (fill : Fill σ) (least greatest : Int64) (t : Traced σ) :
    (greatest < least → ∀ fuel,
      (nextInRange fill fuel least greatest).toAction t =
        (.error (.emptyRange least.toInt greatest.toInt), t) ∧
      (Error.emptyRange least.toInt greatest.toInt).family = .invalidArgument) ∧
    (least ≤ greatest → SharedEvenly least greatest ∧
      ∀ words between, Delivers fill t words between →
        (∀ word ∈ words, zone (span least greatest) ≤ word) →
        (∀ word t', Delivers fill between [word] t' → word < zone (span least greatest) →
          ∀ fuel, words.length < fuel →
            (nextInRange fill fuel least greatest).toAction t =
              (.ok (some (pick least (span least greatest) word)), t')) ∧
        (∀ bytes e t', fill 8 between = (⟨bytes, some e⟩, t') →
          ∀ fuel, words.length < fuel →
            (nextInRange fill fuel least greatest).toAction t = (.error e, t')) ∧
        (nextInRange fill words.length least greatest).toAction t = (.ok none, between)) := by
  constructor
  · intro empty fuel
    exact ⟨run_nextInRange_empty fill fuel empty t, rfl⟩
  · intro le
    refine ⟨sharedEvenly le, ?_⟩
    intro words between delivers rejected
    refine ⟨?_, ?_, ?_⟩
    · intro word t' delivered accepted fuel enough
      obtain ⟨more, rfl⟩ := Nat.exists_eq_add_of_lt enough
      rw [run_nextInRange fill _ le, Nat.add_assoc, delivers.run_drawBelow rejected,
        delivered.drawBelow_accepted accepted]
      rfl
    · intro bytes e t' failed fuel enough
      obtain ⟨more, rfl⟩ := Nat.exists_eq_add_of_lt enough
      rw [run_nextInRange fill _ le, Nat.add_assoc, delivers.run_drawBelow rejected,
        drawBelow_failed failed]
      rfl
    · have ran := delivers.run_drawBelow rejected 0
      rw [Nat.add_zero] at ran
      rw [run_nextInRange fill _ le, ran]
      rfl

/-! ### A word too many -/

/-- The greatest word, and the word 4. -/
def greatestAndFour : Script where
  bytes := List.replicate 8 255 ++ Bytes.toLe 8 4

/-- The greatest word is the one word that three integers cannot share. -/
theorem nextInRange_uniform_three :
    (nextInRange (Script.playOnce "script") 2 10 12).toAction ⟨greatestAndFour, []⟩ =
      (.ok (some 11), ⟨{ greatestAndFour with used := 16, requests := #[8, 8] }, []⟩) ∧
    SharedEvenly 10 12 ∧
    (nextInRange (Script.playOnce "script") 2 12 10).toAction ⟨greatestAndFour, []⟩ =
      (.error (.emptyRange 12 10), ⟨greatestAndFour, []⟩) := by
  let fill : Fill Script := Script.playOnce "script"
  let half : Script := { greatestAndFour with used := 8, requests := #[8] }
  let whole : Script := { greatestAndFour with used := 16, requests := #[8, 8] }
  have rejected : Delivers fill ⟨greatestAndFour, []⟩ [Bytes.ofLe (List.replicate 8 255)]
      ⟨half, []⟩ :=
    .word rfl rfl (.nothing _)
  have accepted : Delivers fill ⟨half, []⟩ [Bytes.ofLe (Bytes.toLe 8 4)] ⟨whole, []⟩ :=
    .word rfl rfl (.nothing _)
  obtain ⟨even, drawn⟩ := (nextInRange_uniform fill 10 12 ⟨greatestAndFour, []⟩).2 (by decide)
  obtain ⟨decided, -, -⟩ := drawn _ _ rejected (by decide)
  obtain ⟨refused, -⟩ := (nextInRange_uniform fill 12 10 ⟨greatestAndFour, []⟩).1 (by decide) 2
  exact ⟨decided _ _ accepted (by decide) 2 (by decide), even, refused⟩

end Fill

end EntropySeal
