import EntropySeal.Generator.Slow
import EntropySeal.Proofs.Effect
import EntropySeal.Proofs.Source.Conditioner
import Mathlib.Data.List.Nodup

/-!
# Turns of a round

In a round every source has its turn, in order: it is asked for a block of
bytes and answers.  `turns` lists what the sources answer if all of them are
asked.  A round that draws stops at the first turn with a fault, after the
sources up to it were asked and no others; without a fault it gives what the
turns conditioned.
-/

namespace EntropySeal

variable {σ : Type}

/-- The digest does not give `size` bytes. -/
def Digest.misses (size : Nat) (raw : Bytes) (d : Digest) : Bool :=
  (d.hash raw).length != size

/-- What a source answered when it was asked. -/
structure Turn (σ : Type) where
  conditioner : Conditioner σ
  delivery : Delivery

namespace Turn

/-- The buffer that the source filled, as far as it did. -/
def raw (size : Nat) (u : Turn σ) : Bytes :=
  u.delivery.writtenTo (Bytes.zeros size)

/-- The raw bytes and what each digest makes of them. -/
def conditioned (size : Nat) (u : Turn σ) : Conditioned :=
  ⟨u.raw size, u.conditioner.digests.map fun d => d.hash (u.raw size)⟩

/-- The fault of a turn: the failure of the source, or the first digest that
does not give `size` bytes. -/
def fault (size : Nat) (u : Turn σ) : Option Error :=
  match u.delivery.failure with
  | some e => some e
  | none =>
      (u.conditioner.digests.find? (Digest.misses size (u.raw size))).map fun d =>
        .wrongDigest d.name (d.hash (u.raw size)).length size

/-- A turn has no fault if the source did not fail and every digest gives
`size` bytes. -/
theorem fault_eq_none_iff (size : Nat) (u : Turn σ) :
    u.fault size = none ↔ u.delivery.failure = none ∧
      ∀ d ∈ u.conditioner.digests, (d.hash (u.raw size)).length = size := by
  unfold fault
  cases u.delivery.failure with
  | some e => simp
  | none => simp [Digest.misses]

end Turn

/-! ## Draws -/

namespace Conditioner

/-- Hashing stops at the first digest of a wrong size. -/
theorem hashAll_eq (size : Nat) (raw : Bytes) (digests : List Digest) :
    hashAll size raw digests =
      match digests.find? (Digest.misses size raw) with
      | some d => .error (.wrongDigest d.name (d.hash raw).length size)
      | none => .ok (digests.map fun d => d.hash raw) := by
  induction digests with
  | nil => rfl
  | cons d ds ih =>
      by_cases wrong : (d.hash raw).length ≠ size
      · have misses : d.misses size raw = true := by simpa [Digest.misses] using wrong
        rw [List.find?_cons_of_pos misses, hashAll]
        simp only [if_pos wrong]
        rfl
      · have meets : ¬d.misses size raw = true := by simpa [Digest.misses] using wrong
        rw [List.find?_cons_of_neg meets, hashAll, ih]
        simp only [if_neg wrong]
        cases ds.find? (Digest.misses size raw) with
        | none => rfl
        | some odd => rfl

/-- A draw is a turn of the source. -/
theorem run_draw (c : Conditioner σ) (t : Traced σ) :
    c.draw.toAction t =
      match Turn.fault c.size ⟨c, (c.source.fill c.size t).1⟩ with
      | some e => (.error e, (c.source.fill c.size t).2)
      | none =>
          (.ok (Turn.conditioned c.size ⟨c, (c.source.fill c.size t).1⟩),
            (c.source.fill c.size t).2) := by
  rw [draw, Attempt.run_bind, Attempt.run_always]
  rcases c.source.fill c.size t with ⟨delivery, t'⟩
  simp only [Turn.fault, Turn.conditioned, Turn.raw]
  cases delivery.failure with
  | some e => rfl
  | none =>
      simp only [hashAll_eq]
      cases c.digests.find? (Digest.misses c.size (delivery.writtenTo (Bytes.zeros c.size))) with
      | some d => rfl
      | none => rfl

end Conditioner

namespace SlowGenerator

/-- The turns of a round in which every source is asked. -/
def turns (size : Nat) : List (Conditioner σ) → Traced σ → List (Turn σ)
  | [], _ => []
  | c :: cs, t => ⟨c, (c.source.fill size t).1⟩ :: turns size cs (c.source.fill size t).2

/-- The world after these sources were asked. -/
def asked (size : Nat) : List (Conditioner σ) → Traced σ → Traced σ
  | [], t => t
  | c :: cs, t => asked size cs (c.source.fill size t).2

theorem drawRound_ok {size : Nat} {cs : List (Conditioner σ)}
    (sizes : ∀ c ∈ cs, c.size = size) {t : Traced σ}
    (faultless : ∀ u ∈ turns size cs t, u.fault size = none) :
    (drawRound cs).toAction t =
      (.ok ((turns size cs t).map (Turn.conditioned size)), asked size cs t) := by
  induction cs generalizing t with
  | nil => rfl
  | cons c cs ih =>
      have drawn := c.run_draw t
      rw [sizes c (by simp), faultless _ (by simp [turns])] at drawn
      have rest := ih (t := (c.source.fill size t).2) (fun d member => sizes d (by simp [member]))
        (fun u member => faultless u (by simp [turns, member]))
      rw [drawRound, Attempt.run_bind_ok drawn, Attempt.run_bind_ok rest]
      rfl

theorem drawRound_error {size : Nat} {cs : List (Conditioner σ)}
    (sizes : ∀ c ∈ cs, c.size = size) {t : Traced σ} {i : Nat} {u : Turn σ} {e : Error}
    (turn : (turns size cs t)[i]? = some u)
    (before : ∀ v ∈ (turns size cs t).take i, v.fault size = none)
    (fault : u.fault size = some e) :
    (drawRound cs).toAction t = (.error e, asked size (cs.take (i + 1)) t) := by
  induction cs generalizing t i with
  | nil => simp [turns] at turn
  | cons c cs ih =>
      have drawn := c.run_draw t
      rw [sizes c (by simp)] at drawn
      cases i with
      | zero =>
          obtain rfl : _ = u := by simpa [turns] using turn
          rw [fault] at drawn
          rw [drawRound, Attempt.run_bind_error drawn]
          rfl
      | succ i =>
          rw [before _ (by simp [turns])] at drawn
          have rest := ih (fun d member => sizes d (by simp [member]))
            (by simpa [turns] using turn) (fun v member => before v (by simp [turns, member]))
          rw [drawRound, Attempt.run_bind_ok drawn, Attempt.run_bind_error rest]
          rfl

/-- What the sources give in a round without a fault. -/
def given (size : Nat) (cs : List (Conditioner σ)) (t : Traced σ) : Round :=
  (turns size cs t).map (Turn.conditioned size)

/-- The exclusive or of all digests of all sources. -/
def block (size : Nat) (cs : List (Conditioner σ)) (t : Traced σ) : Bytes :=
  Conditioned.combine size ((given size cs t).map Conditioned.digests).flatten

/-- Without a fault all digests have the size of a block. -/
theorem digests_ofSize {size : Nat} {cs : List (Conditioner σ)} {t : Traced σ}
    (faultless : ∀ u ∈ turns size cs t, u.fault size = none) :
    ∀ group ∈ (given size cs t).map Conditioned.digests, Conditioned.OfSize size group := by
  intro group member a within
  simp only [given, List.map_map, List.mem_map, Function.comp_apply] at member
  obtain ⟨u, turn, rfl⟩ := member
  obtain ⟨d, among, rfl⟩ := List.mem_map.mp within
  exact ((u.fault_eq_none_iff size).mp (faultless u turn)).2 d among

/-- A round without a fault gives the exclusive or of all digests. -/
theorem output_given {size : Nat} {cs : List (Conditioner σ)} {t : Traced σ}
    (faultless : ∀ u ∈ turns size cs t, u.fault size = none) :
    (given size cs t).output size = block size cs t := by
  rw [block, ← Conditioned.combine_flatten (digests_ofSize faultless), List.map_map]
  rfl

theorem length_block {size : Nat} {cs : List (Conditioner σ)} {t : Traced σ}
    (faultless : ∀ u ∈ turns size cs t, u.fault size = none) :
    (block size cs t).length = size := by
  apply Conditioned.length_combine
  intro a member
  obtain ⟨group, within, among⟩ := List.mem_flatten.mp member
  exact digests_ofSize faultless group within a among

end SlowGenerator

/-! ## Repeats -/

/-- `i` and `j` are the first places of equal elements: the earliest element
that occurs again, and where it does so first. -/
structure FirstEqual {α : Type} (l : List α) (i j : Nat) : Prop where
  lt : i < j
  within : j < l.length
  equal : l[i]? = l[j]?
  first : ∀ p q, p < q → q < l.length → l[p]? = l[q]? → i < p ∨ i = p ∧ j ≤ q

section FirstEqual

variable {α : Type}

theorem FirstEqual.not_nodup {l : List α} {i j : Nat} (equal : FirstEqual l i j) : ¬l.Nodup := by
  intro nodup
  have differ := List.nodup_iff_getElem?_ne_getElem?.mp nodup i j equal.lt equal.within
  exact differ equal.equal

/-- The head of the list occurs again, first at `k`. -/
theorem firstEqual_head {a : α} {rest : List α} {k : Nat} (within : k < rest.length)
    (again : rest[k] = a) (earlier : ∀ m, ∀ less : m < k, rest[m] ≠ a) :
    FirstEqual (a :: rest) 0 (k + 1) where
  lt := Nat.succ_pos k
  within := Nat.succ_lt_succ within
  equal := by simp [within, again]
  first := by
    intro p q less inside same
    cases p with
    | succ p => exact .inl (Nat.succ_pos p)
    | zero =>
        cases q with
        | zero => exact absurd less (Nat.lt_irrefl 0)
        | succ q =>
            have bound : q < rest.length := Nat.lt_of_succ_lt_succ inside
            have repeated : rest[q] = a := by simpa [bound] using same.symm
            rcases Nat.lt_or_ge q k with early | late
            · exact absurd repeated (earlier q early)
            · exact .inr ⟨rfl, Nat.succ_le_succ late⟩

/-- The head of the list does not occur again. -/
theorem FirstEqual.cons {a : α} {rest : List α} {i j : Nat} (fresh : a ∉ rest)
    (equal : FirstEqual rest i j) : FirstEqual (a :: rest) (i + 1) (j + 1) where
  lt := Nat.succ_lt_succ equal.lt
  within := Nat.succ_lt_succ equal.within
  equal := by simpa using equal.equal
  first := by
    intro p q less inside same
    cases q with
    | zero => exact absurd less (Nat.not_lt_zero p)
    | succ q =>
        have bound : q < rest.length := Nat.lt_of_succ_lt_succ inside
        cases p with
        | zero =>
            have repeated : rest[q] = a := by simpa [bound] using same.symm
            exact absurd (repeated ▸ List.getElem_mem bound) fresh
        | succ p =>
            rcases equal.first p q (Nat.lt_of_succ_lt_succ less) bound (by simpa using same) with
              early | ⟨rfl, late⟩
            · exact .inl (Nat.succ_lt_succ early)
            · exact .inr ⟨rfl, Nat.succ_le_succ late⟩

variable [BEq α] [LawfulBEq α]

/-- A search for a repeat finds the first one, or the elements are distinct. -/
theorem firstRepeat_cases (start : Nat) (l : List α) :
    (firstRepeat start l = none ∧ l.Nodup) ∨
      ∃ i j, firstRepeat start l = some (start + i, start + j) ∧ FirstEqual l i j := by
  induction l generalizing start with
  | nil => exact .inl ⟨rfl, List.nodup_nil⟩
  | cons a rest ih =>
      rw [firstRepeat]
      cases again : rest.findIdx? (· == a) with
      | some k =>
          obtain ⟨within, same, earlier⟩ := List.findIdx?_eq_some_iff_getElem.mp again
          have head : FirstEqual (a :: rest) 0 (k + 1) := by
            apply firstEqual_head within
            · simpa using same
            · intro m less
              simpa using earlier m less
          exact .inr ⟨0, k + 1, by simp only [Nat.add_zero, Nat.add_assoc, Nat.add_comm 1], head⟩
      | none =>
          have fresh : a ∉ rest := by
            intro member
            simpa using List.findIdx?_eq_none_iff.mp again a member
          rcases ih (start + 1) with ⟨none, nodup⟩ | ⟨i, j, found, equal⟩
          · exact .inl ⟨none, List.nodup_cons.mpr ⟨fresh, nodup⟩⟩
          · have shifted : firstRepeat (start + 1) rest =
                some (start + (i + 1), start + (j + 1)) := by
              simp only [found, Nat.add_assoc, Nat.add_comm 1]
            exact .inr ⟨i + 1, j + 1, shifted, equal.cons fresh⟩

end FirstEqual

end EntropySeal
