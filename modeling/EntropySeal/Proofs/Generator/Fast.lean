import EntropySeal.Generator.Fast
import EntropySeal.Proofs.Effect

/-!
# What the operations of a fast generator change

A reseed applies a seed or changes nothing; the end of a background reseed and a
disposal change flags only.  Chunks are never larger than the chunks of
`hard - 1` blocks that requests are cut into.
-/

namespace EntropySeal

namespace FastGenerator

variable {τ : Type}

/-- A reseed fails and changes nothing, or applies a seed. -/
theorem reseedNow_cases (supply : Supply τ) (g : FastGenerator) (t : Traced τ) :
    (∃ e t', g.reseedNow supply t = ((.error e, g), t')) ∨
      ∃ seed t', g.reseedNow supply t = ((.ok (), g.applyReseed seed), t') := by
  simp only [reseedNow, bind, StateT.bind]
  rcases (supply.draw g.seedSize).toAction t with ⟨result, t'⟩
  cases result with
  | error e => exact .inl ⟨e, t', rfl⟩
  | ok seed => exact .inr ⟨seed, _, rfl⟩

/-- A background seed is applied unless the generator was disposed. -/
theorem applyBackground_cases (g : FastGenerator) (seed : Bytes) (t : Traced τ) :
    (g.disposed = true ∧ g.applyBackground seed t = (g, t)) ∨
      g.disposed = false ∧ ∃ t', g.applyBackground seed t = (g.applyReseed seed, t') := by
  unfold applyBackground
  cases disposed : g.disposed with
  | true => exact .inl ⟨rfl, rfl⟩
  | false => exact .inr ⟨rfl, _, rfl⟩

/-- The end of a background reseed gives the flag back and notes the outcome. -/
theorem endBackground_eq (g : FastGenerator) (outcome : Except Error Unit) (t : Traced τ) :
    ∃ background t',
      g.endBackground outcome t = ({ g with inFlight := false, background }, t') := by
  unfold endBackground
  cases outcome with
  | ok u => exact ⟨_, _, rfl⟩
  | error e =>
      cases g.disposed with
      | true => exact ⟨_, _, rfl⟩
      | false => exact ⟨_, _, rfl⟩

theorem dispose_fst (supply : Supply τ) (g : FastGenerator) (t : Traced τ) :
    (g.dispose supply t).1 = { g with disposed := true } := by
  unfold dispose
  split
  · rename_i disposed
    rw [← disposed]
    rfl
  · split <;> rfl

/-- A generator is made with a policy that makes sense, a digest of some size
and its first seed. -/
theorem make_cases {supply : Supply τ} {policy : ReseedPolicy} {digest : Digest}
    {ownsSupply : Bool} {t t' : Traced τ} {g : FastGenerator}
    (made : (make supply policy digest ownsSupply).toAction t = (.ok g, t')) :
    policy.validate = .ok () ∧ 0 < digest.size ∧
      ∃ seed, g = (unseeded policy digest ownsSupply).applySeed seed := by
  unfold make at made
  cases valid : policy.validate with
  | error e =>
      rw [Attempt.run_bind, Attempt.run_mk, valid] at made
      cases made
  | ok u =>
      rw [Attempt.run_bind, Attempt.run_mk, valid] at made
      rcases Nat.eq_zero_or_pos digest.size with empty | sizePos
      · rw [Action.run_pure] at made
        simp only [if_pos empty] at made
        cases made
      · have notEmpty : digest.size ≠ 0 := by omega
        simp only [Action.run_pure, if_neg notEmpty] at made
        rw [Attempt.run_bind, Attempt.run_always] at made
        generalize (supply.draw (unseeded policy digest ownsSupply).seedSize).toAction t =
          drawn at made
        rcases drawn with ⟨result, t₁⟩
        cases result with
        | error e => cases made
        | ok seed =>
            cases made
            exact ⟨rfl, sizePos, seed, rfl⟩

/-! ## Chunks -/

theorem le_of_mem_chunkSizes {size n k : Nat} (member : k ∈ chunkSizes size n) : k ≤ size := by
  fun_induction chunkSizes size n with
  | case1 => simp at member
  | case2 n _ ih =>
      rcases List.mem_cons.mp member with rfl | later
      · exact Nat.min_le_left _ _
      · exact ih later

theorem maxChunk_le (g : FastGenerator) :
    g.maxChunk ≤ (g.policy.hard - 1).toNat * g.digestSize :=
  Nat.min_le_left _ _

/-- Within the hard threshold, the projection is the sum it stands for. -/
theorem toNat_projected {g : FastGenerator} (small : g.policy.hard.toNat < Nat.pow 2 63)
    (within : g.blockCount.toNat ≤ g.policy.hard.toNat) {n : Nat}
    (short : n ≤ (g.policy.hard.toNat - 1) * g.digestSize) :
    (g.projected n).toNat = g.blockCount.toNat + 1 + n / g.digestSize := by
  have range : Nat.pow 2 63 = 2 ^ 63 := rfl
  rw [range] at small
  have quotient : n / g.digestSize ≤ g.policy.hard.toNat - 1 :=
    Nat.div_le_of_le_mul (by rwa [Nat.mul_comm])
  simp only [projected, UInt64.toNat_add, UInt64.toNat_ofNat', UInt64.reduceToNat]
  generalize n / g.digestSize = whole at quotient ⊢
  omega

end FastGenerator

end EntropySeal
