import EntropySeal.Error

/-!
# Reseed policies

When a fast generator asks for fresh seed material: two thresholds on the
number of blocks since the last seed, and the size of a seed.
-/

namespace EntropySeal

/-- When and how much to reseed. -/
structure ReseedPolicy where
  /-- Past this many blocks a reseed is scheduled in the background. -/
  soft : UInt64 := 65536
  /-- Past this many blocks a request reseeds before it is served. -/
  hard : UInt64 := 1048576
  /-- Bytes of a seed; without a number, as many as a digest has. -/
  seedSize : Option UInt64 := none
  deriving DecidableEq, Repr

namespace ReseedPolicy

instance : Inhabited ReseedPolicy := ⟨{}⟩

/-- The policy makes sense: `0 < soft < hard`, and a seed has a byte. -/
def validate (p : ReseedPolicy) : Except Error Unit :=
  if p.soft = 0 then .error .softNotPositive
  else if p.hard ≤ p.soft then .error (.softNotBelowHard p.soft p.hard)
  else if p.seedSize = some 0 then .error .seedNotPositive
  else .ok ()

/-- What a policy that makes sense says. -/
theorem validate_eq_ok_iff (p : ReseedPolicy) :
    p.validate = .ok () ↔ 0 < p.soft ∧ p.soft < p.hard ∧ p.seedSize ≠ some 0 := by
  unfold validate
  by_cases zero : p.soft = 0
  · simp [zero]
  · by_cases low : p.hard ≤ p.soft
    · simp [zero, low, UInt64.not_lt.mpr low]
    · by_cases seed : p.seedSize = some 0
      · simp [zero, low, seed]
      · simp [zero, low, seed, UInt64.pos_iff_ne_zero, UInt64.not_le.mp low]

end ReseedPolicy

end EntropySeal
