import EntropySeal.Generator.Draws

/-!
# Entropy sources

A source has a name, a description and a category, and fills buffers.  Its
state is a part of the world it fills them in.
-/

namespace EntropySeal

/-- Where the unpredictability of a source comes from. -/
inductive Category where
  /-- The random bytes of the operating system. -/
  | system
  /-- The scheduler of the operating system. -/
  | scheduling
  /-- Entropy kept on disk between runs. -/
  | persisted
  /-- No unpredictability at all. -/
  | deterministic
  deriving DecidableEq, Repr

/-- The name of a category. -/
def Category.label : Category → String
  | system => "system"
  | scheduling => "scheduling"
  | persisted => "persisted"
  | deterministic => "deterministic"

/-- What is known of a source without drawing from it. -/
structure SourceInfo where
  name : String
  description : String
  category : Category
  deriving DecidableEq, Repr

/-- A source over a world. -/
structure Source (σ : Type) where
  info : SourceInfo
  fill : Fill σ

end EntropySeal
