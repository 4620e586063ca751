import EntropySeal.Generator.Fast
import EntropySeal.Source.Origin

/-!
# Generators over assemblies

Slow generators whose sources are the numbered origins of an assembly, and
among them the one that draws on all the entropy of a machine: its random
bytes, its scheduling jitter and, where there is one, a persisted pool.

A fast generator over such a slow generator has its background reseeds draw in
the background.
-/

namespace EntropySeal

variable {σ : Type} [Machine σ]

namespace Assembly

/-- An origin of an assembly by number, with digests. -/
abbrev Pairing (a : Assembly σ) : Type :=
  Fin a.origins.length × List Digest

/-- Condition origins of an assembly, the first failure counting. -/
def conditioners (a : Assembly σ) : List a.Pairing → Except Error (List (Conditioner (Assembly σ)))
  | [] => .ok []
  | (i, digests) :: rest => do
      let c ← Conditioner.make (a.source i i.isLt) digests
      let cs ← conditioners a rest
      pure (c :: cs)

/-- The slow generator of conditioned origins. -/
def slow (a : Assembly σ) (pairings : List a.Pairing) : Except Error (SlowGenerator (Assembly σ)) := do
  SlowGenerator.make (← a.conditioners pairings)

/-- A machine with all its entropy. -/
def ofMachine (pool : Option StoredPool) (machine : σ) : Assembly σ where
  machine
  origins := [.system, .jitter] ++ (pool.map Origin.pool).toList

/-- The digests of each origin of a machine. -/
def digests : List (List Digest) :=
  [[.sha512, .sha3_512], [.sha512], [.sha3_512]]

/-- The slow generator over all origins of an assembly. -/
def slowOfAll (a : Assembly σ) : Except Error (SlowGenerator (Assembly σ)) :=
  a.slow (List.zip (List.finRange a.origins.length) digests)

end Assembly

namespace Station

/-- Perform an attempt whose requests come from the background. -/
def inBackground {α : Type} (act : Attempt (Station (Assembly σ)) α) :
    Attempt (Station (Assembly σ)) α :=
  Attempt.ofAction do
    onWorld (Assembly.request .background)
    let result ← act.toAction
    onWorld (Assembly.request .foreground)
    pure result

/-- Seeds from a slow generator over an assembly. -/
def assembledSupply : Supply (Station (Assembly σ)) where
  draw := Fill.getBytes fill
  drawInBackground n := inBackground (Fill.getBytes fill n)
  dispose := dispose

end Station

end EntropySeal
