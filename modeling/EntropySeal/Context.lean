import EntropySeal.Configuration
import EntropySeal.Generator.Assembled
import EntropySeal.Protection.Container

/-!
# Security contexts

A context ties a slow generator, a fast generator that is seeded by it, and
the defaults of protected values together, as one configuration says.
-/

namespace EntropySeal

/-- A fast generator over a station, and the configuration it was made by. -/
structure Context where
  fast : FastGenerator
  configuration : Configuration

namespace Context

variable {σ : Type}

/-- A context over a slow generator that is there already. -/
def make (supply : Supply (Station σ)) (c : Configuration) : Attempt (Station σ) Context := do
  let fast ← FastGenerator.make supply c.reseed .sha512 false
  let sources ← Attempt.always (Action.look fun s => s.slow.sourceCount)
  Attempt.log (.contextReady sources c.protection.mode)
  pure ⟨fast, c⟩

/-- Put a value into a container as the configuration says. -/
def protect {α : Type} [Protectable α] (context : Context) (value : α) :
    Except Error (Container α) :=
  let defaults := context.configuration.protection
  Container.make value defaults.mode defaults.alert.channel

/-- Dispose the fast generator and then the slow one. -/
def dispose (supply : Supply (Station σ)) (context : Context) : Action (Station σ) Context := do
  let fast ← context.fast.dispose supply
  Station.dispose
  pure { context with fast }

/-! ## Contexts of a machine -/

variable [Machine σ]

/-- The pool that a configuration asks for. -/
def openPool (c : Configuration) : Attempt σ (Option StoredPool) :=
  match c.entropyPool with
  | none => pure none
  | some path => some <$> StoredPool.openOrCreate path

/-- A context over all the entropy of a machine, with the station it works
at. -/
def ofMachine (c : Configuration) : Attempt σ (Context × Station (Assembly σ)) := do
  ExceptT.mk (pure c.reseed.validate)
  let pool ← openPool c
  let machine ← Attempt.always (Action.look id)
  match (Assembly.ofMachine pool machine).slowOfAll with
  | .error e => throw e
  | .ok slow =>
      Attempt.around
        (fun machine => ⟨slow, Assembly.ofMachine pool machine⟩)
        (fun station => station.world.machine)
        (make Station.assembledSupply c)

/-- The one context of a whole program: the one that was made, or else a fresh
one with every default. -/
def shared (made : Option (Context × Station (Assembly σ))) :
    Attempt σ (Context × Station (Assembly σ)) :=
  match made with
  | some context => pure context
  | none => ofMachine {}

end Context

end EntropySeal
