import EntropySeal.Generator.Scripted
import EntropySeal.Main
import EntropySeal.Proofs.Generator.Ample
import EntropySeal.Proofs.Generator.Combiner
import EntropySeal.Proofs.Generator.InFlight
import EntropySeal.Proofs.Generator.Masking
import EntropySeal.Proofs.Generator.Independence
import EntropySeal.Proofs.Generator.Repeats
import EntropySeal.Proofs.Machine
import EntropySeal.Proofs.Protection.Evidence
import EntropySeal.Proofs.Generator.Uniform
import EntropySeal.Proofs.Generator.NonZero
import EntropySeal.Proofs.Generator.Stream
import EntropySeal.Proofs.Generator.Counters
import EntropySeal.Proofs.Generator.Reseeding
import EntropySeal.Proofs.Generator.Disposal
import EntropySeal.Proofs.Configuration
import EntropySeal.Proofs.Generator.Pieces
import EntropySeal.Proofs.Generator.Interruption
import EntropySeal.Proofs.Protection.Changes
import EntropySeal.Proofs.Protection.Modes
import EntropySeal.Proofs.Protection.Finality
import EntropySeal.Proofs.Generator.Material
import EntropySeal.Proofs.Pool.Stream
import EntropySeal.Proofs.Value.Walk
import EntropySeal.Proofs.Protection.Baselines
import EntropySeal.Proofs.Source.Jitter
