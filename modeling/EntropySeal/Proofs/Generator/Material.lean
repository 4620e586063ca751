import EntropySeal.Proofs.Generator.Counters
import Mathlib.Data.List.Forall2

/-!
# Material that is never lost

Each seed of a stretching generator is the digest of an input that holds the seed
before it: with material in front when some is mixed in, and with a counter behind
when it is renewed.  `Seeded` keeps a list of these inputs along with a run.

Seeds of one digest have one size, so what stands around the old seed in an input can
be told from it, however long the material is (`eq_of_seedInput_eq`,
`seed_eq_of_cycleInput_eq`).  Two runs of the same kind that end with one seed are
thus traced back from seed to seed: either they were given the same material, or two
of their inputs collide (`seed_keeps_materials`).
-/

namespace EntropySeal.Stretcher

variable {digest : Digest} {g h : Stretcher}

/-! ## Inputs of seeds -/

/-- Making the next block renews the seed. -/
def Due (g : Stretcher) : Prop :=
  g.makeBlock.blockCounter % cycleLength = 0

instance (g : Stretcher) : Decidable g.Due :=
  inferInstanceAs (Decidable (_ = _))

theorem generate_of_due (due : g.Due) : g.generate = g.makeBlock.cycleSeed := by
  rw [generate_eq]
  exact if_pos due

theorem generate_of_not_due (due : ¬g.Due) : g.generate = g.makeBlock := by
  rw [generate_eq]
  exact if_neg due

/-- The input that the seed is renewed from when the next block is made, if it is. -/
def renewal (g : Stretcher) : List Bytes :=
  if g.Due then [g.makeBlock.cycleInput] else []

/-- The inputs that the seed is renewed from while the next `k` blocks are made. -/
def renewals (g : Stretcher) : Nat → List Bytes
  | 0 => []
  | k + 1 => g.renewal ++ g.generate.renewals k

/-- `Seeded g demands inputs h`: the generator `g` met these demands and became `h`, and
its seed was made from each of these inputs in turn. -/
inductive Seeded : Stretcher → List Demand → List Bytes → Stretcher → Prop where
  | nothing {g : Stretcher} : Seeded g [] [] g
  | mix {g h : Stretcher} {demands : List Demand} {inputs : List Bytes} (material : Bytes) :
      Seeded (g.addSeedMaterial material) demands inputs h →
      Seeded g (.mix material :: demands) (g.seedInput material :: inputs) h
  | draw {g h : Stretcher} {demands : List Demand} {inputs : List Bytes} {n : Nat}
      {taken : Stretched} :
      g.nextBytes n = .ok taken → Seeded taken.next demands inputs h →
      Seeded g (.draw n :: demands) (g.renewals taken.blocks ++ inputs) h

/-- The seed that is left of a seed when it is made from these inputs in turn. -/
def reseeded (digest : Digest) (seed : Bytes) (inputs : List Bytes) : Bytes :=
  inputs.foldl (fun _ input => digest.hash input) seed

theorem seed_generate (g : Stretcher) :
    g.generate.seed = reseeded g.digest g.seed g.renewal := by
  by_cases due : g.Due
  · rw [generate_of_due due, renewal, if_pos due]
    rfl
  · rw [generate_of_not_due due, renewal, if_neg due]
    rfl

theorem seed_after (g : Stretcher) (k : Nat) :
    (g.after k).seed = reseeded g.digest g.seed (g.renewals k) := by
  induction k generalizing g with
  | zero => rfl
  | succ k ih =>
      rw [after, ih, digest_generate, seed_generate, renewals, reseeded, reseeded, reseeded,
        List.foldl_append]

/-- Any demands can be met. -/
theorem exists_seeded (honours : g.digest.Honours) (sizePos : 0 < g.digest.size)
    (demands : List Demand) : ∃ inputs h, Seeded g demands inputs h := by
  induction demands generalizing g with
  | nil => exact ⟨[], g, .nothing⟩
  | cons demand demands ih =>
      cases demand with
      | mix material =>
          obtain ⟨inputs, h, seeded⟩ := ih (g := g.addSeedMaterial material) honours sizePos
          exact ⟨_, h, .mix material seeded⟩
      | draw n =>
          obtain ⟨inputs, h, seeded⟩ := ih (g := g.after (blocksFor g.digest.size n))
            (by rwa [digest_after]) (by rwa [digest_after])
          exact ⟨_, h, .draw (nextBytes_eq honours sizePos n) seeded⟩

/-- The seed is the digest of the last input. -/
theorem Seeded.seed_eq {demands : List Demand} {inputs : List Bytes}
    (seeded : Seeded g demands inputs h) (honours : g.digest.Honours)
    (sizePos : 0 < g.digest.size) : h.seed = reseeded g.digest g.seed inputs := by
  induction seeded with
  | nothing => rfl
  | mix material _ ih => exact ih honours sizePos
  | @draw g h demands inputs n taken drawn _ ih =>
      rw [nextBytes_eq honours sizePos] at drawn
      cases drawn
      change (g.after _).digest.Honours → 0 < (g.after _).digest.size →
        h.seed = reseeded (g.after _).digest (g.after _).seed inputs at ih
      rw [digest_after, seed_after] at ih
      rw [ih honours sizePos, reseeded, reseeded, reseeded, List.foldl_append]
      rfl

/-! ## Two runs abreast -/

/-- Two demands of one kind: material each, or requests that take equally many blocks of
this size. -/
inductive Demand.Alike (size : Nat) : Demand → Demand → Prop where
  | mix (material material' : Bytes) : Alike size (.mix material) (.mix material')
  | draw {m n : Nat} : blocksFor size m = blocksFor size n → Alike size (.draw m) (.draw n)

/-- The material that is mixed in. -/
def Demand.material? : Demand → Option Bytes
  | mix material => some material
  | draw _ => none

/-- Two different inputs in the same place have one digest. -/
def Collide (digest : Digest) (inputs inputs' : List Bytes) : Prop :=
  ∃ pair ∈ inputs.zip inputs', pair.1 ≠ pair.2 ∧ digest.hash pair.1 = digest.hash pair.2

theorem Collide.append_left {xs xs' : List Bytes} (collide : Collide digest xs xs')
    (same : xs.length = xs'.length) (ys ys' : List Bytes) :
    Collide digest (xs ++ ys) (xs' ++ ys') := by
  obtain ⟨pair, member, differ⟩ := collide
  rw [Collide, List.zip_append same]
  exact ⟨pair, List.mem_append_left _ member, differ⟩

theorem Collide.append_right {xs xs' ys ys' : List Bytes} (collide : Collide digest ys ys')
    (same : xs.length = xs'.length) : Collide digest (xs ++ ys) (xs' ++ ys') := by
  obtain ⟨pair, member, differ⟩ := collide
  rw [Collide, List.zip_append same]
  exact ⟨pair, List.mem_append_right _ member, differ⟩

theorem Collide.cons {ys ys' : List Bytes} (collide : Collide digest ys ys') (x x' : Bytes) :
    Collide digest (x :: ys) (x' :: ys') := by
  have same : [x].length = [x'].length := rfl
  exact collide.append_right same

/-- One digest has one input, or two that collide. -/
theorem eq_or_collide {x y : Bytes} (same : digest.hash x = digest.hash y) :
    x = y ∨ Collide digest [x] [y] := by
  by_cases equal : x = y
  · exact .inl equal
  · exact .inr ⟨(x, y), List.mem_singleton.mpr rfl, equal, same⟩

/-- Two generators that are equally far in runs of the same kind. -/
structure Abreast (digest : Digest) (g h : Stretcher) : Prop where
  left : g.digest = digest
  right : h.digest = digest
  blockCounter : g.blockCounter = h.blockCounter
  seed_left : g.seed.length = digest.size
  seed_right : h.seed.length = digest.size

theorem abreast_new (digest : Digest) : Abreast digest (new digest) (new digest) where
  left := rfl
  right := rfl
  blockCounter := rfl
  seed_left := Bytes.length_zeros _
  seed_right := Bytes.length_zeros _

namespace Abreast

theorem due_iff (abreast : Abreast digest g h) : g.Due ↔ h.Due := by
  unfold Due makeBlock
  rw [abreast.blockCounter]

/-- What is around the seeds can be told from them, since they have one size. -/
theorem eq_of_seedInput_eq (abreast : Abreast digest g h) {material material' : Bytes}
    (same : g.seedInput material = h.seedInput material') :
    material = material' ∧ g.seed = h.seed :=
  List.append_inj' same (abreast.seed_left.trans abreast.seed_right.symm)

theorem seed_eq_of_cycleInput_eq (abreast : Abreast digest g h)
    (same : g.makeBlock.cycleInput = h.makeBlock.cycleInput) : g.seed = h.seed :=
  List.append_inj_left same (abreast.seed_left.trans abreast.seed_right.symm)

section Steps

variable (abreast : Abreast digest g h)

include abreast

theorem addSeedMaterial (honours : digest.Honours) (material material' : Bytes) :
    Abreast digest (g.addSeedMaterial material) (h.addSeedMaterial material') where
  left := abreast.left
  right := abreast.right
  blockCounter := abreast.blockCounter
  seed_left := by
    change (g.digest.hash _).length = digest.size
    rw [abreast.left]
    exact honours _
  seed_right := by
    change (h.digest.hash _).length = digest.size
    rw [abreast.right]
    exact honours _

theorem generate (honours : digest.Honours) : Abreast digest g.generate h.generate := by
  have counters : ∀ g : Stretcher, g.generate.blockCounter = g.blockCounter + 1 := by
    intro g
    rw [generate_eq]
    split <;> rfl
  exact {
    left := by rw [digest_generate, abreast.left]
    right := by rw [digest_generate, abreast.right]
    blockCounter := by rw [counters, counters, abreast.blockCounter]
    seed_left := by
      by_cases due : g.Due
      · rw [generate_of_due due]
        exact abreast.left ▸ honours _
      · rw [generate_of_not_due due]
        exact abreast.seed_left
    seed_right := by
      by_cases due : h.Due
      · rw [generate_of_due due]
        exact abreast.right ▸ honours _
      · rw [generate_of_not_due due]
        exact abreast.seed_right }

theorem length_renewal : g.renewal.length = h.renewal.length := by
  by_cases due : g.Due
  · rw [renewal, renewal, if_pos due, if_pos (abreast.due_iff.mp due)]
    rfl
  · rw [renewal, renewal, if_neg due, if_neg fun due' => due (abreast.due_iff.mpr due')]

/-- Equal seeds after a block were equal before it, or two renewals collide. -/
theorem seed_eq_of_generate (same : g.generate.seed = h.generate.seed) :
    g.seed = h.seed ∨ Collide digest g.renewal h.renewal := by
  by_cases due : g.Due
  · have due' := abreast.due_iff.mp due
    rw [generate_of_due due, generate_of_due due'] at same
    change g.digest.hash _ = h.digest.hash _ at same
    rw [abreast.left, abreast.right] at same
    rw [renewal, renewal, if_pos due, if_pos due']
    rcases eq_or_collide same with equal | collide
    · exact .inl (abreast.seed_eq_of_cycleInput_eq equal)
    · exact .inr collide
  · have due' : ¬h.Due := fun due' => due (abreast.due_iff.mpr due')
    rw [generate_of_not_due due, generate_of_not_due due'] at same
    exact .inl same

end Steps

theorem after (abreast : Abreast digest g h) (honours : digest.Honours) (k : Nat) :
    Abreast digest (g.after k) (h.after k) := by
  induction k generalizing g h with
  | zero => exact abreast
  | succ k ih => exact ih (abreast.generate honours)

theorem length_renewals (abreast : Abreast digest g h) (honours : digest.Honours) (k : Nat) :
    (g.renewals k).length = (h.renewals k).length := by
  induction k generalizing g h with
  | zero => rfl
  | succ k ih =>
      rw [renewals, renewals, List.length_append, List.length_append, abreast.length_renewal,
        ih (abreast.generate honours)]

/-- Equal seeds after some blocks were equal before them, or two renewals collide. -/
theorem seed_eq_of_after (abreast : Abreast digest g h) (honours : digest.Honours) {k : Nat}
    (same : (g.after k).seed = (h.after k).seed) :
    g.seed = h.seed ∨ Collide digest (g.renewals k) (h.renewals k) := by
  induction k generalizing g h with
  | zero => exact .inl same
  | succ k ih =>
      rw [renewals, renewals]
      rcases ih (abreast.generate honours) same with equal | collide
      · rcases abreast.seed_eq_of_generate equal with equal | collide
        · exact .inl equal
        · exact .inr (collide.append_left abreast.length_renewal _ _)
      · exact .inr (collide.append_right abreast.length_renewal)

end Abreast

/-! ## Whole runs -/

/-- What can be said of two runs of the same kind from two generators: they make their
seeds from equally many inputs; and if they end with one seed, they began with one and
were given the same material, or two inputs in the same place collide. -/
structure Retraced (digest : Digest) (g h g' h' : Stretcher) (demands demands' : List Demand)
    (inputs inputs' : List Bytes) : Prop where
  length_eq : inputs.length = inputs'.length
  traced : g'.seed = h'.seed →
    (g.seed = h.seed ∧
      demands.filterMap Demand.material? = demands'.filterMap Demand.material?) ∨
    Collide digest inputs inputs'

section Runs

variable {g' h' : Stretcher} {demands demands' : List Demand} {inputs inputs' : List Bytes}

theorem Retraced.mix (abreast : Abreast digest g h) {material material' : Bytes}
    (rest : Retraced digest (g.addSeedMaterial material) (h.addSeedMaterial material') g' h'
      demands demands' inputs inputs') :
    Retraced digest g h g' h' (.mix material :: demands) (.mix material' :: demands')
      (g.seedInput material :: inputs) (h.seedInput material' :: inputs') where
  length_eq := congrArg (· + 1) rest.length_eq
  traced := by
    intro same
    rcases rest.traced same with ⟨seeds, materials⟩ | collide
    · change g.digest.hash _ = h.digest.hash _ at seeds
      rw [abreast.left, abreast.right] at seeds
      rcases eq_or_collide seeds with equal | collide
      · obtain ⟨material_eq, seed_eq⟩ := abreast.eq_of_seedInput_eq equal
        refine .inl ⟨seed_eq, ?_⟩
        simp only [List.filterMap_cons, Demand.material?, material_eq, materials]
      · exact .inr (collide.append_left rfl inputs inputs')
    · exact .inr (collide.cons _ _)

theorem Retraced.draw (abreast : Abreast digest g h) (honours : digest.Honours) {m n k : Nat}
    (rest : Retraced digest (g.after k) (h.after k) g' h' demands demands' inputs inputs') :
    Retraced digest g h g' h' (.draw m :: demands) (.draw n :: demands')
      (g.renewals k ++ inputs) (h.renewals k ++ inputs') where
  length_eq := by
    rw [List.length_append, List.length_append, abreast.length_renewals honours, rest.length_eq]
  traced := by
    intro same
    have lengths := abreast.length_renewals honours k
    rcases rest.traced same with ⟨seeds, materials⟩ | collide
    · rcases abreast.seed_eq_of_after honours seeds with equal | collide
      · exact .inl ⟨equal, materials⟩
      · exact .inr (collide.append_left lengths inputs inputs')
    · exact .inr (collide.append_right lengths)

/-- Two runs of the same kind are traced back from their ends, demand by demand. -/
theorem Seeded.retraced (honours : digest.Honours) (sizePos : 0 < digest.size)
    (abreast : Abreast digest g h) (first : Seeded g demands inputs g')
    (second : Seeded h demands' inputs' h')
    (alike : List.Forall₂ (Demand.Alike digest.size) demands demands') :
    Retraced digest g h g' h' demands demands' inputs inputs' := by
  induction alike generalizing g h inputs inputs' with
  | nil =>
      cases first
      cases second
      exact ⟨rfl, fun same => .inl ⟨same, rfl⟩⟩
  | cons kind _ ih =>
      cases kind with
      | mix material material' =>
          cases first with | mix _ first =>
          cases second with | mix _ second =>
          exact .mix abreast (ih (abreast.addSeedMaterial honours material material') first second)
      | draw blocks =>
          cases first with | draw drawn first =>
          cases second with | draw drawn' second =>
          rw [nextBytes_eq (abreast.left ▸ honours) (abreast.left ▸ sizePos)] at drawn
          rw [nextBytes_eq (abreast.right ▸ honours) (abreast.right ▸ sizePos)] at drawn'
          cases drawn
          cases drawn'
          simp only [served, abreast.left, abreast.right, ← blocks] at first second ⊢
          exact .draw abreast honours (ih (abreast.after honours _) first second)

/-- A new generator can meet any demands, and its seed is then the digest of the last
input that its seed was made from.  Two new generators that meet demands of the same kinds,
the material being any, make their seeds from equally many inputs.  If they end with one
seed, then they were given the same material, or two different inputs, of which each made
the seed of its generator in the same place, have one digest. -/
theorem seed_keeps_materials (honours : digest.Honours) (sizePos : 0 < digest.size) :
    (∀ demands, ∃ inputs g, Seeded (new digest) demands inputs g) ∧
    (∀ demands inputs g, Seeded (new digest) demands inputs g →
      g.seed = reseeded digest (Bytes.zeros digest.size) inputs) ∧
    ∀ demands demands' inputs inputs' g h,
      Seeded (new digest) demands inputs g → Seeded (new digest) demands' inputs' h →
      List.Forall₂ (Demand.Alike digest.size) demands demands' →
      inputs.length = inputs'.length ∧
      (g.seed = h.seed →
        demands.filterMap Demand.material? = demands'.filterMap Demand.material? ∨
        ∃ pair ∈ inputs.zip inputs',
          pair.1 ≠ pair.2 ∧ digest.hash pair.1 = digest.hash pair.2) := by
  constructor
  · exact exists_seeded honours sizePos
  · constructor
    · intro demands inputs g seeded
      exact seeded.seed_eq honours sizePos
    · intro demands demands' inputs inputs' g h first second alike
      have retraced := first.retraced honours sizePos (abreast_new digest) second alike
      constructor
      · exact retraced.length_eq
      · intro same
        rcases retraced.traced same with ⟨_, materials⟩ | collide
        · exact .inl materials
        · exact .inr collide

end Runs

/-! ### A digest that forgets the order -/

/-- The exclusive or of all bytes. -/
def parity : Digest :=
  ⟨"parity", 8, fun data => [data.foldl (· ^^^ ·) 0]⟩

theorem honours_parity : parity.Honours :=
  fun _ => rfl

/-- These runs are given different material, and end with one seed although another was
made between.  So two of their inputs collide, here the first ones. -/
theorem seed_keeps_materials_parity : ∃ inputs inputs' g h,
    Seeded (new parity) [.mix [1, 2], .draw 9, .mix [7]] inputs g ∧
    Seeded (new parity) [.mix [3], .draw 9, .mix [7]] inputs' h ∧
    g.seed = h.seed ∧
    ∃ pair ∈ inputs.zip inputs', pair.1 ≠ pair.2 ∧ parity.hash pair.1 = parity.hash pair.2 := by
  have first : Seeded (new parity) [.mix [1, 2], .draw 9, .mix [7]] _ _ :=
    .mix [1, 2] (.draw (nextBytes_eq honours_parity (by decide) 9) (.mix [7] .nothing))
  have second : Seeded (new parity) [.mix [3], .draw 9, .mix [7]] _ _ :=
    .mix [3] (.draw (nextBytes_eq honours_parity (by decide) 9) (.mix [7] .nothing))
  have alike : List.Forall₂ (Demand.Alike parity.size) [.mix [1, 2], .draw 9, .mix [7]]
      [.mix [3], .draw 9, .mix [7]] :=
    .cons (.mix _ _) (.cons (.draw rfl) (.cons (.mix _ _) .nil))
  obtain ⟨-, -, kept⟩ := seed_keeps_materials honours_parity (by decide)
  obtain ⟨-, traced⟩ := kept _ _ _ _ _ _ first second alike
  have same := (first.seed_eq honours_parity (by decide)).trans
    (second.seed_eq honours_parity (by decide)).symm
  rcases traced same with materials | collide
  · exact absurd materials (by decide)
  · exact ⟨_, _, _, _, first, second, same, collide⟩

end EntropySeal.Stretcher
