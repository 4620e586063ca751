import EntropySeal.Proofs.Generator.Turns

/-!
# The combiner

A request of `n` bytes takes the least number of rounds that give so many.
Round follows round in the world that the last one left, as long as every
round is sound: no turn has a fault, and the witnesses are distinct.  Then the
request gets the blocks of the rounds one after the other, the last one cut
short.  The first round that is not sound ends the request with the first
thing that is wrong in it, and none of its bytes is given.
-/

namespace EntropySeal.SlowGenerator

variable {σ : Type} {size : Nat} {cs : List (Conditioner σ)} {t : Traced σ}

/-! ## Rounds -/

/-- A round in which no turn has a fault and the witnesses are distinct. -/
structure Sound (size : Nat) (cs : List (Conditioner σ)) (t : Traced σ) : Prop where
  faultless : ∀ u ∈ turns size cs t, u.fault size = none
  distinct : ((given size cs t).witnesses size).Nodup

/-- How a round that is not sound ends: with which error, in which world. -/
inductive Stops (size : Nat) (cs : List (Conditioner σ)) (t : Traced σ) :
    Error → Traced σ → Prop where
  /-- The first turn with a fault is the last one. -/
  | faulty {i : Nat} {u : Turn σ} {e : Error} : (turns size cs t)[i]? = some u →
      (∀ v ∈ (turns size cs t).take i, v.fault size = none) → u.fault size = some e →
      Stops size cs t e (asked size (cs.take (i + 1)) t)
  /-- Every source had its turn, and the first two equal witnesses are logged. -/
  | repeated {i j : Nat} : (∀ u ∈ turns size cs t, u.fault size = none) →
      FirstEqual ((given size cs t).witnesses size) i j →
      Stops size cs t (.repeatedIntermediate i j)
        { asked size cs t with
          events := (asked size cs t).events ++ [.crossCheckFailed i j] }

theorem Stops.not_sound {e : Error} {t' : Traced σ} (stops : Stops size cs t e t') :
    ¬Sound size cs t := by
  rintro ⟨faultless, distinct⟩
  cases stops with
  | faulty turn before fault =>
      rw [faultless _ (List.mem_of_getElem? turn)] at fault
      cases fault
  | repeated _ equal => exact equal.not_nodup distinct

/-- All turns are without a fault, or there is a first one with a fault. -/
theorem faultless_or_first (us : List (Turn σ)) :
    (∀ u ∈ us, u.fault size = none) ∨
      ∃ i u e, us[i]? = some u ∧ (∀ v ∈ us.take i, v.fault size = none) ∧
        u.fault size = some e := by
  induction us with
  | nil => exact .inl (by simp)
  | cons u us ih =>
      cases fault : u.fault size with
      | some e => exact .inr ⟨0, u, e, rfl, by simp, fault⟩
      | none =>
          rcases ih with faultless | ⟨i, v, e, turn, before, wrong⟩
          · exact .inl (List.forall_mem_cons.mpr ⟨fault, faultless⟩)
          · have earlier : ∀ w ∈ (u :: us).take (i + 1), w.fault size = none :=
              List.forall_mem_cons.mpr ⟨fault, before⟩
            exact .inr ⟨i + 1, v, e, turn, earlier, wrong⟩

/-- A round without a fault is cross-checked after every source was asked. -/
theorem run_round (sizes : ∀ c ∈ cs, c.size = size)
    (faultless : ∀ u ∈ turns size cs t, u.fault size = none) :
    (round size cs).toAction t =
      (crossCheck size (given size cs t) >>= fun _ =>
        pure (block size cs t)).toAction (asked size cs t) := by
  have drawn := drawRound_ok sizes faultless
  rw [round, Attempt.run_bind_ok drawn, ← output_given faultless]
  rfl

/-- A sound round gives its block; any other ends with what is wrong first. -/
theorem round_cases (sizes : ∀ c ∈ cs, c.size = size) (t : Traced σ) :
    (Sound size cs t ∧
      (round size cs).toAction t = (.ok (block size cs t), asked size cs t)) ∨
    ∃ e t', Stops size cs t e t' ∧ (round size cs).toAction t = (.error e, t') := by
  rcases faultless_or_first (turns size cs t) with
    faultless | ⟨i, u, e, turn, before, fault⟩
  · have ran := run_round sizes faultless
    rcases firstRepeat_cases 0 ((given size cs t).witnesses size) with
      ⟨none, distinct⟩ | ⟨i, j, found, equal⟩
    · rw [crossCheck, none] at ran
      exact .inl ⟨⟨faultless, distinct⟩, ran⟩
    · rw [crossCheck, found, Nat.zero_add, Nat.zero_add] at ran
      exact .inr ⟨_, _, .repeated faultless equal, ran⟩
  · have drawn := drawRound_error sizes turn before fault
    have ran : (round size cs).toAction t = (.error e, asked size (cs.take (i + 1)) t) := by
      rw [round, Attempt.run_bind_error drawn]
    exact .inr ⟨e, _, .faulty turn before fault, ran⟩

theorem round_of_sound (sizes : ∀ c ∈ cs, c.size = size) (sound : Sound size cs t) :
    (round size cs).toAction t = (.ok (block size cs t), asked size cs t) := by
  rcases round_cases sizes t with ⟨-, ran⟩ | ⟨e, t', stops, -⟩
  · exact ran
  · exact absurd sound stops.not_sound

/-! ## Requests -/

/-- The world after `r` rounds in which every source was asked. -/
def afterRounds (size : Nat) (cs : List (Conditioner σ)) : Nat → Traced σ → Traced σ
  | 0, t => t
  | r + 1, t => afterRounds size cs r (asked size cs t)

/-- Rounds give their blocks if all are sound; the first one that is not ends
them. -/
theorem rounds_cases (sizes : ∀ c ∈ cs, c.size = size) (k : Nat) (t : Traced σ) :
    ((∀ r < k, Sound size cs (afterRounds size cs r t)) ∧
      (rounds size cs k).toAction t =
        (.ok ((List.range k).map fun r => block size cs (afterRounds size cs r t)),
          afterRounds size cs k t)) ∨
    ∃ r, r < k ∧ (∀ q < r, Sound size cs (afterRounds size cs q t)) ∧
      ∃ e t', Stops size cs (afterRounds size cs r t) e t' ∧
        (rounds size cs k).toAction t = (.error e, t') := by
  induction k generalizing t with
  | zero => exact .inl ⟨by simp, rfl⟩
  | succ k ih =>
      rcases round_cases sizes t with ⟨sound, first⟩ | ⟨e, t', stops, first⟩
      · have soundFrom : ∀ {m : Nat}, (∀ r < m, Sound size cs (afterRounds size cs r
            (asked size cs t))) → ∀ r < m + 1, Sound size cs (afterRounds size cs r t) := by
          intro m sounds r less
          cases r with
          | zero => exact sound
          | succ r => exact sounds r (Nat.lt_of_succ_lt_succ less)
        rcases ih (asked size cs t) with ⟨sounds, rest⟩ | ⟨r, less, sounds, e, t', stops, rest⟩
        · apply Or.inl
          constructor
          · exact soundFrom sounds
          · rw [rounds, Attempt.run_bind_ok first, Attempt.run_bind_ok rest,
              List.range_succ_eq_map, List.map_cons, List.map_map]
            rfl
        · have ran : (rounds size cs (k + 1)).toAction t = (.error e, t') := by
            rw [rounds, Attempt.run_bind_ok first, Attempt.run_bind_error rest]
          exact .inr ⟨r + 1, Nat.succ_lt_succ less, soundFrom sounds, e, t', stops, ran⟩
      · have ran : (rounds size cs (k + 1)).toAction t = (.error e, t') := by
          rw [rounds, Attempt.run_bind_error first]
        exact .inr ⟨0, Nat.succ_pos k, by simp, e, t', stops, ran⟩

theorem le_roundCount_mul (size n : Nat) (sizePos : 0 < size) :
    n ≤ roundCount size n * size := by
  have enough := Nat.lt_div_mul_add (a := n + size - 1) sizePos
  rw [roundCount]
  omega

/-- A request that takes a round asks for a byte. -/
theorem pos_of_lt_roundCount {size n r : Nat} (sizePos : 0 < size)
    (less : r < roundCount size n) : 0 < n := by
  apply Nat.pos_of_ne_zero
  rintro rfl
  have none : roundCount size 0 = 0 := Nat.div_eq_of_lt (by omega)
  rw [none] at less
  exact Nat.not_lt_zero r less

/-- The bytes of a request whose rounds are all sound: the blocks of the rounds,
cut to size. -/
def combined (g : SlowGenerator σ) (n : Nat) (t : Traced σ) : Bytes :=
  ((List.range (roundCount g.size n)).map fun r =>
    block g.size g.conditioners (afterRounds g.size g.conditioners r t)).flatten.take n

theorem length_combined {g : SlowGenerator σ} {n : Nat} {t : Traced σ}
    (sounds : ∀ r < roundCount g.size n,
      Sound g.size g.conditioners (afterRounds g.size g.conditioners r t)) :
    (g.combined n t).length = n := by
  have enough := le_roundCount_mul g.size n g.size_pos
  rw [combined, List.length_take, List.length_flatten, List.map_map]
  have lengths : (List.range (roundCount g.size n)).map (List.length ∘ fun r =>
      block g.size g.conditioners (afterRounds g.size g.conditioners r t)) =
        List.replicate (roundCount g.size n) g.size := by
    apply List.eq_replicate_iff.mpr
    constructor
    · simp
    · intro length member
      obtain ⟨r, within, rfl⟩ := List.mem_map.mp member
      exact length_block (sounds r (List.mem_range.mp within)).faultless
  rw [lengths, List.sum_replicate_nat]
  exact Nat.min_eq_left enough

/-- A request that is let in serves its rounds. -/
theorem run_fill {g : SlowGenerator σ} (live : g.disposed = false) {n : Nat} (pos : 0 < n)
    (t : Traced σ) :
    g.fill n t =
      match (rounds g.size g.conditioners (roundCount g.size n)).toAction t with
      | (.ok blocks, t') => ((⟨blocks.flatten.take n, none⟩, g.credit n), t')
      | (.error e, t') => ((.failed e, g), t') := by
  have notEmpty : n ≠ 0 := Nat.ne_of_gt pos
  have letIn : g.letIn = .ok () := by simp [SlowGenerator.letIn, live]
  simp only [fill, if_neg notEmpty, letIn, serve, Action.run_bind, Attempt.run_bind]
  rcases (rounds g.size g.conditioners (roundCount g.size n)).toAction t with ⟨result, t'⟩
  cases result with
  | error e => rfl
  | ok blocks => rfl

/-- A request whose rounds are all sound gives the combined bytes and counts them. -/
theorem fill_of_sound {g : SlowGenerator σ} (live : g.disposed = false) {n : Nat} (pos : 0 < n)
    (sounds : ∀ r < roundCount g.size n,
      Sound g.size g.conditioners (afterRounds g.size g.conditioners r t)) :
    g.fill n t = ((⟨g.combined n t, none⟩, g.credit n),
      afterRounds g.size g.conditioners (roundCount g.size n) t) := by
  have filled := run_fill live pos t
  rcases rounds_cases g.conditioner_size (roundCount g.size n) t with
    ⟨-, ran⟩ | ⟨r, less, -, e, t', stops, -⟩
  · rw [ran] at filled
    exact filled
  · exact absurd (sounds r less) stops.not_sound

/-- A request to a generator that was not disposed is met if and only if every
round is sound.  Then it gives exactly the combined bytes and counts them;
otherwise it gives nothing and counts nothing, and the first round that is not
sound ends it. -/
theorem fill_combines {g : SlowGenerator σ} (live : g.disposed = false) {n : Nat} (pos : 0 < n)
    (t : Traced σ) :
    ((g.fill n t).1.1.failure = none ↔ ∀ r < roundCount g.size n,
      Sound g.size g.conditioners (afterRounds g.size g.conditioners r t)) ∧
    ((g.fill n t).1.1.failure = none →
      (g.combined n t).length = n ∧
      g.fill n t = ((⟨g.combined n t, none⟩,
        { g with totalOutput := g.totalOutput + UInt64.ofNat n }),
        afterRounds g.size g.conditioners (roundCount g.size n) t)) ∧
    ∀ e, (g.fill n t).1.1.failure = some e →
      ∃ r, r < roundCount g.size n ∧
        (∀ q < r, Sound g.size g.conditioners (afterRounds g.size g.conditioners q t)) ∧
        ∃ t', Stops g.size g.conditioners (afterRounds g.size g.conditioners r t) e t' ∧
          g.fill n t = ((⟨[], some e⟩, g), t') := by
  have filled := run_fill live pos t
  rcases rounds_cases g.conditioner_size (roundCount g.size n) t with
    ⟨sounds, ran⟩ | ⟨r, less, before, e, t', stops, ran⟩
  · rw [ran] at filled
    rw [filled]
    constructor
    · constructor
      · intro _
        exact sounds
      · intro _
        rfl
    · constructor
      · intro _
        exact ⟨length_combined sounds, rfl⟩
      · intro e failed
        cases failed
  · rw [ran] at filled
    rw [filled]
    constructor
    · constructor
      · intro met
        cases met
      · intro sounds
        exact absurd (sounds r less) stops.not_sound
    · constructor
      · intro met
        cases met
      · rintro e' ⟨⟩
        exact ⟨r, less, before, t', stops, rfl⟩

/-! ### Two steady sources -/

/-- A digest of one byte, the successor of the first byte. -/
def successor : Digest where
  name := "successor"
  bits := 8
  hash data := [data.headD 0 + 1]

theorem successor_ne : [successor] ≠ [] :=
  List.cons_ne_nil _ _

theorem size_successor : ∀ d ∈ [successor], d.size = 1 :=
  List.forall_mem_singleton.mpr rfl

/-- A source that gives the same byte all the time. -/
def steady (name : String) (b : UInt8) : Conditioner Unit where
  source := {
    info := ⟨name, "the same byte all the time", .deterministic⟩
    fill := fun n => pure ⟨List.replicate n b, none⟩ }
  digests := [successor]
  size := 1
  size_pos := Nat.one_pos
  digests_ne := successor_ne
  digest_size := size_successor

/-- A generator of two steady sources. -/
def duo : SlowGenerator Unit where
  conditioners := [steady "one" 1, steady "five" 5]
  size := 1
  size_pos := Nat.one_pos
  conditioner_size := by simp [steady]

/-- Three bytes take three rounds, each the exclusive or of the digests 2 and 6. -/
theorem fill_combines_duo :
    make [steady "one" 1, steady "five" 5] = .ok duo ∧ duo.disposed = false ∧ 0 < 3 ∧
    duo.fill 3 ⟨(), []⟩ =
      ((⟨[4, 4, 4], none⟩, { duo with totalOutput := 3 }), ⟨(), []⟩) := by
  have bytes : duo.combined 3 ⟨(), []⟩ = [4, 4, 4] := rfl
  obtain ⟨_, met, _⟩ := fill_combines (g := duo) rfl (show 0 < 3 by decide) ⟨(), []⟩
  obtain ⟨_, filled⟩ := met rfl
  rw [bytes] at filled
  exact ⟨rfl, rfl, by decide, filled⟩

end EntropySeal.SlowGenerator
