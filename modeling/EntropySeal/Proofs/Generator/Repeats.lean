import EntropySeal.Proofs.Generator.Combiner

/-!
# Repeated arrays

Each round is cross-checked by itself.  A round that is reached and in which two
arrays are equal ends the request without a byte of it, and unless a source or a
digest of that round fails, the first two equal arrays are what it ends with.

Arrays of different rounds are not compared.  Sources that are stuck pass every
round after they passed the first, and the request is met with one block over
and over (`fill_of_stuck`).
-/

namespace EntropySeal

/-- A failed request leaves the buffer as it was. -/
theorem Delivery.writtenTo_failed (e : Error) (buffer : Bytes) :
    (failed e).writtenTo buffer = buffer := by
  simp [failed, writtenTo]

namespace SlowGenerator

variable {σ : Type} {size : Nat} {cs : List (Conditioner σ)} {g : SlowGenerator σ} {n r : Nat}
  {t : Traced σ}

/-! ## Within a round -/

/-- The first round that is not sound ends a request, and none of its bytes is
given. -/
theorem fill_of_unsound (live : g.disposed = false) (less : r < roundCount g.size n)
    (reached : ∀ q < r, Sound g.size g.conditioners (afterRounds g.size g.conditioners q t))
    (unsound : ¬Sound g.size g.conditioners (afterRounds g.size g.conditioners r t)) :
    ∃ e t', Stops g.size g.conditioners (afterRounds g.size g.conditioners r t) e t' ∧
      g.fill n t = ((.failed e, g), t') := by
  have pos := pos_of_lt_roundCount g.size_pos less
  have filled := run_fill live pos t
  rcases rounds_cases g.conditioner_size (roundCount g.size n) t with
    ⟨sounds, -⟩ | ⟨q, -, before, e, t', stops, ran⟩
  · exact absurd (sounds r less) unsound
  · -- Rounds `q` and `r` are both the first one that is not sound.
    have first : q = r := by
      apply Nat.le_antisymm
      · exact Nat.le_of_not_lt fun later => unsound (before r later)
      · exact Nat.le_of_not_lt fun earlier => stops.not_sound (reached q earlier)
    subst first
    rw [ran] at filled
    exact ⟨e, t', stops, filled⟩

/-- A round without a fault in which two arrays are equal stops with the first
two. -/
theorem Stops.repeats {e : Error} {t' : Traced σ} (stops : Stops size cs t e t')
    (faultless : ∀ u ∈ turns size cs t, u.fault size = none) :
    ∃ i j, e = .repeatedIntermediate i j ∧ FirstEqual ((given size cs t).witnesses size) i j := by
  cases stops with
  | faulty turn before fault =>
      rw [faultless _ (List.mem_of_getElem? turn)] at fault
      cases fault
  | repeated faultless equal => exact ⟨_, _, rfl, equal⟩

/-- A round with a fault stops with the first one, whatever is equal in it. -/
theorem Stops.first_fault {e f : Error} {t' : Traced σ} {i : Nat} {u : Turn σ}
    (stops : Stops size cs t e t') (turn : (turns size cs t)[i]? = some u)
    (before : ∀ v ∈ (turns size cs t).take i, v.fault size = none)
    (fault : u.fault size = some f) : e = f := by
  have faulty_of_take {j k : Nat} {v : Turn σ} {e : Error} (less : j < k)
      (there : (turns size cs t)[j]? = some v) (wrong : v.fault size = some e) :
      ¬∀ w ∈ (turns size cs t).take k, w.fault size = none := by
    intro clear
    have member : v ∈ (turns size cs t).take k :=
      List.mem_of_getElem? ((List.getElem?_take_of_lt less).trans there)
    rw [clear v member] at wrong
    cases wrong
  cases stops with
  | @faulty j v _ there clear wrong =>
      have same : j = i := by
        apply Nat.le_antisymm
        · exact Nat.le_of_not_lt fun later => faulty_of_take later turn fault clear
        · exact Nat.le_of_not_lt fun earlier => faulty_of_take earlier there wrong before
      subst same
      rw [turn] at there
      cases there
      exact Option.some.inj (wrong.symm.trans fault)
  | repeated faultless _ =>
      rw [faultless u (List.mem_of_getElem? turn)] at fault
      cases fault

/-- In every round that is reached, two equal arrays end the request: it fails,
the buffer stays as it was and nothing is counted.  If every source and every
digest of the round works, the failure is a breach of integrity that names the
first two equal arrays; otherwise it is the first failure among them. -/
theorem repeat_within_round_stops (live : g.disposed = false)
    (less : r < roundCount g.size n)
    (reached : ∀ q < r, Sound g.size g.conditioners (afterRounds g.size g.conditioners q t))
    (repeats : ¬((given g.size g.conditioners
      (afterRounds g.size g.conditioners r t)).witnesses g.size).Nodup) :
    ∃ e t', g.fill n t = ((⟨[], some e⟩, g), t') ∧
      (∀ buffer, Delivery.writtenTo ⟨[], some e⟩ buffer = buffer) ∧
      ((∀ u ∈ turns g.size g.conditioners (afterRounds g.size g.conditioners r t),
          u.fault g.size = none) →
        e.family = .cryptographicIntegrity ∧ ∃ i j, e = .repeatedIntermediate i j ∧
          FirstEqual ((given g.size g.conditioners
            (afterRounds g.size g.conditioners r t)).witnesses g.size) i j) ∧
      ∀ i u f, (turns g.size g.conditioners (afterRounds g.size g.conditioners r t))[i]? = some u →
        (∀ v ∈ (turns g.size g.conditioners (afterRounds g.size g.conditioners r t)).take i,
          v.fault g.size = none) →
        u.fault g.size = some f → e = f := by
  have unsound : ¬Sound g.size g.conditioners (afterRounds g.size g.conditioners r t) :=
    fun sound => repeats sound.distinct
  obtain ⟨e, t', stops, filled⟩ := fill_of_unsound live less reached unsound
  refine ⟨e, t', filled, Delivery.writtenTo_failed e, ?_, ?_⟩
  · intro faultless
    obtain ⟨i, j, rfl, equal⟩ := stops.repeats faultless
    exact ⟨rfl, i, j, rfl, equal⟩
  · intro i u f turn before fault
    exact stops.first_fault turn before fault

/-! ### A source that fades to what another one gives -/

/-- A source of the byte that the world holds, which goes down by four. -/
def fading (name : String) : Conditioner UInt8 where
  source := {
    info := ⟨name, "a byte that goes down", .deterministic⟩
    fill := fun n t => (⟨List.replicate n t.world, none⟩, { t with world := t.world - 4 }) }
  digests := [successor]
  size := 1
  size_pos := Nat.one_pos
  digests_ne := successor_ne
  digest_size := size_successor

/-- A source that gives a one all the time. -/
def unchanging : Conditioner UInt8 where
  source := {
    info := ⟨"unchanging", "a one all the time", .deterministic⟩
    fill := fun n => pure ⟨List.replicate n 1, none⟩ }
  digests := [successor]
  size := 1
  size_pos := Nat.one_pos
  digests_ne := successor_ne
  digest_size := size_successor

/-- A generator of an unchanging source and one that fades. -/
def meeting : SlowGenerator UInt8 where
  conditioners := [unchanging, fading "fading"]
  size := 1
  size_pos := Nat.one_pos
  conditioner_size := by simp [unchanging, fading]

/-- From five on, the fading source gives in the second round what the other one
gives: the block of the first round is not given either. -/
theorem repeat_within_round_stops_meeting :
    meeting.disposed = false ∧ 1 < roundCount meeting.size 3 ∧
    Sound meeting.size meeting.conditioners ⟨5, []⟩ ∧
    ∃ e t', meeting.fill 3 ⟨5, []⟩ = ((⟨[], some e⟩, meeting), t') ∧
      e.family = .cryptographicIntegrity := by
  have faultless (w : UInt8) : ∀ u ∈ turns meeting.size meeting.conditioners ⟨w, []⟩,
      u.fault meeting.size = none := by
    intro u member
    simp only [meeting, turns, List.mem_cons, List.not_mem_nil, or_false] at member
    rcases member with rfl | rfl <;> rfl
  have first : Sound meeting.size meeting.conditioners ⟨5, []⟩ := ⟨faultless 5, by decide⟩
  have reached : ∀ q < 1, Sound meeting.size meeting.conditioners
      (afterRounds meeting.size meeting.conditioners q ⟨5, []⟩) := by
    intro q less
    obtain rfl := Nat.lt_one_iff.mp less
    exact first
  obtain ⟨e, t', filled, -, integrity, -⟩ :=
    repeat_within_round_stops (g := meeting) (n := 3) (r := 1) (t := ⟨5, []⟩) rfl (by decide)
      reached (by decide)
  exact ⟨rfl, by decide, first, e, t', filled, (integrity (faultless 1)).1⟩

/-! ## From round to round -/

/-- Whether a round is sound is up to its turns. -/
theorem Sound.of_turns_eq {t₁ t₂ : Traced σ} (same : turns size cs t₁ = turns size cs t₂)
    (sound : Sound size cs t₁) : Sound size cs t₂ where
  faultless := same ▸ sound.faultless
  distinct := by
    have distinct := sound.distinct
    rwa [given, same, ← given] at distinct

/-- Sources that give in every round what they gave in the first one are asked
round after round, and the request is met with the block of the first round over
and over. -/
theorem fill_of_stuck (live : g.disposed = false) (pos : 0 < n)
    (sound : Sound g.size g.conditioners t)
    (stuck : ∀ r < roundCount g.size n,
      turns g.size g.conditioners (afterRounds g.size g.conditioners r t) =
        turns g.size g.conditioners t) :
    (g.fill n t).1 =
      (⟨(List.replicate (roundCount g.size n) (block g.size g.conditioners t)).flatten.take n,
        none⟩, g.credit n) := by
  have sounds : ∀ r < roundCount g.size n,
      Sound g.size g.conditioners (afterRounds g.size g.conditioners r t) :=
    fun r less => sound.of_turns_eq (stuck r less).symm
  have blocks : ((List.range (roundCount g.size n)).map fun r =>
      block g.size g.conditioners (afterRounds g.size g.conditioners r t)) =
      List.replicate (roundCount g.size n) (block g.size g.conditioners t) := by
    apply List.eq_replicate_iff.mpr
    constructor
    · rw [List.length_map, List.length_range]
    · intro b member
      obtain ⟨r, within, rfl⟩ := List.mem_map.mp member
      rw [block, given, stuck r (List.mem_range.mp within)]
      rfl
  rw [fill_of_sound live pos sounds, combined, blocks]

/-- Every array that comes up in the rounds of a request, in order. -/
def arrays (g : SlowGenerator σ) (n : Nat) (t : Traced σ) : List Bytes :=
  (List.range (roundCount g.size n)).flatMap fun r =>
    (given g.size g.conditioners (afterRounds g.size g.conditioners r t)).witnesses g.size

/-- Two steady sources give the same arrays in both rounds of a request of two
bytes.  The request is met all the same, with one byte twice. -/
theorem stuck_duo_met :
    duo.disposed = false ∧ ¬(duo.arrays 2 ⟨(), []⟩).Nodup ∧
    (duo.fill 2 ⟨(), []⟩).1.1 = ⟨[4, 4], none⟩ := by
  have faultless : ∀ u ∈ turns duo.size duo.conditioners ⟨(), []⟩, u.fault duo.size = none := by
    intro u member
    simp only [duo, turns, List.mem_cons, List.not_mem_nil, or_false] at member
    rcases member with rfl | rfl <;> rfl
  have stuck (r : Nat) : afterRounds duo.size duo.conditioners r ⟨(), []⟩ = ⟨(), []⟩ := by
    induction r with
    | zero => rfl
    | succ r ih => exact ih
  have met := fill_of_stuck (g := duo) (n := 2) (t := ⟨(), []⟩) rfl Nat.two_pos
    ⟨faultless, by decide⟩ (fun r _ => by rw [stuck r])
  exact ⟨rfl, by decide, congrArg Prod.fst met⟩

end SlowGenerator

end EntropySeal
