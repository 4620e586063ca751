import EntropySeal.Machine
import EntropySeal.Proofs.Effect

/-!
# Machines that keep what was written

A store of files gives back what it was told to keep: after a file was replaced
it is read as it was written (`FileStore.read_of_replace`).  The walk along the
path is not disturbed, because it leads through directories only, and what is
replaced is not a directory.

`Machine.Faithful` is what users of an unknown machine take for granted, and a
`Workstation` keeps to it.
-/

namespace EntropySeal

namespace FileStore

variable {s s' : FileStore} {place spot : List String} {node : Node}

theorem node?_put_of_ne (differs : place ≠ spot) :
    (s.put spot node).node? place = s.node? place := by
  by_cases top : place = []
  · rw [node?, node?, if_pos top, if_pos top]
  · have passed : decide (spot = place) = false := decide_eq_false (Ne.symm differs)
    rw [node?, node?, if_neg top, if_neg top, put, List.find?_cons_of_neg (by simp [passed]),
      List.find?_filter]
    congr 2
    funext entry
    by_cases here : entry.1 = place
    · simp [here, differs]
    · simp [here]

theorem node?_put_self (notTop : spot ≠ []) : (s.put spot node).node? spot = some node := by
  simp [node?, put, notTop]

/-- A walk leads through directories only, so it goes the same way wherever those
are still there. -/
theorem walk_of_directories
    (stay : ∀ place, s.node? place = some .directory → s'.node? place = some .directory)
    {parts last : List String} (walked : s.walk place parts = .ok last) :
    s'.walk place parts = .ok last := by
  -- Each place that is walked away from was found to be a directory.
  induction parts generalizing place with
  | nil => exact walked
  | cons part parts ih =>
      rw [walk] at walked ⊢
      cases named : s.node? place with
      | none =>
          rw [named] at walked
          cases walked
      | some found =>
          rw [named] at walked
          cases found with
          | file content => cases walked
          | directory =>
              rw [stay place named]
              simp only at walked ⊢
              by_cases long : part.utf8ByteSize > maxComponent
              · rw [if_pos long] at walked
                cases walked
              · rw [if_neg long] at walked ⊢
                by_cases dot : part = "."
                · rw [if_pos dot] at walked ⊢
                  exact ih walked
                · rw [if_neg dot] at walked ⊢
                  by_cases up : part = ".."
                  · rw [if_pos up] at walked ⊢
                    exact ih walked
                  · rw [if_neg up] at walked ⊢
                    exact ih walked

theorem locate_eq_ok_iff {path : String} :
    s.locate path = .ok place ↔
      checkText path = .ok () ∧ s.walk (s.start path) (components path) = .ok place := by
  rw [locate]
  cases checkText path with
  | error fault => simp [bind, Except.bind]
  | ok u => simp [bind, Except.bind]

/-- What was not a directory can become anything, and paths still lead to where
they led. -/
theorem locate_put (apart : s.node? spot ≠ some .directory) {path : String}
    (located : s.locate path = .ok place) : (s.put spot node).locate path = .ok place := by
  obtain ⟨checked, walked⟩ := locate_eq_ok_iff.mp located
  refine locate_eq_ok_iff.mpr ⟨checked, walk_of_directories ?_ walked⟩
  intro place named
  have differs : place ≠ spot := fun same => apart (same ▸ named)
  rw [node?_put_of_ne differs, named]

/-- Replacing puts a file at the place that the path leads to, which is no
directory. -/
theorem replace_cases {path : String} {content : Bytes}
    (replaced : s.replace path content = .ok s') :
    ∃ place, s.locate path = .ok place ∧ s.node? place ≠ some .directory ∧
      endsInSeparator path = false ∧ s' = s.put place (.file content) := by
  rw [replace] at replaced
  cases fresh : s.locate (parent path ++ "/" ++ freshName) with
  | error fault =>
      rw [fresh] at replaced
      cases replaced
  | ok _ =>
      rw [fresh] at replaced
      simp only [bind, Except.bind, pure, Except.pure] at replaced
      by_cases zero : path.contains '\x00' = true
      · rw [if_pos zero] at replaced
        cases replaced
      rw [if_neg zero] at replaced
      cases located : s.locate path with
      | error fault =>
          rw [located] at replaced
          cases replaced
      | ok place =>
          rw [located] at replaced
          simp only at replaced
          by_cases unnamed : (components path).getLast? = none ∨
              (components path).getLast? = some ".."
          · rw [if_pos unnamed] at replaced
            cases replaced
          rw [if_neg unnamed] at replaced
          by_cases slash : endsInSeparator path = true
          · rw [if_pos slash] at replaced
            cases replaced
          rw [if_neg slash] at replaced
          by_cases directory : s.node? place = some .directory
          · rw [if_pos directory] at replaced
            cases replaced
          rw [if_neg directory] at replaced
          exact ⟨place, rfl, directory, eq_false_of_ne_true slash, (Except.ok.inj replaced).symm⟩

/-- A file is read as it was written. -/
theorem read_of_replace {path : String} {content : Bytes}
    (replaced : s.replace path content = .ok s') : s'.read path = .ok content := by
  obtain ⟨place, located, apart, unslashed, rfl⟩ := replace_cases replaced
  have notTop : place ≠ [] := by
    rintro rfl
    exact apart rfl
  have found : (s.put place (.file content)).lookup path = .ok (.file content) := by
    rw [lookup, locate_put apart located]
    simp only [bind, Except.bind, node?_put_self notTop, unslashed]
    rfl
  rw [read, found]
  rfl

end FileStore

namespace Machine

variable {σ : Type} [Machine σ]

theorem mapError_eq_ok_iff {ε ε' α : Type} {f : ε → ε'} {result : Except ε α} {a : α} :
    result.mapError f = .ok a ↔ result = .ok a := by
  cases result with
  | error e => exact ⟨nofun, nofun⟩
  | ok b =>
      constructor
      · rintro ⟨⟩
        rfl
      · rintro ⟨⟩
        rfl

theorem run_resolve_eq_ok_iff {path absolute : String} {t t' : Traced σ} :
    (resolve path).toAction t = (.ok absolute, t') ↔
      Machine.absolute path t.world = .ok absolute ∧ t' = t := by
  change ((Machine.absolute path t.world).mapError Error.io, t) = _ ↔ _
  rw [Prod.mk.injEq, mapError_eq_ok_iff, eq_comm (a := t)]

theorem run_load_eq_ok_iff {path : String} {content : Bytes} {t t' : Traced σ} :
    (load path).toAction t = (.ok content, t') ↔
      Machine.readFile path t.world = .ok content ∧ t' = t := by
  change ((Machine.readFile path t.world).mapError Error.io, t) = _ ↔ _
  rw [Prod.mk.injEq, mapError_eq_ok_iff, eq_comm (a := t)]

theorem run_randomFor_eq_ok_iff {source : String} {n : Nat} {bytes : Bytes} {t t' : Traced σ} :
    (randomFor source n).toAction t = (.ok bytes, t') ↔
      (Machine.random n t.world).1 = .ok bytes ∧
        t' = { t with world := (Machine.random n t.world).2 } := by
  change ((Machine.random n t.world).1.mapError _, _) = _ ↔ _
  rw [Prod.mk.injEq, mapError_eq_ok_iff, eq_comm (b := t')]
  exact Iff.rfl

theorem run_persist (path : String) (content : Bytes) (t : Traced σ) :
    (persist path content).toAction t =
      ((Machine.replaceFile path content t.world).1.mapError Error.io,
        { t with world := (Machine.replaceFile path content t.world).2 }) :=
  rfl

/-- A machine that gives as many random bytes as it was asked for, and whose files
change by being replaced only: as a whole where that succeeds, and not at all
where it fails. -/
structure Faithful (σ : Type) [Machine σ] : Prop where
  random_size : ∀ (n : Nat) (world : σ) (bytes : Bytes),
    (Machine.random n world).1 = .ok bytes → bytes.length = n
  random_files : ∀ (n : Nat) (path : String) (world : σ),
    Machine.readFile path (Machine.random n world).2 = Machine.readFile path world
  now_files : ∀ (path : String) (world : σ),
    Machine.readFile path (Machine.now world).2 = Machine.readFile path world
  replaced : ∀ (path : String) (content : Bytes) (world : σ),
    (Machine.replaceFile path content world).1 = .ok () →
      Machine.readFile path (Machine.replaceFile path content world).2 = .ok content
  refused : ∀ (path : String) (content : Bytes) (world : σ) (fault : IoFault),
    (Machine.replaceFile path content world).1 = .error fault →
      Machine.readFile path (Machine.replaceFile path content world).2 =
        Machine.readFile path world

end Machine

/-- A workstation loses nothing and invents nothing. -/
theorem Workstation.faithful : Machine.Faithful Workstation where
  random_size n m bytes given := by
    change (m.randomBytes.take n).1 = .ok bytes at given
    rw [RandomBytes.take] at given
    split at given
    · cases given
      simp [*]
    · split at given
      · cases given
      · cases given
        simp
  random_files n path m := rfl
  now_files path m := rfl
  replaced path content m succeeded := by
    change (m.changeFiles _).1 = _ at succeeded
    change (m.changeFiles _).2.files.read path = _
    rw [changeFiles] at succeeded ⊢
    cases replaced : m.files.replace path content with
    | error fault =>
        rw [replaced] at succeeded
        cases succeeded
    | ok files => exact FileStore.read_of_replace replaced
  refused path content m fault failed := by
    change (m.changeFiles _).1 = _ at failed
    change (m.changeFiles _).2.files.read path = _
    rw [changeFiles] at failed ⊢
    cases replaced : m.files.replace path content with
    | error fault => rfl
    | ok files =>
        rw [replaced] at failed
        cases failed

end EntropySeal
