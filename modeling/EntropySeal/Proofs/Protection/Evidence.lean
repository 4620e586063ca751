import EntropySeal.Proofs.Protection.Alerting
import EntropySeal.Proofs.Value.Typed

/-!
# Tampering with typed values shows

While the state of a container is scanned and alerts are raised, whoever reads
the value gets a value with the stamp of the one that was last accepted
(`Watched.stamp_of_read`).  For the values of a shape equal encodings mean equal
values, so it is the accepted value itself, unless SHA-256 gives the two
encodings one digest.
-/

namespace EntropySeal

theorem Account.exists_accepted {α : Type} [Protectable α] {a : Account α} {stamp : Stamp}
    (baseline : a.baseline = some stamp) :
    ∃ w, a.accepted = some w ∧ Protectable.stateStamp w = .ok stamp := by
  obtain ⟨w, accepted, stamped⟩ := Option.bind_eq_some_iff.mp baseline
  cases given : Protectable.stateStamp w with
  | error e =>
      rw [given] at stamped
      cases stamped
  | ok stamp' =>
      rw [given] at stamped
      cases stamped
      exact ⟨w, accepted, given⟩

namespace Container

section

variable {α : Type} [Protectable α] {c : Container α} {a : Account α} {v : α}

/-- A read that succeeds returns the value, and its check found nothing. -/
theorem check_of_read (returned : c.read.result = .ok v) :
    (c.detector.check v).result = .ok () := by
  cases live : c.live with
  | error e =>
      rw [read, withValue, live] at returned
      cases returned
  | ok u =>
      rw [read, withValue_live live] at returned
      change (c.detector.check u).result.map (fun _ => id u) = .ok v at returned
      cases checked : (c.detector.check u).result with
      | error e =>
          rw [checked] at returned
          cases returned
      | ok r =>
          rw [checked] at returned
          cases returned
          exact checked

/-- While the state is scanned and alerts are raised, what is read has the stamp
of the value that was last accepted. -/
theorem Watched.stamp_of_read {stamp : Stamp} (watched : Watched c a)
    (scans : c.mode.scansState = true) (raises : c.detector.channel = .raise)
    (returned : c.read.result = .ok v) (stamped : Protectable.stateStamp v = .ok stamp) :
    a.baseline = some stamp := by
  have sound := watched.sound
  rw [sound.mode_eq] at scans
  rw [sound.channel_eq] at raises
  by_contra differs
  have due : a.Due stamp := ⟨scans, by simp [raises], differs⟩
  have checked := check_of_read returned
  rw [sound.check_result stamped, if_pos ⟨due, raises⟩] at checked
  cases checked

/-- A value that is as it was accepted is read without an alert. -/
theorem Watched.read_accepted {stamp : Stamp} (watched : Watched c a) (live : c.live = .ok v)
    (accepted : a.accepted = some v) (stamped : Protectable.stateStamp v = .ok stamp) :
    c.read.result = .ok v := by
  have unchanged : ¬(a.Due stamp ∧ a.channel = .raise) := by
    rintro ⟨⟨_, _, differs⟩, _⟩
    exact differs (Account.baseline_of_accepted accepted stamped)
  rw [read, withValue_live live]
  change (c.detector.check v).result.map (fun _ => id v) = .ok v
  rw [watched.sound.check_result stamped, if_neg unchanged]
  rfl

end

/-- SHA-256 gives the encodings of two values one digest only if they are one
encoding. -/
def Unconfused {s : Shape} (v w : s.Value) : Prop :=
  ∀ x y, Canonical.encode (s.toTree v) = .ok x → Canonical.encode (s.toTree w) = .ok y →
    x ≠ y → Digest.Sha2.sha256 x ≠ Digest.Sha2.sha256 y

theorem eq_of_stateStamp {s : Shape} {v w : s.Value} {stamp : Stamp} (fitsV : (s.toTree v).Fits)
    (fitsW : (s.toTree w).Fits) (unconfused : Unconfused v w)
    (stampedV : Protectable.stateStamp v = .ok stamp)
    (stampedW : Protectable.stateStamp w = .ok stamp) : v = w := by
  obtain ⟨x, encodedV, rfl⟩ := Protectable.stampTree_eq_ok_iff.mp stampedV
  obtain ⟨y, encodedW, digests⟩ := Protectable.stampTree_eq_ok_iff.mp stampedW
  have encodings : x = y := by
    by_contra differ
    exact unconfused x y encodedV encodedW differ (congrArg Stamp.bytes digests.symm)
  apply (Shape.encode_eq_iff fitsV fitsW (.same _) (.same _)).mp
  exact encodedV.trans (encodings ▸ encodedW.symm)

/-- Values of a shape whose lengths can be written have encodings, which are equal
exactly for equal values, in whatever order their maps are walked.  So whatever a
container of such a value goes through, and however often its value is changed
behind its back: while the state is scanned and alerts are raised, a read that
succeeds returns the value that was last accepted, unless SHA-256 confuses the
encodings of the two. -/
theorem tamper_evident (s : Shape) :
    (∀ {v w : s.Value} {t u : Tree}, (s.toTree v).Fits → (s.toTree w).Fits →
      (s.toTree v).Reordered t → (s.toTree w).Reordered u →
      (∃ x, Canonical.encode t = .ok x) ∧
        (Canonical.encode t = Canonical.encode u ↔ v = w)) ∧
    ∀ {c : Container s.Value} {a : Account s.Value} {v : s.Value}, Watched c a →
      c.mode.scansState = true → c.detector.channel = .raise → c.read.result = .ok v →
      ∃ w, a.accepted = some w ∧
        ((s.toTree v).Fits → (s.toTree w).Fits → Unconfused v w → v = w) := by
  constructor
  · intro v w t u fitsV fitsW reorderedV reorderedW
    constructor
    · exact ⟨_, Shape.encode_of_reordered fitsV reorderedV⟩
    · exact Shape.encode_eq_iff fitsV fitsW reorderedV reorderedW
  · intro c a v watched scans raises returned
    have stamped := Protectable.stateStamp_value v
    have baseline := watched.stamp_of_read scans raises returned stamped
    obtain ⟨w, accepted, stampedW⟩ := Account.exists_accepted baseline
    refine ⟨w, accepted, ?_⟩
    intro fitsV fitsW unconfused
    exact eq_of_stateStamp fitsV fitsW unconfused stamped stampedW

/-! ### Tampering undone -/

/-- Rows of boxes that may hold a number. -/
abbrev Boxes : Shape :=
  .list (.option (.uint .w8))

/-- One box with a seven, and one empty. -/
def boxes : Boxes.Value :=
  ([some 7, none] : List (Option (BitVec 8)))

/-- The boxes, their state protected, with alerts that stop who looks. -/
def sealedBoxes : Container Boxes.Value where
  value := some boxes
  detector := {
    scanState := true
    scanCode := false
    channel := .raise
    lastState := (Protectable.stateStamp boxes).toOption }
  mode := .justState

/-- Turning the row around behind the container's back. -/
def turnRow : Operation Boxes.Value :=
  .tamper (List.reverse (α := Option (BitVec 8)))

/-- Boxes that were turned around and back again are read, and are what was
accepted. -/
theorem tamper_evident_turned_back : ∃ a : Account Boxes.Value,
    Watched sealedBoxes a ∧ sealedBoxes.read.result = .ok boxes ∧
      ∃ w, a.accepted = some w ∧ boxes = w := by
  have made : make boxes .justState .raise = .ok sealedBoxes := rfl
  have watched : Watched sealedBoxes (.opened boxes .justState .raise) :=
    .step turnRow (.step turnRow (.made made))
  have returned : sealedBoxes.read.result = .ok boxes :=
    watched.read_accepted rfl rfl (Protectable.stateStamp_value boxes)
  have filled (n : BitVec 128) : Datum.Fits (.single .some (.scalar (.uint n))) :=
    .single trivial (.scalar trivial)
  have nothing : Datum.Fits (.scalar .none) := .scalar trivial
  have fits : (Boxes.toTree boxes).Fits := by
    rintro _ ⟨⟩
    apply Datum.Fits.row
    · trivial
    · decide
    · simp [filled, nothing]
  have unconfused : Unconfused boxes boxes := by
    intro x y encodedX encodedY differ
    rw [encodedX] at encodedY
    exact absurd (Except.ok.inj encodedY) differ
  obtain ⟨w, accepted, same⟩ := (tamper_evident Boxes).2 watched rfl rfl returned
  cases accepted
  exact ⟨_, watched, returned, boxes, rfl, same fits fits unconfused⟩

end Container

end EntropySeal
