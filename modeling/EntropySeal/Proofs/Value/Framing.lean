import EntropySeal.Value.Canonical
import Mathlib.Data.List.Forall2

/-!
# Self-delimiting codes

A code is self-delimiting if a value's code can be split off the front of any
longer byte string, which then determines both the value and the rest.  Numbers
of fixed width are, and so are byte strings, texts and variant names with their
lengths in front, as long as the lengths fit into the eight bytes they are
written in.
-/

namespace EntropySeal

namespace Bytes

/-- A longer byte string determines the value in front of it, among the values
that fit, and the rest. -/
def SelfDelimiting {α : Type} (fits : α → Prop) (code : α → Bytes) : Prop :=
  ∀ ⦃a b : α⦄, fits a → fits b →
    ∀ ⦃r s : Bytes⦄, code a ++ r = code b ++ s → a = b ∧ r = s

/-- A value can be coded through anything that determines it. -/
theorem SelfDelimiting.comap {α β : Type} {fits : α → Prop} {code : α → Bytes}
    (delimits : SelfDelimiting fits code) {key : β → α} (injective : Function.Injective key) :
    SelfDelimiting (fun b => fits (key b)) (fun b => code (key b)) := by
  intro a b fitsA fitsB r s equal
  rcases delimits fitsA fitsB equal with ⟨keys, rests⟩
  exact ⟨injective keys, rests⟩

/-- Fixed width delimits the numbers that it holds. -/
theorem toLe_selfDelimiting (n : Nat) : SelfDelimiting (· < Nat.pow 256 n) (toLe n) := by
  intro x y fitsX fitsY r s equal
  rcases List.append_inj equal (by simp) with ⟨codes, rests⟩
  have numbers := congrArg ofLe codes
  rw [ofLe_toLe, ofLe_toLe, Nat.mod_eq_of_lt fitsX, Nat.mod_eq_of_lt fitsY] at numbers
  exact ⟨numbers, rests⟩

/-- Collecting the bytes from a place on adds the stored ones from there. -/
theorem collect_bytes (b : ByteArray) (i : Nat) (collected : Bytes) :
    ByteArray.toList.loop b i collected = collected.reverse ++ b.data.toList.drop i := by
  fun_induction ByteArray.toList.loop b i collected with
  | case1 i collected inside ih =>
      have stored : i < b.data.toList.length := inside
      rw [ih, List.drop_eq_getElem_cons stored]
      simp [ByteArray.get!, getElem!_pos b.data i inside]
  | case2 i collected outside =>
      have stored : b.data.toList.length ≤ i := Nat.le_of_not_lt outside
      simp [List.drop_eq_nil_of_le stored]

/-- The bytes of a text as the text stores them. -/
theorem ofText_eq (s : String) : ofText s = s.toByteArray.data.toList := by
  simpa [ofText, ByteArray.toList] using collect_bytes s.toByteArray 0 []

theorem ofText_injective : Function.Injective ofText := by
  intro s t equal
  rw [ofText_eq, ofText_eq] at equal
  exact String.toByteArray_inj.mp (ByteArray.ext (Array.toList_inj.mp equal))

end Bytes

namespace Canonical

open Bytes

/-! ## Lengths in front -/

/-- A length that can be written. -/
def CountFits (n : Nat) : Prop :=
  n < Nat.pow 2 64

/-- A text whose length can be written. -/
def TextFits (s : String) : Prop :=
  CountFits (ofText s).length

instance (n : Nat) : Decidable (CountFits n) :=
  inferInstanceAs (Decidable (n < Nat.pow 2 64))

instance (s : String) : Decidable (TextFits s) :=
  inferInstanceAs (Decidable (CountFits (ofText s).length))

/-- A variant name whose texts fit. -/
def VariantFits (v : VariantName) : Prop :=
  TextFits v.type ∧ TextFits v.variant

theorem putCount_selfDelimiting : SelfDelimiting CountFits putCount :=
  fun _ _ fitsM fitsN _ _ equal => toLe_selfDelimiting 8 fitsM fitsN equal

theorem putBytes_selfDelimiting : SelfDelimiting (fun b => CountFits b.length) putBytes := by
  intro a b fitsA fitsB r s equal
  simp only [putBytes, List.append_assoc] at equal
  rcases putCount_selfDelimiting fitsA fitsB equal with ⟨lengths, tails⟩
  exact List.append_inj tails lengths

theorem putText_selfDelimiting : SelfDelimiting TextFits putText :=
  putBytes_selfDelimiting.comap ofText_injective

theorem putVariant_selfDelimiting : SelfDelimiting VariantFits putVariant := by
  intro v w fitsV fitsW r s equal
  simp only [putVariant, List.append_assoc] at equal
  rcases putText_selfDelimiting fitsV.1 fitsW.1 equal with ⟨types, afterType⟩
  rcases toLe_selfDelimiting 4 v.index.toNat_lt w.index.toNat_lt afterType with
    ⟨indices, afterIndex⟩
  rcases putText_selfDelimiting fitsV.2 fitsW.2 afterIndex with ⟨variants, rests⟩
  cases v
  cases w
  simp_all [UInt32.toNat_inj]

/-! ## Parts in order -/

/-- Equally many parts, each delimited by itself up to a relation, are delimited
together. -/
theorem flatten_delimited {α : Type} {R : α → α → Prop} {code : α → Bytes} :
    ∀ {as bs : List α}, as.length = bs.length →
      (∀ a ∈ as, ∀ b ∈ bs, ∀ {r s : Bytes}, code a ++ r = code b ++ s → R a b ∧ r = s) →
      ∀ {r s : Bytes}, (as.map code).flatten ++ r = (bs.map code).flatten ++ s →
        List.Forall₂ R as bs ∧ r = s
  | [], [], _, _, _, _, equal => ⟨.nil, by simpa using equal⟩
  | a :: as, b :: bs, lengths, delimits, r, s, equal => by
      simp only [List.map_cons, List.flatten_cons, List.append_assoc] at equal
      rcases delimits a (by simp) b (by simp) equal with ⟨first, tails⟩
      have later : ∀ a ∈ as, ∀ b ∈ bs, ∀ {r s : Bytes},
          code a ++ r = code b ++ s → R a b ∧ r = s :=
        fun a memA b memB => delimits a (by simp [memA]) b (by simp [memB])
      rcases flatten_delimited (by simpa using lengths) later tails with ⟨others, rests⟩
      exact ⟨.cons first others, rests⟩

/-- Counted parts, each delimited by itself up to a relation, are delimited
together. -/
theorem putParts_delimited {α : Type} {R : α → α → Prop} {code : α → Bytes} {as bs : List α}
    (fitsA : CountFits as.length) (fitsB : CountFits bs.length)
    (delimits : ∀ a ∈ as, ∀ b ∈ bs, ∀ {r s : Bytes},
      code a ++ r = code b ++ s → R a b ∧ r = s)
    {r s : Bytes} (equal : putParts (as.map code) ++ r = putParts (bs.map code) ++ s) :
    List.Forall₂ R as bs ∧ r = s := by
  simp only [putParts, List.length_map, List.append_assoc] at equal
  rcases putCount_selfDelimiting fitsA fitsB equal with ⟨lengths, tails⟩
  exact flatten_delimited lengths delimits tails

end Canonical

end EntropySeal
