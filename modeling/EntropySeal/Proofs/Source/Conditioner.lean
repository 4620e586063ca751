import EntropySeal.Source.Conditioner

/-!
# Combining arrays of one size

Exclusive or of arrays of one size does not depend on how they are grouped:
combining groups first and their results then is combining all of them.
-/

namespace EntropySeal

namespace Bytes

theorem xor_assoc (a b c : Bytes) : xor (xor a b) c = xor a (xor b c) := by
  induction a generalizing b c with
  | nil => simp [xor]
  | cons x a ih =>
      cases b with
      | nil => simp [xor]
      | cons y b =>
          cases c with
          | nil => simp [xor]
          | cons z c =>
              have rest := ih b c
              simp only [xor] at rest
              simp only [xor, List.zipWith_cons_cons, rest, UInt8.xor_assoc]

theorem xor_zeros (a : Bytes) : xor a (zeros a.length) = a := by
  induction a with
  | nil => rfl
  | cons x a ih =>
      simp only [xor, zeros] at ih
      simp [xor, zeros, List.replicate_succ, ih]

theorem zeros_xor (a : Bytes) : xor (zeros a.length) a = a := by
  induction a with
  | nil => rfl
  | cons x a ih =>
      simp only [xor, zeros] at ih
      simp [xor, zeros, List.replicate_succ, ih]

theorem xor_self (a : Bytes) : xor a a = zeros a.length := by
  induction a with
  | nil => rfl
  | cons x a ih =>
      simp only [xor, zeros] at ih
      simp only [xor, zeros, List.zipWith_cons_cons, UInt8.xor_self, ih, List.length_cons,
        List.replicate_succ]

end Bytes

namespace Conditioned

/-- Arrays of one size. -/
def OfSize (size : Nat) (arrays : List Bytes) : Prop :=
  ∀ a ∈ arrays, a.length = size

variable {size : Nat}

theorem foldl_xor {arrays : List Bytes} (sizes : OfSize size arrays) {a : Bytes}
    (length : a.length = size) :
    arrays.foldl Bytes.xor a = Bytes.xor a (combine size arrays) := by
  induction arrays generalizing a with
  | nil =>
      have zeros := Bytes.xor_zeros a
      rw [length] at zeros
      exact zeros.symm
  | cons b bs ih =>
      have bLength : b.length = size := sizes b (by simp)
      have bsSizes : OfSize size bs := fun c member => sizes c (by simp [member])
      have zeros := Bytes.zeros_xor b
      rw [bLength] at zeros
      have both : (Bytes.xor a b).length = size := by simp [length, bLength]
      have step : combine size (b :: bs) = Bytes.xor b (combine size bs) := by
        rw [combine, List.foldl_cons, zeros, ih bsSizes bLength]
      rw [List.foldl_cons, ih bsSizes both, Bytes.xor_assoc, step]

theorem combine_cons {a : Bytes} {arrays : List Bytes} (length : a.length = size)
    (sizes : OfSize size arrays) :
    combine size (a :: arrays) = Bytes.xor a (combine size arrays) := by
  have zeros := Bytes.zeros_xor a
  rw [length] at zeros
  rw [combine, List.foldl_cons, zeros, foldl_xor sizes length]

@[simp]
theorem length_combine {arrays : List Bytes} (sizes : OfSize size arrays) :
    (combine size arrays).length = size := by
  induction arrays with
  | nil => simp [combine]
  | cons a as ih =>
      have length : a.length = size := sizes a (by simp)
      have rest : OfSize size as := fun b member => sizes b (by simp [member])
      rw [combine_cons length rest, Bytes.length_xor, length, ih rest, Nat.min_self]

theorem combine_append {first second : List Bytes} (firstSizes : OfSize size first)
    (secondSizes : OfSize size second) :
    combine size (first ++ second) =
      Bytes.xor (combine size first) (combine size second) := by
  calc
    combine size (first ++ second) = second.foldl Bytes.xor (combine size first) :=
      List.foldl_append
    _ = Bytes.xor (combine size first) (combine size second) :=
      foldl_xor secondSizes (length_combine firstSizes)

/-- Combining groups and then their results is combining all. -/
theorem combine_flatten {groups : List (List Bytes)}
    (sizes : ∀ group ∈ groups, OfSize size group) :
    combine size (groups.map (combine size)) = combine size groups.flatten := by
  induction groups with
  | nil => rfl
  | cons group groups ih =>
      have first : OfSize size group := sizes group (by simp)
      have later : ∀ group ∈ groups, OfSize size group :=
        fun g member => sizes g (by simp [member])
      have combined : OfSize size (groups.map (combine size)) := by
        intro a member
        obtain ⟨g, within, rfl⟩ := List.mem_map.mp member
        exact length_combine (later g within)
      have flat : OfSize size groups.flatten := by
        intro a member
        obtain ⟨g, within, among⟩ := List.mem_flatten.mp member
        exact later g within a among
      rw [List.map_cons, combine_cons (length_combine first) combined, ih later,
        List.flatten_cons, combine_append first flat]

end Conditioned

end EntropySeal
