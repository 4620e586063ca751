import EntropySeal.Proofs.Value.Typed
import Mathlib.Data.Nat.Find

/-!
# The walk over a tree

A tree is encoded by one walk: every part that it gives is visited in turn, and
every value of a map is taken with the key that came before it.  `calls` lists
these calls in their order, whether or not one of them fails; two kinds can
fail, the visit of a value that cannot describe itself and the value of a map
that no key precedes.

An encoding fails exactly when some call does, with the failure of the first
such call (`encode_follows`).  An encoding that succeeds holds, for each map that
was visited, one entry for each value given, under the last key before it
(`given_of_encodeMapParts`).
-/

namespace EntropySeal.Canonical

/-! ## Calls -/

/-- What happens on a walk and can fail. -/
inductive Call where
  /-- A value is asked for its structure. -/
  | visit (t : Tree)
  /-- A map gives a value, after those keys and values of its own. -/
  | value (earlier : List MapPart)

/-- A map has given a key since its last value. -/
def KeyAtHand (earlier : List MapPart) : Prop :=
  .key ∈ earlier.reverse.takeWhile (· ≠ .value)

instance (earlier : List MapPart) : Decidable (KeyAtHand earlier) :=
  inferInstanceAs (Decidable (_ ∈ _))

theorem not_keyAtHand_nil : ¬ KeyAtHand [] := by
  simp [KeyAtHand]

theorem keyAtHand_key (earlier : List MapPart) : KeyAtHand (earlier ++ [.key]) := by
  simp [KeyAtHand]

theorem not_keyAtHand_value (earlier : List MapPart) : ¬ KeyAtHand (earlier ++ [.value]) := by
  simp [KeyAtHand]

/-- What a call fails with, if it does. -/
def Call.failure? : Call → Option String
  | .visit (.fail reason) => some reason
  | .visit _ => none
  | .value earlier => if KeyAtHand earlier then none else some missingKey

/-- A call fails if it visits a value that cannot describe itself, or gives a
value without a key since the previous one. -/
theorem Call.failure?_ne_none_iff (call : Call) :
    call.failure? ≠ none ↔
      (∃ reason, call = .visit (.fail reason)) ∨
        ∃ earlier, call = .value earlier ∧ ¬ KeyAtHand earlier := by
  cases call with
  | visit t => cases t <;> simp [failure?]
  | value earlier => simp [failure?]

mutual

/-- The calls made inside a tree, in their order. -/
def innerCalls : Tree → List Call
  | .some t | .newtypeStruct _ t | .newtypeVariant _ t | .human t _ => .visit t :: innerCalls t
  | .seq _ items | .tuple items | .tupleStruct _ items | .tupleVariant _ items => itemCalls items
  | .map entries => entryCalls [] entries
  | .mapParts parts => partCalls [] parts
  | .struct _ fields | .structVariant _ fields => fieldCalls fields
  | _ => []

/-- The calls made for elements. -/
def itemCalls : List Tree → List Call
  | [] => []
  | t :: ts => .visit t :: innerCalls t ++ itemCalls ts

/-- The calls made for fields; skipped fields are not visited. -/
def fieldCalls : List (String × Option Tree) → List Call
  | [] => []
  | (_, Option.none) :: fields => fieldCalls fields
  | (_, Option.some t) :: fields => .visit t :: innerCalls t ++ fieldCalls fields

/-- The calls made for entries, each key before its value. -/
def entryCalls (earlier : List MapPart) : List (Tree × Tree) → List Call
  | [] => []
  | (k, v) :: entries =>
      .visit k :: innerCalls k ++ .value (earlier ++ [.key]) :: .visit v :: innerCalls v ++
        entryCalls (earlier ++ [.key, .value]) entries

/-- The calls made for separate keys and values. -/
def partCalls (earlier : List MapPart) : List (MapPart × Tree) → List Call
  | [] => []
  | (.key, t) :: parts => .visit t :: innerCalls t ++ partCalls (earlier ++ [.key]) parts
  | (.value, t) :: parts =>
      .value earlier :: .visit t :: innerCalls t ++ partCalls (earlier ++ [.value]) parts

end

/-- The calls made on the walk over a tree, in their order. -/
def calls (t : Tree) : List Call :=
  .visit t :: innerCalls t

/-! ## The first failure -/

/-- A call of the walk fails for this reason, and no call before it fails. -/
def FirstFailure (walk : List Call) (reason : String) : Prop :=
  ∃ before call after, walk = before ++ call :: after ∧ call.failure? = some reason ∧
    ∀ earlier ∈ before, earlier.failure? = none

theorem firstFailure_iff {walk : List Call} {reason : String} :
    FirstFailure walk reason ↔ walk.findSome? Call.failure? = some reason :=
  List.findSome?_eq_some_iff.symm

/-- A computation fails where a walk does, with the first failure on it. -/
def Follows {α : Type} (walk : List Call) (result : Except String α) : Prop :=
  walk.findSome? Call.failure? =
    match result with
    | .ok _ => none
    | .error reason => some reason

namespace Follows

variable {α β : Type} {walk walk' : List Call} {result : Except String α}

theorem ok (a : α) : Follows [] (.ok a) :=
  rfl

theorem error_iff (follows : Follows walk result) (reason : String) :
    result = .error reason ↔ FirstFailure walk reason := by
  rw [firstFailure_iff, follows]
  cases result <;> simp

theorem ok_iff (follows : Follows walk result) :
    (∃ a, result = .ok a) ↔ ∀ call ∈ walk, call.failure? = none := by
  rw [← List.findSome?_eq_none_iff, follows]
  cases result <;> simp

/-- A computation that goes on after a success follows one walk after the other. -/
theorem bind (follows : Follows walk result) {next : α → Except String β}
    (goesOn : ∀ a, Follows walk' (next a)) : Follows (walk ++ walk') (result >>= next) := by
  unfold Follows
  rw [List.findSome?_append, follows]
  cases result with
  | error reason => rfl
  | ok a =>
      rw [Option.none_or]
      exact goesOn a

/-- What is made of a result does not fail. -/
theorem map (follows : Follows walk result) (f : α → β) :
    Follows walk (result >>= fun a => pure (f a)) := by
  rw [← List.append_nil walk]
  exact follows.bind fun a => ok (f a)

/-- A call that does not fail can stand before a walk. -/
theorem cons {call : Call} (clear : call.failure? = none) (follows : Follows walk result) :
    Follows (call :: walk) result := by
  unfold Follows
  rw [List.findSome?_cons, clear]
  exact follows

end Follows

mutual

/-- The encoding of a tree follows the walk over it. -/
theorem encode_follows : ∀ t : Tree, Follows (calls t) (encode t)
  | .unit | .bool _ | .int _ _ | .uint _ _ | .float32 _ | .float64 _ | .char _ | .text _
  | .bytes _ | .none | .unitStruct _ | .unitVariant _ | .display _ | .fail _ => by
      rw [encode]
      rfl
  | .some t => by
      rw [encode]
      exact .cons rfl ((encode_follows t).map _)
  | .newtypeStruct _ t | .newtypeVariant _ t => by
      rw [encode]
      exact .cons rfl ((encode_follows t).map _)
  | .seq _ items | .tuple items | .tupleStruct _ items | .tupleVariant _ items => by
      rw [encode]
      exact .cons rfl ((encodeItems_follows items).map _)
  | .map entries => by
      rw [encode]
      exact .cons rfl ((encodeEntries_follows [] entries).map _)
  | .mapParts parts => by
      rw [encode]
      exact .cons rfl ((encodeMapParts_follows (by simp [not_keyAtHand_nil]) parts).map _)
  | .struct _ fields | .structVariant _ fields => by
      rw [encode]
      exact .cons rfl ((encodeFields_follows fields).map _)
  | .human readable _ => by
      rw [encode]
      exact .cons rfl (encode_follows readable)

/-- Elements are visited in order. -/
theorem encodeItems_follows : ∀ ts : List Tree, Follows (itemCalls ts) (encodeItems ts)
  | [] => .ok []
  | t :: ts => by
      rw [encodeItems]
      exact (encode_follows t).bind fun _ => (encodeItems_follows ts).map _

/-- Fields that are not skipped are visited in order. -/
theorem encodeFields_follows : ∀ fields : List (String × Option Tree),
    Follows (fieldCalls fields) (encodeFields fields)
  | [] => .ok []
  | (_, Option.none) :: fields => by
      rw [encodeFields]
      exact encodeFields_follows fields
  | (_, Option.some t) :: fields => by
      rw [encodeFields]
      exact (encode_follows t).bind fun _ => (encodeFields_follows fields).map _

/-- The value of an entry always has its key. -/
theorem encodeEntries_follows (earlier : List MapPart) : ∀ entries : List (Tree × Tree),
    Follows (entryCalls earlier entries) (encodeEntries entries)
  | [] => .ok []
  | (k, v) :: entries => by
      have keyed : (Call.value (earlier ++ [.key])).failure? = none :=
        if_pos (keyAtHand_key earlier)
      rw [encodeEntries, entryCalls, List.append_assoc]
      exact (encode_follows k).bind fun _ => .cons keyed <|
        (encode_follows v).bind fun _ => (encodeEntries_follows _ entries).map _

/-- A value is refused exactly when no key is at hand. -/
theorem encodeMapParts_follows {pending : Option Bytes} {earlier : List MapPart}
    (atHand : pending.isSome ↔ KeyAtHand earlier) : ∀ parts : List (MapPart × Tree),
    Follows (partCalls earlier parts) (encodeMapParts pending parts)
  | [] => .ok []
  | (.key, t) :: parts => by
      rw [encodeMapParts]
      exact (encode_follows t).bind fun _ =>
        encodeMapParts_follows (by simp [keyAtHand_key]) parts
  | (.value, t) :: parts => by
      rw [encodeMapParts.eq_def, partCalls]
      cases pending with
      | none =>
          have keyless : (Call.value earlier).failure? = some missingKey :=
            if_neg fun key => by simp [← atHand] at key
          rw [Follows, List.cons_append, List.findSome?_cons, keyless]
      | some key =>
          have keyed : (Call.value earlier).failure? = none := if_pos (atHand.mp rfl)
          exact .cons keyed <| (encode_follows t).bind fun _ =>
            (encodeMapParts_follows (by simp [not_keyAtHand_value]) parts).map _

end

/-! ## Values visited on the way -/

/-- The walk holds the walk over each value that it visits. -/
def Closed (walk : List Call) : Prop :=
  ∀ u, .visit u ∈ walk → calls u ⊆ walk

namespace Closed

variable {walk walk' : List Call}

theorem nil : Closed [] := by
  intro u visited
  cases visited

theorem append (closed : Closed walk) (closed' : Closed walk') : Closed (walk ++ walk') := by
  intro u visited
  rcases List.mem_append.mp visited with visited | visited
  · exact List.subset_append_of_subset_left _ (closed u visited)
  · exact List.subset_append_of_subset_right _ (closed' u visited)

theorem value (earlier : List MapPart) (closed : Closed walk) :
    Closed (.value earlier :: walk) := by
  intro u visited
  rcases List.mem_cons.mp visited with same | visited
  · cases same
  · exact List.subset_cons_of_subset _ (closed u visited)

theorem visit {t : Tree} (closed : Closed (innerCalls t)) : Closed (calls t) := by
  intro u visited
  rcases List.mem_cons.mp visited with same | visited
  · cases same
    exact List.Subset.refl _
  · exact List.subset_cons_of_subset _ (closed u visited)

end Closed

mutual

/-- What is visited inside a tree is walked over there. -/
theorem closed_innerCalls : ∀ t : Tree, Closed (innerCalls t)
  | .unit | .bool _ | .int _ _ | .uint _ _ | .float32 _ | .float64 _ | .char _ | .text _
  | .bytes _ | .none | .unitStruct _ | .unitVariant _ | .display _ | .fail _ => .nil
  | .some t | .newtypeStruct _ t | .newtypeVariant _ t | .human t _ => .visit (closed_innerCalls t)
  | .seq _ items | .tuple items | .tupleStruct _ items | .tupleVariant _ items =>
      closed_itemCalls items
  | .map entries => closed_entryCalls [] entries
  | .mapParts parts => closed_partCalls [] parts
  | .struct _ fields | .structVariant _ fields => closed_fieldCalls fields

theorem closed_itemCalls : ∀ ts : List Tree, Closed (itemCalls ts)
  | [] => .nil
  | t :: ts => .append (.visit (closed_innerCalls t)) (closed_itemCalls ts)

theorem closed_fieldCalls : ∀ fields : List (String × Option Tree), Closed (fieldCalls fields)
  | [] => .nil
  | (_, Option.none) :: fields => closed_fieldCalls fields
  | (_, Option.some t) :: fields =>
      .append (.visit (closed_innerCalls t)) (closed_fieldCalls fields)

theorem closed_entryCalls (earlier : List MapPart) :
    ∀ entries : List (Tree × Tree), Closed (entryCalls earlier entries)
  | [] => .nil
  | (k, v) :: entries =>
      .append (.append (.visit (closed_innerCalls k)) (.value _ (.visit (closed_innerCalls v))))
        (closed_entryCalls _ entries)

theorem closed_partCalls (earlier : List MapPart) :
    ∀ parts : List (MapPart × Tree), Closed (partCalls earlier parts)
  | [] => .nil
  | (.key, t) :: parts => .append (.visit (closed_innerCalls t)) (closed_partCalls _ parts)
  | (.value, t) :: parts =>
      .value _ (.append (.visit (closed_innerCalls t)) (closed_partCalls _ parts))

end

/-- What is visited on a walk that succeeds can be encoded. -/
theorem exists_encode_of_visit {t u : Tree} (encoded : ∃ b, encode t = .ok b)
    (visited : .visit u ∈ calls t) : ∃ b, encode u = .ok b := by
  rw [(encode_follows u).ok_iff]
  intro call made
  exact (encode_follows t).ok_iff.mp encoded call
    (Closed.visit (closed_innerCalls t) u visited made)

/-! ## The entries of a map -/

/-- The separate calls by which a map gives its keys and values. -/
def mapCalls? : Tree → Option (List (MapPart × Tree))
  | .map entries => some (Tree.separate entries)
  | .mapParts parts => some parts
  | _ => none

/-- The places of the values that a map gives, in their order. -/
def valuePlaces (parts : List (MapPart × Tree)) : List Nat :=
  parts.findIdxs (·.1 = .value)

/-- The last key that a map gave before a place. -/
structure LastKey (parts : List (MapPart × Tree)) (place i : Nat) (k : Tree) : Prop where
  key : parts[i]? = some (.key, k)
  before : i < place
  last : ∀ i' k', i < i' → i' < place → parts[i']? ≠ some (.key, k')

/-- The entry that a map makes of the value at a place. -/
def Gives (parts : List (MapPart × Tree)) (place : Nat) (entry : Entry) : Prop :=
  ∃ i k v, LastKey parts place i k ∧ parts[place]? = some (.value, v) ∧
    encode k = .ok entry.1 ∧ encode v = .ok entry.2

theorem mem_valuePlaces {parts : List (MapPart × Tree)} {place : Nat} :
    place ∈ valuePlaces parts ↔ ∃ v, parts[place]? = some (.value, v) := by
  rw [valuePlaces, List.mem_findIdxs_iff_exists_getElem_pos]
  constructor
  · rintro ⟨inside, isValue⟩
    exact ⟨parts[place].2, List.getElem?_eq_some_iff.mpr
      ⟨inside, Prod.ext (of_decide_eq_true isValue) rfl⟩⟩
  · rintro ⟨v, value⟩
    rcases List.getElem?_eq_some_iff.mp value with ⟨inside, value⟩
    exact ⟨inside, by rw [value]; rfl⟩

/-- A key is not the last one before any value exactly when no value follows it,
or another key comes before the next value. -/
theorem not_lastKey_iff {parts : List (MapPart × Tree)} {i : Nat} {k : Tree}
    (key : parts[i]? = some (.key, k)) :
    (∀ place ∈ valuePlaces parts, ¬ LastKey parts place i k) ↔
      (∀ place ∈ valuePlaces parts, place < i) ∨
        ∃ i' k', parts[i']? = some (.key, k') ∧ i < i' ∧
          ∀ place ∈ valuePlaces parts, i < place → i' < place := by
  constructor
  · intro unused
    by_cases followed : ∃ place, place ∈ valuePlaces parts ∧ i < place
    · classical
      -- The first value after the key has another key before it.
      rcases Nat.find_spec followed with ⟨value, after⟩
      have notLast := unused _ value
      have between : ∃ i' k', i < i' ∧ i' < Nat.find followed ∧
          parts[i']? = some (.key, k') := by
        by_contra none
        push Not at none
        exact notLast ⟨key, after, none⟩
      rcases between with ⟨i', k', later, sooner, key'⟩
      exact .inr ⟨i', k', key', later, fun place member after' =>
        Nat.lt_of_lt_of_le sooner (Nat.find_min' followed ⟨member, after'⟩)⟩
    · left
      intro place member
      rcases Nat.lt_trichotomy place i with before | same | after
      · exact before
      · rcases mem_valuePlaces.mp member with ⟨v, value⟩
        rw [same, key] at value
        cases value
      · exact absurd ⟨place, member, after⟩ followed
  · rintro (none | ⟨i', k', key', later, replaced⟩) place member last
    · exact Nat.lt_asymm (none place member) last.before
    · exact last.last i' k' later (replaced place member last.before) key'

theorem LastKey.of_key {parts : List (MapPart × Tree)} {place : Nat} {k : Tree}
    (key : parts[place]? = some (.key, k)) : LastKey parts (place + 1) place k where
  key := key
  before := Nat.lt_succ_self place
  last := fun _ _ after before => absurd (Nat.le_of_lt_succ before) (Nat.not_le.mpr after)

/-- Separate keys and values are encoded as one entry for each value, under the
last key before it, as long as the key at hand is the last one before the place where
they begin. -/
theorem given_of_encodeMapParts {whole parts : List (MapPart × Tree)} {place : Nat}
    {pending : Option Bytes} {entries : List Entry} (split : whole.drop place = parts)
    (atHand : ∀ key, pending = some key → ∃ i k, LastKey whole place i k ∧ encode k = .ok key)
    (encoded : encodeMapParts pending parts = .ok entries) :
    List.Forall₂ (Gives whole) (parts.findIdxs (·.1 = .value) place) entries := by
  induction parts generalizing place pending entries with
  | nil =>
      cases encoded
      exact .nil
  | cons part parts ih =>
      have here : whole[place]? = some part := by
        rw [← List.head?_drop, split, List.head?_cons]
      have rest : whole.drop (place + 1) = parts := by
        rw [← List.tail_drop, split, List.tail_cons]
      rcases part with ⟨_ | _, t⟩
      · rw [encodeMapParts] at encoded
        rw [List.findIdxs_cons, if_neg (by simp)]
        rcases bind_eq_ok_iff.mp encoded with ⟨key, given, encoded⟩
        apply ih rest _ encoded
        rintro _ ⟨rfl⟩
        exact ⟨place, t, .of_key here, given⟩
      · rw [encodeMapParts.eq_def] at encoded
        rw [List.findIdxs_cons, if_pos (by simp)]
        cases pending with
        | none => cases encoded
        | some key =>
            rcases atHand key rfl with ⟨i, k, last, keyed⟩
            rcases bind_eq_ok_iff.mp encoded with ⟨value, given, encoded⟩
            rcases bind_eq_ok_iff.mp encoded with ⟨entries', later, ⟨⟩⟩
            apply List.Forall₂.cons
            · exact ⟨i, k, t, last, here, keyed, given⟩
            · exact ih rest (by rintro _ ⟨⟩) later

/-- A map is encoded as one entry for each value that it gives. -/
theorem exists_entries_of_mapCalls {t : Tree} {parts : List (MapPart × Tree)}
    (map : mapCalls? t = some parts) (encoded : ∃ b, encode t = .ok b) :
    ∃ entries, encode t = .ok (Tag.map.byte :: putEntries entries) ∧
      List.Forall₂ (Gives parts) (valuePlaces parts) entries := by
  have inParts : encode t = encode (.mapParts parts) := by
    cases t with
    | map entries =>
        cases map
        rw [encode_eq, encode_eq, Tree.datum, Tree.datum, Tree.datumMapParts_separate]
    | mapParts parts => cases map; rfl
    | _ => cases map
  rw [inParts, encode] at encoded ⊢
  rcases encoded with ⟨b, encoded⟩
  rcases bind_eq_ok_iff.mp encoded with ⟨entries, made, _⟩
  rw [made]
  exact ⟨entries, rfl, given_of_encodeMapParts rfl (by rintro _ ⟨⟩) made⟩

/-! ## Failures and entries together -/

open Protectable (info toTree stateStamp)

/-- An encoding fails exactly when a visited value cannot describe itself or a
value of a map has no key, for the reason of the first such call.  Otherwise each
map that was visited holds one entry for each value that it gave, and the keys
without an entry are those that no value followed or another key replaced.  The
stamp of a value fails in the same cases, with that reason. -/
theorem encode_first_failure (t : Tree) :
    ((∃ reason, encode t = .error reason) ↔
      ∃ call ∈ calls t, (∃ reason, call = .visit (.fail reason)) ∨
        ∃ earlier, call = .value earlier ∧ ¬ KeyAtHand earlier) ∧
    (∀ reason, encode t = .error reason ↔ FirstFailure (calls t) reason) ∧
    ((∃ b, encode t = .ok b) → ∀ u parts, .visit u ∈ calls t → mapCalls? u = some parts →
      (∃ entries, encode u = .ok (Tag.map.byte :: putEntries entries) ∧
        List.Forall₂ (Gives parts) (valuePlaces parts) entries) ∧
      ∀ i k, parts[i]? = some (.key, k) →
        ((∀ place ∈ valuePlaces parts, ¬ LastKey parts place i k) ↔
          (∀ place ∈ valuePlaces parts, place < i) ∨
            ∃ i' k', parts[i']? = some (.key, k') ∧ i < i' ∧
              ∀ place ∈ valuePlaces parts, i < place → i' < place)) ∧
    ∀ (α : Type) [Protectable α] (v : α), toTree v = t → ∀ e,
      stateStamp v = .error e ↔
        ∃ reason, FirstFailure (calls t) reason ∧ e = .notEncodable (info α).name reason ∧
          e.family = .unsupportedType ∧ e.detail = "not serialisable: " ++ reason := by
  have follows := encode_follows t
  refine ⟨?fails, follows.error_iff, ?entries, ?stamps⟩
  case fails =>
    simp only [← Call.failure?_ne_none_iff]
    constructor
    · rintro ⟨reason, failed⟩
      rcases (follows.error_iff reason).mp failed with ⟨before, call, after, walk, fails, _⟩
      exact ⟨call, by simp [walk], by simp [fails]⟩
    · rintro ⟨call, made, fails⟩
      cases result : encode t with
      | ok b => exact absurd (follows.ok_iff.mp ⟨b, result⟩ call made) fails
      | error reason => exact ⟨reason, rfl⟩
  case entries =>
    intro encoded u parts visited map
    constructor
    · exact exists_entries_of_mapCalls map (exists_encode_of_visit encoded visited)
    · intro i k key
      exact not_lastKey_iff key
  case stamps =>
    rintro α _ v rfl e
    rw [stateStamp, Protectable.stampTree_eq_error_iff]
    constructor
    · rintro ⟨reason, failed, rfl⟩
      exact ⟨reason, (follows.error_iff reason).mp failed, rfl, rfl, rfl⟩
    · rintro ⟨reason, first, rfl, _⟩
      exact ⟨reason, (follows.error_iff reason).mpr first, rfl⟩

/-- A key that is replaced and a key at the end leave one entry; a value without
a key fails before the values behind it are visited. -/
theorem encode_first_failure_nested :
    (∃ entries, encode (.mapParts [(.key, .bool true), (.key, .bool false), (.value, .unit),
        (.key, .unit)]) = .ok (Tag.map.byte :: putEntries entries) ∧
      List.Forall₂ (Gives [(.key, .bool true), (.key, .bool false), (.value, .unit),
        (.key, .unit)]) [2] entries) ∧
    encode (.tuple [.some .unit, .mapParts [(.key, .unit), (.value, .unit),
      (.value, .fail "late")], .fail "later"]) = .error missingKey := by
  constructor
  · exact ((encode_first_failure (.some (.mapParts [(.key, .bool true), (.key, .bool false),
      (.value, .unit), (.key, .unit)]))).2.2.1 ⟨_, rfl⟩ _ _ (by simp [calls, innerCalls]) rfl).1
  · apply ((encode_first_failure _).2.1 _).mpr
    rw [firstFailure_iff]
    decide

end EntropySeal.Canonical
