import EntropySeal.Generator.Draws
import EntropySeal.Proofs.Effect
import Mathlib.Data.List.Basic

/-!
# Bytes other than zero

Bytes other than zero are collected from one request after the other.  The bytes
collected so far are always the first ones other than zero of everything that was
delivered, so each request asks for what is missing and a little more, and only the
last one can bring more than is needed (`Collects`).

A failure ends the collection and leaves the caller with what was collected before.
Whoever delivers something in every request is asked at most once for each byte.
-/

namespace EntropySeal.Fill

variable {σ : Type} {fill : Fill σ} {n : Nat} {t between : Traced σ}

/-! ## Requests -/

/-- A request that was met. -/
structure Met where
  /-- How many bytes were asked for. -/
  size : Nat
  /-- The bytes delivered. -/
  bytes : Bytes

/-- `Meets fill t requests t'`: asked from `t` on, the generator met these requests,
oldest first, and came to `t'`.  What a request does not write is zero. -/
inductive Meets (fill : Fill σ) (t : Traced σ) : List Met → Traced σ → Prop where
  | nothing : Meets fill t [] t
  | request {requests : List Met} {between t' : Traced σ} {size : Nat} {delivery : Delivery} :
      Meets fill t requests between → fill size between = (delivery, t') →
      delivery.failure = none →
      Meets fill t (requests ++ [⟨size, delivery.writtenTo (Bytes.zeros size)⟩]) t'

/-- The bytes other than zero that some requests delivered, in order. -/
def found (requests : List Met) : Bytes :=
  (requests.flatMap Met.bytes).filter (· != 0)

@[simp]
theorem found_nil : found [] = [] :=
  rfl

@[simp]
theorem found_append (earlier later : List Met) :
    found (earlier ++ later) = found earlier ++ found later := by
  simp [found]

theorem found_singleton (r : Met) : found [r] = r.bytes.filter (· != 0) := by
  simp [found]

/-- One more request brings what is usable of its bytes. -/
theorem take_found_snoc (requests : List Met) (r : Met) (n : Nat) :
    (found (requests ++ [r])).take n =
      (found requests).take n ++
        (r.bytes.filter (· != 0)).take (n - (found requests).length) := by
  rw [found_append, found_singleton, List.take_append]

theorem missing_snoc (requests : List Met) (r : Met) (n : Nat) :
    n - (found (requests ++ [r])).length =
      n - (found requests).length -
        ((r.bytes.filter (· != 0)).take (n - (found requests).length)).length := by
  rw [found_append, found_singleton, List.length_append, List.length_take]
  omega

/-- Of each request something is found. -/
def Fruitful (requests : List Met) : Prop :=
  ∀ r ∈ requests, ∃ b ∈ r.bytes, b ≠ 0

theorem Fruitful.length_le {requests : List Met} (fruitful : Fruitful requests) :
    requests.length ≤ (found requests).length := by
  induction requests with
  | nil => exact Nat.le_refl 0
  | cons r rest ih =>
      obtain ⟨⟨b, mem, other⟩, later⟩ := List.forall_mem_cons.mp fruitful
      have first : 0 < (found [r]).length := by
        rw [found_singleton]
        exact List.length_pos_of_mem (List.mem_filter.mpr ⟨mem, by simpa using other⟩)
      have rest := ih later
      rw [← List.singleton_append, found_append, List.length_append, List.length_append,
        List.length_singleton]
      omega

/-- When each request was made some of the `n` bytes were missing, and it asked for
so many and a twentieth more and one. -/
def Asked (n : Nat) (requests : List Met) : Prop :=
  ∀ (i : Nat) (h : i < requests.length),
    (found (requests.take i)).length < n ∧
    requests[i].size = requestSize (n - (found (requests.take i)).length)

theorem Asked.snoc {requests : List Met} (asked : Asked n requests)
    (missing : (found requests).length < n) (bytes : Bytes) :
    Asked n (requests ++ [⟨requestSize (n - (found requests).length), bytes⟩]) := by
  intro i h
  rw [List.length_append, List.length_singleton] at h
  rcases Nat.lt_or_ge i requests.length with before | last
  · rw [List.take_append_of_le_length (Nat.le_of_lt before), List.getElem_append_left before]
    exact asked i before
  · obtain rfl : i = requests.length := by omega
    rw [List.take_left, List.getElem_concat_length rfl]
    exact ⟨missing, rfl⟩

/-! ## Collecting -/

/-- How collecting `n` bytes with at most `fuel` requests ends, after these requests
were met and `t` was reached. -/
inductive Ends (fill : Fill σ) (n fuel : Nat) (requests : List Met) (t : Traced σ) :
    Option Delivery × Traced σ → Prop where
  /-- Enough is found. -/
  | filled : n ≤ (found requests).length →
      Ends fill n fuel requests t (some ⟨(found requests).take n, none⟩, t)
  /-- The next request fails. -/
  | failed {bytes : Bytes} {e : Error} {t' : Traced σ} : (found requests).length < n →
      requests.length < fuel →
      fill (requestSize (n - (found requests).length)) t = (⟨bytes, some e⟩, t') →
      Ends fill n fuel requests t (some ⟨found requests, some e⟩, t')
  /-- No request is left. -/
  | exhausted : (found requests).length < n → requests.length = fuel →
      Ends fill n fuel requests t (none, t)

/-- Collecting `n` bytes from `t` on, with at most `fuel` requests: it meets these
requests, comes to `t'`, and ends so. -/
structure Collects (fill : Fill σ) (n fuel : Nat) (t : Traced σ) (requests : List Met)
    (t' : Traced σ) (outcome : Option Delivery × Traced σ) : Prop where
  meets : Meets fill t requests t'
  within : requests.length ≤ fuel
  asked : Asked n requests
  ends : Ends fill n fuel requests t' outcome

theorem collectNonZero_zero (fill : Fill σ) (fuel : Nat) (collected : Bytes) (t : Traced σ) :
    collectNonZero fill fuel 0 collected t = (some ⟨collected, none⟩, t) := by
  cases fuel <;> rfl

/-- A request that fails ends the collection. -/
theorem collectNonZero_failed {missing : Nat} {bytes : Bytes} {e : Error} {t' : Traced σ}
    (pos : 0 < missing) (asked : fill (requestSize missing) t = (⟨bytes, some e⟩, t'))
    (fuel : Nat) (collected : Bytes) :
    collectNonZero fill (fuel + 1) missing collected t = (some ⟨collected, some e⟩, t') := by
  cases missing with
  | zero => exact absurd pos (Nat.lt_irrefl 0)
  | succ m => simp only [collectNonZero, Action.run_bind, asked, Action.run_pure]

/-- A request that is met brings what is usable of its bytes. -/
theorem collectNonZero_met {missing : Nat} {delivery : Delivery} {t' : Traced σ}
    (pos : 0 < missing) (asked : fill (requestSize missing) t = (delivery, t'))
    (met : delivery.failure = none) (fuel : Nat) (collected : Bytes) :
    let usable := ((delivery.writtenTo (Bytes.zeros (requestSize missing))).filter (· != 0)).take
      missing
    collectNonZero fill (fuel + 1) missing collected t =
      collectNonZero fill fuel (missing - usable.length) (collected ++ usable) t' := by
  cases missing with
  | zero => exact absurd pos (Nat.lt_irrefl 0)
  | succ m => simp only [collectNonZero, Action.run_bind, asked, met]

/-- Going on after some requests, with the bytes that they brought. -/
theorem exists_collects {requests : List Met} (meets : Meets fill t requests between)
    (asked : Asked n requests) (fuel : Nat) :
    ∃ all t', Collects fill n (requests.length + fuel) t all t'
      (collectNonZero fill fuel (n - (found requests).length) ((found requests).take n)
        between) := by
  induction fuel generalizing requests between with
  | zero =>
      refine ⟨requests, between, meets, Nat.le_refl _, asked, ?_⟩
      rcases Nat.lt_or_ge (found requests).length n with short | enough
      · obtain ⟨m, missing⟩ := Nat.exists_eq_add_of_lt short
        rw [show n - (found requests).length = m + 1 by omega]
        exact .exhausted short rfl
      · rw [Nat.sub_eq_zero_of_le enough, collectNonZero_zero]
        exact .filled enough
  | succ fuel ih =>
      rcases Nat.lt_or_ge (found requests).length n with short | enough
      · have pos : 0 < n - (found requests).length := Nat.sub_pos_of_lt short
        rcases answer : fill (requestSize (n - (found requests).length)) between with
          ⟨⟨bytes, failure⟩, t'⟩
        cases failure with
        | some e =>
            refine ⟨requests, between, meets, Nat.le_add_right _ _, asked, ?_⟩
            rw [collectNonZero_failed pos answer, List.take_of_length_le (Nat.le_of_lt short)]
            exact .failed short (Nat.lt_add_of_pos_right (Nat.succ_pos fuel)) answer
        | none =>
            have more := ih (meets.request answer rfl) (asked.snoc short _)
            rw [take_found_snoc, missing_snoc, List.length_append, List.length_singleton,
              Nat.add_assoc, Nat.add_comm 1] at more
            rw [collectNonZero_met pos answer rfl]
            exact more
      · refine ⟨requests, between, meets, Nat.le_add_right _ _, asked, ?_⟩
        rw [Nat.sub_eq_zero_of_le enough, collectNonZero_zero]
        exact .filled enough

/-- A bound that is enough is as good as any greater one. -/
theorem collectNonZero_add {fuel missing : Nat} {collected : Bytes}
    (enough : (collectNonZero fill fuel missing collected t).1.isSome) (more : Nat) :
    collectNonZero fill (fuel + more) missing collected t =
      collectNonZero fill fuel missing collected t := by
  induction fuel generalizing missing collected t with
  | zero =>
      cases missing with
      | zero => rw [collectNonZero_zero, collectNonZero_zero]
      | succ m => cases enough
  | succ fuel ih =>
      rcases Nat.eq_zero_or_pos missing with rfl | pos
      · rw [collectNonZero_zero, collectNonZero_zero]
      · rw [Nat.succ_add]
        rcases answer : fill (requestSize missing) t with ⟨⟨bytes, failure⟩, t'⟩
        cases failure with
        | some e => rw [collectNonZero_failed pos answer, collectNonZero_failed pos answer]
        | none =>
            rw [collectNonZero_met pos answer rfl] at enough
            rw [collectNonZero_met pos answer rfl, collectNonZero_met pos answer rfl]
            exact ih enough

/-! ## What is left to the caller -/

variable {fuel : Nat} {requests : List Met} {t' : Traced σ}
  {outcome : Option Delivery × Traced σ}

/-- The caller's buffer begins with what was found and goes on as it was. -/
theorem Ends.writtenTo (ends : Ends fill n fuel requests t outcome) {d : Delivery}
    (ended : outcome.1 = some d) {buffer : Bytes} (length : buffer.length = n) :
    d.writtenTo buffer =
      (found requests).take n ++ buffer.drop (found requests).length := by
  cases ends with
  | filled enough =>
      cases ended
      have all : ((found requests).take n).length = n := List.length_take_of_le enough
      rw [Delivery.writtenTo_eq (by simp only; omega), List.drop_eq_nil_of_le (by simp only; omega),
        List.drop_eq_nil_of_le (by omega)]
  | failed short =>
      cases ended
      rw [Delivery.writtenTo_eq (by simp only; omega), List.take_of_length_le (Nat.le_of_lt short)]
  | exhausted => cases ended

/-- Whoever delivers something in every request is asked at most once for each byte. -/
theorem Collects.length_le (collects : Collects fill n fuel t requests t' outcome)
    (fruitful : Fruitful requests) : requests.length ≤ n := by
  rcases List.eq_nil_or_concat' requests with rfl | ⟨earlier, last, rfl⟩
  · exact Nat.zero_le n
  · have earlierFruitful : Fruitful earlier :=
      fun r mem => fruitful r (List.mem_append_left _ mem)
    have found := earlierFruitful.length_le
    have short := (collects.asked earlier.length (by simp)).1
    rw [List.take_left] at short
    rw [List.length_append, List.length_singleton]
    omega

theorem Collects.isSome_of_fruitful (collects : Collects fill n fuel t requests t' outcome)
    (fruitful : Fruitful requests) (enough : n ≤ fuel) : outcome.1.isSome := by
  cases collects.ends with
  | filled => rfl
  | failed => rfl
  | exhausted short all =>
      have found := fruitful.length_le
      omega

/-- For no bytes nothing is asked, and a bound that is enough is as good as any greater
one.  Whatever the generator answers, bytes other than zero are collected as `Collects`
says, and the caller's buffer then begins with the first of them and goes on as it was.
If something is found in every request, as many requests as there are bytes are
enough. -/
theorem fillNonZero_collects (fill : Fill σ) (n fuel : Nat) (t : Traced σ) :
    fillNonZero fill fuel 0 t = (some ⟨[], none⟩, t) ∧
    ((fillNonZero fill fuel n t).1.isSome →
      ∀ more, fillNonZero fill (fuel + more) n t = fillNonZero fill fuel n t) ∧
    ∃ requests t', Collects fill n fuel t requests t' (fillNonZero fill fuel n t) ∧
      (∀ d, (fillNonZero fill fuel n t).1 = some d → ∀ buffer : Bytes, buffer.length = n →
        d.writtenTo buffer =
          (found requests).take n ++ buffer.drop (found requests).length) ∧
      (Fruitful requests → requests.length ≤ n ∧
        (n ≤ fuel → (fillNonZero fill fuel n t).1.isSome)) := by
  constructor
  · exact collectNonZero_zero fill fuel [] t
  · constructor
    · exact collectNonZero_add
    · have nothing : Asked n [] := fun i h => absurd h (Nat.not_lt_zero i)
      have start : Meets fill t [] t := .nothing
      obtain ⟨requests, t', collects⟩ := exists_collects start nothing fuel
      rw [List.length_nil, Nat.zero_add, found_nil, List.take_nil] at collects
      refine ⟨requests, t', collects, ?_, ?_⟩
      · intro d ended buffer length
        exact collects.ends.writtenTo ended length
      · intro fruitful
        constructor
        · exact collects.length_le fruitful
        · exact collects.isSome_of_fruitful fruitful

/-! ### A byte at a time -/

/-- Whatever it is asked for, it delivers a single seven. -/
def stingy : Fill Unit :=
  fun _ => pure ⟨[7], none⟩

theorem bytes_of_meets_stingy {t t' : Traced Unit} {requests : List Met}
    (meets : Meets stingy t requests t') {r : Met} (mem : r ∈ requests) :
    r.bytes = (⟨[7], none⟩ : Delivery).writtenTo (Bytes.zeros r.size) := by
  induction meets with
  | nothing => cases mem
  | request _ answer _ ih =>
      rcases List.mem_append.mp mem with before | last
      · exact ih before
      · obtain rfl := List.mem_singleton.mp last
        cases answer
        rfl

theorem fruitful_of_meets_stingy {t t' : Traced Unit} {requests : List Met}
    (meets : Meets stingy t requests t') (asked : Asked n requests) : Fruitful requests := by
  intro r mem
  obtain ⟨i, h, rfl⟩ := List.getElem_of_mem mem
  have size := (asked i h).2
  rw [bytes_of_meets_stingy meets mem, size]
  exact ⟨7, List.mem_cons_self, by decide⟩

/-- Three requests for a single seven each are enough for three bytes, two are not. -/
theorem fillNonZero_collects_stingy :
    (fillNonZero stingy 3 3 ⟨(), []⟩).1 = some ⟨[7, 7, 7], none⟩ ∧
    (fillNonZero stingy 3 3 ⟨(), []⟩).1.isSome ∧
    fillNonZero stingy (3 + 5) 3 ⟨(), []⟩ = fillNonZero stingy 3 3 ⟨(), []⟩ ∧
    (fillNonZero stingy 2 3 ⟨(), []⟩).1 = none := by
  obtain ⟨-, more, requests, t', collects, -, enough⟩ := fillNonZero_collects stingy 3 3 ⟨(), []⟩
  have ended := (enough (fruitful_of_meets_stingy collects.meets collects.asked)).2 (Nat.le_refl 3)
  exact ⟨rfl, ended, more ended 5, rfl⟩

end EntropySeal.Fill
