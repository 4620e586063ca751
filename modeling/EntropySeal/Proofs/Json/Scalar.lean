import EntropySeal.Json.Reader
import EntropySeal.Proofs.Json.Numeral
import EntropySeal.Proofs.Json.Quoted

/-!
# Values between blanks

How words, texts, named values and absent values are written, and that each text of a
value is read as that value.  Blanks can stand in front of a value, and what comes
after it has to end it: for a number, something that cannot go on with it.
-/

namespace EntropySeal.Json

/-! ## Blanks -/

theorem isBlank_iff {c : Char} : isBlank c = true ↔ c = ' ' ∨ c = '\n' ∨ c = '\t' ∨ c = '\r' := by
  simp [isBlank, or_assoc]

/-- Nothing but blanks. -/
def Blanks (cs : List Char) : Prop :=
  ∀ c ∈ cs, isBlank c = true

theorem Blanks.nil : Blanks [] :=
  List.forall_mem_nil _

theorem Blanks.append {cs ds : List Char} (first : Blanks cs) (second : Blanks ds) :
    Blanks (cs ++ ds) := by
  intro c member
  rcases List.mem_append.mp member with left | right
  · exact first c left
  · exact second c right

theorem trim_of_blanks {blanks : List Char} (only : Blanks blanks) : trim blanks = [] := by
  rw [trim, ← List.append_nil blanks, List.dropWhile_append_of_pos only, List.dropWhile_nil]

/-- Blanks in front of something else are passed over. -/
theorem trim_append_cons {blanks : List Char} (only : Blanks blanks) {c : Char}
    (notBlank : isBlank c = false) (rest : List Char) :
    trim (blanks ++ c :: rest) = c :: rest := by
  rw [trim, List.dropWhile_append_of_pos only, List.dropWhile_cons_of_neg (by simp [notBlank])]

theorem mark_append_cons {blanks : List Char} (only : Blanks blanks) {c : Char}
    (notBlank : isBlank c = false) (rest : List Char) :
    mark c (blanks ++ c :: rest) = .ok rest := by
  rw [mark, trim_append_cons only notBlank]
  exact if_pos rfl

/-! ## Values -/

/-- What a value can stand before: a blank, a comma, a closing brace or the end. -/
def EndsValue (rest : List Char) : Prop :=
  ∀ c ∈ rest.head?, isBlank c = true ∨ c = ',' ∨ c = '\x7d'

theorem EndsValue.append_cons {blanks : List Char} (only : Blanks blanks) {c : Char}
    (ends : c = ',' ∨ c = '\x7d') (rest : List Char) : EndsValue (blanks ++ c :: rest) := by
  intro first member
  rcases blanks with _ | ⟨blank, blanks⟩
  · cases member
    exact .inr ends
  · cases member
    exact .inl (only first List.mem_cons_self)

theorem EndsValue.stops {rest : List Char} (ends : EndsValue rest) : Numeral.Stops rest := by
  intro c member
  rcases ends c member with blank | rfl | rfl
  · rcases isBlank_iff.mp blank with rfl | rfl | rfl | rfl <;> decide
  · decide
  · decide

/-- How the values of a type are written. -/
abbrev Texts (α : Type) : Type :=
  α → List Char → Prop

/-- Every text of a value is read as that value, after blanks and up to what a value
can stand before. -/
def Reads {α : Type} (value : Reader α) (texts : Texts α) : Prop :=
  ∀ v cs, texts v cs → ∀ blanks rest, Blanks blanks → EndsValue rest →
    value (blanks ++ cs ++ rest) = .ok (v, rest)

/-- No text of a value starts with a blank, or like the absent value. -/
def Present {α : Type} (texts : Texts α) : Prop :=
  ∀ v cs, texts v cs → ∃ c rest, cs = c :: rest ∧ isBlank c = false ∧ c ≠ 'n'

/-- A word as a whole number. -/
def WordText : Texts UInt64 :=
  fun w => NumberText w.toNat

/-- A value that may be absent. -/
inductive OptionalText {α : Type} (texts : Texts α) : Texts (Option α) where
  | absent : OptionalText texts none ['n', 'u', 'l', 'l']
  | present {v : α} {cs : List Char} : texts v cs → OptionalText texts (some v) cs

/-- One of several values by its name. -/
def NameText {α : Type} (name : α → String) : Texts α :=
  fun v => QuotedText (name v)

/-- A whole number starts with a digit. -/
theorem NumberText.exists_digit {n : Nat} {cs : List Char} (text : NumberText n cs) :
    ∃ c rest, cs = c :: rest ∧ c.isDigit = true := by
  cases text with
  | @digits ds small nonempty =>
      obtain ⟨d, ds, rfl⟩ := List.exists_cons_of_ne_nil nonempty
      exact ⟨_, _, rfl, Decimal.isDigit_digitChar (small d List.mem_cons_self)⟩

theorem not_isBlank_of_isDigit {c : Char} (digit : c.isDigit = true) : isBlank c = false := by
  apply Bool.eq_false_iff.mpr
  intro blank
  rcases isBlank_iff.mp blank with rfl | rfl | rfl | rfl <;> cases digit

theorem reads_word : Reads word WordText := by
  intro w cs text blanks rest only ends
  obtain ⟨numeral, read, toWord⟩ := Numeral.read_of_numberText text w.toNat_lt ends.stops
  obtain ⟨c, more, rfl, digit⟩ := text.exists_digit
  rw [UInt64.ofNat_toNat] at toWord
  rw [List.append_assoc, List.cons_append, word,
    trim_append_cons only (not_isBlank_of_isDigit digit)]
  rw [List.cons_append] at read
  simp only [digit, or_true, if_true, read, bind, Except.bind, toWord]
  rfl

theorem present_word : Present WordText := by
  intro w cs text
  obtain ⟨c, rest, rfl, digit⟩ := text.exists_digit
  refine ⟨c, rest, rfl, not_isBlank_of_isDigit digit, ?_⟩
  rintro rfl
  cases digit

/-- A quoted text is read as itself. -/
theorem readQuoted_of_quotedText {s : String} {cs : List Char} (quoted : QuotedText s cs)
    (rest : List Char) :
    ∃ more, cs = '"' :: more ∧ readQuoted [] none (more ++ rest) = .ok (s.toList, rest) := by
  cases quoted with
  | @quoted inner text =>
      refine ⟨inner ++ ['"'], rfl, ?_⟩
      rw [List.append_assoc]
      exact readQuoted_of_charsText text [] rest

theorem reads_text : Reads text QuotedText := by
  intro s cs quoted blanks rest only ends
  obtain ⟨more, rfl, read⟩ := readQuoted_of_quotedText quoted rest
  rw [List.append_assoc, List.cons_append, text, trim_append_cons only (by decide)]
  simp only [if_true, read, bind, Except.bind, String.ofList_toList]
  rfl

theorem present_text : Present QuotedText := by
  intro s cs quoted
  obtain ⟨more, rfl, -⟩ := readQuoted_of_quotedText quoted []
  exact ⟨_, _, rfl, by decide, by decide⟩

theorem reads_optional {α : Type} {value : Reader α} {texts : Texts α} (reads : Reads value texts)
    (present : Present texts) : Reads (optional value) (OptionalText texts) := by
  intro v cs text blanks rest only ends
  cases text with
  | absent =>
      rw [List.append_assoc, List.cons_append, optional, trim_append_cons only (by decide)]
      simp only [if_true, null, trim_append_cons only (show isBlank 'n' = false by decide)]
      rfl
  | present text =>
      have read := reads _ _ text blanks rest only ends
      obtain ⟨c, more, rfl, notBlank, notNull⟩ := present _ _ text
      have trimmed : trim (blanks ++ c :: more ++ rest) = c :: (more ++ rest) := by
        rw [List.append_assoc, List.cons_append, trim_append_cons only notBlank]
      rw [optional, trimmed]
      simp only [notNull, if_false, read, bind, Except.bind]
      rfl

theorem reads_variant {α : Type} {named : String → Option α} {name : α → String}
    (named_name : ∀ v, named (name v) = some v) : Reads (variant named) (NameText name) := by
  intro v cs quoted blanks rest only ends
  have read := reads_text _ _ quoted blanks rest only ends
  obtain ⟨more, rfl, -⟩ := readQuoted_of_quotedText quoted []
  have trimmed : trim (blanks ++ '"' :: more ++ rest) = '"' :: (more ++ rest) := by
    rw [List.append_assoc, List.cons_append, trim_append_cons only (by decide)]
  rw [variant, trimmed]
  simp only [if_true, Json.name, read, bind, Except.bind, named_name]
  rfl

end EntropySeal.Json
