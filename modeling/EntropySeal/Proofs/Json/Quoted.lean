import EntropySeal.Json.Quoted

/-!
# Texts in quotation marks

All the ways in which JSON writes a text: every character stands for itself unless it
must be escaped, and can be escaped by a letter, where there is one for it, or by its
UTF-16 units in four hexadecimal digits of either case.  A reader reads each of them
as the same text (`readQuoted_of_charsText`), and the writer writes one of them
(`quotedText_quote`).
-/

namespace EntropySeal.Json

/-! ## The notation -/

/-- A hexadecimal digit of either case and its value. -/
def HexDigit (digit : Char) (value : Nat) : Prop :=
  "0123456789abcdef".toList[value]? = some digit ∨ "0123456789ABCDEF".toList[value]? = some digit

/-- Four hexadecimal digits of a number, most significant first. -/
inductive UnitText : Nat → List Char → Prop where
  | digits {h₁ h₂ h₃ h₄ : Char} {a b c d : Nat} : HexDigit h₁ a → HexDigit h₂ b →
      HexDigit h₃ c → HexDigit h₄ d →
      UnitText (((a * 16 + b) * 16 + c) * 16 + d) [h₁, h₂, h₃, h₄]

/-- The letters that stand for characters after a backslash. -/
def letters : List (Char × Char) :=
  [('"', '"'), ('\\', '\\'), ('/', '/'), ('b', '\x08'), ('f', '\x0c'), ('n', '\n'), ('r', '\r'),
    ('t', '\t')]

/-- A character as it can stand between quotation marks. -/
inductive CharText : Char → List Char → Prop where
  | plain {c : Char} : c ≠ '"' → c ≠ '\\' → ' ' ≤ c → CharText c [c]
  | letter {c letter : Char} : (letter, c) ∈ letters → CharText c ['\\', letter]
  | unit {c : Char} {cs : List Char} : UnitText c.toNat cs → CharText c ('\\' :: 'u' :: cs)
  /-- A character beyond 16 bits has ten bits in each of two units. -/
  | pair {c : Char} {cs ds : List Char} : 0x10000 ≤ c.toNat →
      UnitText (0xD800 + (c.toNat - 0x10000) / 0x400) cs →
      UnitText (0xDC00 + (c.toNat - 0x10000) % 0x400) ds →
      CharText c ('\\' :: 'u' :: cs ++ '\\' :: 'u' :: ds)

/-- Characters as they can stand between quotation marks. -/
inductive CharsText : List Char → List Char → Prop where
  | nil : CharsText [] []
  | cons {c : Char} {s cs ds : List Char} : CharText c cs → CharsText s ds →
      CharsText (c :: s) (cs ++ ds)

/-- A text between quotation marks. -/
inductive QuotedText : String → List Char → Prop where
  | quoted {s : String} {cs : List Char} : CharsText s.toList cs → QuotedText s ('"' :: cs ++ ['"'])

/-! ## Reading -/

section

variable (before rest : List Char)

theorem readQuoted_quote : readQuoted before none ('"' :: rest) = .ok (before.reverse, rest) := by
  rw [readQuoted.eq_def]
  simp

theorem readQuoted_plain {c : Char} (notQuote : c ≠ '"') (notBackslash : c ≠ '\\')
    (printable : ' ' ≤ c) :
    readQuoted before none (c :: rest) = readQuoted (c :: before) none rest := by
  rw [readQuoted.eq_def]
  simp [notQuote, notBackslash, Char.not_lt.mpr printable]

theorem readQuoted_letter {c letter : Char} (among : (letter, c) ∈ letters) :
    readQuoted before none ('\\' :: letter :: rest) = readQuoted (c :: before) none rest := by
  have meaning : ∀ entry ∈ letters, entry.1 ≠ 'u' ∧ unescape? entry.1 = some entry.2 := by decide
  obtain ⟨notUnit, escaped⟩ := meaning _ among
  rw [readQuoted.eq_def]
  simp [notUnit, escaped]

theorem HexDigit.hexValue? {digit : Char} {value : Nat} (hex : HexDigit digit value) :
    Bytes.hexValue? digit = some value := by
  have lower : ∀ entry ∈ "0123456789abcdef".toList.zipIdx,
      Bytes.hexValue? entry.1 = some entry.2 := by decide
  have upper : ∀ entry ∈ "0123456789ABCDEF".toList.zipIdx,
      Bytes.hexValue? entry.1 = some entry.2 := by decide
  rcases hex with found | found
  · exact lower (digit, value) (List.mk_mem_zipIdx_iff_getElem?.mpr found)
  · exact upper (digit, value) (List.mk_mem_zipIdx_iff_getElem?.mpr found)

theorem UnitText.exists_unit? {u : Nat} {cs : List Char} (text : UnitText u cs) :
    ∃ h₁ h₂ h₃ h₄, cs = [h₁, h₂, h₃, h₄] ∧ unit? h₁ h₂ h₃ h₄ = some u := by
  cases text with
  | digits first second third fourth =>
      refine ⟨_, _, _, _, rfl, ?_⟩
      simp [unit?, first.hexValue?, second.hexValue?, third.hexValue?, fourth.hexValue?]

/-- A unit that belongs to no pair is a character. -/
theorem readQuoted_unit {c : Char} {cs : List Char} (text : UnitText c.toNat cs) :
    readQuoted before none ('\\' :: 'u' :: cs ++ rest) = readQuoted (c :: before) none rest := by
  have valid : c.toNat < 0xD800 ∨ 0xDFFF < c.toNat ∧ c.toNat < 0x110000 := c.valid
  have notSecond : isSecondOfPair c.toNat = false := by
    simp only [isSecondOfPair, Bool.and_eq_false_iff, decide_eq_false_iff_not]
    omega
  have notFirst : isFirstOfPair c.toNat = false := by
    simp only [isFirstOfPair, Bool.and_eq_false_iff, decide_eq_false_iff_not]
    omega
  obtain ⟨h₁, h₂, h₃, h₄, rfl, unit⟩ := text.exists_unit?
  simp only [List.cons_append, List.nil_append]
  rw [readQuoted.eq_def]
  simp [unit, notSecond, notFirst, Char.ofNat_toNat]

/-- The first unit of a pair waits for the second one. -/
theorem readQuoted_pair {c : Char} {cs ds : List Char} (wide : 0x10000 ≤ c.toNat)
    (first : UnitText (0xD800 + (c.toNat - 0x10000) / 0x400) cs)
    (second : UnitText (0xDC00 + (c.toNat - 0x10000) % 0x400) ds) :
    readQuoted before none ('\\' :: 'u' :: cs ++ '\\' :: 'u' :: ds ++ rest) =
      readQuoted (c :: before) none rest := by
  have range : c.toNat < 0x110000 := by
    have valid : c.toNat < 0xD800 ∨ 0xDFFF < c.toNat ∧ c.toNat < 0x110000 := c.valid
    omega
  obtain ⟨h₁, h₂, h₃, h₄, rfl, high⟩ := first.exists_unit?
  obtain ⟨l₁, l₂, l₃, l₄, rfl, low⟩ := second.exists_unit?
  generalize top : (c.toNat - 0x10000) / 0x400 = t at high
  generalize bottom : (c.toNat - 0x10000) % 0x400 = b at low
  have notSecond : isSecondOfPair (0xD800 + t) = false := by
    simp only [isSecondOfPair, Bool.and_eq_false_iff, decide_eq_false_iff_not]
    omega
  have isFirst : isFirstOfPair (0xD800 + t) = true := by
    simp only [isFirstOfPair, Bool.and_eq_true, decide_eq_true_eq]
    omega
  have isSecond : isSecondOfPair (0xDC00 + b) = true := by
    simp only [isSecondOfPair, Bool.and_eq_true, decide_eq_true_eq]
    omega
  have both : ofPair (0xD800 + t) (0xDC00 + b) = c := by
    have sum : 0x10000 + t * 0x400 + b = c.toNat := by omega
    rw [ofPair, Nat.add_sub_cancel_left, Nat.add_sub_cancel_left, sum, Char.ofNat_toNat]
  simp only [List.cons_append, List.nil_append]
  rw [readQuoted.eq_def]
  simp only [high, notSecond, isFirst]
  simp only [reduceCtorEq, if_true, if_false]
  rw [readQuoted.eq_def]
  simp [low, isSecond, both]

end

/-- A character in any form is read as itself. -/
theorem readQuoted_of_charText {c : Char} {cs : List Char} (text : CharText c cs)
    (before rest : List Char) :
    readQuoted before none (cs ++ rest) = readQuoted (c :: before) none rest := by
  cases text with
  | plain notQuote notBackslash printable =>
      exact readQuoted_plain before rest notQuote notBackslash printable
  | letter among => exact readQuoted_letter before rest among
  | unit text => exact readQuoted_unit before rest text
  | pair wide first second => exact readQuoted_pair before rest wide first second

/-- A text in any form is read as itself, up to its closing quotation mark. -/
theorem readQuoted_of_charsText {s cs : List Char} (text : CharsText s cs)
    (before rest : List Char) :
    readQuoted before none (cs ++ '"' :: rest) = .ok (before.reverse ++ s, rest) := by
  induction text generalizing before with
  | nil =>
      rw [List.nil_append, readQuoted_quote, List.append_nil]
  | cons first _ ih =>
      rw [List.append_assoc, readQuoted_of_charText first, ih, List.reverse_cons,
        List.append_assoc, List.singleton_append]

/-! ## Writing -/

theorem hexDigit_hexDigit {v : Nat} (small : v < 16) :
    HexDigit (Bytes.hexDigit (UInt8.ofNat v)) v := by
  have table : ∀ v < 16,
      "0123456789abcdef".toList[v]? = some (Bytes.hexDigit (UInt8.ofNat v)) := by
    decide
  exact .inl (table v small)

theorem charText_controlEscape {c : Char} (control : c < ' ') : CharText c (controlEscape c) := by
  have small : c.toNat < 32 := control
  have zero : HexDigit '0' 0 := .inl rfl
  have text := UnitText.digits zero zero (hexDigit_hexDigit (show c.toNat / 16 < 16 by omega))
    (hexDigit_hexDigit (show c.toNat % 16 < 16 by omega))
  have value : ((0 * 16 + 0) * 16 + c.toNat / 16) * 16 + c.toNat % 16 = c.toNat := by omega
  rw [value] at text
  exact .unit text

/-- An escaped character is one of its forms. -/
theorem charText_escape (c : Char) : CharText c (escape c) := by
  unfold escape
  -- Seven characters have a letter.
  iterate 7
    split
    next is =>
      subst is
      exact .letter (by decide)
  split
  next control => exact charText_controlEscape control
  next notQuote notBackslash _ _ _ _ _ notControl =>
    exact .plain notQuote notBackslash (Char.not_lt.mp notControl)

theorem charsText_escape (s : List Char) : CharsText s (s.flatMap escape) := by
  induction s with
  | nil => exact .nil
  | cons c s ih => exact .cons (charText_escape c) ih

theorem quotedText_quote (s : String) : QuotedText s (quote s) :=
  .quoted (charsText_escape s.toList)

end EntropySeal.Json
