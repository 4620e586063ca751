import EntropySeal.Json.Writer
import EntropySeal.Proofs.Json.Scalar
import Mathlib.Data.List.Perm.Basic

/-!
# Records as objects

A record is written as an object of its fields: in any order, without fields that have
their defaults if need be, and with blanks everywhere between names, values and marks.
Each of these texts is read as the record (`Described.reads_record`), provided that its
fields have different names, can be changed in any order and make it up together.  What
the writer writes is one of them (`recordText_write`).
-/

namespace EntropySeal.Json

/-! ## The notation -/

/-- An entry of an object, with blanks around its name and its value. -/
inductive EntryText (name : String) (value : List Char → Prop) : List Char → Prop where
  | entry {before key between after text behind : List Char} : Blanks before →
      QuotedText name key → Blanks between → Blanks after → value text → Blanks behind →
      EntryText name value (before ++ key ++ (between ++ ':' :: (after ++ text)) ++ behind)

/-- Entries with commas between them. -/
inductive EntriesText : List (String × (List Char → Prop)) → List Char → Prop where
  | last {name : String} {value : List Char → Prop} {cs : List Char} :
      EntryText name value cs → EntriesText [(name, value)] cs
  | more {name : String} {value : List Char → Prop} {rest : List (String × (List Char → Prop))}
      {cs ds : List Char} : EntryText name value cs → EntriesText rest ds →
      EntriesText ((name, value) :: rest) (cs ++ ',' :: ds)

/-- An object of these entries, in this order. -/
inductive ObjectText : List (String × (List Char → Prop)) → List Char → Prop where
  | empty {blanks : List Char} : Blanks blanks → ObjectText [] ('\x7b' :: blanks ++ ['\x7d'])
  | entries {entries : List (String × (List Char → Prop))} {cs : List Char} :
      EntriesText entries cs → ObjectText entries ('\x7b' :: cs ++ ['\x7d'])

/-- How a field of a record is written. -/
structure FieldForm (σ : Type) where
  name : String
  texts : Texts σ
  /-- The field has its default and can be left out. -/
  IsDefault : σ → Prop

/-- A record is written as an object of its fields in any order, without any of those
that have their defaults. -/
inductive RecordText {σ : Type} (forms : List (FieldForm σ)) : Texts σ where
  | object {r : σ} {written left : List (FieldForm σ)} {cs : List Char} :
      (written ++ left).Perm forms → (∀ form ∈ left, form.IsDefault r) →
      ObjectText (written.map fun form => (form.name, form.texts r)) cs → RecordText forms r cs

/-! ## Members -/

/-- A field of a record as it is read and as it is written. -/
structure Member {σ : Type} (defaults : σ) where
  field : RecordField σ
  form : FieldForm σ
  /-- The second record with this field of the first one. -/
  take : σ → σ → σ
  name_eq : field.name = form.name
  reads : Reads field.read fun change cs => ∃ r, change = take r ∧ form.texts r cs
  take_default : ∀ r, form.IsDefault r → take r defaults = defaults

/-- The member that a reader and a setter make. -/
def Member.of {σ α : Type} {defaults : σ} (name : String) {value : Reader α} {texts : Texts α}
    (get : σ → α) (set : α → σ → σ) (reads : Reads value texts)
    (set_get : set (get defaults) defaults = defaults) : Member defaults where
  field := .of name value set
  form := ⟨name, fun r => texts (get r), fun r => get r = get defaults⟩
  take r := set (get r)
  name_eq := rfl
  reads := by
    rintro _ cs ⟨r, rfl, text⟩ blanks rest only ends
    have read := reads _ _ text blanks rest only ends
    simp only [RecordField.of, read, bind, Except.bind]
    rfl
  take_default := by
    intro r isDefault
    rw [isDefault, set_get]

section Members

variable {σ : Type} {defaults : σ}

/-- A field is found by its name. -/
theorem find?_field {members : List (Member defaults)}
    (distinct : (members.map fun m => m.form.name).Nodup) {m : Member defaults}
    (among : m ∈ members) :
    (members.map Member.field).find? (fun field => field.name == m.form.name) = some m.field := by
  induction members with
  | nil => cases among
  | cons first members ih =>
      obtain ⟨fresh, distinct⟩ := List.nodup_cons.mp distinct
      rw [List.map_cons, List.find?_cons]
      rcases List.mem_cons.mp among with rfl | later
      · simp [m.name_eq]
      · have other : first.form.name ≠ m.form.name := by
          intro same
          exact fresh (List.mem_map.mpr ⟨m, later, same.symm⟩)
        rw [first.name_eq, beq_eq_false_iff_ne.mpr other]
        exact ih distinct later

/-- What an object of these members holds for a record. -/
def entriesOf (r : σ) (members : List (Member defaults)) :
    List (String × (List Char → Prop)) :=
  members.map fun m => (m.form.name, m.form.texts r)

/-- An entry is read from its opening quotation mark on, up to blanks behind it, and
changes its field. -/
theorem EntryText.read {members : List (Member defaults)}
    (distinct : (members.map fun m => m.form.name).Nodup) {m : Member defaults}
    (among : m ∈ members) {r : σ} {cs : List Char}
    (entry : EntryText m.form.name (m.form.texts r) cs) :
    ∃ before body behind, Blanks before ∧ Blanks behind ∧ cs = before ++ '"' :: body ∧
      ∀ rest, EndsValue (behind ++ rest) → ∃ after,
        readQuoted [] none (body ++ rest) = .ok (m.form.name.toList, after) ∧
        ∀ seen record, m.form.name ∉ seen →
          readEntry (members.map Member.field) seen m.form.name record after =
            .ok ((m.form.name :: seen, m.take r record), behind ++ rest) := by
  cases entry with
  | @entry before key between after text behind onlyBefore quoted onlyBetween onlyAfter value
      onlyBehind =>
      obtain ⟨more, rfl, -⟩ := readQuoted_of_quotedText quoted []
      refine ⟨before, more ++ (between ++ ':' :: (after ++ text)) ++ behind, behind, onlyBefore,
        onlyBehind, by simp, ?_⟩
      intro rest ends
      obtain ⟨_, same, read⟩ := readQuoted_of_quotedText quoted
        (between ++ ':' :: (after ++ text ++ (behind ++ rest)))
      cases same
      refine ⟨between ++ ':' :: (after ++ text ++ (behind ++ rest)), by simpa using read, ?_⟩
      intro seen record fresh
      have change := m.reads _ _ ⟨r, rfl, value⟩ after (behind ++ rest) onlyAfter ends
      rw [readEntry, find?_field distinct among]
      simp only [List.contains_eq_mem, fresh, decide_false, Bool.false_eq_true, if_false,
        mark_append_cons onlyBetween (show isBlank ':' = false by decide), bind, Except.bind,
        change]
      rfl

/-- There is a character for every entry. -/
theorem EntriesText.length_le {entries : List (String × (List Char → Prop))} {cs : List Char}
    (text : EntriesText entries cs) : entries.length ≤ cs.length := by
  induction text with
  | last entry =>
      cases entry with
      | entry => simp; omega
  | more _ _ ih =>
      simp only [List.length_cons, List.length_append]
      omega

/-- A closing brace ends the entries. -/
theorem readEntries_close (fields : List (RecordField σ)) (fuel : Nat) (seen : List String)
    (record : σ) {blanks : List Char} (only : Blanks blanks) (rest : List Char) :
    readEntries fields (fuel + 1) seen record (blanks ++ '\x7d' :: rest) = .ok (record, rest) := by
  rw [readEntries, trim_append_cons only (by decide)]
  rfl

/-- After a comma, one entry is read. -/
theorem readEntries_entry {members : List (Member defaults)}
    (distinct : (members.map fun m => m.form.name).Nodup) {m : Member defaults}
    (among : m ∈ members) {r : σ} {cs : List Char}
    (entry : EntryText m.form.name (m.form.texts r) cs) {seen : List String}
    (fresh : m.form.name ∉ seen) (record : σ) (fuel : Nat) {blanks : List Char}
    (only : Blanks blanks) {mark : Char} (ends : mark = ',' ∨ mark = '\x7d') (rest : List Char) :
    ∃ behind, Blanks behind ∧
      readEntries (members.map Member.field) (fuel + 1) seen record
          (blanks ++ ',' :: (cs ++ mark :: rest)) =
        readEntries (members.map Member.field) fuel (m.form.name :: seen) (m.take r record)
          (behind ++ mark :: rest) := by
  obtain ⟨before, body, behind, onlyBefore, onlyBehind, rfl, read⟩ := entry.read distinct among
  obtain ⟨after, key, changed⟩ := read _ (.append_cons onlyBehind ends rest)
  refine ⟨behind, onlyBehind, ?_⟩
  rw [readEntries, trim_append_cons only (by decide), List.append_assoc, List.cons_append]
  simp only [mark_append_cons onlyBefore (show isBlank '"' = false by decide), bind, Except.bind,
    key, String.ofList_toList, changed seen record fresh]
  rfl

/-- Entries after the first one are read one by one, and each changes its field. -/
theorem readEntries_of_text {members : List (Member defaults)}
    (distinct : (members.map fun m => m.form.name).Nodup) (r : σ) {written : List (Member defaults)}
    (among : ∀ m ∈ written, m ∈ members) (once : (written.map fun m => m.form.name).Nodup)
    {cs : List Char} (text : EntriesText (entriesOf r written) cs) {seen : List String}
    (fresh : ∀ m ∈ written, m.form.name ∉ seen) (record : σ) {blanks : List Char}
    (only : Blanks blanks) (rest : List Char) {fuel : Nat} (enough : written.length < fuel) :
    readEntries (members.map Member.field) fuel seen record
        (blanks ++ ',' :: (cs ++ '\x7d' :: rest)) =
      .ok (written.foldl (fun x m => m.take r x) record, rest) := by
  induction written generalizing cs seen record blanks fuel with
  | nil => cases text
  | cons m written ih =>
      obtain ⟨here, later⟩ := List.forall_mem_cons.mp among
      obtain ⟨new, fresh⟩ := List.forall_mem_cons.mp fresh
      obtain ⟨fuel, rfl⟩ := Nat.exists_eq_add_one_of_ne_zero (Nat.ne_zero_of_lt enough)
      have enough := Nat.lt_of_succ_lt_succ enough
      rcases written with _ | ⟨n, written⟩
      · cases text with
        | last entry =>
            obtain ⟨fuel, rfl⟩ := Nat.exists_eq_add_one_of_ne_zero (Nat.ne_zero_of_lt enough)
            obtain ⟨behind, onlyBehind, read⟩ :=
              readEntries_entry distinct here entry new record (fuel + 1) only (.inr rfl) rest
            rw [read, readEntries_close _ _ _ _ onlyBehind]
            rfl
        | more _ others => cases others
      · cases text with
        | @more _ _ _ first others entry text =>
            obtain ⟨notAmong, once⟩ := List.nodup_cons.mp once
            have fresh' : ∀ k ∈ n :: written, k.form.name ∉ m.form.name :: seen := by
              intro k member again
              rcases List.mem_cons.mp again with same | earlier
              · exact notAmong (List.mem_map.mpr ⟨k, member, same⟩)
              · exact fresh k member earlier
            obtain ⟨behind, onlyBehind, read⟩ :=
              readEntries_entry distinct here entry new record fuel only (.inl rfl)
                (others ++ '\x7d' :: rest)
            rw [List.append_assoc, List.cons_append, read]
            exact ih later once text fresh' _ onlyBehind enough

/-- After the opening brace, one entry is read. -/
theorem readObject_entry {members : List (Member defaults)}
    (distinct : (members.map fun m => m.form.name).Nodup) {m : Member defaults}
    (among : m ∈ members) {r : σ} {cs : List Char}
    (entry : EntryText m.form.name (m.form.texts r) cs) {mark : Char}
    (ends : mark = ',' ∨ mark = '\x7d') (rest : List Char) :
    ∃ behind, Blanks behind ∧
      readObject (members.map Member.field) defaults (cs ++ mark :: rest) =
        readEntries (members.map Member.field) ((behind ++ mark :: rest).length + 1)
          [m.form.name] (m.take r defaults) (behind ++ mark :: rest) := by
  obtain ⟨before, body, behind, onlyBefore, onlyBehind, rfl, read⟩ := entry.read distinct among
  obtain ⟨after, key, changed⟩ := read _ (.append_cons onlyBehind ends rest)
  refine ⟨behind, onlyBehind, ?_⟩
  rw [List.append_assoc, List.cons_append, readObject, trim_append_cons onlyBefore (by decide)]
  simp only [bind, Except.bind, key, String.ofList_toList, changed [] defaults List.not_mem_nil]
  rfl

/-- An object of distinct members is read as the defaults with their fields changed. -/
theorem readObject_of_text {members : List (Member defaults)}
    (distinct : (members.map fun m => m.form.name).Nodup) (r : σ) {written : List (Member defaults)}
    (among : ∀ m ∈ written, m ∈ members) (once : (written.map fun m => m.form.name).Nodup)
    {cs : List Char} (text : ObjectText (entriesOf r written) cs) (rest : List Char) :
    ∃ inner, cs = '\x7b' :: inner ∧
      readObject (members.map Member.field) defaults (inner ++ rest) =
        .ok (written.foldl (fun x m => m.take r x) defaults, rest) := by
  rcases written with _ | ⟨m, written⟩
  · cases text with
    | @empty blanks only =>
        refine ⟨blanks ++ ['\x7d'], rfl, ?_⟩
        rw [List.append_assoc, readObject, List.singleton_append,
          trim_append_cons only (by decide)]
        rfl
    | entries text => cases text
  · cases text with
    | @entries _ inner text =>
        -- The first entry has no comma before it and is read by itself.
        refine ⟨inner ++ ['\x7d'], rfl, ?_⟩
        obtain ⟨here, later⟩ := List.forall_mem_cons.mp among
        obtain ⟨notAmong, once⟩ := List.nodup_cons.mp once
        rw [List.append_assoc, List.singleton_append]
        rcases written with _ | ⟨n, written⟩
        · cases text with
          | last entry =>
              obtain ⟨behind, onlyBehind, read⟩ :=
                readObject_entry distinct here entry (.inr rfl) rest
              rw [read, readEntries_close _ _ _ _ onlyBehind]
              rfl
          | more _ others => cases others
        · cases text with
          | @more _ _ _ first others entry text =>
              obtain ⟨behind, onlyBehind, read⟩ :=
                readObject_entry distinct here entry (.inl rfl) (others ++ '\x7d' :: rest)
              have fresh : ∀ k ∈ n :: written, k.form.name ∉ [m.form.name] := by
                intro k member same
                exact notAmong (List.mem_map.mpr ⟨k, member, List.mem_singleton.mp same⟩)
              have enough : (n :: written).length <
                  (behind ++ ',' :: (others ++ '\x7d' :: rest)).length + 1 := by
                have count := text.length_le
                simp only [List.length_map, List.length_append, List.length_cons] at count ⊢
                omega
              rw [List.append_assoc, List.cons_append, read]
              exact readEntries_of_text distinct r later once text fresh _ onlyBehind rest enough

/-! ## Records -/

/-- How a record is read and written, field by field. -/
structure Described (fields : List (RecordField σ)) (forms : List (FieldForm σ)) (defaults : σ) :
    Type 1 where
  members : List (Member defaults)
  fields_eq : members.map Member.field = fields
  forms_eq : members.map Member.form = forms
  distinct : (members.map fun m => m.form.name).Nodup
  /-- Fields are changed in any order. -/
  independent : ∀ m ∈ members, ∀ n ∈ members, ∀ r x,
    m.take r (n.take r x) = n.take r (m.take r x)
  /-- A record has no other fields. -/
  complete : ∀ r, members.foldl (fun x m => m.take r x) defaults = r

/-- Fields in any order, without those that have their defaults, make up a record. -/
theorem Described.foldl_take {fields : List (RecordField σ)} {forms : List (FieldForm σ)}
    (d : Described fields forms defaults) {written left : List (Member defaults)}
    (perm : (written ++ left).Perm d.members) {r : σ}
    (isDefault : ∀ m ∈ left, m.form.IsDefault r) :
    written.foldl (fun x m => m.take r x) defaults = r := by
  have unchanged : left.foldl (fun x m => m.take r x) defaults = defaults := by
    clear perm
    induction left with
    | nil => rfl
    | cons m left ih =>
        obtain ⟨here, later⟩ := List.forall_mem_cons.mp isDefault
        rw [List.foldl_cons, m.take_default r here]
        exact ih later
  calc
    -- The fields left out change nothing, so they can be changed first.
    written.foldl (fun x m => m.take r x) defaults
        = (left ++ written).foldl (fun x m => m.take r x) defaults := by
          rw [List.foldl_append, unchanged]
    _ = d.members.foldl (fun x m => m.take r x) defaults := by
          have perm := List.perm_append_comm.trans perm
          apply perm.foldl_eq'
          intro m first n second x
          exact d.independent n (perm.mem_iff.mp second) m (perm.mem_iff.mp first) r x
    _ = r := d.complete r

theorem Described.reads_record {fields : List (RecordField σ)} {forms : List (FieldForm σ)}
    (d : Described fields forms defaults) : Reads (record fields defaults) (RecordText forms) := by
  intro r cs text blanks rest only ends
  cases text with
  | object perm isDefault text =>
      rw [← d.forms_eq] at perm
      obtain ⟨ordered, same, order⟩ := (congrFun₂ (List.eq_map_comp_perm _) _ _).mpr perm
      obtain ⟨written, left, rfl, rfl, rfl⟩ := List.map_eq_append_iff.mp same.symm
      have among : ∀ m ∈ written, m ∈ d.members := by
        intro m member
        exact order.mem_iff.mp (List.mem_append_left _ member)
      have once : (written.map fun m => m.form.name).Nodup := by
        have distinct := (order.map fun m => m.form.name).nodup_iff.mpr d.distinct
        rw [List.map_append] at distinct
        exact (List.nodup_append.mp distinct).1
      have text : ObjectText (entriesOf r written) cs := by
        rw [List.map_map] at text
        exact text
      have unchanged : ∀ m ∈ left, m.form.IsDefault r := by
        intro m member
        exact isDefault _ (List.mem_map_of_mem member)
      obtain ⟨inner, rfl, read⟩ := readObject_of_text d.distinct r among once text rest
      rw [← d.fields_eq, List.append_assoc, List.cons_append, record,
        trim_append_cons only (by decide)]
      simp only [if_true, read, d.foldl_take order unchanged]

end Members

/-! ## Writing -/

theorem blanks_newline (level : Nat) : Blanks (Document.newline level) := by
  intro c member
  rcases List.mem_cons.mp member with rfl | indent
  · rfl
  · rw [List.eq_of_mem_replicate indent]
    rfl

/-- Blanks behind an entry belong to it. -/
theorem EntryText.append {name : String} {value : List Char → Prop} {cs blanks : List Char}
    (entry : EntryText name value cs) (only : Blanks blanks) :
    EntryText name value (cs ++ blanks) := by
  cases entry with
  | entry before key between after text behind =>
      rw [List.append_assoc]
      exact .entry before key between after text (behind.append only)

theorem EntriesText.append {entries : List (String × (List Char → Prop))} {cs blanks : List Char}
    (text : EntriesText entries cs) (only : Blanks blanks) :
    EntriesText entries (cs ++ blanks) := by
  induction text with
  | last entry => exact .last (entry.append only)
  | more entry _ ih =>
      rw [List.append_assoc, List.cons_append]
      exact .more entry ih

/-- A written field, at the level of its value. -/
def WritesField {σ : Type} (r : σ) (level : Nat) (entry : String × Document)
    (form : FieldForm σ) : Prop :=
  entry.1 = form.name ∧ form.texts r (entry.2.write level)

/-- A field is written after a line break, with a blank before its value. -/
theorem WritesField.entryText {σ : Type} {r : σ} {level : Nat} {key : String} {value : Document}
    {form : FieldForm σ} (field : WritesField r level (key, value) form) :
    EntryText form.name (form.texts r)
      (Document.newline level ++ (quote key ++ [':', ' '] ++ value.write level)) := by
  obtain ⟨same, text⟩ := field
  have name : QuotedText form.name (quote key) := by
    rw [← same]
    exact quotedText_quote key
  have blank : Blanks [' '] := List.forall_mem_singleton.mpr rfl
  have entry : EntryText form.name (form.texts r) _ :=
    .entry (blanks_newline level) name .nil blank text .nil
  simpa using entry

/-- Fields are written one after the other. -/
theorem entriesText_writeEntries {σ : Type} {r : σ} {level : Nat}
    {entries : List (String × Document)} {forms : List (FieldForm σ)}
    (fields : List.Forall₂ (WritesField r level) entries forms) (nonempty : entries ≠ []) :
    EntriesText (forms.map fun form => (form.name, form.texts r))
      ([','].intercalate ((Document.writeEntries level entries).map
        (Document.newline level ++ ·))) := by
  induction fields with
  | nil => exact absurd rfl nonempty
  | @cons entry form entries forms field others ih =>
      obtain ⟨key, value⟩ := entry
      have entry := field.entryText
      cases others with
      | nil =>
          rw [Document.writeEntries, Document.writeEntries]
          simpa using EntriesText.last entry
      | @cons entry' form' entries forms field' others =>
          obtain ⟨key', value'⟩ := entry'
          have rest := ih (List.cons_ne_nil _ _)
          simp only [Document.writeEntries, List.map_cons] at rest ⊢
          rw [List.intercalate_cons_cons, List.append_assoc, List.singleton_append]
          exact .more entry rest

/-- A record whose fields are all written, in the order of its forms. -/
theorem recordText_write {σ : Type} {r : σ} {level : Nat} {entries : List (String × Document)}
    {forms : List (FieldForm σ)} (nonempty : entries ≠ [])
    (fields : List.Forall₂ (WritesField r (level + 1)) entries forms) :
    RecordText forms r ((Document.object entries).write level) := by
  have text := (entriesText_writeEntries fields nonempty).append (blanks_newline level)
  have enclosed : (Document.object entries).write level = '\x7b' ::
      ([','].intercalate ((Document.writeEntries (level + 1) entries).map
        (Document.newline (level + 1) ++ ·)) ++ Document.newline level) ++ ['\x7d'] := by
    obtain ⟨⟨key, value⟩, entries, rfl⟩ := List.exists_cons_of_ne_nil nonempty
    rw [Document.write, Document.writeEntries, Document.enclose]
    · rfl
    · exact List.cons_ne_nil _ _
  rw [enclosed]
  exact .object (by rw [List.append_nil]) (by simp) (.entries text)

end EntropySeal.Json
