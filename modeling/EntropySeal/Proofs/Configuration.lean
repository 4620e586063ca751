import EntropySeal.Configuration
import EntropySeal.Proofs.Json.Record

/-!
# Configurations as texts

A configuration can be written as a JSON text in many ways: the fields of each of its
objects in any order, without those that have their defaults, with blanks between all
parts, and with escapes in all names and texts.  The main statement, `ofJson_of_texts`,
says that reading does not depend on the way, that what is written is one of these
texts, and that whatever is read makes sense.
-/

namespace EntropySeal

theorem ProtectionMode.ofKey?_key (mode : ProtectionMode) : ofKey? mode.key = some mode := by
  cases mode <;> decide

namespace Configuration

open Json

/-! ## The notation -/

/-- The fields of a policy. -/
def policyForms : List (FieldForm ReseedPolicy) := [
  ⟨"soft_threshold", fun p => WordText p.soft, fun p => p.soft = 65536⟩,
  ⟨"hard_threshold", fun p => WordText p.hard, fun p => p.hard = 1048576⟩,
  ⟨"seed_size_bytes", fun p => OptionalText WordText p.seedSize, fun p => p.seedSize = none⟩]

/-- The fields of protection defaults. -/
def protectionForms : List (FieldForm ProtectionDefaults) := [
  ⟨"mode", fun p => NameText ProtectionMode.key p.mode, fun p => p.mode = .stateAndCode⟩,
  ⟨"alert", fun p => NameText AlertKind.key p.alert, fun p => p.alert = .log⟩]

/-- The fields of a configuration. -/
def forms : List (FieldForm Configuration) := [
  ⟨"reseed", fun c => RecordText policyForms c.reseed, fun c => c.reseed = {}⟩,
  ⟨"protection", fun c => RecordText protectionForms c.protection, fun c => c.protection = {}⟩,
  ⟨"entropy_pool", fun c => OptionalText QuotedText c.entropyPool, fun c => c.entropyPool = none⟩]

/-- The texts of a configuration: an object of its fields between blanks. -/
inductive TextOf (c : Configuration) : String → Prop where
  | text {before cs after : List Char} : Blanks before → RecordText forms c cs → Blanks after →
      TextOf c (String.ofList (before ++ cs ++ after))

/-! ## Reading -/

/-- A policy field by field. -/
def policyDescribed : Described reseedFields policyForms {} where
  members := [
    .of "soft_threshold" ReseedPolicy.soft (fun soft p => { p with soft }) reads_word rfl,
    .of "hard_threshold" ReseedPolicy.hard (fun hard p => { p with hard }) reads_word rfl,
    .of "seed_size_bytes" ReseedPolicy.seedSize (fun seedSize p => { p with seedSize })
      (reads_optional reads_word present_word) rfl]
  fields_eq := rfl
  forms_eq := rfl
  distinct := by decide
  independent := by
    simp only [List.mem_cons, List.not_mem_nil, or_false]
    rintro m (rfl | rfl | rfl) n (rfl | rfl | rfl) r x <;> rfl
  complete r := rfl

/-- Protection defaults field by field. -/
def protectionDescribed : Described protectionFields protectionForms {} where
  members := [
    .of "mode" ProtectionDefaults.mode (fun mode p => { p with mode })
      (reads_variant ProtectionMode.ofKey?_key) rfl,
    .of "alert" ProtectionDefaults.alert (fun alert p => { p with alert })
      (reads_variant AlertKind.ofKey?_key) rfl]
  fields_eq := rfl
  forms_eq := rfl
  distinct := by decide
  independent := by
    simp only [List.mem_cons, List.not_mem_nil, or_false]
    rintro m (rfl | rfl) n (rfl | rfl) r x <;> rfl
  complete r := rfl

/-- A configuration field by field. -/
def described : Described fields forms {} where
  members := [
    .of "reseed" Configuration.reseed (fun reseed c => { c with reseed })
      policyDescribed.reads_record rfl,
    .of "protection" Configuration.protection (fun protection c => { c with protection })
      protectionDescribed.reads_record rfl,
    .of "entropy_pool" Configuration.entropyPool (fun entropyPool c => { c with entropyPool })
      (reads_optional reads_text present_text) rfl]
  fields_eq := rfl
  forms_eq := rfl
  distinct := by decide
  independent := by
    simp only [List.mem_cons, List.not_mem_nil, or_false]
    rintro m (rfl | rfl | rfl) n (rfl | rfl | rfl) r x <;> rfl
  complete r := rfl

/-- Each text of a configuration is read as that configuration. -/
theorem parse_of_textOf {c : Configuration} {text : String} (form : TextOf c text) :
    parse text = .ok c := by
  cases form with
  | @text before cs after blanks text others =>
      have ends : EndsValue after := by
        intro d member
        exact .inl (others d (List.mem_of_mem_head? member))
      have nothing : trim after = [] := trim_of_blanks others
      have read := described.reads_record c cs text before after blanks ends
      rw [parse, readWhole, String.toList_ofList, reader, read]
      simp only [bind, Except.bind, nothing]
      rfl

theorem ofJson_of_textOf {c : Configuration} {text : String} (form : TextOf c text)
    (valid : c.reseed.validate = .ok ()) : ofJson text = .ok c := by
  rw [ofJson, parse_of_textOf form]
  simp only [bind, Except.bind, valid]
  rfl

/-! ## Writing -/

theorem optionalText_write {α : Type} {texts : Texts α} {write : α → Document} {level : Nat}
    (written : ∀ v, texts v ((write v).write level)) (v : Option α) :
    OptionalText texts v ((optional write v).write level) := by
  cases v with
  | none => exact .absent
  | some v => exact .present (written v)

theorem wordText_write (w : UInt64) (level : Nat) :
    WordText w ((Document.number w.toNat).write level) := by
  rw [Document.write]
  exact numberText_write w.toNat

theorem quotedText_write (s : String) (level : Nat) :
    QuotedText s ((Document.text s).write level) := by
  rw [Document.write]
  exact quotedText_quote s

theorem recordText_reseedDocument (p : ReseedPolicy) (level : Nat) :
    RecordText policyForms p ((reseedDocument p).write level) := by
  refine recordText_write (List.cons_ne_nil _ _) (.cons ⟨rfl, ?_⟩ (.cons ⟨rfl, ?_⟩
    (.cons ⟨rfl, ?_⟩ .nil)))
  · exact wordText_write p.soft _
  · exact wordText_write p.hard _
  · exact optionalText_write (fun w => wordText_write w _) p.seedSize

theorem recordText_protectionDocument (p : ProtectionDefaults) (level : Nat) :
    RecordText protectionForms p ((protectionDocument p).write level) := by
  refine recordText_write (List.cons_ne_nil _ _) (.cons ⟨rfl, ?_⟩ (.cons ⟨rfl, ?_⟩ .nil))
  · exact quotedText_write p.mode.key _
  · exact quotedText_write p.alert.key _

/-- What is written is a text of the configuration. -/
theorem textOf_toJson (c : Configuration) : TextOf c c.toJson := by
  have text : RecordText forms c (c.document.write 0) := by
    refine recordText_write (List.cons_ne_nil _ _) (.cons ⟨rfl, ?_⟩ (.cons ⟨rfl, ?_⟩
      (.cons ⟨rfl, ?_⟩ .nil)))
    · exact recordText_reseedDocument c.reseed _
    · exact recordText_protectionDocument c.protection _
    · exact optionalText_write (fun s => quotedText_write s _) c.entropyPool
  have form := TextOf.text .nil text .nil
  rwa [List.nil_append, List.append_nil] at form

/-- A configuration whose policy makes sense is read from each of its texts, of which
the one that is written is one; and a configuration that is read has such a policy. -/
theorem ofJson_of_texts :
    (∀ c : Configuration, c.reseed.validate = .ok () →
      ofJson c.toJson = .ok c ∧ TextOf c c.toJson ∧ ∀ text, TextOf c text → ofJson text = .ok c) ∧
    ∀ text c, ofJson text = .ok c → c.reseed.validate = .ok () := by
  constructor
  · intro c valid
    refine ⟨ofJson_of_textOf (textOf_toJson c) valid, textOf_toJson c, ?_⟩
    intro text form
    exact ofJson_of_textOf form valid
  · intro text c read
    exact validate_of_ofJson read

/-! ### Fields out of order, left out and escaped -/

/-- A small policy, and a path with an escape in every text of it. -/
def small : Configuration where
  reseed := { soft := 10, hard := 20 }
  entropyPool := some "\té😀"

/-- A text of it: the path comes first, the protection defaults are empty, and the
seed size is left out. -/
def smallText : String :=
  " \x7b\"entropy_pool\" :\n\"\\t\\u00E9\\ud83d\\uDE00\", \"protection\":\x7b \x7d," ++
    "\"\\u0072eseed\":\x7b\"hard_threshold\":20,\"soft_threshold\":10\x7d\x7d"

theorem quotedText_path : QuotedText "\té😀" "\"\\t\\u00E9\\ud83d\\uDE00\"".toList := by
  have tab : ('t', '\t') ∈ letters := by decide
  have zero : HexDigit '0' 0 := .inl rfl
  have unit : CharText 'é' _ :=
    .unit (.digits zero zero (.inr rfl : HexDigit 'E' 14) (.inl rfl : HexDigit '9' 9))
  have pair : CharText '😀' _ := .pair (by decide)
    (.digits (.inl rfl : HexDigit 'd' 13) (.inl rfl : HexDigit '8' 8) (.inl rfl : HexDigit '3' 3)
      (.inl rfl : HexDigit 'd' 13))
    (.digits (.inr rfl : HexDigit 'D' 13) (.inr rfl : HexDigit 'E' 14) zero zero)
  exact QuotedText.quoted (s := "\té😀")
    (.cons (.letter tab) (.cons unit (.cons pair .nil)))

theorem quotedText_reseed : QuotedText "reseed" "\"\\u0072eseed\"".toList := by
  have zero : HexDigit '0' 0 := .inl rfl
  have first : CharText 'r' _ :=
    .unit (.digits zero zero (.inl rfl : HexDigit '7' 7) (.inl rfl : HexDigit '2' 2))
  exact QuotedText.quoted (s := "reseed") (.cons first (charsText_escape "eseed".toList))

theorem recordText_policy : RecordText policyForms small.reseed
    "\x7b\"hard_threshold\":20,\"soft_threshold\":10\x7d".toList := by
  have hard : NumberText 20 ['2', '0'] :=
    @NumberText.digits [2, 0] (by decide) (by decide) (by decide)
  have soft : NumberText 10 ['1', '0'] :=
    @NumberText.digits [1, 0] (by decide) (by decide) (by decide)
  have object : ObjectText [("hard_threshold", WordText 20), ("soft_threshold", WordText 10)] _ :=
    .entries (.more (.entry .nil (quotedText_quote "hard_threshold") .nil .nil
        hard .nil)
      (.last (.entry .nil (quotedText_quote "soft_threshold") .nil .nil
        soft .nil)))
  exact @RecordText.object _ policyForms _ [policyForms[1], policyForms[0]] [policyForms[2]] _
    (.swap ..) (List.forall_mem_singleton.mpr rfl) object

theorem recordText_protection : RecordText protectionForms small.protection "\x7b \x7d".toList := by
  have defaults : ∀ form ∈ protectionForms, form.IsDefault small.protection := by
    simp only [protectionForms, List.forall_mem_cons]
    exact ⟨rfl, rfl, List.forall_mem_nil _⟩
  have blank : Blanks [' '] := List.forall_mem_singleton.mpr rfl
  exact @RecordText.object _ protectionForms _ [] protectionForms _ (.refl _) defaults
    (.empty blank)

theorem textOf_smallText : TextOf small smallText := by
  have blank : Blanks [' '] := List.forall_mem_singleton.mpr rfl
  have line : Blanks ['\n'] := List.forall_mem_singleton.mpr rfl
  have object : ObjectText (forms.reverse.map fun form => (form.name, form.texts small)) _ :=
    .entries (.more (.entry .nil (quotedText_quote "entropy_pool") blank line
        (.present quotedText_path) .nil)
      (.more (.entry blank (quotedText_quote "protection") .nil .nil
          recordText_protection .nil)
        (.last (.entry .nil quotedText_reseed .nil .nil
          recordText_policy .nil))))
  have record : RecordText forms small _ := @RecordText.object _ forms _ forms.reverse [] _
    (by rw [List.append_nil]; exact List.reverse_perm forms)
    (List.forall_mem_nil _) object
  have form := TextOf.text blank record .nil
  exact cast (congrArg (TextOf small) (by decide +kernel)) form

theorem ofJson_of_texts_small : small.reseed.validate = .ok () ∧ TextOf small smallText ∧
    ofJson smallText = .ok small ∧ ofJson small.toJson = .ok small := by
  have valid : small.reseed.validate = .ok () := rfl
  obtain ⟨written, -, read⟩ := ofJson_of_texts.1 small valid
  exact ⟨valid, textOf_smallText, read smallText textOf_smallText, written⟩

end Configuration

end EntropySeal
