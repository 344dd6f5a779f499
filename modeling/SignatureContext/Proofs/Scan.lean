import SignatureContext.Proofs.Text.Blank
import SignatureContext.Proofs.Text.Pattern

/-! The names in a text: what regular expressions for names find in it are its words, each as a
whole or not at all. -/
namespace SignatureContext.Scan

open Text (MaximalRun Pattern isWord)

/-- A letter or an underscore, and then letters, digits and underscores, all of ASCII. -/
def identifier : Pattern :=
  .seq (.one fun c => isLetter c || c == '_') (.many fun c => isLetter c || c.isDigit || c == '_')

/-- A capital letter, and then letters and digits, all of ASCII. -/
def typeName : Pattern :=
  .seq (.one Char.isUpper) (.many fun c => isLetter c || c.isDigit)

section Spelling
variable {c : Char}

theorem isWord_of_letter_or_digit (h : isLetter c || c.isDigit) : isWord c := by
  have hascii : c.toNat < 128 := by
    have hnine : '9'.toNat = 57 := rfl
    simp only [isLetter, Bool.or_eq_true, Text.isUpper_iff, Text.isLower_iff,
      Char.isDigit_iff_toNat] at h
    omega
  have halphanum : c.isAlphanum := h
  unfold isWord
  rw [if_pos hascii, halphanum, Bool.true_or]

theorem isWord_of_underscore (h : c == '_') : isWord c := by
  rw [beq_iff_eq] at h
  subst h
  decide

theorem identifier_spells : identifier.Spells isIdentifier := by
  apply Pattern.spells_seq_one_many
  · intro c hc
    rcases Bool.or_eq_true_iff.mp hc with hletter | hunderscore
    · exact isWord_of_letter_or_digit (Bool.or_eq_true_iff.mpr (Or.inl hletter))
    · exact isWord_of_underscore hunderscore
  · intro c hc
    rcases Bool.or_eq_true_iff.mp hc with hname | hunderscore
    · exact isWord_of_letter_or_digit hname
    · exact isWord_of_underscore hunderscore
  · intro word
    cases word <;> simp [isIdentifier]

theorem typeName_spells : typeName.Spells isTypeName := by
  apply Pattern.spells_seq_one_many
  · intro c hc
    have hletter : isLetter c := Bool.or_eq_true_iff.mpr (Or.inl hc)
    exact isWord_of_letter_or_digit (Bool.or_eq_true_iff.mpr (Or.inl hletter))
  · exact fun c => isWord_of_letter_or_digit
  · intro word
    cases word <;> simp [isTypeName]

/-- Every name of a type is an identifier. -/
theorem isIdentifier_of_isTypeName {word : List Char} (h : isTypeName word) :
    isIdentifier word := by
  cases word with
  | nil => exact h
  | cons c cs =>
    simp only [isTypeName, isIdentifier, isLetter, Bool.and_eq_true, Bool.or_eq_true,
      List.all_eq_true] at h ⊢
    exact ⟨Or.inl (Or.inl h.1), fun d hd => Or.inl (h.2 d hd)⟩

end Spelling

section Names
variable {text name : String}

theorem mem_references_iff : name ∈ references text ↔
    name ∈ identifiers text ∧ isTypeName name.toList ∧ name ∉ builtins := by
  rw [mem_identifiers_iff]
  unfold references
  simp only [List.mem_map, List.mem_filter, Bool.not_eq_true', List.contains_eq_mem,
    decide_eq_false_iff_not]
  constructor
  · rintro ⟨⟨word, ⟨hword, htype⟩, rfl⟩, hname⟩
    rw [String.toList_ofList]
    exact ⟨⟨hword, isIdentifier_of_isTypeName htype⟩, htype, hname⟩
  · rintro ⟨⟨hword, -⟩, htype, hname⟩
    exact ⟨⟨name.toList, ⟨hword, htype⟩, String.ofList_toList⟩, hname⟩

/-- What the search for identifiers finds are the words of the text that are identifiers from their
start to their end, and of these what the search for names of types finds are those that are such
names as a whole. -/
theorem names_are_whole_words (text : String) :
    identifiers text = (identifier.whole.findAll text.toList).map String.ofList ∧
    (∀ name, name ∈ identifiers text ↔
      (∃ front rest, text.toList = front ++ name.toList ++ rest ∧
        MaximalRun front name.toList rest) ∧ identifier.MatchesAll name.toList) ∧
    references text = ((typeName.whole.findAll text.toList).map String.ofList).filter
      (!builtins.contains ·) ∧
    (∀ name, name ∈ references text ↔
      name ∈ identifiers text ∧ typeName.MatchesAll name.toList ∧ name ∉ builtins) ∧
    references text ⊆ identifiers text := by
  refine ⟨?_, fun name => ?_, ?_, fun name => ?_, fun name hname => (mem_references_iff.mp hname).1⟩
  · rw [identifier_spells.findAll_whole]
    rfl
  · unfold Pattern.MatchesAll
    rw [mem_identifiers_iff, Text.mem_wordRuns_iff, identifier_spells.matches_iff]
  · rw [typeName_spells.findAll_whole]
    rfl
  · unfold Pattern.MatchesAll
    rw [mem_references_iff, typeName_spells.matches_iff]

example : identifiers "fooé _x1 2d $y" = ["_x1", "y"] := by decide +kernel

end Names

end SignatureContext.Scan
