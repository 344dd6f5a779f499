import Mathlib.Data.List.Basic
import Mathlib.Data.List.TakeWhile
import SignatureContext.Scan
import SignatureContext.Text.Split

/-! The words of a text: the runs of word characters that cannot be made longer. A separator which
is no word character ends every word before it, so the words of a text that is put together from
pieces are those of the pieces, one piece after another. -/
namespace SignatureContext.Text

section Runs
variable {c d : Char} {cs : List Char}

theorem wordRuns_cons_of_not_word (hc : ¬ isWord c) : wordRuns (c :: cs) = wordRuns cs := by
  rw [wordRuns.eq_def]
  exact if_neg hc

/-- A word character with no other behind it is a word by itself. -/
theorem wordRuns_cons_of_last (hc : isWord c) (hnext : ∀ d ∈ cs.head?, ¬ isWord d) :
    wordRuns (c :: cs) = [c] :: wordRuns cs := by
  rw [wordRuns.eq_def]
  dsimp only
  rw [if_pos hc]
  cases cs with
  | nil => rfl
  | cons d cs =>
    have hd : ¬ isWord d := hnext d rfl
    cases wordRuns (d :: cs) with
    | nil => rfl
    | cons run runs => exact if_neg hd

/-- A word character comes to the front of the word that starts right behind it. -/
theorem exists_wordRuns_cons (hc : isWord c) (hd : isWord d) (cs : List Char) :
    ∃ run runs, wordRuns (d :: cs) = run :: runs ∧
      wordRuns (c :: d :: cs) = (c :: run) :: runs := by
  have hne : wordRuns (d :: cs) ≠ [] := by
    rw [wordRuns.eq_def]
    dsimp only
    rw [if_pos hd]
    split
    · split <;> simp
    · simp
  obtain ⟨run, runs, hruns⟩ := List.exists_cons_of_ne_nil hne
  refine ⟨run, runs, hruns, ?_⟩
  rw [wordRuns.eq_def]
  dsimp only
  rw [if_pos hc, hruns]
  exact if_pos hd

/-- A run of word characters is a word if none follows. -/
theorem wordRuns_append {word rest : List Char} (hne : word ≠ []) (hword : ∀ c ∈ word, isWord c)
    (hrest : ∀ c ∈ rest.head?, ¬ isWord c) : wordRuns (word ++ rest) = word :: wordRuns rest := by
  induction word with
  | nil => exact absurd rfl hne
  | cons c word ih =>
    obtain ⟨hc, hword⟩ := List.forall_mem_cons.mp hword
    cases word with
    | nil => exact wordRuns_cons_of_last hc hrest
    | cons d word =>
      have hd : isWord d := hword d List.mem_cons_self
      obtain ⟨run, runs, hruns, hlonger⟩ := exists_wordRuns_cons hc hd (word ++ rest)
      have hsplit : run :: runs = (d :: word) :: wordRuns rest := by
        rw [← hruns, ← List.cons_append, ih (List.cons_ne_nil d word) hword]
      obtain ⟨rfl, rfl⟩ := List.cons_eq_cons.mp hsplit
      exact hlonger

/-- What holds of a text may be shown word by word, from its end to its start. -/
@[elab_as_elim]
theorem word_induction {motive : List Char → Prop} (nil : motive [])
    (other : ∀ c cs, ¬ isWord c → motive cs → motive (c :: cs))
    (word : ∀ word rest, word ≠ [] → (∀ c ∈ word, isWord c) → (∀ c ∈ rest.head?, ¬ isWord c) →
      motive rest → motive (word ++ rest))
    (cs : List Char) : motive cs := by
  -- with the word that it starts with, or without it
  have hboth : motive cs ∧ motive (cs.dropWhile isWord) := by
    induction cs with
    | nil => exact ⟨nil, nil⟩
    | cons c cs ih =>
      by_cases hc : isWord c
      · have hdrop : (c :: cs).dropWhile isWord = cs.dropWhile isWord :=
          List.dropWhile_cons_of_pos hc
        have hfirst : ∀ d ∈ (cs.dropWhile isWord).head?, ¬ isWord d := by
          intro d hd
          have hstop := List.head?_dropWhile_not isWord cs
          rw [Option.mem_def.mp hd] at hstop
          simpa using hstop
        have hrun := word (c :: cs.takeWhile isWord) (cs.dropWhile isWord) (List.cons_ne_nil _ _)
          (List.forall_mem_cons.mpr ⟨hc, fun d => List.mem_takeWhile_imp⟩) hfirst ih.2
        rw [List.cons_append, List.takeWhile_append_dropWhile] at hrun
        rw [hdrop]
        exact ⟨hrun, ih.2⟩
      · have hdrop : (c :: cs).dropWhile isWord = c :: cs := List.dropWhile_cons_of_neg hc
        rw [hdrop]
        exact ⟨other c cs hc ih.1, other c cs hc ih.1⟩
  exact hboth.1

end Runs

section Pieces
variable {sep : Char}

theorem wordRuns_append_cons (hsep : ¬ isWord sep) (cs ds : List Char) :
    wordRuns (cs ++ sep :: ds) = wordRuns cs ++ wordRuns ds := by
  induction cs using word_induction with
  | nil => exact wordRuns_cons_of_not_word hsep
  | other c cs hc ih =>
    rw [List.cons_append, wordRuns_cons_of_not_word hc, wordRuns_cons_of_not_word hc, ih]
  | word run rest hne hrun hrest ih =>
    have hends : ∀ c ∈ (rest ++ sep :: ds).head?, ¬ isWord c := by
      cases rest with
      | nil => simpa using hsep
      | cons d rest => exact hrest
    rw [List.append_assoc, wordRuns_append hne hrun hends, wordRuns_append hne hrun hrest, ih,
      List.cons_append]

theorem wordRuns_join (hsep : ¬ isWord sep) (pieces : List (List Char)) :
    wordRuns (join sep pieces) = pieces.flatMap wordRuns := by
  unfold join
  induction pieces with
  | nil => rfl
  | cons piece pieces ih =>
    cases pieces with
    | nil => simp
    | cons next pieces =>
      rw [List.intercalate_cons_cons, List.append_assoc, List.singleton_append,
        wordRuns_append_cons hsep, ih]
      exact List.flatMap_cons.symm

end Pieces

section Maximal
variable {front word rest cs : List Char}

/-- A run of word characters in a text that no word character continues on either side. -/
structure MaximalRun (front word rest : List Char) : Prop where
  ne_nil : word ≠ []
  all_word : ∀ c ∈ word, isWord c
  before : ∀ c ∈ front.getLast?, ¬ isWord c
  after : ∀ c ∈ rest.head?, ¬ isWord c

theorem MaximalRun.mem_wordRuns (h : MaximalRun front word rest) :
    word ∈ wordRuns (front ++ word ++ rest) := by
  have hback : wordRuns (word ++ rest) = word :: wordRuns rest :=
    wordRuns_append h.ne_nil h.all_word h.after
  rcases List.eq_nil_or_concat front with rfl | ⟨front, sep, rfl⟩
  · rw [List.nil_append, hback]
    exact List.mem_cons_self
  · have hsep : ¬ isWord sep := h.before sep (by simp)
    rw [List.concat_eq_append, List.append_assoc, List.append_assoc, List.singleton_append,
      wordRuns_append_cons hsep, hback]
    exact List.mem_append_right _ List.mem_cons_self

theorem mem_wordRuns_iff :
    word ∈ wordRuns cs ↔ ∃ front rest, cs = front ++ word ++ rest ∧ MaximalRun front word rest := by
  constructor
  · intro h
    induction cs using word_induction with
    | nil => exact absurd h List.not_mem_nil
    | other c cs hc ih =>
      rw [wordRuns_cons_of_not_word hc] at h
      obtain ⟨front, rest, rfl, hmax⟩ := ih h
      refine ⟨c :: front, rest, rfl, hmax.ne_nil, hmax.all_word, ?_, hmax.after⟩
      cases front with
      | nil => simpa using hc
      | cons d front => exact hmax.before
    | word run others hne hrun hothers ih =>
      rw [wordRuns_append hne hrun hothers] at h
      rcases List.mem_cons.mp h with rfl | h
      · exact ⟨[], others, rfl, hne, hrun, by simp, hothers⟩
      · obtain ⟨front, rest, rfl, hmax⟩ := ih h
        refine ⟨run ++ front, rest, by simp, hmax.ne_nil, hmax.all_word, ?_, hmax.after⟩
        cases front with
        | nil =>
          -- the word would start right behind the run, which ends there
          obtain ⟨d, ds, rfl⟩ := List.exists_cons_of_ne_nil hmax.ne_nil
          exact absurd (hmax.all_word d List.mem_cons_self) (hothers d rfl)
        | cons d front =>
          rw [List.getLast?_append_of_ne_nil _ (List.cons_ne_nil d front)]
          exact hmax.before
  · rintro ⟨front, rest, rfl, hmax⟩
    exact hmax.mem_wordRuns

end Maximal

end SignatureContext.Text

namespace SignatureContext.Scan

theorem mem_identifiers_iff {text name : String} : name ∈ identifiers text ↔
    name.toList ∈ Text.wordRuns text.toList ∧ isIdentifier name.toList := by
  unfold identifiers
  simp only [List.mem_map, List.mem_filter]
  constructor
  · rintro ⟨word, hword, rfl⟩
    rwa [String.toList_ofList]
  · intro h
    exact ⟨name.toList, h, String.ofList_toList⟩

/-- No identifier runs over the end of a line. -/
theorem mem_identifiers_join {pieces : List (List Char)} {name : String} :
    name ∈ identifiers (String.ofList (Text.join '\n' pieces)) ↔
      ∃ piece ∈ pieces, name ∈ identifiers (String.ofList piece) := by
  have hbreak : ¬ Text.isWord '\n' := by decide
  simp only [mem_identifiers_iff, String.toList_ofList, Text.wordRuns_join hbreak,
    List.mem_flatMap]
  constructor
  · rintro ⟨⟨piece, hpiece, hword⟩, hname⟩
    exact ⟨piece, hpiece, hword, hname⟩
  · rintro ⟨piece, hpiece, hword, hname⟩
    exact ⟨⟨piece, hpiece, hword⟩, hname⟩

end SignatureContext.Scan
