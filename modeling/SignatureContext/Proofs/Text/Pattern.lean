import Mathlib.Tactic.SplitIfs
import SignatureContext.Proofs.Text.Words

/-! Regular expressions with word boundaries, read by a search from left to right that backtracks.
Between two boundaries, a pattern of word characters finds whole words and never a part of one. -/
namespace SignatureContext.Text

/-- Whether the text starts with a word character. What is behind a place in a text is given from
the place back, so there too the nearest character comes first. -/
def startsWord (cs : List Char) : Bool :=
  cs.head?.any isWord

/-- Regular expressions: a word boundary, a character of a class, as many characters of a class as
can be, and one pattern behind another. -/
inductive Pattern
  | boundary
  | one (p : Char → Bool)
  | many (p : Char → Bool)
  | seq (first second : Pattern)

/-- The runs of the class at the start of the text, the longest first. -/
def startRuns (p : Char → Bool) : List Char → List (List Char)
  | [] => [[]]
  | c :: cs => if p c then (startRuns p cs).map (c :: ·) ++ [[]] else [[]]

namespace Pattern

/-- All that the pattern matches at a place, in the order in which backtracking comes to it. -/
def tries : Pattern → (behind ahead : List Char) → List (List Char)
  | boundary, behind, ahead => if startsWord behind = startsWord ahead then [] else [[]]
  | one _, _, [] => []
  | one p, _, c :: _ => if p c then [[c]] else []
  | many p, _, ahead => startRuns p ahead
  | seq first second, behind, ahead =>
    (first.tries behind ahead).flatMap fun u =>
      (second.tries (u.reverse ++ behind) (ahead.drop u.length)).map (u ++ ·)

/-- What a pattern that does not match the empty text finds: at each place the first of its tries,
and then on from the end of it, which is as many characters away as are to be skipped. -/
def search (p : Pattern) : (skip : Nat) → (behind ahead : List Char) → List (List Char)
  | _, _, [] => []
  | skip + 1, behind, c :: cs => p.search skip (c :: behind) cs
  | 0, behind, c :: cs =>
    match p.tries behind (c :: cs) with
    | [] => p.search 0 (c :: behind) cs
    | word :: _ => word :: p.search (word.length - 1) (c :: behind) cs

/-- All matches in a text that do not overlap, from left to right. -/
def findAll (p : Pattern) (text : List Char) : List (List Char) :=
  p.search 0 [] text

/-- The pattern between two word boundaries. -/
def whole (p : Pattern) : Pattern :=
  seq boundary (seq p boundary)

/-- Whether the pattern matches the word where it stands, whatever the order of tries. -/
def Matches : Pattern → (behind word ahead : List Char) → Prop
  | boundary, behind, word, ahead => word = [] ∧ startsWord behind ≠ startsWord ahead
  | one p, _, word, _ => ∃ c, word = [c] ∧ p c
  | many p, _, word, _ => ∀ c ∈ word, p c
  | seq first second, behind, word, ahead =>
    ∃ u v, word = u ++ v ∧ first.Matches behind u (v ++ ahead) ∧
      second.Matches (u.reverse ++ behind) v ahead

/-- Whether the pattern matches the text from its start to its end. -/
def MatchesAll (p : Pattern) (text : List Char) : Prop :=
  p.Matches [] text []

end Pattern

section Tries
variable {p : Char → Bool} {behind ahead word cs : List Char}

theorem mem_startRuns : word ∈ startRuns p cs ↔ word <+: cs ∧ ∀ c ∈ word, p c := by
  induction cs generalizing word with
  | nil =>
    simp only [startRuns, List.mem_singleton, List.prefix_nil]
    constructor
    · rintro rfl
      simp
    · exact And.left
  | cons c cs ih =>
    unfold startRuns
    cases word with
    | nil => split_ifs <;> simp
    | cons d word =>
      by_cases hc : p c
      · simp only [if_pos hc, List.mem_append, List.mem_map, List.cons.injEq, List.mem_singleton,
          List.cons_ne_nil, or_false, List.cons_prefix_cons, List.forall_mem_cons]
        constructor
        · rintro ⟨run, hrun, rfl, rfl⟩
          obtain ⟨hstart, hclass⟩ := ih.mp hrun
          exact ⟨⟨rfl, hstart⟩, hc, hclass⟩
        · rintro ⟨⟨rfl, hstart⟩, -, hclass⟩
          exact ⟨word, ih.mpr ⟨hstart, hclass⟩, rfl, rfl⟩
      · rw [if_neg hc]
        simp only [List.mem_singleton, List.cons_ne_nil, false_iff, List.cons_prefix_cons,
          List.forall_mem_cons]
        rintro ⟨⟨rfl, -⟩, hd, -⟩
        exact hc hd

/-- Backtracking tries just what the pattern matches. -/
theorem Pattern.mem_tries {q : Pattern} : word ∈ q.tries behind ahead ↔
    ∃ rest, ahead = word ++ rest ∧ q.Matches behind word rest := by
  induction q generalizing behind ahead word with
  | boundary =>
    simp only [tries, Matches]
    split_ifs with hsame
    · simp only [List.not_mem_nil, false_iff]
      rintro ⟨rest, rfl, rfl, hdiffer⟩
      exact hdiffer hsame
    · rw [List.mem_singleton]
      constructor
      · rintro rfl
        exact ⟨ahead, rfl, rfl, hsame⟩
      · rintro ⟨-, -, rfl, -⟩
        rfl
  | one p =>
    cases ahead with
    | nil =>
      simp only [tries, Matches, List.not_mem_nil, false_iff]
      rintro ⟨rest, hcs, c, rfl, -⟩
      exact absurd hcs.symm (List.cons_ne_nil c rest)
    | cons d cs =>
      simp only [tries, Matches]
      constructor
      · intro h
        split_ifs at h with hd
        · rw [List.mem_singleton] at h
          exact ⟨cs, by rw [h]; rfl, d, h, hd⟩
        · exact absurd h List.not_mem_nil
      · rintro ⟨rest, hcs, c, rfl, hc⟩
        obtain ⟨rfl, rfl⟩ := List.cons.inj hcs
        rw [if_pos hc, List.mem_singleton]
  | many p =>
    simp only [tries, Matches, mem_startRuns]
    constructor
    · rintro ⟨⟨rest, rfl⟩, hclass⟩
      exact ⟨rest, rfl, hclass⟩
    · rintro ⟨rest, rfl, hclass⟩
      exact ⟨List.prefix_append word rest, hclass⟩
  | seq first second hfirst hsecond =>
    simp only [tries, Matches, List.mem_flatMap, List.mem_map, hfirst, hsecond]
    constructor
    · rintro ⟨u, ⟨behindU, rfl, hu⟩, v, ⟨rest, hv, hmatch⟩, rfl⟩
      rw [List.drop_left] at hv
      subst hv
      exact ⟨rest, by rw [List.append_assoc], u, v, rfl, hu, hmatch⟩
    · rintro ⟨rest, rfl, u, v, rfl, hu, hv⟩
      refine ⟨u, ⟨v ++ rest, by rw [List.append_assoc], hu⟩, v, ⟨rest, ?_, hv⟩, rfl⟩
      rw [List.append_assoc, List.drop_left]

end Tries

section Search
variable {p : Pattern} {behind word cs : List Char} {c : Char}

namespace Pattern

theorem search_of_tries_nil (h : p.tries behind (c :: cs) = []) :
    p.search 0 behind (c :: cs) = p.search 0 (c :: behind) cs := by
  rw [search, h]

theorem search_skip (word behind cs : List Char) :
    p.search word.length behind (word ++ cs) = p.search 0 (word.reverse ++ behind) cs := by
  induction word generalizing behind with
  | nil => rfl
  | cons c word ih =>
    rw [List.length_cons, List.cons_append, search, ih, List.reverse_cons, List.append_assoc]
    rfl

/-- What is tried first is found, if it is not empty, and the search goes on behind it. -/
theorem search_of_tries_cons {more : List (List Char)} (hne : word ≠ [])
    (h : p.tries behind (word ++ cs) = word :: more) :
    p.search 0 behind (word ++ cs) = word :: p.search 0 (word.reverse ++ behind) cs := by
  obtain ⟨c, word, rfl⟩ := List.exists_cons_of_ne_nil hne
  rw [List.cons_append] at h ⊢
  rw [search, h]
  dsimp only
  rw [List.length_cons, Nat.add_sub_cancel, search_skip, List.reverse_cons, List.append_assoc]
  rfl

end Pattern

end Search

section Whole

theorem startsWord_eq_false_iff {cs : List Char} :
    startsWord cs = false ↔ ∀ c ∈ cs.head?, ¬ isWord c := by
  cases cs <;> simp [startsWord]

theorem startsWord_append {word : List Char} (hne : word ≠ []) (hword : ∀ c ∈ word, isWord c)
    (rest : List Char) : startsWord (word ++ rest) = true := by
  obtain ⟨c, word, rfl⟩ := List.exists_cons_of_ne_nil hne
  exact hword c List.mem_cons_self

theorem takeWhile_append_of_word {word rest : List Char} (hword : ∀ c ∈ word, isWord c)
    (hrest : ∀ c ∈ rest.head?, ¬ isWord c) : (word ++ rest).takeWhile isWord = word := by
  rw [List.takeWhile_append_of_pos hword]
  cases rest with
  | nil => exact List.append_nil word
  | cons c rest => rw [List.takeWhile_cons_of_neg (hrest c rfl), List.append_nil]

namespace Pattern

/-- The pattern matches just the texts that are accepted, wherever they stand, and these consist of
word characters. -/
structure Spells (p : Pattern) (accepts : List Char → Bool) : Prop where
  matches_iff : ∀ behind word ahead, p.Matches behind word ahead ↔ accepts word
  ne_nil : ∀ word, accepts word → word ≠ []
  all_word : ∀ word, accepts word → ∀ c ∈ word, isWord c

theorem matches_seq_one_many {first others : Char → Bool} {behind word ahead : List Char} :
    (seq (one first) (many others)).Matches behind word ahead ↔
      ∃ c cs, word = c :: cs ∧ first c ∧ ∀ d ∈ cs, others d := by
  simp only [Matches]
  constructor
  · rintro ⟨_, cs, rfl, ⟨c, rfl, hc⟩, hcs⟩
    exact ⟨c, cs, rfl, hc, hcs⟩
  · rintro ⟨c, cs, rfl, hc, hcs⟩
    exact ⟨[c], cs, rfl, ⟨c, rfl, hc⟩, hcs⟩

/-- A word character of one class and then some of another. -/
theorem spells_seq_one_many {first others : Char → Bool} {accepts : List Char → Bool}
    (hfirst : ∀ c, first c → isWord c) (hothers : ∀ c, others c → isWord c)
    (haccepts : ∀ word, accepts word ↔ ∃ c cs, word = c :: cs ∧ first c ∧ ∀ d ∈ cs, others d) :
    (seq (one first) (many others)).Spells accepts where
  matches_iff _ word _ := matches_seq_one_many.trans (haccepts word).symm
  ne_nil word h := by
    obtain ⟨c, cs, rfl, -⟩ := (haccepts word).mp h
    exact List.cons_ne_nil c cs
  all_word word h := by
    obtain ⟨c, cs, rfl, hc, hcs⟩ := (haccepts word).mp h
    exact List.forall_mem_cons.mpr ⟨hfirst c hc, fun d hd => hothers d (hcs d hd)⟩

variable {p : Pattern} {accepts : List Char → Bool} {behind word rest cs : List Char}

/-- On both sides of what is accepted there is a boundary just where no word character goes on. -/
theorem Spells.matches_whole_iff (h : p.Spells accepts) :
    p.whole.Matches behind word rest ↔
      accepts word ∧ startsWord behind = false ∧ startsWord rest = false := by
  have hsides : accepts word → startsWord (word ++ rest) = true ∧
      startsWord (word.reverse ++ behind) = true := by
    intro haccepts
    have hne := h.ne_nil word haccepts
    have hword := h.all_word word haccepts
    exact ⟨startsWord_append hne hword rest,
      startsWord_append (by simpa using hne) (by simpa using hword) behind⟩
  simp only [whole, Matches, h.matches_iff]
  constructor
  · rintro ⟨-, _, rfl, ⟨rfl, hfront⟩, word, _, rfl, haccepts, rfl, hback⟩
    simp only [List.nil_append, List.append_nil, List.reverse_nil] at hsides hfront hback ⊢
    obtain ⟨hstart, hend⟩ := hsides haccepts
    rw [hstart, ne_eq, Bool.not_eq_true] at hfront
    rw [hend, ne_comm, ne_eq, Bool.not_eq_true] at hback
    exact ⟨haccepts, hfront, hback⟩
  · rintro ⟨haccepts, hbehind, hrest⟩
    obtain ⟨hstart, hend⟩ := hsides haccepts
    refine ⟨[], word, rfl, ⟨rfl, ?_⟩, word, [], (List.append_nil word).symm, haccepts, rfl, ?_⟩
    · rw [hbehind, hstart]
      exact Bool.false_ne_true
    · rw [List.reverse_nil, List.nil_append, hend, hrest]
      exact Bool.false_ne_true.symm

theorem Spells.mem_tries_whole (h : p.Spells accepts) : word ∈ p.whole.tries behind cs ↔
    accepts word ∧ startsWord behind = false ∧
      ∃ rest, cs = word ++ rest ∧ startsWord rest = false := by
  rw [mem_tries]
  simp only [h.matches_whole_iff]
  constructor
  · rintro ⟨rest, hcs, haccepts, hbehind, hrest⟩
    exact ⟨haccepts, hbehind, rest, hcs, hrest⟩
  · rintro ⟨haccepts, hbehind, rest, hcs, hrest⟩
    exact ⟨rest, hcs, haccepts, hbehind, hrest⟩

/-- Nothing is found inside of a word, nor where none starts. -/
theorem Spells.tries_whole_eq_nil (h : p.Spells accepts)
    (hplace : startsWord behind = true ∨ startsWord cs = false) : p.whole.tries behind cs = [] := by
  rw [List.eq_nil_iff_forall_not_mem]
  intro word hword
  obtain ⟨haccepts, hbehind, rest, rfl, -⟩ := h.mem_tries_whole.mp hword
  have hstarts := startsWord_append (h.ne_nil word haccepts) (h.all_word word haccepts) rest
  rcases hplace with hinside | hnone
  · exact Bool.false_ne_true (hbehind.symm.trans hinside)
  · exact Bool.false_ne_true (hnone.symm.trans hstarts)

/-- Behind the first character of a word, the search comes to the end of the word. -/
theorem Spells.search_inside (h : p.Spells accepts) (hbehind : startsWord behind = true)
    (hword : ∀ c ∈ word, isWord c) (rest : List Char) :
    p.whole.search 0 behind (word ++ rest) = p.whole.search 0 (word.reverse ++ behind) rest := by
  induction word generalizing behind with
  | nil => rfl
  | cons c word ih =>
    obtain ⟨hc, hword⟩ := List.forall_mem_cons.mp hword
    have hnone : p.whole.tries behind (c :: (word ++ rest)) = [] :=
      h.tries_whole_eq_nil (Or.inl hbehind)
    have hnext : startsWord (c :: behind) = true := hc
    rw [List.cons_append, search_of_tries_nil hnone, ih hnext hword, List.reverse_cons,
      List.append_assoc]
    rfl

section Step
variable {run : List Char} (hrun : ∀ c ∈ run, isWord c) (hrest : ∀ c ∈ rest.head?, ¬ isWord c)
include hrun hrest

/-- Where a word starts, the whole of it is tried or nothing. -/
theorem Spells.eq_of_mem_tries_whole (h : p.Spells accepts)
    (hword : word ∈ p.whole.tries behind (run ++ rest)) : word = run := by
  obtain ⟨haccepts, -, rest', hcs, hrest'⟩ := h.mem_tries_whole.mp hword
  rw [startsWord_eq_false_iff] at hrest'
  rw [← takeWhile_append_of_word hrun hrest, hcs,
    takeWhile_append_of_word (h.all_word word haccepts) hrest']

theorem Spells.search_of_accepts (h : p.Spells accepts) (hbehind : startsWord behind = false)
    (haccepts : accepts run) :
    p.whole.search 0 behind (run ++ rest) =
      run :: p.whole.search 0 (run.reverse ++ behind) rest := by
  have hmem : run ∈ p.whole.tries behind (run ++ rest) :=
    h.mem_tries_whole.mpr ⟨haccepts, hbehind, rest, rfl, startsWord_eq_false_iff.mpr hrest⟩
  obtain ⟨word, more, htries⟩ := List.exists_cons_of_ne_nil (List.ne_nil_of_mem hmem)
  have hfirst : word ∈ p.whole.tries behind (run ++ rest) := by
    rw [htries]
    exact List.mem_cons_self
  rw [h.eq_of_mem_tries_whole hrun hrest hfirst] at htries
  exact search_of_tries_cons (h.ne_nil run haccepts) htries

theorem Spells.search_of_not_accepts (h : p.Spells accepts) (hne : run ≠ [])
    (haccepts : ¬ accepts run) :
    p.whole.search 0 behind (run ++ rest) = p.whole.search 0 (run.reverse ++ behind) rest := by
  have hnone : p.whole.tries behind (run ++ rest) = [] := by
    rw [List.eq_nil_iff_forall_not_mem]
    intro word hword
    rw [h.eq_of_mem_tries_whole hrun hrest hword] at hword
    exact haccepts (h.mem_tries_whole.mp hword).1
  obtain ⟨c, run, rfl⟩ := List.exists_cons_of_ne_nil hne
  obtain ⟨hc, hrun⟩ := List.forall_mem_cons.mp hrun
  have hinside : startsWord (c :: behind) = true := hc
  rw [List.cons_append] at hnone ⊢
  rw [search_of_tries_nil hnone, h.search_inside hinside hrun, List.reverse_cons, List.append_assoc]
  rfl

end Step

/-- From a place that is not inside of a word, the search finds the accepted words ahead. -/
theorem Spells.search_whole (h : p.Spells accepts)
    (hplace : startsWord behind = false ∨ startsWord cs = false) :
    p.whole.search 0 behind cs = (wordRuns cs).filter accepts := by
  -- the place is one between words: behind a word that was read, or before one that may start
  induction cs using word_induction generalizing behind with
  | nil => rfl
  | other c cs hc ih =>
    have hno : ∀ cs, startsWord (c :: cs) = false := fun cs => by simpa [startsWord] using hc
    have hnone : p.whole.tries behind (c :: cs) = [] := h.tries_whole_eq_nil (Or.inr (hno cs))
    rw [search_of_tries_nil hnone, wordRuns_cons_of_not_word hc]
    exact ih (Or.inl (hno behind))
  | word run rest hne hrun hrest ih =>
    have hbehind : startsWord behind = false := by
      rw [startsWord_append hne hrun] at hplace
      simpa using hplace
    have hnext : p.whole.search 0 (run.reverse ++ behind) rest = (wordRuns rest).filter accepts :=
      ih (Or.inr (startsWord_eq_false_iff.mpr hrest))
    rw [wordRuns_append hne hrun hrest]
    by_cases haccepts : accepts run
    · rw [h.search_of_accepts hrun hrest hbehind haccepts, hnext, List.filter_cons_of_pos haccepts]
    · rw [h.search_of_not_accepts hrun hrest hne haccepts, hnext,
        List.filter_cons_of_neg haccepts]

theorem Spells.findAll_whole (h : p.Spells accepts) (cs : List Char) :
    p.whole.findAll cs = (wordRuns cs).filter accepts :=
  h.search_whole (Or.inl rfl)

end Pattern

end Whole

end SignatureContext.Text
