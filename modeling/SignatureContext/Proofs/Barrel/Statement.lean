import SignatureContext.Proofs.Barrel.Opening

/-! Statements that re-export, and lines that have nothing else. The verdict on a text is one on the
openings of its lines, so it says nothing about what stands behind them. -/
namespace SignatureContext.Barrel

open Text (isBlank lines)

/-- What stands between two quotes on a line, of which a backslash may hide some. -/
inductive Quoted (quote : Char) : List Char → Prop
  | nil : Quoted quote []
  | plain {c : Char} {cs : List Char} (hquote : c ≠ quote) (hvisible : c ≠ '\\')
    (hline : c ≠ '\n') (hrest : Quoted quote cs) : Quoted quote (c :: cs)
  | hidden {c : Char} {cs : List Char} (hline : c ≠ '\n') (hrest : Quoted quote cs) :
    Quoted quote ('\\' :: c :: cs)

theorem quoted_of_plain {quote : Char} {cs : List Char}
    (h : ∀ c ∈ cs, c ≠ quote ∧ c ≠ '\\' ∧ c ≠ '\n') : Quoted quote cs := by
  induction cs with
  | nil => exact .nil
  | cons c cs ih =>
    obtain ⟨⟨hquote, hhidden, hline⟩, hcs⟩ := List.forall_mem_cons.mp h
    exact .plain hquote hhidden hline (ih hcs)

/-- The end of a statement behind an opening: the name of the module, the closing quote, and maybe a
semicolon on the same line. -/
structure Closing (quote : Char) where
  module : List Char
  quoted : Quoted quote module
  semicolon : Option Gap
  line : ∀ gap ∈ semicolon, '\n' ∉ gap.val

structure Statement where
  opening : Opening
  closing : Closing opening.quote

section Texts
variable {q : Char}

def Closing.semicolonText (c : Closing q) : List Char :=
  c.semicolon.elim [] fun gap => gap ++ [';']

def Closing.text (c : Closing q) : List Char :=
  c.module ++ q :: c.semicolonText

def Statement.text (s : Statement) : List Char :=
  s.opening.text ++ s.closing.text

end Texts

/-- Statements with blanks before, between and behind them. -/
def written (lead : Gap) : List (Statement × Gap) → List Char
  | [] => lead
  | (s, gap) :: items => lead ++ s.text ++ written gap items

/-- The line has statements and nothing else. -/
def OnlyStatements (line : List Char) : Prop :=
  ∃ lead items, items ≠ [] ∧ line = written lead items

/-- Behind a quote that opens the name of a module, the statement ends and there are only statements
after it. -/
def ClosesOnly (quote : Char) (rest : List Char) : Prop :=
  ∃ (c : Closing quote) (gap : Gap) (items : List (Statement × Gap)),
    rest = c.text ++ written gap items

def Blank (line : List Char) : Prop :=
  ∀ c ∈ line, isBlank c

variable {line : List Char} {text : String}

/-- Without line comments, an idle line is a blank one. -/
theorem idle_iff_blank (hmark : ¬ ['/', '/'] <:+: line) : Idle line ↔ Blank line := by
  unfold Idle Blank
  rw [List.dropWhile_eq_nil_iff]
  refine or_iff_left fun hcomment => hmark ?_
  exact hcomment.isInfix.trans (List.dropWhile_suffix _).isInfix

theorem not_blank_of_opening (gap : Gap) (o : Opening) (rest : List Char) :
    ¬ Blank (gap ++ o.text ++ rest) := by
  intro h
  refine absurd (h 'e' ?_) not_isBlank_e
  refine List.mem_append_left _ (List.mem_append_right _ ?_)
  exact List.mem_of_mem_head? o.head?_text

theorem isBarrel_iff_openings (hline : ¬ ['/', '/'] <:+: text.toList)
    (hblock : ¬ ['/', '*'] <:+: text.toList) :
    isBarrel text ↔ (∃ l ∈ lines text.toList, ¬ Blank l) ∧ ∀ l ∈ lines text.toList, ¬ Blank l →
      ∃ (gap : Gap) (o : Opening) (rest : List Char), l = gap ++ o.text ++ rest := by
  have hmark : ∀ l ∈ lines text.toList, ¬ ['/', '/'] <:+: l := fun l hl h =>
    hline (h.trans (Text.infix_of_mem_lines hl))
  rw [isBarrel_iff_of_not_mark hblock]
  unfold AllPass
  refine and_congr ?_ ?_
  · refine exists_congr fun l => and_congr_right fun hl => ?_
    rw [idle_iff_blank (hmark l hl)]
  · refine forall₂_congr fun l hl => ?_
    rw [idle_iff_blank (hmark l hl), passes_iff]
    refine imp_congr_right fun _ => exists_congr fun gap => exists_congr fun o =>
      exists_congr fun rest => and_iff_left_of_imp ?_
    rintro rfl h
    exact hmark _ hl (h.trans ⟨gap, rest, rfl⟩)

theorem closesOnly_of_onlyStatements {gap : Gap} {o : Opening} {rest : List Char}
    (h : OnlyStatements (gap ++ o.text ++ rest)) : ClosesOnly o.quote rest := by
  obtain ⟨lead, items, hne, hwritten⟩ := h
  cases items with
  | nil => exact absurd rfl hne
  | cons item items =>
    obtain ⟨s, after⟩ := item
    have hline : gap ++ o.text ++ rest =
        lead ++ s.opening.text ++ (s.closing.text ++ written after items) := by
      rw [hwritten, written, Statement.text]
      simp only [List.append_assoc]
    have hopening : o.text ++ rest = s.opening.text ++ (s.closing.text ++ written after items) := by
      rw [← blanks_append_opening gap, hline, blanks_append_opening]
    obtain ⟨htext, hrest⟩ := Opening.text_eq_of_append_eq hopening
    have hquote : o.quote = s.opening.quote := by
      apply Option.some.inj
      rw [← o.getLast?_text, htext, s.opening.getLast?_text]
    rw [hquote]
    exact ⟨s.closing, after, items, hrest⟩

theorem onlyStatements_of_closesOnly {gap : Gap} {o : Opening} {rest : List Char}
    (h : ClosesOnly o.quote rest) : OnlyStatements (gap ++ o.text ++ rest) := by
  obtain ⟨c, after, items, rfl⟩ := h
  refine ⟨gap, (⟨o, c⟩, after) :: items, List.cons_ne_nil _ _, ?_⟩
  rw [written, Statement.text]
  simp only [List.append_assoc]

/-- A text without comments is a barrel if some line is not blank and all that are not start with an
opening. They have nothing but statements exactly where every opening on them is closed and has only
statements behind it, which the verdict does not tell. -/
theorem openings_decide (hline : ¬ ['/', '/'] <:+: text.toList)
    (hblock : ¬ ['/', '*'] <:+: text.toList) :
    (isBarrel text ↔ (∃ l ∈ lines text.toList, ¬ Blank l) ∧ ∀ l ∈ lines text.toList, ¬ Blank l →
      ∃ (gap : Gap) (o : Opening) (rest : List Char), l = gap ++ o.text ++ rest) ∧
    (isBarrel text →
      ((∀ l ∈ lines text.toList, ¬ Blank l → OnlyStatements l) ↔
        ∀ l ∈ lines text.toList, ∀ (gap : Gap) (o : Opening) (rest : List Char),
          l = gap ++ o.text ++ rest → ClosesOnly o.quote rest)) := by
  refine ⟨isBarrel_iff_openings hline hblock, fun hbarrel => ⟨?_, ?_⟩⟩
  · rintro honly l hl gap o rest rfl
    exact closesOnly_of_onlyStatements (honly _ hl (not_blank_of_opening gap o rest))
  · intro hcloses l hl hblank
    obtain ⟨gap, o, rest, rfl⟩ := ((isBarrel_iff_openings hline hblock).mp hbarrel).2 l hl hblank
    exact onlyStatements_of_closesOnly (hcloses _ hl gap o rest rfl)

/-- A line with two pure statements, and one with a declaration behind a statement. -/
theorem mixed_lines_open :
    let text :=
      "export * from './a'; export type { B } from \"./b\"\n\nexport * from './c'; let d = 1"
    ¬ ['/', '/'] <:+: text.toList ∧ ¬ ['/', '*'] <:+: text.toList ∧ isBarrel text ∧
    (∀ l ∈ lines text.toList, ¬ Blank l →
      ∃ (gap : Gap) (o : Opening) (rest : List Char), l = gap ++ o.text ++ rest) ∧
    ((∀ l ∈ lines text.toList, ¬ Blank l → OnlyStatements l) ↔
      ∀ l ∈ lines text.toList, ∀ (gap : Gap) (o : Opening) (rest : List Char),
        l = gap ++ o.text ++ rest → ClosesOnly o.quote rest) := by
  intro text
  have hline : ¬ ['/', '/'] <:+: text.toList := by decide +kernel
  have hblock : ¬ ['/', '*'] <:+: text.toList := by decide +kernel
  have hbarrel : isBarrel text := by decide +kernel
  obtain ⟨hopenings, honly⟩ := openings_decide hline hblock
  exact ⟨hline, hblock, hbarrel, (hopenings.mp hbarrel).2, honly hbarrel⟩

theorem Closing.exists_getLast?_text {q : Char} (c : Closing q) :
    ∃ last, c.text.getLast? = some last ∧ (last = ';' ∨ last = q) := by
  unfold Closing.text Closing.semicolonText
  cases c.semicolon with
  | none => exact ⟨q, List.getLast?_concat, .inr rfl⟩
  | some gap =>
    refine ⟨';', ?_, .inl rfl⟩
    rw [Option.elim_some, ← List.cons_append, ← List.append_assoc]
    exact List.getLast?_concat

/-- Statements end with a quote, a semicolon or blanks. -/
theorem getLast?_written (lead : Gap) (items : List (Statement × Gap)) :
    ∀ last ∈ (written lead items).getLast?,
      isBlank last ∨ last = ';' ∨ last = '\'' ∨ last = '"' := by
  induction items generalizing lead with
  | nil => exact fun last h => .inl (lead.property last (List.mem_of_getLast? h))
  | cons item items ih =>
    obtain ⟨s, gap⟩ := item
    obtain ⟨final, hfinal, hkind⟩ := s.closing.exists_getLast?_text
    intro last h
    rw [written, Statement.text, List.getLast?_append, List.getLast?_append, List.getLast?_append,
      hfinal, Option.some_or, Option.some_or] at h
    rcases Option.or_eq_some_iff.mp h with h | ⟨-, h⟩
    · exact ih gap last h
    · obtain rfl := Option.some.inj h
      refine .inr (hkind.imp_right fun hquote => ?_)
      rw [hquote]
      exact s.opening.listing.quotes

/-- A declaration behind a statement on its line passes. -/
theorem declaration_passes :
    ¬ ∀ text : String, ¬ ['/', '/'] <:+: text.toList → ¬ ['/', '*'] <:+: text.toList →
      isBarrel text → ∀ l ∈ lines text.toList, ¬ Blank l → OnlyStatements l := by
  intro hall
  let text := "export * from './a'; let b = 1"
  have hline : text.toList ∈ lines text.toList := by decide +kernel
  have hblank : ¬ Blank text.toList := fun h => not_isBlank_e (h 'e' (by decide))
  obtain ⟨lead, items, -, hwritten⟩ := hall text (by decide +kernel) (by decide +kernel)
    (by decide +kernel) text.toList hline hblank
  have hlast := getLast?_written lead items '1' (by rw [← hwritten]; decide +kernel)
  revert hlast
  decide

end SignatureContext.Barrel
