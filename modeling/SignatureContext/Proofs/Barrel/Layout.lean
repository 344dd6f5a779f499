import SignatureContext.Proofs.Barrel.Comment
import SignatureContext.Proofs.Barrel.Statement

/-! Statements one below the other are recognised if each of them has its opening on one line. Block
comments cannot hide this: one that starts in the name of a module only joins lines, and the first
of these keeps its opening. -/
namespace SignatureContext.Barrel

open Text (isBlank lines)

/-- The opening stands on one line, and no comment starts in it. -/
structure Opening.Intact (o : Opening) : Prop where
  line : '\n' ∉ o.text
  comment : ¬ ['/', '/'] <:+: o.text
  block : ¬ ['/', '*'] <:+: o.text

/-- The line is blank or starts with an opening. -/
def Opens (line : List Char) : Prop :=
  Blank line ∨ ∃ (gap : Gap) (o : Opening) (rest : List Char),
    o.Intact ∧ line = gap ++ o.text ++ rest

variable {cs u line : List Char} {lead : Gap} {items : List (Statement × Gap)}

section Stripping

/-- Either the comments of a line end in it or do not count, or the last one goes on below it. -/
theorem stripBlocks_line_cases (inside : Bool) (cs : List Char) (hu : '\n' ∉ u)
    (hcloses : inside → closes (u ++ '\n' :: cs)) :
    ∃ kept, '\n' ∉ kept ∧
      (stripBlocks inside (u ++ '\n' :: cs) = kept ++ '\n' :: stripBlocks false cs ∨
        closes cs ∧ stripBlocks inside (u ++ '\n' :: cs) = kept ++ stripBlocks true cs) := by
  by_cases hends : leavesOpen inside u = false ∨ closes cs = false
  · have hinside : inside → closes u := by
      intro h
      rcases hends with hends | hnever
      · exact closes_of_leavesOpen (h ▸ hends)
      · have hsome := hcloses h
        rwa [closes_append_line, hnever, Bool.or_false] at hsome
    refine ⟨stripBlocks inside u, fun h => hu ((stripBlocks_sublist _ _).subset h), .inl ?_⟩
    exact stripBlocks_append_line inside hinside hends
  · push Not at hends
    obtain ⟨hopen, hcs⟩ := hends
    rw [Bool.ne_false_iff] at hopen hcs
    obtain ⟨kept, hkept, hstrip⟩ := exists_stripBlocks_append_line hu hopen hcs
    exact ⟨kept, hkept, .inr ⟨hcs, hstrip⟩⟩

theorem not_mark_of_blank {b : Char} (h : Blank u) : ¬ ['/', b] <:+: u := fun hmark =>
  absurd (h '/' (hmark.subset List.mem_cons_self)) (by decide)

theorem getLast?_ne_slash_of_blank (h : Blank u) : u.getLast? ≠ some '/' := fun hlast =>
  absurd (h '/' (List.mem_of_getLast? hlast)) (by decide)

theorem stripBlocks_opening (gap : Gap) {o : Opening} (ho : o.Intact) (rest : List Char) :
    stripBlocks false (gap ++ o.text ++ rest) = gap ++ o.text ++ stripBlocks false rest := by
  rw [List.append_assoc, stripBlocks_append (not_mark_of_blank gap.property),
    stripBlocks_append ho.block, ← List.append_assoc]
  · rw [o.getLast?_text]
    exact fun h => absurd (Option.some.inj h) o.quote_ne_slash
  · exact fun h => absurd h (getLast?_ne_slash_of_blank gap.property)

theorem opens_stripBlocks_line (h : Opens u) : Opens (stripBlocks false u) := by
  rcases h with hblank | ⟨gap, o, rest, ho, rfl⟩
  · rw [stripBlocks_of_not_mark (not_mark_of_blank hblank)]
    exact .inl hblank
  · rw [stripBlocks_opening gap ho]
    exact .inr ⟨gap, o, _, ho, rfl⟩

/-- A line that opens still does without block comments, even if what is left of the text below it
joins it. -/
theorem exists_lines_stripBlocks (h : Opens u) (hu : '\n' ∉ u) (cs : List Char) :
    ∃ first, Opens first ∧
      (lines (stripBlocks false (u ++ '\n' :: cs)) = first :: lines (stripBlocks false cs) ∨
        closes cs ∧ lines (stripBlocks false (u ++ '\n' :: cs)) =
          first :: (lines (stripBlocks true cs)).tail) := by
  rcases h with hblank | ⟨gap, o, rest, ho, rfl⟩
  · refine ⟨u, .inl hblank, .inl ?_⟩
    rw [stripBlocks_append (not_mark_of_blank hblank), stripBlocks_cons '\n' cs (by simp),
      Text.lines_append_line, Text.lines_of_not_mem hu, List.singleton_append]
    exact fun h => absurd h (getLast?_ne_slash_of_blank hblank)
  · have hrest : '\n' ∉ rest := fun h => hu (List.mem_append_right _ h)
    have hfront : '\n' ∉ gap ++ o.text := fun h => hu (List.mem_append_left _ h)
    obtain ⟨kept, hkept, hcases⟩ := stripBlocks_line_cases false cs hrest nofun
    have hline : '\n' ∉ gap ++ o.text ++ kept := List.not_mem_append hfront hkept
    rw [List.append_assoc, stripBlocks_opening gap ho]
    rcases hcases with hstrip | ⟨hcs, hstrip⟩
    · refine ⟨gap ++ o.text ++ kept, .inr ⟨gap, o, kept, ho, rfl⟩, .inl ?_⟩
      rw [hstrip, ← List.append_assoc, Text.lines_append_line, Text.lines_of_not_mem hline,
        List.singleton_append]
    · obtain ⟨first, below, hbelow⟩ := Text.exists_lines_eq_cons (stripBlocks true cs)
      refine ⟨gap ++ o.text ++ (kept ++ first), .inr ⟨gap, o, _, ho, rfl⟩, .inr ⟨hcs, ?_⟩⟩
      rw [hstrip, ← List.append_assoc, Text.lines_append_of_not_mem hline hbelow, hbelow,
        List.append_assoc, List.tail_cons]

/-- A text whose lines open has such lines without its block comments, from outside of one, and
behind the line on which it ends from inside. -/
theorem opens_stripBlocks (h : ∀ l ∈ lines cs, Opens l) :
    (∀ l ∈ lines (stripBlocks false cs), Opens l) ∧
      (closes cs → ∀ l ∈ (lines (stripBlocks true cs)).tail, Opens l) := by
  -- by length, as the text below a line is no tail that the induction on lists gives
  induction hn : cs.length using Nat.strong_induction_on generalizing cs with
  | h n ih =>
    rcases Text.eq_or_exists_line cs with hone | ⟨u, below, hu, rfl⟩
    · have hsame : ∀ inside, lines (stripBlocks inside cs) = [stripBlocks inside cs] := by
        intro inside
        apply Text.lines_of_not_mem
        exact fun hbreak => hone ((stripBlocks_sublist _ _).subset hbreak)
      rw [Text.lines_of_not_mem hone, List.forall_mem_singleton] at h
      rw [hsame, hsame, List.forall_mem_singleton]
      exact ⟨opens_stripBlocks_line h, fun _ l hl => absurd hl List.not_mem_nil⟩
    · rw [Text.lines_append_line, Text.lines_of_not_mem hu, List.singleton_append,
        List.forall_mem_cons] at h
      obtain ⟨hline, hbelow⟩ := h
      obtain ⟨houtside, hinside⟩ := ih below.length (by simp [← hn]; omega) hbelow rfl
      constructor
      · obtain ⟨first, hfirst, hlines | ⟨hcs, hlines⟩⟩ := exists_lines_stripBlocks hline hu below
        · rw [hlines]
          exact List.forall_mem_cons.mpr ⟨hfirst, houtside⟩
        · rw [hlines]
          exact List.forall_mem_cons.mpr ⟨hfirst, hinside hcs⟩
      · intro hcloses
        obtain ⟨kept, hkept, hstrip | ⟨hcs, hstrip⟩⟩ :=
          stripBlocks_line_cases true below hu fun _ => hcloses
        · rw [hstrip, Text.lines_append_line, Text.lines_of_not_mem hkept]
          exact houtside
        · obtain ⟨first, rest, hrest⟩ := Text.exists_lines_eq_cons (stripBlocks true below)
          have htail := hinside hcs
          rw [hstrip, Text.lines_append_of_not_mem hkept hrest]
          rwa [hrest] at htail

end Stripping

section Recognised

theorem not_idle_of_passes (h : Passes line) : ¬ Idle line := fun hidle => by
  unfold Passes at h
  rw [trim_stripLine_eq_nil_iff.mpr hidle] at h
  nomatch h

theorem Opens.passes (h : Opens line) (hblank : ¬ Blank line) : Passes line := by
  obtain ⟨gap, o, rest, ho, hline⟩ := h.resolve_left hblank
  exact passes_iff.mpr ⟨gap, o, rest, hline, ho.comment⟩

theorem Blank.idle (h : Blank line) : Idle line :=
  .inl (List.dropWhile_eq_nil_iff.mpr h)

/-- Lines that open all pass, as long as they are not all blank. -/
theorem allPass_of_opens {ls : List (List Char)} (h : ∀ l ∈ ls, Opens l)
    (hsome : ∃ l ∈ ls, ¬ Blank l) : AllPass ls := by
  obtain ⟨l, hl, hblank⟩ := hsome
  refine ⟨⟨l, hl, not_idle_of_passes ((h l hl).passes hblank)⟩, fun l hl hidle => ?_⟩
  exact (h l hl).passes fun hblank => hidle hblank.idle

theorem newline_not_mem_quoted {q : Char} {cs : List Char} (h : Quoted q cs) : '\n' ∉ cs := by
  induction h with
  | nil => exact List.not_mem_nil
  | plain hquote hvisible hline hrest ih =>
    exact List.not_mem_cons_of_ne_of_not_mem hline.symm ih
  | hidden hline hrest ih => simp [hline.symm, ih]

theorem newline_not_mem_closing {q : Char} (c : Closing q) (hq : q ≠ '\n') : '\n' ∉ c.text := by
  have hmodule := newline_not_mem_quoted c.quoted
  have hline := c.line
  unfold Closing.text Closing.semicolonText
  cases hsemicolon : c.semicolon with
  | none => simp [hmodule, hq.symm]
  | some gap => simp [hmodule, hq.symm, hline gap hsemicolon]

theorem Opening.quote_ne_newline (o : Opening) : o.quote ≠ '\n' := by
  unfold Opening.quote
  rcases o.listing.quotes with h | h <;> rw [h] <;> decide

theorem blank_of_mem_lines {gap : Gap} (h : line ∈ lines gap.val) : Blank line := fun c hc =>
  gap.property c (Text.subset_of_mem_split h hc)

theorem opens_written (lead : Gap) (h : ∀ p ∈ items, p.1.opening.Intact) :
    ∀ l ∈ lines (written lead items), Opens l := by
  induction items generalizing lead with
  | nil => exact fun l hl => .inl (blank_of_mem_lines hl)
  | cons item items ih =>
    obtain ⟨s, gap⟩ := item
    obtain ⟨hs, hitems⟩ := List.forall_mem_cons.mp h
    have htext : '\n' ∉ s.text := List.not_mem_append hs.line
      (newline_not_mem_closing s.closing s.opening.quote_ne_newline)
    obtain ⟨first, below, hbelow⟩ := Text.exists_lines_eq_cons (written gap items)
    have hafter : ∀ l ∈ lines (written gap items), Opens l := ih gap hitems
    rw [hbelow] at hafter
    obtain ⟨above, last, hlead, hlines⟩ :=
      Text.exists_lines_append lead.val (Text.lines_append_of_not_mem htext hbelow)
    have hblank : ∀ l ∈ above ++ [last], Blank l := by
      rw [← hlead]
      exact fun l hl => blank_of_mem_lines hl
    obtain ⟨habove, hlast⟩ := List.forall_mem_append.mp hblank
    rw [written, List.append_assoc, hlines]
    refine List.forall_mem_append.mpr ⟨fun l hl => .inl (habove l hl), ?_⟩
    refine List.forall_mem_cons.mpr ⟨.inr ⟨⟨last, hlast last List.mem_cons_self⟩, s.opening,
      s.closing.text ++ first, hs, ?_⟩, (List.forall_mem_cons.mp hafter).2⟩
    simp [Statement.text]

theorem exists_not_blank_line {gap : Gap} {o : Opening} {rest : List Char}
    (h : cs = gap ++ o.text ++ rest) : ∃ l ∈ lines cs, ¬ Blank l := by
  have he : 'e' ∈ cs := by
    rw [h]
    exact List.mem_append_left _ (List.mem_append_right _ (List.mem_of_mem_head? o.head?_text))
  obtain ⟨l, hl, hel⟩ := Text.exists_mem_lines he (by decide)
  exact ⟨l, hl, fun hblank => not_isBlank_e (hblank 'e' hel)⟩

/-- Statements are recognised that have their openings on one line, whatever their modules are
called. -/
theorem isBarrel_written (hne : items ≠ []) (h : ∀ p ∈ items, p.1.opening.Intact) :
    isBarrel (String.ofList (written lead items)) := by
  obtain ⟨⟨s, gap⟩, others, rfl⟩ := List.exists_cons_of_ne_nil hne
  have hfirst : stripBlocks false (written lead ((s, gap) :: others)) =
      lead ++ s.opening.text ++ stripBlocks false (s.closing.text ++ written gap others) := by
    rw [← stripBlocks_opening lead (List.forall_mem_cons.mp h).1, written, Statement.text]
    simp only [List.append_assoc]
  have hopens := (opens_stripBlocks (opens_written lead h)).1
  rw [isBarrel_iff, String.toList_ofList]
  exact allPass_of_opens hopens (exists_not_blank_line hfirst)

/-- Blanks with a line feed in them can be cut there. -/
theorem exists_written_line {gap : Gap} (h : '\n' ∈ gap.val) :
    ∃ front below : Gap, ∀ items, written gap items = front ++ '\n' :: written below items := by
  obtain ⟨front, below, hgap⟩ := List.append_of_mem h
  have hfront : ∀ c ∈ front, isBlank c := fun c hc =>
    gap.property c (hgap ▸ List.mem_append_left _ hc)
  have hbelow : ∀ c ∈ below, isBlank c := fun c hc =>
    gap.property c (hgap ▸ List.mem_append_right _ (List.mem_cons_of_mem _ hc))
  refine ⟨⟨front, hfront⟩, ⟨below, hbelow⟩, fun items => ?_⟩
  cases items with
  | nil => exact hgap
  | cons item items => simp [written, hgap]

theorem Opening.exists_lines (o : Opening) (rest : List Char) :
    ∃ tail below, lines (o.text ++ rest) = ('e' :: tail) :: below := by
  obtain ⟨tail, below, h⟩ := Text.exists_lines_eq_cons (o.text.tail ++ rest)
  exact ⟨tail, below, Text.lines_cons (by decide) h⟩

/-- A statement that starts a line has its opening on that line, before any comment, if the line
passes. -/
theorem opening_of_passes (o : Opening) (rest : List Char)
    (h : ∀ l ∈ lines (lead ++ (o.text ++ rest)), ¬ Idle l → Passes l) :
    '\n' ∉ o.text ∧ ¬ ['/', '/'] <:+: o.text := by
  obtain ⟨tail, below, hbelow⟩ := o.exists_lines rest
  obtain ⟨above, last, hlead, hlines⟩ := Text.exists_lines_append lead.val hbelow
  have hlast : Blank last :=
    blank_of_mem_lines (hlead ▸ List.mem_append_right _ List.mem_cons_self)
  have hblanks : blanks (last ++ 'e' :: tail) = 'e' :: tail :=
    Text.dropWhile_append_of_head hlast fun c hc => Option.mem_some.mp hc ▸ not_isBlank_e
  have hidle : ¬ Idle (last ++ 'e' :: tail) := by
    unfold Idle
    rw [← blanks, hblanks]
    simp
  have hmem : last ++ 'e' :: tail ∈ lines (lead ++ (o.text ++ rest)) :=
    hlines ▸ List.mem_append_right _ List.mem_cons_self
  obtain ⟨gap, o', rest', hline, hmark⟩ := passes_iff.mp (h _ hmem hidle)
  have hopening : 'e' :: tail = o'.text ++ rest' := by
    rw [← hblanks, hline, blanks_append_opening]
  obtain ⟨below', hprefix⟩ := Text.prefix_of_lines_eq_cons hbelow
  rw [hopening, List.append_assoc] at hprefix
  have hsame : o.text = o'.text := (Opening.text_eq_of_append_eq hprefix.symm).1
  have hbreak : '\n' ∉ 'e' :: tail := Text.not_mem_of_mem_split (hbelow ▸ List.mem_cons_self)
  rw [hsame]
  exact ⟨fun hmem => hbreak (hopening ▸ List.mem_append_left _ hmem), hmark⟩

/-- Where each statement starts on a line of its own, all lines that are not idle pass only if no
opening is broken. -/
theorem intact_of_passes (hlines : ∀ p ∈ items.dropLast, '\n' ∈ p.2.val)
    (hblock : ¬ ['/', '*'] <:+: written lead items)
    (h : ∀ l ∈ lines (written lead items), ¬ Idle l → Passes l) :
    ∀ p ∈ items, p.1.opening.Intact := by
  induction items generalizing lead with
  | nil => exact fun p hp => absurd hp List.not_mem_nil
  | cons item items ih =>
    obtain ⟨s, gap⟩ := item
    have hwritten : written lead ((s, gap) :: items) =
        lead ++ (s.opening.text ++ (s.closing.text ++ written gap items)) := by
      rw [written, Statement.text]
      simp only [List.append_assoc]
    refine List.forall_mem_cons.mpr ⟨?_, ?_⟩
    · obtain ⟨hline, hcomment⟩ := opening_of_passes s.opening _ (hwritten ▸ h)
      refine ⟨hline, hcomment, fun hmark => hblock (hmark.trans ?_)⟩
      rw [hwritten, ← List.append_assoc]
      exact ⟨lead, _, rfl⟩
    · cases items with
      | nil => exact fun p hp => absurd hp List.not_mem_nil
      | cons next items =>
        rw [List.dropLast_cons_cons, List.forall_mem_cons] at hlines
        obtain ⟨front, below, hbelow⟩ := exists_written_line hlines.1
        have hcut : written lead ((s, gap) :: next :: items) =
            lead ++ s.text ++ front ++ '\n' :: written below (next :: items) := by
          rw [written, hbelow, ← List.append_assoc]
        rw [hcut] at hblock h
        rw [Text.lines_append_line] at h
        have hbehind : written below (next :: items) <:+:
            lead ++ s.text ++ front ++ '\n' :: written below (next :: items) :=
          ((List.suffix_cons '\n' _).trans (List.suffix_append _ _)).isInfix
        exact ih hlines.2 (fun hmark => hblock (hmark.trans hbehind))
          fun l hl => h l (List.mem_append_right _ hl)

/-- Statements with blanks around them are a barrel if the opening of each stands on one line and
has no comment mark in it. Where each statement starts on a line of its own and the text has no
block comment, they are one only then. -/
theorem recognised_iff_intact (lead : Gap) (hne : items ≠ []) :
    ((∀ p ∈ items, p.1.opening.Intact) → isBarrel (String.ofList (written lead items))) ∧
    ((∀ p ∈ items.dropLast, '\n' ∈ p.2.val) → ¬ ['/', '*'] <:+: written lead items →
      (isBarrel (String.ofList (written lead items)) ↔ ∀ p ∈ items, p.1.opening.Intact)) := by
  refine ⟨isBarrel_written hne, fun hlines hblock => ⟨fun hbarrel => ?_, isBarrel_written hne⟩⟩
  rw [isBarrel_iff_of_not_mark (by rwa [String.toList_ofList]), String.toList_ofList] at hbarrel
  exact intact_of_passes hlines hblock hbarrel.2

end Recognised

section Named

/-- Line breaks stand between braces only. -/
def Opening.BreaksInBraces (o : Opening) : Prop :=
  '\n' ∉ o.typesText ++ o.listing.gap ++ o.listing.before ++ o.listing.behind

def nothing : Gap :=
  ⟨[], nofun⟩

def space : Gap :=
  ⟨[' '], by simp; decide⟩

def newline : Gap :=
  ⟨['\n'], by simp; decide⟩

/-- A statement that passes on what is named. -/
def reexport (names : List Char) (inner : '}' ∉ names) : Statement where
  opening :=
    { types := none
      apart := nofun
      listing :=
        { gap := space
          listed := .names names inner
          before := space
          behind := space
          apart := List.cons_ne_nil _ _
          quote := '\''
          quotes := .inl rfl } }
  closing :=
    { module := ['.', '/', 'a']
      quoted := show Quoted '\'' _ from quoted_of_plain (by simp)
      semicolon := some nothing
      line := by simp [nothing] }

theorem gathered_names_recognised :
    let s := reexport " Button, type Props ".toList (by decide)
    let items := [(s, newline), (s, nothing)]
    items ≠ [] ∧ (∀ p ∈ items.dropLast, '\n' ∈ p.2.val) ∧
    ¬ ['/', '*'] <:+: written newline items ∧ (∀ p ∈ items, p.1.opening.Intact) ∧
    isBarrel (String.ofList (written newline items)) := by
  intro s items
  have hne : items ≠ [] := List.cons_ne_nil _ _
  have hintact : s.opening.Intact := ⟨by decide +kernel, by decide +kernel, by decide +kernel⟩
  have hitems : ∀ p ∈ items, p.1.opening.Intact := by simp [items, hintact]
  have hlines : ∀ p ∈ items.dropLast, '\n' ∈ p.2.val := by simp [items, newline]
  have hblock : ¬ ['/', '*'] <:+: written newline items := by decide +kernel
  obtain ⟨-, hiff⟩ := recognised_iff_intact newline hne
  exact ⟨hne, hlines, hblock, hitems, (hiff hlines hblock).mpr hitems⟩

/-- Names on lines of their own, as formatters lay out a long list of them. -/
theorem spread_names_unrecognised :
    ¬ ∀ (lead : Gap) (items : List (Statement × Gap)), items ≠ [] →
      (∀ p ∈ items.dropLast, '\n' ∈ p.2.val) →
      (∀ p ∈ items, p.1.opening.BreaksInBraces ∧ ¬ ['/', '/'] <:+: p.1.opening.text ∧
        ¬ ['/', '*'] <:+: p.1.opening.text) →
      isBarrel (String.ofList (written lead items)) := by
  intro hall
  let s := reexport "\n  Button,\n  Props,\n".toList (by decide)
  have hbraces : s.opening.BreaksInBraces := by
    unfold Opening.BreaksInBraces
    decide +kernel
  have hbarrel := hall nothing [(s, nothing)] (List.cons_ne_nil _ _) (by simp) (by
    rw [List.forall_mem_singleton]
    exact ⟨hbraces, by decide +kernel, by decide +kernel⟩)
  exact absurd hbarrel (by decide +kernel)

end Named

end SignatureContext.Barrel
