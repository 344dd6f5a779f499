import SignatureContext.Proofs.Barrel.Lines

/-! How a re-export starts: the grammar of its opening, up to the quote before the name of the
module, and that lines are tested for exactly this. -/
namespace SignatureContext.Barrel

open Text (isBlank trim)

/-- Blanks, maybe none. -/
abbrev Gap :=
  {cs : List Char // ∀ c ∈ cs, isBlank c}

/-- What is passed on: everything, or what is named in braces. -/
inductive Listed
  | everything
  | names (text : List Char) (inner : '}' ∉ text)

def Listed.text : Listed → List Char
  | everything => ['*']
  | names text _ => '{' :: text ++ ['}']

/-- What follows `export`, or `type` behind it: what is passed on, `from`, and a quote. -/
structure Listing where
  gap : Gap
  listed : Listed
  before : Gap
  behind : Gap
  apart : behind.val ≠ []
  quote : Char
  quotes : quote = '\'' ∨ quote = '"'

def Listing.text (l : Listing) : List Char :=
  l.gap ++ l.listed.text ++ l.before ++ "from".toList ++ l.behind ++ [l.quote]

/-- The opening of a re-export, with the gap between `export` and `type` if only types are passed
on. -/
structure Opening where
  types : Option Gap
  apart : ∀ gap ∈ types, gap.val ≠ []
  listing : Listing

def Opening.typesText (o : Opening) : List Char :=
  o.types.elim [] fun gap => gap ++ "type".toList

def Opening.text (o : Opening) : List Char :=
  "export".toList ++ o.typesText ++ o.listing.text

def Opening.quote (o : Opening) : Char :=
  o.listing.quote

variable {cs rest rest' word : List Char}

section Reading

theorem word?_eq_some_iff : word? word cs = some rest ↔ cs = word ++ rest := by
  induction word generalizing cs with
  | nil => simp [word?, eq_comm]
  | cons w ws ih =>
    cases cs with
    | nil => simp [word?]
    | cons c cs =>
      rw [word?]
      split_ifs with hc
      · rw [ih, hc, List.cons_append, List.cons.injEq]
        exact (and_iff_right rfl).symm
      · rw [List.cons_append, List.cons.injEq]
        exact ⟨nofun, fun h => absurd h.1.symm hc⟩

theorem blanks_append (gap : Gap) (h : ∀ c ∈ rest.head?, ¬ isBlank c) :
    blanks (gap ++ rest) = rest :=
  Text.dropWhile_append_of_head gap.property h

theorem exists_blanks (cs : List Char) : ∃ gap : Gap, cs = gap ++ blanks cs :=
  ⟨⟨cs.takeWhile isBlank, fun _ => List.mem_takeWhile_imp⟩, (List.takeWhile_append_dropWhile).symm⟩

theorem blanks?_append (gap : Gap) (hgap : gap.val ≠ []) (h : ∀ c ∈ rest.head?, ¬ isBlank c) :
    blanks? (gap ++ rest) = some rest := by
  obtain ⟨cs, hblank⟩ := gap
  cases cs with
  | nil => exact absurd rfl hgap
  | cons c cs =>
    obtain ⟨hc, hcs⟩ := List.forall_mem_cons.mp hblank
    exact (if_pos hc).trans (congrArg some (blanks_append ⟨cs, hcs⟩ h))

theorem exists_of_blanks? (h : blanks? cs = some rest) :
    ∃ gap : Gap, gap.val ≠ [] ∧ cs = gap ++ rest := by
  cases cs with
  | nil => nomatch h
  | cons c cs =>
    rw [blanks?] at h
    split_ifs at h with hc
    obtain ⟨gap, hgap⟩ := exists_blanks cs
    refine ⟨⟨c :: gap, List.forall_mem_cons.mpr ⟨hc, gap.property⟩⟩, List.cons_ne_nil _ _, ?_⟩
    rw [← Option.some.inj h, List.cons_append, ← hgap]

theorem exported?_append (l : Listed) (rest : List Char) :
    exported? (l.text ++ rest) = some rest := by
  cases l with
  | everything => rfl
  | names text inner =>
    have hdrop : (text ++ '}' :: rest).dropWhile (· != '}') = '}' :: rest := by
      apply Text.dropWhile_append_of_head
      · intro c hc
        simpa using ne_of_mem_of_not_mem hc inner
      · simp
    simp [Listed.text, exported?, hdrop]

theorem exists_of_exported? (h : exported? cs = some rest) : ∃ l : Listed, cs = l.text ++ rest := by
  unfold exported? at h
  split at h
  · exact ⟨.everything, congrArg _ (Option.some.inj h)⟩
  · next cs =>
    split at h
    · nomatch h
    · next c after hdrop =>
      obtain rfl : c = '}' := by
        have hhead := List.head?_dropWhile_not (· != '}') cs
        rw [hdrop] at hhead
        simpa using hhead
      have hsplit : cs.takeWhile (· != '}') ++ '}' :: rest = cs := by
        rw [← Option.some.inj h, ← hdrop, List.takeWhile_append_dropWhile]
      have hinner : '}' ∉ cs.takeWhile (· != '}') := fun hmem => by
        simpa using List.mem_takeWhile_imp hmem
      refine ⟨.names _ hinner, ?_⟩
      rw [Listed.text, List.cons_append, List.cons_append, List.append_assoc, List.singleton_append,
        hsplit]
  · nomatch h

theorem head?_listed (l : Listed) (rest : List Char) :
    ∀ c ∈ (l.text ++ rest).head?, ¬ isBlank c := by
  cases l <;> simp [Listed.text] <;> decide

/-- What stands behind the quote, if the text starts with a listing. -/
def behindListing? (cs : List Char) : Option (List Char) := do
  let cs ← exported? (blanks cs)
  let cs ← word? "from".toList (blanks cs)
  let cs ← blanks? cs
  (quote? cs).map fun _ => cs.tail

theorem passesOn_eq (cs : List Char) : passesOn cs = (behindListing? cs).isSome := by
  unfold passesOn behindListing?
  simp [Option.isSome_bind]

theorem Listing.quote_not_blank (l : Listing) : ¬ isBlank l.quote := by
  rcases l.quotes with h | h <;> rw [h] <;> decide

theorem behindListing?_append (l : Listing) (rest : List Char) :
    behindListing? (l.text ++ rest) = some rest := by
  have hfrom : ∀ c ∈ ("from".toList ++ (l.behind ++ l.quote :: rest)).head?, ¬ isBlank c :=
    fun c hc => Option.mem_some.mp hc ▸ (by decide : ¬ isBlank 'f')
  have hquote : ∀ c ∈ (l.quote :: rest).head?, ¬ isBlank c :=
    fun c hc => Option.mem_some.mp hc ▸ l.quote_not_blank
  unfold behindListing? Listing.text
  simp only [List.append_assoc, List.singleton_append, Option.bind_eq_bind]
  rw [blanks_append l.gap (head?_listed l.listed _), exported?_append, Option.bind_some,
    blanks_append l.before hfrom, word?_eq_some_iff.mpr rfl, Option.bind_some,
    blanks?_append l.behind l.apart hquote, Option.bind_some, quote?, if_pos l.quotes]
  rfl

theorem exists_of_behindListing? (h : behindListing? cs = some rest) :
    ∃ l : Listing, cs = l.text ++ rest := by
  obtain ⟨gap, hgap⟩ := exists_blanks cs
  simp only [behindListing?, Option.bind_eq_bind, Option.bind_eq_some_iff, Option.map_eq_some_iff]
    at h
  obtain ⟨cs₁, hlisted, cs₂, hfrom, cs₃, hbehind, _, hquote, rfl⟩ := h
  obtain ⟨listed, hlisted⟩ := exists_of_exported? hlisted
  obtain ⟨before, hbefore⟩ := exists_blanks cs₁
  obtain ⟨behind, apart, hbehind⟩ := exists_of_blanks? hbehind
  cases cs₃ with
  | nil => nomatch hquote
  | cons q cs₃ =>
    rw [quote?] at hquote
    split_ifs at hquote with hq
    refine ⟨⟨gap, listed, before, behind, apart, q, hq⟩, ?_⟩
    rw [hgap, hlisted, hbefore, word?_eq_some_iff.mp hfrom, hbehind]
    unfold Listing.text
    simp only [List.append_assoc, List.singleton_append, List.tail_cons]

/-- What stands behind the quote, if the text starts with an opening. -/
def behindOpening? (cs : List Char) : Option (List Char) :=
  (word? "export".toList cs).bind fun cs =>
    (behindListing? cs).or (((blanks? cs).bind (word? "type".toList)).bind behindListing?)

theorem isReexport_eq (cs : List Char) : isReexport cs = (behindOpening? cs).isSome := by
  unfold isReexport behindOpening?
  cases word? "export".toList cs with
  | none => rfl
  | some cs =>
    dsimp only [Option.bind_some]
    rw [Option.isSome_or, passesOn_eq]
    cases (blanks? cs).bind (word? "type".toList) with
    | none => rfl
    | some cs => simp only [passesOn_eq, Option.bind_some]

theorem behindOpening?_append (o : Opening) (rest : List Char) :
    behindOpening? (o.text ++ rest) = some rest := by
  unfold behindOpening? Opening.text Opening.typesText
  rw [List.append_assoc, List.append_assoc, word?_eq_some_iff.mpr rfl, Option.bind_some]
  cases htypes : o.types with
  | none =>
    rw [Option.elim_none, List.nil_append, behindListing?_append, Option.some_or]
  | some gap =>
    have htype : ∀ c ∈ ("type".toList ++ (o.listing.text ++ rest)).head?, ¬ isBlank c :=
      fun c hc => Option.mem_some.mp hc ▸ (by decide : ¬ isBlank 't')
    have hnone : behindListing? (gap ++ ("type".toList ++ (o.listing.text ++ rest))) = none := by
      rw [behindListing?, blanks_append gap htype]
      rfl
    rw [Option.elim_some, List.append_assoc, hnone, Option.none_or,
      blanks?_append gap (o.apart gap htypes) htype, Option.bind_some, word?_eq_some_iff.mpr rfl,
      Option.bind_some, behindListing?_append]

theorem exists_of_behindOpening? (h : behindOpening? cs = some rest) :
    ∃ o : Opening, cs = o.text ++ rest := by
  simp only [behindOpening?, Option.bind_eq_some_iff, Option.or_eq_some_iff] at h
  obtain ⟨cs₁, hexport, hvalues | ⟨-, cs₃, ⟨cs₂, hgap, htype⟩, htypes⟩⟩ := h
  · obtain ⟨l, rfl⟩ := exists_of_behindListing? hvalues
    refine ⟨⟨none, nofun, l⟩, ?_⟩
    unfold Opening.text Opening.typesText
    rw [word?_eq_some_iff.mp hexport, Option.elim_none, List.append_nil, List.append_assoc]
  · obtain ⟨l, rfl⟩ := exists_of_behindListing? htypes
    obtain ⟨gap, apart, rfl⟩ := exists_of_blanks? hgap
    have hgaps : ∀ g ∈ some gap, g.val ≠ [] := fun g hg => Option.mem_some.mp hg ▸ apart
    refine ⟨⟨some gap, hgaps, l⟩, ?_⟩
    unfold Opening.text Opening.typesText
    rw [word?_eq_some_iff.mp hexport, word?_eq_some_iff.mp htype, Option.elim_some]
    simp only [List.append_assoc]

end Reading

/-- The test looks for an opening, and at nothing behind it. -/
theorem isReexport_iff : isReexport cs ↔ ∃ o : Opening, o.text <+: cs := by
  rw [isReexport_eq, Option.isSome_iff_exists]
  constructor
  · rintro ⟨rest, hrest⟩
    obtain ⟨o, rfl⟩ := exists_of_behindOpening? hrest
    exact ⟨o, List.prefix_append _ _⟩
  · rintro ⟨o, rest, rfl⟩
    exact ⟨rest, behindOpening?_append o rest⟩

/-- A text has one opening at most. -/
theorem Opening.text_eq_of_append_eq {o o' : Opening} (h : o.text ++ rest = o'.text ++ rest') :
    o.text = o'.text ∧ rest = rest' := by
  have hrest : rest = rest' := by
    apply Option.some.inj
    rw [← behindOpening?_append o, h, behindOpening?_append]
  rw [hrest] at h
  exact ⟨List.append_cancel_right h, hrest⟩

section Lines
variable {line : List Char}

theorem Opening.head?_text (o : Opening) : o.text.head? = some 'e' :=
  rfl

theorem Opening.getLast?_text (o : Opening) : o.text.getLast? = some o.quote := by
  unfold Opening.text Listing.text
  rw [← List.append_assoc, List.getLast?_concat]
  rfl

theorem Opening.quote_not_blank (o : Opening) : ¬ isBlank o.quote :=
  o.listing.quote_not_blank

theorem Opening.quote_ne_slash (o : Opening) : o.quote ≠ '/' := by
  unfold Opening.quote
  rcases o.listing.quotes with h | h <;> rw [h] <;> decide

theorem not_isBlank_e : ¬ isBlank 'e' := by decide

theorem blanks_append_opening (gap : Gap) (o : Opening) (rest : List Char) :
    blanks (gap ++ o.text ++ rest) = o.text ++ rest := by
  rw [List.append_assoc]
  exact blanks_append gap fun c hc => Option.mem_some.mp hc ▸ not_isBlank_e

theorem slash_not_mem_gap (gap : Gap) : '/' ∉ gap.val := fun h =>
  absurd (gap.property '/' h) (by decide)

/-- A line passes if it starts with an opening, behind blanks and before any comment. -/
theorem passes_iff : Passes line ↔ ∃ (gap : Gap) (o : Opening) (rest : List Char),
    line = gap ++ o.text ++ rest ∧ ¬ ['/', '/'] <:+: o.text := by
  unfold Passes
  rw [isReexport_iff]
  constructor
  · rintro ⟨o, rest, hrest⟩
    obtain ⟨front, back, hfront, -, htrim⟩ := Text.exists_trimBy isBlank (stripLine line)
    obtain ⟨comment, hcomment⟩ := stripLine_prefix_self line
    have hline : stripLine line = front ++ o.text ++ (rest ++ back) := by
      rw [htrim, ← trim, ← hrest]
      simp only [List.append_assoc]
    refine ⟨⟨front, hfront⟩, o, rest ++ back ++ comment, ?_, fun hmark => ?_⟩
    · rw [← hcomment, hline, List.append_assoc]
    · refine not_mark_stripLine line (hmark.trans ?_)
      exact hline ▸ ⟨front, rest ++ back, rfl⟩
  · rintro ⟨gap, o, rest, rfl, hmark⟩
    have hgap : ¬ ['/', '/'] <:+: gap.val := fun h =>
      slash_not_mem_gap gap (h.subset List.mem_cons_self)
    have hstrip : stripLine (gap ++ o.text ++ rest) = gap ++ o.text ++ stripLine rest := by
      rw [List.append_assoc, stripLine_append hgap, stripLine_append hmark, ← List.append_assoc]
      · rw [o.getLast?_text]
        exact fun h => absurd (Option.some.inj h) o.quote_ne_slash
      · exact fun h => absurd (List.mem_of_getLast? h) (slash_not_mem_gap gap)
    refine ⟨o, ?_⟩
    rw [hstrip]
    refine Text.prefix_trimBy gap.property ?_ ?_ ?_ _
    · rw [o.head?_text]
      exact fun c hc => Option.mem_some.mp hc ▸ not_isBlank_e
    · rw [o.getLast?_text]
      exact fun c hc => Option.mem_some.mp hc ▸ o.quote_not_blank
    · exact fun h => nomatch h

end Lines

end SignatureContext.Barrel
