import Mathlib.Data.List.Basic
import Mathlib.Tactic.SplitIfs
import SignatureContext.Barrel
import SignatureContext.Proofs.Text.Blank
import SignatureContext.Proofs.Text.Lines

/-! The verdict on a text without block comments is one on its lines, each of which is read by
itself. -/
namespace SignatureContext.Barrel

open Text (isBlank lines trim)

variable {cs u v line first : List Char} {c : Char} {ls ls' rest : List (List Char)} {text : String}

/-- The line up to its first `//`. -/
def stripLine : List Char → List Char
  | [] => []
  | '/' :: '/' :: _ => []
  | c :: cs => c :: stripLine cs

section Marks
variable {a b : Char}

theorem head?_ne_of_not_mark (h : ¬ [a, b] <:+: c :: cs) (hc : c = a) : cs.head? ≠ some b := by
  intro hb
  obtain ⟨rest, rfl⟩ := List.head?_eq_some_iff.mp hb
  exact h (hc ▸ (List.prefix_append [c, b] rest).isInfix)

/-- What takes a text up to the next mark, character by character, leaves a front as it is that has
no mark and takes no part in one. -/
theorem strip_append {strip : List Char → List Char}
    (hstrip : ∀ c cs, (c = a → cs.head? ≠ some b) → strip (c :: cs) = c :: strip cs)
    (hmark : ¬ [a, b] <:+: u) (hlast : u.getLast? = some a → v.head? ≠ some b) :
    strip (u ++ v) = u ++ strip v := by
  induction u with
  | nil => rfl
  | cons c u ih =>
    have hmark' : ¬ [a, b] <:+: u := fun h => hmark (h.trans (List.suffix_cons c u).isInfix)
    cases u with
    | nil => exact hstrip c v fun hc => hlast (congrArg some hc)
    | cons d u =>
      have hnext : c = a → (d :: u).head? ≠ some b := head?_ne_of_not_mark hmark
      rw [List.getLast?_cons_cons] at hlast
      rw [List.cons_append, hstrip c (d :: u ++ v) hnext, ih hmark' hlast]
      rfl

theorem stripLine_cons (c : Char) (cs : List Char) (h : c = '/' → cs.head? ≠ some '/') :
    stripLine (c :: cs) = c :: stripLine cs := by
  rw [stripLine]
  rintro tail rfl rfl
  exact h rfl rfl

/-- What reads a text from inside or outside of a block comment, and takes the mark of the other
side for plain characters, takes every character for one with which no mark of its side starts. -/
theorem read_cons {β : Type} {f : Bool → List Char → β} {g : Bool → Char → List Char → β}
    (hend : ∀ cs, f false ('*' :: '/' :: cs) = g false '*' ('/' :: cs))
    (hstart : ∀ cs, f true ('/' :: '*' :: cs) = g true '/' ('*' :: cs))
    (hplain : ∀ inside c cs, (∀ rest, c = '*' → cs = '/' :: rest → False) →
      (∀ rest, c = '/' → cs = '*' :: rest → False) → f inside (c :: cs) = g inside c cs)
    (inside : Bool) (c : Char) (cs : List Char)
    (h : if inside then c = '*' → cs.head? ≠ some '/' else c = '/' → cs.head? ≠ some '*') :
    f inside (c :: cs) = g inside c cs := by
  by_cases hstar : ∃ rest, c = '*' ∧ cs = '/' :: rest
  · obtain ⟨rest, rfl, rfl⟩ := hstar
    cases inside with
    | false => exact hend rest
    | true => exact absurd rfl (h rfl)
  by_cases hslash : ∃ rest, c = '/' ∧ cs = '*' :: rest
  · obtain ⟨rest, rfl, rfl⟩ := hslash
    cases inside with
    | false => exact absurd rfl (h rfl)
    | true => exact hstart rest
  · exact hplain inside c cs (fun rest hc hcs => hstar ⟨rest, hc, hcs⟩)
      fun rest hc hcs => hslash ⟨rest, hc, hcs⟩

theorem stripBlocks_read (inside : Bool) (c : Char) (cs : List Char)
    (h : if inside then c = '*' → cs.head? ≠ some '/' else c = '/' → cs.head? ≠ some '*') :
    stripBlocks inside (c :: cs) =
      if inside then stripBlocks true cs else c :: stripBlocks false cs := by
  refine read_cons (g := fun inside c cs =>
    if inside then stripBlocks true cs else c :: stripBlocks false cs)
    (fun _ => rfl) (fun _ => rfl) (fun inside c cs hstar hslash => ?_) inside c cs h
  rw [stripBlocks]
  · exact hstar
  · exact hslash

theorem stripBlocks_cons (c : Char) (cs : List Char) (h : c = '/' → cs.head? ≠ some '*') :
    stripBlocks false (c :: cs) = c :: stripBlocks false cs :=
  stripBlocks_read false c cs h

theorem stripLine_append (hmark : ¬ ['/', '/'] <:+: u)
    (hlast : u.getLast? = some '/' → v.head? ≠ some '/') : stripLine (u ++ v) = u ++ stripLine v :=
  strip_append stripLine_cons hmark hlast

theorem stripBlocks_append (hmark : ¬ ['/', '*'] <:+: u)
    (hlast : u.getLast? = some '/' → v.head? ≠ some '*') :
    stripBlocks false (u ++ v) = u ++ stripBlocks false v :=
  strip_append stripBlocks_cons hmark hlast

theorem stripBlocks_of_not_mark (hmark : ¬ ['/', '*'] <:+: cs) : stripBlocks false cs = cs := by
  have h := stripBlocks_append (v := []) hmark (by simp)
  rwa [List.append_nil, stripBlocks, List.append_nil] at h

theorem stripLine_prefix_self (cs : List Char) : stripLine cs <+: cs := by
  fun_induction stripLine cs with
  | case1 => exact List.nil_prefix
  | case2 => exact List.nil_prefix
  | case3 c cs _ ih => exact List.cons_prefix_cons.mpr ⟨rfl, ih⟩

theorem not_mark_stripLine (cs : List Char) : ¬ ['/', '/'] <:+: stripLine cs := by
  fun_induction stripLine cs with
  | case1 => simp
  | case2 => simp
  | case3 c cs hc ih =>
    rw [List.infix_cons_iff]
    rintro (hfirst | hrest)
    · obtain ⟨rfl, hnext⟩ := List.cons_prefix_cons.mp hfirst
      obtain ⟨tail, htail⟩ := hnext.trans (stripLine_prefix_self cs)
      exact hc tail rfl htail.symm
    · exact ih hrest

end Marks

/-- Behind its first blanks, the line has nothing or a comment. -/
def Idle (line : List Char) : Prop :=
  line.dropWhile isBlank = [] ∨ ['/', '/'] <+: line.dropWhile isBlank

instance : DecidablePred Idle :=
  fun _ => inferInstanceAs (Decidable (_ ∨ _))

/-- What the line has besides a comment starts by exporting from a module. -/
def Passes (line : List Char) : Prop :=
  isReexport (trim (stripLine line))

theorem trim_stripLine_eq_nil_iff : trim (stripLine line) = [] ↔ Idle line := by
  unfold trim
  rw [Text.trimBy_eq_nil_iff]
  unfold Idle
  induction line with
  | nil => simp [stripLine]
  | cons c cs ih =>
    by_cases hblank : isBlank c
    · have hslash : c = '/' → cs.head? ≠ some '/' := by
        rintro rfl
        exact absurd hblank (by decide)
      rw [stripLine_cons c cs hslash, List.dropWhile_cons_of_pos hblank, List.forall_mem_cons]
      exact (and_iff_right hblank).trans ih
    · rw [List.dropWhile_cons_of_neg hblank]
      constructor
      · intro h
        refine .inr ?_
        by_contra hmark
        have hslash : c = '/' → cs.head? ≠ some '/' := by
          rintro rfl hnext
          obtain ⟨rest, rfl⟩ := List.head?_eq_some_iff.mp hnext
          exact hmark (List.prefix_append ['/', '/'] rest)
        rw [stripLine_cons c cs hslash] at h
        exact hblank (h c List.mem_cons_self)
      · rintro (hnil | ⟨rest, hrest⟩)
        · exact absurd hnil (List.cons_ne_nil c cs)
        · rw [← hrest]
          simp [stripLine]

/-- Some line is not idle, and all that are not pass on exports. -/
def AllPass (ls : List (List Char)) : Prop :=
  (∃ l ∈ ls, ¬ Idle l) ∧ ∀ l ∈ ls, ¬ Idle l → Passes l

/-- The line comments of a text are the ends of its lines. -/
theorem lines_stripLines_eq_cons (inside : Bool) (h : lines cs = first :: rest) :
    lines (stripLines inside cs) =
      (if inside then [] else stripLine first) :: rest.map stripLine := by
  fun_induction stripLines inside cs generalizing first rest with
  | case1 inside =>
    obtain ⟨rfl, rfl⟩ := List.cons.inj h
    simp [lines, Text.split, stripLine]
  | case2 inside cs ih =>
    obtain ⟨next, below, hcs⟩ := Text.exists_lines_eq_cons cs
    rw [Text.lines_break, hcs] at h
    obtain ⟨rfl, rfl⟩ := List.cons.inj h
    rw [Text.lines_break, ih hcs]
    simp [stripLine]
  | case3 inside cs ih =>
    obtain ⟨next, below, hcs⟩ := Text.exists_lines_eq_cons cs
    rw [Text.lines_cons (by decide) (Text.lines_cons (by decide) hcs)] at h
    obtain ⟨rfl, rfl⟩ := List.cons.inj h
    rw [ih hcs]
    simp [stripLine]
  | case4 c cs hbreak hmark ih =>
    obtain ⟨next, below, hcs⟩ := Text.exists_lines_eq_cons cs
    rw [Text.lines_cons hbreak hcs] at h
    obtain ⟨rfl, rfl⟩ := List.cons.inj h
    exact (ih hcs).trans rfl
  | case5 inside c cs hbreak hmark houtside ih =>
    obtain ⟨next, below, hcs⟩ := Text.exists_lines_eq_cons cs
    rw [Text.lines_cons hbreak hcs] at h
    obtain ⟨rfl, rfl⟩ := List.cons.inj h
    rw [if_neg houtside, Text.lines_cons hbreak (ih hcs), stripLine_cons c next ?_]
    · rfl
    -- the next character of the line is that of the text
    rintro hc hnext
    obtain ⟨tail, rfl⟩ := List.head?_eq_some_iff.mp hnext
    obtain ⟨back, hback⟩ := Text.prefix_of_lines_eq_cons hcs
    exact hmark (tail ++ back) hc hback.symm

theorem lines_stripLines (cs : List Char) :
    lines (stripLines false cs) = (lines cs).map stripLine := by
  obtain ⟨first, rest, hcs⟩ := Text.exists_lines_eq_cons cs
  rw [lines_stripLines_eq_cons false hcs, hcs]
  rfl

theorem isBarrel_iff : isBarrel text ↔ AllPass (lines (stripBlocks false text.toList)) := by
  unfold isBarrel statements AllPass Passes
  simp only [lines_stripLines, List.map_map, Function.comp_apply, ← trim_stripLine_eq_nil_iff,
    Bool.and_eq_true, Bool.not_eq_true', List.isEmpty_eq_false_iff_exists_mem, List.all_eq_true,
    List.mem_filter, decide_eq_true_eq, and_imp, List.forall_mem_map]
  refine and_congr_left fun _ => ?_
  simp

/-- The verdict on a text without block comments. -/
theorem isBarrel_iff_of_not_mark (hmark : ¬ ['/', '*'] <:+: text.toList) :
    isBarrel text ↔ AllPass (lines text.toList) := by
  rw [isBarrel_iff, stripBlocks_of_not_mark hmark]

theorem allPass_or_idle_iff :
    (AllPass ls ∨ ∀ l ∈ ls, Idle l) ↔ ∀ l ∈ ls, ¬ Idle l → Passes l := by
  constructor
  · rintro (⟨-, hpass⟩ | hidle)
    · exact hpass
    · exact fun l hl hl' => absurd (hidle l hl) hl'
  · intro hpass
    by_cases hidle : ∀ l ∈ ls, Idle l
    · exact .inr hidle
    · push Not at hidle
      exact .inl ⟨hidle, hpass⟩

theorem allPass_append : AllPass (ls ++ ls') ↔
    (AllPass ls ∨ ∀ l ∈ ls, Idle l) ∧ (AllPass ls' ∨ ∀ l ∈ ls', Idle l) ∧
      (AllPass ls ∨ AllPass ls') := by
  rw [allPass_or_idle_iff, allPass_or_idle_iff]
  constructor
  · rintro ⟨⟨l, hl, hidle⟩, hpass⟩
    obtain ⟨hfront, hback⟩ := List.forall_mem_append.mp hpass
    refine ⟨hfront, hback, ?_⟩
    rcases List.mem_append.mp hl with hl | hl
    · exact .inl ⟨⟨l, hl, hidle⟩, hfront⟩
    · exact .inr ⟨⟨l, hl, hidle⟩, hback⟩
  · rintro ⟨hfront, hback, hsome⟩
    refine ⟨?_, List.forall_mem_append.mpr ⟨hfront, hback⟩⟩
    rcases hsome with ⟨⟨l, hl, hidle⟩, -⟩ | ⟨⟨l, hl, hidle⟩, -⟩
    · exact ⟨l, List.mem_append_left _ hl, hidle⟩
    · exact ⟨l, List.mem_append_right _ hl, hidle⟩

/-- Neither the order of the lines matters, nor which idle ones are among them. -/
theorem allPass_congr
    (h : (ls.filter fun l => ¬ Idle l).Perm (ls'.filter fun l => ¬ Idle l)) :
    AllPass ls ↔ AllPass ls' := by
  have hmem : ∀ l, ¬ Idle l → (l ∈ ls ↔ l ∈ ls') := by
    intro l hl
    have := h.mem_iff (a := l)
    simpa [hl] using this
  unfold AllPass
  constructor
  · rintro ⟨⟨l, hl, hidle⟩, hall⟩
    exact ⟨⟨l, (hmem l hidle).mp hl, hidle⟩, fun l hl hidle => hall l ((hmem l hidle).mpr hl) hidle⟩
  · rintro ⟨⟨l, hl, hidle⟩, hall⟩
    exact ⟨⟨l, (hmem l hidle).mpr hl, hidle⟩, fun l hl hidle => hall l ((hmem l hidle).mp hl) hidle⟩

/-- A mark with no line feed in it does not run over the end of a line. -/
theorem not_mark_append_line {a b : Char} (ha : a ≠ '\n') (hb : b ≠ '\n')
    (hu : ¬ [a, b] <:+: u) (hv : ¬ [a, b] <:+: v) : ¬ [a, b] <:+: u ++ '\n' :: v := by
  induction u with
  | nil =>
    rw [List.nil_append, List.infix_cons_iff]
    rintro (hfirst | hrest)
    · exact ha (List.cons_prefix_cons.mp hfirst).1
    · exact hv hrest
  | cons c u ih =>
    rw [List.cons_append, List.infix_cons_iff]
    rintro (hfirst | hrest)
    · obtain ⟨rfl, hnext⟩ := List.cons_prefix_cons.mp hfirst
      cases u with
      | nil => exact hb (List.cons_prefix_cons.mp hnext).1
      | cons d u =>
        obtain ⟨rfl, -⟩ := List.cons_prefix_cons.mp hnext
        exact hu (List.prefix_append [a, b] u).isInfix
    · exact ih (fun h => hu (h.trans (List.suffix_cons c u).isInfix)) hrest

/-- A text without block comments that is put together from two is a barrel if one of them is and
the other is or has only idle lines. So it matters which lines a text has that are not idle, but not
in which order they stand. -/
theorem verdict_by_lines :
    (∀ a b : String, ¬ ['/', '*'] <:+: a.toList → ¬ ['/', '*'] <:+: b.toList →
      (isBarrel (a ++ "\n" ++ b) ↔
        (isBarrel a ∨ ∀ l ∈ lines a.toList, Idle l) ∧
        (isBarrel b ∨ ∀ l ∈ lines b.toList, Idle l) ∧ (isBarrel a ∨ isBarrel b))) ∧
    ∀ a b : String, ¬ ['/', '*'] <:+: a.toList → ¬ ['/', '*'] <:+: b.toList →
      ((lines a.toList).filter fun l => ¬ Idle l).Perm
        ((lines b.toList).filter fun l => ¬ Idle l) → isBarrel a = isBarrel b := by
  constructor
  · intro a b ha hb
    have hjoin : (a ++ "\n" ++ b).toList = a.toList ++ '\n' :: b.toList := by simp
    have hmark := not_mark_append_line (by decide) (by decide) ha hb
    rw [isBarrel_iff_of_not_mark (hjoin ▸ hmark), hjoin, Text.lines_append_line, allPass_append,
      isBarrel_iff_of_not_mark ha, isBarrel_iff_of_not_mark hb]
  · intro a b ha hb hperm
    rw [Bool.eq_iff_iff, isBarrel_iff_of_not_mark ha, isBarrel_iff_of_not_mark hb]
    exact allPass_congr hperm

theorem parts_in_any_order :
    let a := "// parts\nexport * from './a'; // one"
    let b := "\n\t // none\nexport { B } from \"./b\""
    let c := "export { B } from \"./b\"\nexport * from './a'; // one\n// none of these"
    ¬ ['/', '*'] <:+: a.toList ∧ ¬ ['/', '*'] <:+: b.toList ∧ ¬ ['/', '*'] <:+: c.toList ∧
    isBarrel (a ++ "\n" ++ b) ∧ isBarrel c = isBarrel (a ++ "\n" ++ b) := by
  intro a b c
  have ha : ¬ ['/', '*'] <:+: a.toList := by decide +kernel
  have hb : ¬ ['/', '*'] <:+: b.toList := by decide +kernel
  have hc : ¬ ['/', '*'] <:+: c.toList := by decide +kernel
  have hab : ¬ ['/', '*'] <:+: (a ++ "\n" ++ b).toList := by decide +kernel
  obtain ⟨hjoin, horder⟩ := verdict_by_lines
  have hbarrel : isBarrel a ∧ isBarrel b := by decide +kernel
  refine ⟨ha, hb, hc, ?_, ?_⟩
  · exact (hjoin a b ha hb).mpr ⟨.inl hbarrel.1, .inl hbarrel.2, .inl hbarrel.1⟩
  · exact horder c (a ++ "\n" ++ b) hc hab (by decide +kernel)

end SignatureContext.Barrel
