import SignatureContext.Proofs.Barrel.Opening

/-! A line comment before a text, and the block comments that are removed before it is seen. -/
namespace SignatureContext.Barrel

open Text (lines)

/-- Whether the text ends inside a block comment, read from inside or outside of one, if all that
start in it end somewhere. -/
def leavesOpen (inside : Bool) : List Char → Bool
  | [] => inside
  | '*' :: '/' :: cs => if inside then leavesOpen false cs else leavesOpen false ('/' :: cs)
  | '/' :: '*' :: cs => if inside then leavesOpen true ('*' :: cs) else leavesOpen true cs
  | _ :: cs => leavesOpen inside cs

variable {inside : Bool} {cs u : List Char} {c d : Char}

section Reading

theorem head?_ne_of_forall (h : ∀ rest, cs = d :: rest → False) : cs.head? ≠ some d := fun hd => by
  obtain ⟨rest, hrest⟩ := List.head?_eq_some_iff.mp hd
  exact h rest hrest

/-- Over the end of a line there is no mark. -/
theorem head?_append_line (hd : d ≠ '\n') (h : u.head? ≠ some d) :
    (u ++ '\n' :: cs).head? ≠ some d := by
  cases u with
  | nil => exact fun hhead => hd (Option.some.inj hhead).symm
  | cons e u => exact h

theorem closes_cons (h : c = '*' → cs.head? ≠ some '/') : closes (c :: cs) = closes cs := by
  rw [closes]
  rintro tail rfl rfl
  exact h rfl rfl

theorem stripBlocks_inside_cons (h : c = '*' → cs.head? ≠ some '/') :
    stripBlocks true (c :: cs) = stripBlocks true cs :=
  stripBlocks_read true c cs h

theorem leavesOpen_read (inside : Bool) (c : Char) (cs : List Char)
    (h : if inside then c = '*' → cs.head? ≠ some '/' else c = '/' → cs.head? ≠ some '*') :
    leavesOpen inside (c :: cs) = leavesOpen inside cs := by
  refine read_cons (g := fun inside _ cs => leavesOpen inside cs)
    (fun _ => rfl) (fun _ => rfl) (fun inside c cs hstar hslash => ?_) inside c cs h
  rw [leavesOpen]
  · exact hstar
  · exact hslash

theorem leavesOpen_inside_cons (h : c = '*' → cs.head? ≠ some '/') :
    leavesOpen true (c :: cs) = leavesOpen true cs :=
  leavesOpen_read true c cs h

theorem leavesOpen_outside_cons (h : c = '/' → cs.head? ≠ some '*') :
    leavesOpen false (c :: cs) = leavesOpen false cs :=
  leavesOpen_read false c cs h

theorem closes_iff : closes cs ↔ ['*', '/'] <:+: cs := by
  fun_induction closes cs with
  | case1 cs => exact iff_of_true rfl (List.prefix_append ['*', '/'] cs).isInfix
  | case2 c cs hc ih =>
    rw [ih, List.infix_cons_iff]
    refine (or_iff_right fun hfirst => ?_).symm
    obtain ⟨rfl, rest, rfl⟩ := List.cons_prefix_cons.mp hfirst
    exact hc rest rfl rfl
  | case3 => simp

theorem closes_append_line (u cs : List Char) :
    closes (u ++ '\n' :: cs) = (closes u || closes cs) := by
  induction u with
  | nil => exact closes_cons (by simp)
  | cons c u ih =>
    by_cases hmark : c = '*' → u.head? ≠ some '/'
    · rw [List.cons_append, closes_cons hmark, closes_cons, ih]
      exact fun hc => head?_append_line (by decide) (hmark hc)
    · push Not at hmark
      obtain ⟨rfl, hnext⟩ := hmark
      obtain ⟨rest, rfl⟩ := List.head?_eq_some_iff.mp hnext
      rfl

/-- From inside of a comment, a text that does not end in one ends that comment. -/
theorem closes_of_leavesOpen (h : leavesOpen true u = false) : closes u := by
  induction u with
  | nil => nomatch h
  | cons c u ih =>
    by_cases hmark : c = '*' → u.head? ≠ some '/'
    · rw [leavesOpen_inside_cons hmark] at h
      rw [closes_cons hmark]
      exact ih h
    · push Not at hmark
      obtain ⟨rfl, hnext⟩ := hmark
      obtain ⟨rest, rfl⟩ := List.head?_eq_some_iff.mp hnext
      rfl

end Reading

/-- The block comments of a line are removed without regard to what follows it, if they end in the
line or what follows ends none. -/
theorem stripBlocks_append_line (inside : Bool) (hinside : inside → closes u)
    (hends : leavesOpen inside u = false ∨ closes cs = false) :
    stripBlocks inside (u ++ '\n' :: cs) =
      stripBlocks inside u ++ '\n' :: stripBlocks false cs := by
  -- both are read alike, except that the end of a comment is looked for beyond the line
  fun_induction stripBlocks inside u with
  | case1 inside =>
    cases inside with
    | false => exact stripBlocks_cons '\n' cs (by simp)
    | true => nomatch hinside rfl
  | case2 u ih => exact ih nofun hends
  | case3 inside u houtside ih =>
    obtain rfl : inside = false := by simpa using houtside
    exact congrArg ('*' :: ·) (ih nofun hends)
  | case4 u ih => exact ih hinside hends
  | case5 inside u houtside hcloses ih =>
    obtain rfl : inside = false := by simpa using houtside
    have hstill : closes (u ++ '\n' :: cs) := by simp [closes_append_line, hcloses]
    exact (if_pos hstill).trans (ih (fun _ => hcloses) hends)
  | case6 inside u houtside hnever ih =>
    obtain rfl : inside = false := by simpa using houtside
    have hcs : closes cs = false := hends.resolve_left fun h => hnever (closes_of_leavesOpen h)
    have hstill : ¬ closes (u ++ '\n' :: cs) := by simp [closes_append_line, hnever, hcs]
    exact (if_neg hstill).trans (congrArg ('/' :: ·) (ih nofun (.inr hcs)))
  | case7 c u hclose hopen ih =>
    have hmark : c = '*' → u.head? ≠ some '/' := fun hc => head?_ne_of_forall (hclose · hc)
    have hover : c = '*' → (u ++ '\n' :: cs).head? ≠ some '/' := fun hc =>
      head?_append_line (by decide) (hmark hc)
    rw [closes_cons hmark] at hinside
    rw [leavesOpen_inside_cons hmark] at hends
    exact (stripBlocks_inside_cons hover).trans (ih hinside hends)
  | case8 inside c u hclose hopen houtside ih =>
    obtain rfl : inside = false := by simpa using houtside
    have hmark : c = '/' → u.head? ≠ some '*' := fun hc => head?_ne_of_forall (hopen · hc)
    have hover : c = '/' → (u ++ '\n' :: cs).head? ≠ some '*' := fun hc =>
      head?_append_line (by decide) (hmark hc)
    rw [leavesOpen_outside_cons hmark] at hends
    exact (stripBlocks_cons c _ hover).trans (congrArg (c :: ·) (ih nofun hends))

/-- A comment that a line leaves open swallows what follows it, up to where the comment ends. -/
theorem exists_stripBlocks_append_line (hu : '\n' ∉ u) (hopen : leavesOpen inside u)
    (hcs : closes cs) :
    ∃ kept, '\n' ∉ kept ∧ stripBlocks inside (u ++ '\n' :: cs) = kept ++ stripBlocks true cs := by
  fun_induction leavesOpen inside u with
  | case1 inside =>
    obtain rfl : inside = true := hopen
    exact ⟨[], List.not_mem_nil, stripBlocks_inside_cons (by simp)⟩
  | case2 u ih => exact ih (fun h => hu (by simp [h])) hopen
  | case3 inside u houtside ih =>
    obtain rfl : inside = false := by simpa using houtside
    obtain ⟨kept, hkept, hstrip⟩ := ih (fun h => hu (List.mem_cons_of_mem _ h)) hopen
    exact ⟨'*' :: kept, by simpa using hkept, congrArg ('*' :: ·) hstrip⟩
  | case4 u ih => exact ih (fun h => hu (List.mem_cons_of_mem _ h)) hopen
  | case5 inside u houtside ih =>
    obtain rfl : inside = false := by simpa using houtside
    obtain ⟨kept, hkept, hstrip⟩ := ih (fun h => hu (by simp [h])) hopen
    have hstill : closes (u ++ '\n' :: cs) := by simp [closes_append_line, hcs]
    exact ⟨kept, hkept, (if_pos hstill).trans hstrip⟩
  | case6 inside c u hclose hopens ih =>
    obtain ⟨hc, hu⟩ := List.ne_and_not_mem_of_not_mem_cons hu
    obtain ⟨kept, hkept, hstrip⟩ := ih hu hopen
    cases inside with
    | false =>
      refine ⟨c :: kept, List.not_mem_cons_of_ne_of_not_mem hc hkept, ?_⟩
      refine (stripBlocks_cons c _ fun hslash => ?_).trans (congrArg (c :: ·) hstrip)
      exact head?_append_line (by decide) (head?_ne_of_forall (hopens · hslash))
    | true =>
      refine ⟨kept, hkept, (stripBlocks_inside_cons fun hstar => ?_).trans hstrip⟩
      exact head?_append_line (by decide) (head?_ne_of_forall (hclose · hstar))

theorem stripBlocks_sublist (inside : Bool) (cs : List Char) :
    (stripBlocks inside cs).Sublist cs := by
  fun_induction stripBlocks inside cs with
  | case1 => exact List.Sublist.refl []
  | case2 cs ih => exact (ih.cons _).cons _
  | case3 inside cs houtside ih => exact ih.cons_cons _
  | case4 cs ih => exact ih.cons _
  | case5 inside cs houtside hcloses ih => exact (ih.cons _).cons _
  | case6 inside cs houtside hnever ih => exact ih.cons_cons _
  | case7 c cs hclose hopen ih => exact ih.cons _
  | case8 inside c cs hclose hopen houtside ih => exact ih.cons_cons _

section FirstLine
variable {line : List Char} {ls : List (List Char)}

theorem not_passes_slash (u : List Char) : ¬ Passes ('/' :: u) := by
  rw [passes_iff]
  rintro ⟨gap, o, rest, hline, -⟩
  have hblanks : blanks ('/' :: u) = '/' :: u := rfl
  rw [hline, blanks_append_opening, ← hline] at hblanks
  have hfirst : 'e' = '/' := (List.cons.inj hblanks).1
  exact absurd hfirst (by decide)

theorem idle_comment {u : List Char} (h : ['/', '/'] <+: u) : Idle u := by
  obtain ⟨rest, rfl⟩ := h
  exact .inr (List.prefix_append ['/', '/'] rest)

theorem not_idle_slash {u : List Char} (h : ¬ ['/', '/'] <+: '/' :: u) : ¬ Idle ('/' :: u) := by
  rintro (hnil | hcomment)
  · exact absurd hnil (List.cons_ne_nil '/' u)
  · exact h hcomment

theorem allPass_cons_of_idle (h : Idle line) : AllPass (line :: ls) ↔ AllPass ls := by
  unfold AllPass
  simp [h]

end FirstLine

/-- The text below a line comment. -/
def commented (t content : String) : String :=
  "//" ++ t ++ "\n" ++ content

/-- What is left of the line `//` with the text, read by itself, is a line comment. -/
def StaysComment (t : List Char) : Prop :=
  ['/', '/'] <+: stripBlocks false ('/' :: '/' :: t)

section Commented
variable {t content : String}

theorem toList_commented (t content : String) :
    (commented t content).toList = '/' :: '/' :: t.toList ++ '\n' :: content.toList := by
  simp [commented]

/-- Where no comment goes on from the line into the text, the verdict can only change if the line is
no comment, and then to the negative. -/
theorem isBarrel_commented_eq_iff (ht : '\n' ∉ t.toList)
    (hends : leavesOpen false ('/' :: '/' :: t.toList) = false ∨ closes content.toList = false) :
    isBarrel (commented t content) = isBarrel content ↔
      StaysComment t.toList ∨ isBarrel content = false := by
  let left := stripBlocks false ('/' :: '/' :: t.toList)
  have hleft : left = '/' :: stripBlocks false ('/' :: t.toList) :=
    stripBlocks_cons '/' _ (by simp)
  have hbreak : '\n' ∉ left := fun h =>
    absurd ((stripBlocks_sublist _ _).subset h) (by simpa using ht)
  have hlines : lines (stripBlocks false (commented t content).toList) =
      left :: lines (stripBlocks false content.toList) := by
    rw [toList_commented, stripBlocks_append_line false nofun hends, Text.lines_append_line,
      Text.lines_of_not_mem hbreak, List.singleton_append]
  by_cases hstays : StaysComment t.toList
  · refine iff_of_true ?_ (.inl hstays)
    rw [Bool.eq_iff_iff, isBarrel_iff, isBarrel_iff, hlines]
    exact allPass_cons_of_idle (idle_comment hstays)
  · have hfalse : isBarrel (commented t content) = false := by
      rw [Bool.eq_false_iff, Ne, isBarrel_iff, hlines]
      rintro ⟨-, hall⟩
      have hpass := hall left List.mem_cons_self
      rw [hleft] at hpass
      exact not_passes_slash _ (hpass (not_idle_slash (hleft ▸ hstays)))
    rw [hfalse, or_iff_right hstays]
    exact eq_comm

/-- A barrel with the end of a block comment in its line comment. -/
def endsComment : String :=
  "export * from 'a' // */"

theorem isBarrel_commented_endsComment (ht : '\n' ∉ t.toList)
    (hopen : leavesOpen false ('/' :: '/' :: t.toList)) :
    isBarrel (commented t endsComment) = false := by
  have hbreak : '\n' ∉ '/' :: t.toList := by simpa using ht
  rw [leavesOpen_outside_cons (by simp)] at hopen
  have hcloses : closes endsComment.toList := by decide +kernel
  obtain ⟨kept, hkept, hstrip⟩ := exists_stripBlocks_append_line hbreak hopen hcloses
  have hnothing : stripBlocks true endsComment.toList = [] := by decide +kernel
  rw [hnothing, List.append_nil] at hstrip
  have hlines : lines (stripBlocks false (commented t endsComment).toList) = ['/' :: kept] := by
    rw [toList_commented, List.cons_append, stripBlocks_cons '/' _ (by simp), hstrip]
    exact Text.lines_of_not_mem (by simpa using hkept)
  rw [Bool.eq_false_iff, Ne, isBarrel_iff, hlines]
  rintro ⟨⟨l, hl, hidle⟩, hall⟩
  obtain rfl := List.mem_singleton.mp hl
  exact not_passes_slash kept (hall _ hl hidle)

theorem leavesOpen_of_not_mark {cs : List Char} (h : ¬ ['/', '*'] <:+: cs) :
    leavesOpen false cs = false := by
  induction cs with
  | nil => rfl
  | cons c cs ih =>
    rw [leavesOpen_outside_cons (head?_ne_of_not_mark h)]
    exact ih fun hmark => h (hmark.trans (List.suffix_cons c cs).isInfix)

theorem staysComment_of_not_mark {cs : List Char} (h : ¬ ['/', '*'] <:+: '/' :: cs) :
    StaysComment cs := by
  unfold StaysComment
  rw [stripBlocks_cons '/' _ (by simp), stripBlocks_of_not_mark h]
  exact List.prefix_append ['/', '/'] cs

/-- Below a line comment the verdict on every text is what it is without it if no block comment
starts in the line, and in general exactly if those that start in it end in it and leave a line
comment. If one goes on below the line, the texts in which none ends are still judged alike, other
than barrels below a line that is no comment then. -/
theorem comment_unnoticed_iff (ht : '\n' ∉ t.toList) :
    (¬ ['/', '*'] <:+: '/' :: t.toList →
      ∀ content, isBarrel (commented t content) = isBarrel content) ∧
    ((∀ content, isBarrel (commented t content) = isBarrel content) ↔
      leavesOpen false ('/' :: '/' :: t.toList) = false ∧ StaysComment t.toList) ∧
    ∀ content, (leavesOpen false ('/' :: '/' :: t.toList) → ¬ ['*', '/'] <:+: content.toList) →
      (isBarrel (commented t content) = isBarrel content ↔
        StaysComment t.toList ∨ isBarrel content = false) := by
  have hinert : leavesOpen false ('/' :: '/' :: t.toList) = false → StaysComment t.toList →
      ∀ content, isBarrel (commented t content) = isBarrel content :=
    fun hends hstays content => (isBarrel_commented_eq_iff ht (.inl hends)).mpr (.inl hstays)
  refine ⟨fun hmark => ?_, ⟨fun hall => ?_, fun h => hinert h.1 h.2⟩, fun content hnever => ?_⟩
  · refine hinert ?_ (staysComment_of_not_mark hmark)
    rw [leavesOpen_outside_cons (by simp)]
    exact leavesOpen_of_not_mark hmark
  · have hbarrel : isBarrel endsComment := by decide +kernel
    have hends : leavesOpen false ('/' :: '/' :: t.toList) = false := by
      rw [Bool.eq_false_iff]
      intro hopen
      have hlost := hall endsComment
      rw [isBarrel_commented_endsComment ht hopen, hbarrel] at hlost
      exact absurd hlost (by decide)
    refine ⟨hends, ?_⟩
    exact ((isBarrel_commented_eq_iff ht (.inl hends)).mp (hall endsComment)).resolve_right
      (by simp [hbarrel])
  · refine isBarrel_commented_eq_iff ht ?_
    cases hopen : leavesOpen false ('/' :: '/' :: t.toList) with
    | false => exact .inl rfl
    | true =>
      refine .inr (Bool.eq_false_iff.mpr fun hcloses => ?_)
      exact hnever hopen (closes_iff.mp hcloses)

/-- Two comments that name a pattern of paths, which starts a block comment. The one ends it, and
the other has a text below it that does not. -/
theorem patterns_unnoticed :
    let t := " all of src/* and lib/*/index.ts"
    let t' := " all of src/*"
    let content := "export * from './a'"
    '\n' ∉ t.toList ∧ '\n' ∉ t'.toList ∧ ¬ ['*', '/'] <:+: content.toList ∧
    (∀ content, isBarrel (commented t content) = isBarrel content) ∧
    isBarrel (commented t' content) = isBarrel content := by
  intro t t' content
  have ht : '\n' ∉ t.toList := by decide
  have ht' : '\n' ∉ t'.toList := by decide
  have hnever : ¬ ['*', '/'] <:+: content.toList := by decide +kernel
  obtain ⟨-, hends, -⟩ := comment_unnoticed_iff ht
  obtain ⟨-, -, hpair⟩ := comment_unnoticed_iff ht'
  refine ⟨ht, ht', hnever, hends.mpr ⟨by decide, ?_⟩, (hpair content fun _ => hnever).mpr (.inl ?_)⟩
  · exact ⟨" all of src".toList ++ "index.ts".toList, by decide +kernel⟩
  · exact ⟨" all of src/*".toList, by decide +kernel⟩

/-- The block comment that starts in a line comment ends behind a statement, which is lost. -/
theorem pattern_hides_exports :
    ¬ ∀ t content : String, '\n' ∉ t.toList →
      isBarrel (commented t content) = isBarrel content := by
  intro hall
  have hsame := hall " all of src/*" "export * from './a'; /* first */" (by decide)
  exact absurd hsame (by decide +kernel)

end Commented

end SignatureContext.Barrel
