import SignatureContext.Context
import SignatureContext.Proofs.Classify.Partition

/-! The tier of a declaration for a window of a file, said for each declaration by itself, and what
a read of a window leaves out. -/
namespace SignatureContext

/-- The signature of a declaration that the window names mentions the name. -/
def NamedByUsed (scan : Scanner) (symbols : List Symbol) (window name : String) : Prop :=
  ∃ u ∈ symbols, u.name ∈ Scan.identifiers window ∧ name ∈ scan u.signature

instance (scan : Scanner) (symbols : List Symbol) (window name : String) :
    Decidable (NamedByUsed scan symbols window name) :=
  inferInstanceAs (Decidable (∃ u ∈ symbols, _))

/-- The tier of a declaration that nothing uses. -/
def originTier (s : Symbol) : Tier :=
  if s.origin ≠ none then .imported else .native

/-- The tier of a declaration among others for a window. A function that the window does not name
is in none of the first three tiers, whatever mentions it. -/
def windowTier (scan : Scanner) (transitive : Bool) (symbols : List Symbol) (window : String)
    (s : Symbol) : Tier :=
  if s.isFunction then
    if s.name ∈ Scan.identifiers window then .functions else originTier s
  else if s.name ∈ Scan.identifiers window then .signatureTypes
  else if transitive ∧ NamedByUsed scan symbols window s.name then .dependencies
  else originTier s

section WindowReach
variable {scan : Scanner} {transitive : Bool} {symbols : List Symbol} {window : String} {s : Symbol}

theorem mem_usedNames (hs : s ∈ symbols) :
    s.name ∈ usedNames symbols window ↔ s.name ∈ Scan.identifiers window := by
  have hdeclared : (symbols.map (·.name)).contains s.name :=
    List.contains_iff_mem.mpr (List.mem_map_of_mem hs)
  unfold usedNames
  rw [List.mem_filter]
  exact and_iff_left hdeclared

theorem mem_third_windowReach {name : String} :
    name ∈ (windowReach scan transitive symbols window).third ↔ transitive ∧
      (∃ u ∈ symbols, u.name ∈ Scan.identifiers window ∧ name ∈ scan u.signature ∧
        name ≠ u.name) ∧ (∃ s ∈ symbols, s.name = name) ∧ name ∉ usedNames symbols window := by
  cases transitive with
  | false => simp [windowReach]
  | true =>
    have hthird : (windowReach scan true symbols window).third =
        (mentionedBy scan symbols (symbols.filter fun u =>
          (usedNames symbols window).contains u.name)).filter
            (!(usedNames symbols window).contains ·) := rfl
    have hsources : ∀ u, (u ∈ symbols.filter fun u =>
        (usedNames symbols window).contains u.name) ↔
          u ∈ symbols ∧ u.name ∈ Scan.identifiers window := by
      intro u
      rw [List.mem_filter]
      refine and_congr_right fun hu => ?_
      rw [List.contains_iff_mem, mem_usedNames hu]
    rw [hthird, List.mem_filter, mem_mentionedBy]
    simp only [hsources, and_assoc, true_and, Bool.not_eq_true', ← Bool.not_eq_true,
      List.contains_iff_mem]

/-- A declaration that the window does not name has another name than any that it does, so it makes
no difference that a declaration's own name is left out of what it mentions. -/
theorem mem_third_windowReach_of_not_used (hs : s ∈ symbols)
    (hunused : s.name ∉ Scan.identifiers window) :
    s.name ∈ (windowReach scan transitive symbols window).third ↔
      transitive ∧ NamedByUsed scan symbols window s.name := by
  rw [mem_third_windowReach, mem_usedNames hs]
  constructor
  · rintro ⟨htransitive, ⟨u, hu, hused, hscan, _⟩, _, _⟩
    exact ⟨htransitive, u, hu, hused, hscan⟩
  · rintro ⟨htransitive, u, hu, hused, hscan⟩
    have hne : s.name ≠ u.name := fun h => hunused (h ▸ hused)
    exact ⟨htransitive, ⟨u, hu, hused, hscan, hne⟩, ⟨s, hs, rfl⟩, hunused⟩

theorem tierOf_windowReach (hs : s ∈ symbols) :
    (windowReach scan transitive symbols window).tierOf s =
      windowTier scan transitive symbols window s := by
  have hfirst : (windowReach scan transitive symbols window).first s.name ↔
      s.name ∈ Scan.identifiers window := List.contains_iff_mem.trans (mem_usedNames hs)
  have hsecond : s.name ∈ (windowReach scan transitive symbols window).second ↔
      s.name ∈ Scan.identifiers window := mem_usedNames hs
  have horigin : s.imported ↔ s.origin ≠ none := Option.isSome_iff_ne_none
  unfold Reach.tierOf windowTier originTier
  by_cases hfunction : s.isFunction
  -- a function meets the first rule or none: the next two are for other kinds only
  · by_cases hused : s.name ∈ Scan.identifiers window <;>
      simp [hfunction, hfirst, hused, horigin]
  · by_cases hused : s.name ∈ Scan.identifiers window
    · simp [hfunction, hsecond, hused]
    · have hthird : s.name ∈ (windowReach scan transitive symbols window).third ↔
          transitive ∧ NamedByUsed scan symbols window s.name :=
        mem_third_windowReach_of_not_used hs hused
      simp [hfunction, hsecond, hused, hthird, horigin]

end WindowReach

variable {α : Type} [Declares α]

theorem get_classifyWindow (scan : Scanner) (transitive : Bool) (items : List α)
    (window : String) (t : Tier) :
    (classifyWindow scan transitive items window).get t =
      items.filter fun a =>
        windowTier scan transitive (items.map symbol) window (symbol a) = t := by
  unfold classifyWindow
  rw [Reach.get_sort]
  refine List.filter_congr fun a ha => ?_
  rw [tierOf_windowReach (List.mem_map_of_mem ha)]

/-- Each occurrence comes into one bucket, that of its tier for the window, and stays in order
there. -/
theorem classifyWindow_partition (scan : Scanner) (transitive : Bool) (items : List α)
    (window : String) :
    ((classifyWindow scan transitive items window).ranked.map Prod.snd).Perm items ∧
    ∀ t, (classifyWindow scan transitive items window).get t =
      items.filter fun a => windowTier scan transitive (items.map symbol) window (symbol a) = t :=
  ⟨(windowReach scan transitive (items.map symbol) window).ranked_sort_perm items,
    get_classifyWindow scan transitive items window⟩

/-- Neither the window nor any other declaration that it names refers to the declaration. -/
def Irrelevant (scan : Scanner) (symbols : List Symbol) (window : String) (s : Symbol) : Prop :=
  s.name ∉ Scan.identifiers window ∧
    ∀ u ∈ symbols, u.name ∈ Scan.identifiers window → u.name ≠ s.name → s.name ∉ scan u.signature

instance (scan : Scanner) (symbols : List Symbol) (window : String) (s : Symbol) :
    Decidable (Irrelevant scan symbols window s) :=
  inferInstanceAs (Decidable (_ ∧ ∀ u ∈ symbols, _))

theorem irrelevant_iff {scan : Scanner} {symbols : List Symbol} {window : String} {s : Symbol} :
    Irrelevant scan symbols window s ↔
      s.name ∉ Scan.identifiers window ∧ ¬ NamedByUsed scan symbols window s.name := by
  unfold Irrelevant
  refine and_congr_right fun hunused => ?_
  constructor
  · rintro h ⟨u, hu, hused, hscan⟩
    have hne : u.name ≠ s.name := fun heq => hunused (heq ▸ hused)
    exact h u hu hused hne hscan
  · intro h u hu hused _ hscan
    exact h ⟨u, hu, hused, hscan⟩

/-- The tiers of what a read of a window may leave out. -/
def Tier.last : List Tier :=
  [.native, .imported]

theorem windowTier_mem_last_iff {scan : Scanner} {transitive : Bool} {symbols : List Symbol}
    {window : String} {s : Symbol} :
    windowTier scan transitive symbols window s ∈ Tier.last ↔
      s.name ∉ Scan.identifiers window ∧
        (s.isFunction ∨ ¬ (transitive ∧ NamedByUsed scan symbols window s.name)) := by
  unfold windowTier originTier Tier.last
  split_ifs <;> simp_all

theorem forall_get_last_iff {scan : Scanner} {transitive : Bool} {items : List α}
    {window : String} {p : α → Prop} :
    (∀ t ∈ Tier.last, ∀ a ∈ (classifyWindow scan transitive items window).get t, p a) ↔
      ∀ a ∈ items, windowTier scan transitive (items.map symbol) window (symbol a) ∈ Tier.last →
        p a := by
  simp only [get_classifyWindow, List.mem_filter, decide_eq_true_eq]
  constructor
  · intro h a ha ht
    exact h _ ht a ⟨ha, rfl⟩
  · rintro h t ht a ⟨ha, rfl⟩
    exact h a ha ht

theorem Builder.buckets_of_window {b : Builder} {r : Read} {window : String}
    (hwindow : b.window? r = some window) (hused : b.config.filtering.onlyUsed) :
    b.buckets r = (classifyWindow b.scan b.config.filtering.transitive (b.candidates r.file)
      window).drop Tier.last := by
  have hreach : b.reach r =
      windowReach b.scan b.config.filtering.transitive (b.candidates r.file) window := by
    unfold Builder.reach
    rw [hwindow]
  have hsymbols : (b.candidates r.file).map symbol = b.candidates r.file := List.map_id _
  unfold Builder.buckets Builder.sorted classifyWindow
  rw [hreach, hsymbols, hwindow, if_pos (by simpa using hused)]
  rfl

/-- What a window leaves in the last tiers, and a read of it leaves out, is not named by the window,
and unless it is a function nothing that the window names mentions it. All of it is irrelevant to
the window exactly if the window names each function that something it names mentions. -/
theorem leftOut_irrelevant_iff (scan : Scanner) (items : List α) (window : String) :
    (∀ t ∈ Tier.last, ∀ a ∈ (classifyWindow scan true items window).get t,
      (symbol a).name ∉ Scan.identifiers window ∧
        (¬ (symbol a).isFunction → Irrelevant scan (items.map symbol) window (symbol a))) ∧
    ((∀ t ∈ Tier.last, ∀ a ∈ (classifyWindow scan true items window).get t,
        Irrelevant scan (items.map symbol) window (symbol a)) ↔
      ∀ a ∈ items, (symbol a).isFunction →
        NamedByUsed scan (items.map symbol) window (symbol a).name →
        (symbol a).name ∈ Scan.identifiers window) ∧
    ∀ (b : Builder) (r : Read), b.window? r = some window → b.config.filtering.onlyUsed →
      b.buckets r = (classifyWindow b.scan b.config.filtering.transitive (b.candidates r.file)
        window).drop Tier.last := by
  simp only [forall_get_last_iff, windowTier_mem_last_iff, irrelevant_iff, true_and]
  refine ⟨?_, ?_, fun b r => Builder.buckets_of_window⟩
  · rintro a - ⟨hunused, hcase⟩
    exact ⟨hunused, fun hkind => ⟨hunused, hcase.resolve_left hkind⟩⟩
  · constructor
    · intro h a ha hfunction hnamed
      by_contra hunused
      exact (h a ha ⟨hunused, Or.inl hfunction⟩).2 hnamed
    · rintro h a ha ⟨hunused, hcase⟩
      refine ⟨hunused, fun hnamed => ?_⟩
      rcases hcase with hfunction | hfree
      · exact hunused (h a ha hfunction hnamed)
      · exact hfree hnamed

/-- A component, and the type of a card's properties, which mentions it. -/
def cardAndButton : List Symbol :=
  [{ kind := .typeAlias, name := "CardProps",
      signature := "type CardProps = Props<typeof Button>" },
    { kind := .function, name := "Button", signature := "function Button(): Element" }]

/-- Reads the window from a file that declares both. -/
def cardReader : Builder where
  source := ⟨fun file => .ok ⟨file, cardAndButton, []⟩, fun _ => .ok "let p: CardProps"⟩
  config := { filtering := { onlyUsed := true } }
  root := "/"
  cwd := .top
  scan := Scan.references

/-- A read of the window has the type and not the component. -/
theorem card_window_buckets :
    let r : Read := ⟨"/card", some ⟨0, 1⟩⟩
    cardReader.window? r = some "let p: CardProps" ∧ cardReader.config.filtering.onlyUsed ∧
    cardReader.buckets r =
      (classifyWindow Scan.references true cardAndButton "let p: CardProps").drop Tier.last ∧
    (cardReader.buckets r).ranked.map (fun p => (p.1, p.2.name)) =
      [(.signatureTypes, "CardProps")] := by
  intro r
  have hwindow : cardReader.window? r = some "let p: CardProps" := by decide +kernel
  have hbuckets := (leftOut_irrelevant_iff Scan.references cardAndButton "let p: CardProps").2.2
    cardReader r hwindow rfl
  exact ⟨hwindow, rfl, hbuckets, by decide +kernel⟩

/-- The window names the type, whose signature mentions the component, and yet the component is left
out. -/
theorem mentioned_function_left_out :
    ¬ ∀ t ∈ Tier.last,
      ∀ s ∈ (classifyWindow Scan.references true cardAndButton "let p: CardProps").get t,
        Irrelevant Scan.references cardAndButton "let p: CardProps" s := by
  decide +kernel

end SignatureContext
