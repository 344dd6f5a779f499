import SignatureContext.Proofs.Classify.Window
import SignatureContext.Proofs.Window
import SignatureContext.Proofs.Text.Words

/-! Windows of one text that widen. What a window names stays named, and although a declaration that
comes to be named is no dependency any more, no declaration comes into a less important tier. -/
namespace SignatureContext

/-- A wider window names what the narrower one names, for no name runs over the end of a line. -/
theorem LineRange.Within.identifiers_subset {r r' : LineRange} (h : r.Within r') (text : String) :
    Scan.identifiers (r.slice text) ⊆ Scan.identifiers (r'.slice text) := by
  intro name hname
  unfold LineRange.slice at hname ⊢
  rw [Scan.mem_identifiers_join] at hname ⊢
  obtain ⟨line, hline, hname⟩ := hname
  exact ⟨line, h.lines_subset text.toList hline, hname⟩

section WindowTier
variable {scan : Scanner} {transitive : Bool} {symbols : List Symbol} {window window' : String}
  {s : Symbol}

theorem windowTier_of_used (h : s.name ∈ Scan.identifiers window) :
    windowTier scan transitive symbols window s =
      if s.isFunction then .functions else .signatureTypes := by
  unfold windowTier
  rw [if_pos h, if_pos h]

theorem windowTier_of_dependency (hkind : ¬ s.isFunction)
    (hunused : s.name ∉ Scan.identifiers window)
    (hdependency : transitive ∧ NamedByUsed scan symbols window s.name) :
    windowTier scan transitive symbols window s = .dependencies := by
  unfold windowTier
  rw [if_neg hkind, if_neg hunused, if_pos hdependency]

theorem windowTier_of_unnamed (hunused : s.name ∉ Scan.identifiers window)
    (hcase : s.isFunction ∨ ¬ (transitive ∧ NamedByUsed scan symbols window s.name)) :
    windowTier scan transitive symbols window s = originTier s := by
  unfold windowTier
  rw [if_neg hunused, if_neg hunused]
  rcases hcase with hfunction | hnone
  · rw [if_pos hfunction]
  · rw [if_neg hnone, ite_self]

theorem windowTier_le_originTier :
    (windowTier scan transitive symbols window s).number ≤ (originTier s).number := by
  have horigin : 4 ≤ (originTier s).number := by
    unfold originTier
    split_ifs <;> decide
  unfold windowTier
  split_ifs
  · exact Nat.le_trans (by decide) horigin
  · exact Nat.le_refl _
  · exact Nat.le_trans (by decide) horigin
  · exact Nat.le_trans (by decide) horigin
  · exact Nat.le_refl _

theorem NamedByUsed.mono {name : String}
    (hnames : Scan.identifiers window ⊆ Scan.identifiers window')
    (h : NamedByUsed scan symbols window name) : NamedByUsed scan symbols window' name := by
  obtain ⟨u, hu, hused, hscan⟩ := h
  exact ⟨u, hu, hnames hused, hscan⟩

/-- The more a window names, the more important a declaration is to it. -/
theorem windowTier_mono (hnames : Scan.identifiers window ⊆ Scan.identifiers window') :
    (windowTier scan transitive symbols window' s).number ≤
      (windowTier scan transitive symbols window s).number := by
  by_cases hused : s.name ∈ Scan.identifiers window
  · rw [windowTier_of_used hused, windowTier_of_used (hnames hused)]
  by_cases hcase : s.isFunction ∨ ¬ (transitive ∧ NamedByUsed scan symbols window s.name)
  · rw [windowTier_of_unnamed hused hcase]
    exact windowTier_le_originTier
  obtain ⟨hkind, hdependency⟩ := not_or.mp hcase
  obtain ⟨htransitive, hnamed⟩ := not_not.mp hdependency
  rw [windowTier_of_dependency hkind hused ⟨htransitive, hnamed⟩]
  -- a dependency of the narrower window is one of the wider window too, or is named there
  by_cases hused' : s.name ∈ Scan.identifiers window'
  · rw [windowTier_of_used hused', if_neg hkind]
    decide
  · rw [windowTier_of_dependency hkind hused' ⟨htransitive, hnamed.mono hnames⟩]

end WindowTier

variable {α : Type} [Declares α]

theorem mem_get_classifyWindow_iff {scan : Scanner} {transitive : Bool} {items : List α}
    {window : String} {a : α} (ha : a ∈ items) {t : Tier} :
    a ∈ (classifyWindow scan transitive items window).get t ↔
      t = windowTier scan transitive (items.map symbol) window (symbol a) := by
  rw [get_classifyWindow, List.mem_filter, decide_eq_true_eq]
  exact ⟨fun h => h.2.symm, fun h => ⟨ha, h.symm⟩⟩

/-- An occurrence is in one tier for a window and in one for a wider window of the same text, and
the latter is not less important. -/
theorem tier_le_of_within (scan : Scanner) (transitive : Bool) (items : List α) (text : String)
    {r r' : LineRange} (h : r.Within r') :
    ∀ a ∈ items, ∃ t t' : Tier,
      (∀ u, a ∈ (classifyWindow scan transitive items (r.slice text)).get u ↔ u = t) ∧
      (∀ u, a ∈ (classifyWindow scan transitive items (r'.slice text)).get u ↔ u = t') ∧
      t'.number ≤ t.number := by
  intro a ha
  exact ⟨_, _, fun _ => mem_get_classifyWindow_iff ha, fun _ => mem_get_classifyWindow_iff ha,
    windowTier_mono (h.identifiers_subset text)⟩

/-- A chain of types, the last of them imported, and a function of the name of the second one. -/
def cardChain : List Symbol :=
  [{ kind := .typeAlias, name := "Card", signature := "type Card = Props" },
    { kind := .typeAlias, name := "Props", signature := "type Props = Item" },
    { kind := .typeAlias, name := "Item", signature := "type Item = string",
      origin := some "./item", depth := some 1 },
    { kind := .function, name := "Props", signature := "function Props(): Item" }]

/-- The second line names the type that the first line only needs. The wider window starts before
the text and ends behind it. -/
theorem cardChain_widened :
    let text := "let c: Card\nlet p: Props\n"
    let narrow : LineRange := ⟨0, 1⟩
    let wide : LineRange := ⟨-2, 9⟩
    let items := occurrences cardChain
    let numbers (r : LineRange) :=
      Tier.all.map fun t => ((classifyWindow Scan.references true items (r.slice text)).get t).map
        Occurrence.index
    narrow.Within wide ∧
    (∀ a ∈ items, ∃ t t' : Tier,
      (∀ u, a ∈ (classifyWindow Scan.references true items (narrow.slice text)).get u ↔ u = t) ∧
      (∀ u, a ∈ (classifyWindow Scan.references true items (wide.slice text)).get u ↔ u = t') ∧
      t'.number ≤ t.number) ∧
    numbers narrow = [[], [0], [1], [3], [2]] ∧ numbers wide = [[3], [0, 1], [2], [], []] := by
  intro text narrow wide items numbers
  have hwithin : narrow.Within wide := ⟨by decide, by decide⟩
  exact ⟨hwithin, tier_le_of_within Scan.references true items text hwithin, by decide +kernel,
    by decide +kernel⟩

end SignatureContext
