import SignatureContext.Proofs.Classify.Window

/-! Which signatures are read. Only those of the first two tiers are, so the signatures of all other
declarations may be anything: dependencies are followed one level deep and no further. -/
namespace SignatureContext

/-- The declarations are the same but for their signatures and what no tier depends on. -/
structure Symbol.SameHead (s s' : Symbol) : Prop where
  kind : s'.kind = s.kind
  name : s'.name = s.name
  origin : s'.origin = s.origin

theorem Symbol.SameHead.isFunction {s s' : Symbol} (h : s.SameHead s') :
    s'.isFunction = s.isFunction := by
  unfold Symbol.isFunction
  rw [h.kind]

/-- The tiers whose signatures are read. -/
def Tier.leading : List Tier :=
  [.functions, .signatureTypes]

/-- The tiers whose signatures are not read. -/
def Tier.trailing : List Tier :=
  [.dependencies, .native, .imported]

theorem Tier.not_mem_leading {t : Tier} (h : t ∈ trailing) : t ∉ leading := by
  revert t
  decide

section Congruence
variable {α : Type} {g g' : α → Symbol} {items : List α} {scan : Scanner} {transitive : Bool}
  {name : String}

/-- Two readings of the items agree on whether there is a declaration of some sort if they agree on
this item by item. -/
theorem exists_mem_map_congr {P P' : Symbol → Prop} (h : ∀ a ∈ items, P' (g' a) ↔ P (g a)) :
    (∃ s ∈ items.map g', P' s) ↔ ∃ s ∈ items.map g, P s := by
  simp only [List.mem_map, exists_exists_and_eq_and]
  exact exists_congr fun a => and_congr_right (h a)

theorem namesFunction_congr (hhead : ∀ a ∈ items, (g a).SameHead (g' a)) :
    NamesFunction (items.map g') name ↔ NamesFunction (items.map g) name :=
  exists_mem_map_congr fun a ha => by rw [(hhead a ha).isFunction, (hhead a ha).name]

theorem namedByFunction_congr (hhead : ∀ a ∈ items, (g a).SameHead (g' a))
    (hread : ∀ a ∈ items, (g a).isFunction → (g' a).signature = (g a).signature) :
    NamedByFunction scan (items.map g') name ↔ NamedByFunction scan (items.map g) name := by
  refine exists_mem_map_congr fun a ha => ?_
  rw [(hhead a ha).isFunction, (hhead a ha).name]
  exact and_congr_right fun hfunction => by rw [hread a ha hfunction]

theorem namedByUsed_congr {window : String} (hhead : ∀ a ∈ items, (g a).SameHead (g' a))
    (hread : ∀ a ∈ items, (g a).name ∈ Scan.identifiers window →
      (g' a).signature = (g a).signature) :
    NamedByUsed scan (items.map g') window name ↔ NamedByUsed scan (items.map g) window name := by
  refine exists_mem_map_congr fun a ha => ?_
  rw [(hhead a ha).name]
  exact and_congr_right fun hused => by rw [hread a ha hused]

theorem wholeTier_mem_leading_iff {symbols : List Symbol} {s : Symbol} :
    wholeTier scan transitive symbols s ∈ Tier.leading ↔
      s.isFunction ∨ NamedByFunction scan symbols s.name := by
  unfold wholeTier Tier.leading
  split_ifs <;> simp_all

theorem windowTier_mem_leading_iff {symbols : List Symbol} {window : String} {s : Symbol} :
    windowTier scan transitive symbols window s ∈ Tier.leading ↔
      s.name ∈ Scan.identifiers window := by
  unfold windowTier originTier Tier.leading
  split_ifs <;> simp_all

theorem wholeTier_congr (hhead : ∀ a ∈ items, (g a).SameHead (g' a))
    (hread : ∀ a ∈ items, wholeTier scan transitive (items.map g) (g a) ∈ Tier.leading →
      (g' a).signature = (g a).signature) {a : α} (ha : a ∈ items) :
    wholeTier scan transitive (items.map g') (g' a) =
      wholeTier scan transitive (items.map g) (g a) := by
  simp only [wholeTier_mem_leading_iff] at hread
  have hfunction : ∀ n, NamedByFunction scan (items.map g') n ↔
      NamedByFunction scan (items.map g) n :=
    fun _ => namedByFunction_congr hhead fun a ha h => hread a ha (Or.inl h)
  have hsecond : ∀ n, NamedBySecondTier scan (items.map g') n ↔
      NamedBySecondTier scan (items.map g) n := by
    intro n
    refine exists_mem_map_congr fun a ha => ?_
    rw [(hhead a ha).isFunction, (hhead a ha).name, hfunction]
    refine and_congr_right fun _ => and_congr_right fun hnamed => ?_
    rw [hread a ha (Or.inr hnamed)]
  unfold wholeTier
  rw [(hhead a ha).isFunction, (hhead a ha).name, (hhead a ha).origin]
  simp only [hfunction, hsecond, namesFunction_congr hhead]

theorem windowTier_congr {window : String} (hhead : ∀ a ∈ items, (g a).SameHead (g' a))
    (hread : ∀ a ∈ items, windowTier scan transitive (items.map g) window (g a) ∈ Tier.leading →
      (g' a).signature = (g a).signature) {a : α} (ha : a ∈ items) :
    windowTier scan transitive (items.map g') window (g' a) =
      windowTier scan transitive (items.map g) window (g a) := by
  simp only [windowTier_mem_leading_iff] at hread
  unfold windowTier originTier
  rw [(hhead a ha).isFunction, (hhead a ha).name, (hhead a ha).origin]
  simp only [namedByUsed_congr hhead hread]

end Congruence

variable {α : Type} [Declares α] {items : List α} {f : α → α}

namespace Reach

/-- What is not in a later tier is in one of the first two. -/
theorem signature_eq_of_leading {r : Reach}
    (h : ∀ a ∈ items, (symbol (f a)).signature = (symbol a).signature ∨
      ∃ t ∈ Tier.trailing, a ∈ (r.sort items).get t) :
    ∀ a ∈ items, r.tierOf (symbol a) ∈ Tier.leading →
      (symbol (f a)).signature = (symbol a).signature := by
  intro a ha hleading
  rcases h a ha with hsame | ⟨t, ht, hmem⟩
  · exact hsame
  · rw [get_sort, List.mem_filter, decide_eq_true_eq] at hmem
    exact absurd (hmem.2 ▸ hleading) (Tier.not_mem_leading ht)

end Reach

/-- Whatever becomes of the signatures in the last three tiers, for a whole file or for a window,
each tier holds the same occurrences in the same order as before. -/
theorem signatures_read_one_level (scan : Scanner) (transitive : Bool) (items : List α) (f : α → α)
    (hhead : ∀ a ∈ items, (symbol a).SameHead (symbol (f a))) :
    ((∀ a ∈ items, (symbol (f a)).signature = (symbol a).signature ∨
        ∃ t ∈ Tier.trailing, a ∈ (classify scan transitive items).get t) →
      ∀ t, (classify scan transitive (items.map f)).get t =
        ((classify scan transitive items).get t).map f) ∧
    ∀ window, (∀ a ∈ items, (symbol (f a)).signature = (symbol a).signature ∨
        ∃ t ∈ Tier.trailing, a ∈ (classifyWindow scan transitive items window).get t) →
      ∀ t, (classifyWindow scan transitive (items.map f) window).get t =
        ((classifyWindow scan transitive items window).get t).map f := by
  have hmem : ∀ a ∈ items, symbol a ∈ items.map symbol := fun a ha => List.mem_map_of_mem ha
  have hmem' : ∀ a ∈ items, symbol (f a) ∈ (items.map f).map symbol :=
    fun a ha => List.mem_map_of_mem (List.mem_map_of_mem ha)
  have hcomp : ∀ a ∈ items, (symbol a).SameHead ((symbol ∘ f) a) := hhead
  constructor
  · intro hread
    have hleading := Reach.signature_eq_of_leading hread
    refine Reach.get_sort_map fun a ha => ?_
    rw [tierOf_wholeReach (hmem a ha), tierOf_wholeReach (hmem' a ha), List.map_map]
    refine wholeTier_congr hcomp (fun b hb htier => ?_) ha
    exact hleading b hb (by rwa [tierOf_wholeReach (hmem b hb)])
  · intro window hread
    have hleading := Reach.signature_eq_of_leading hread
    refine Reach.get_sort_map fun a ha => ?_
    rw [tierOf_windowReach (hmem a ha), tierOf_windowReach (hmem' a ha), List.map_map]
    refine windowTier_congr hcomp (fun b hb htier => ?_) ha
    exact hleading b hb (by rwa [tierOf_windowReach (hmem b hb)])

/-- A function, a chain of types that it starts, and a second type of the name of the third one. -/
def itemChain : List Symbol :=
  [{ kind := .function, name := "load", signature := "function load(): Order" },
    { kind := .interface, name := "Order", signature := "interface Order { item: Item }" },
    { kind := .typeAlias, name := "Item", signature := "type Item = Price" },
    { kind := .typeAlias, name := "Price", signature := "type Price = number" },
    { kind := .typeAlias, name := "Item", signature := "type Item = { price: Price }",
      origin := some "./item", depth := some 1 }]

/-- Writes the text in place of the signature at one place of a list. -/
def Occurrence.rewritten (place : ℕ) (text : String) (o : Occurrence) : Occurrence :=
  if o.index = place then { o with symbol := { o.symbol with signature := text } } else o

/-- The first of the two third-tier types comes to mention all names, and no tier changes, neither
for the file nor for a window that names the function and what it returns. -/
theorem itemChain_rewritten :
    let items := occurrences itemChain
    let text := "type Item = load | Order | Price"
    let window := "load().then((o: Order) => o)"
    let numbers (b : Buckets Occurrence) := Tier.all.map fun t => (b.get t).map Occurrence.index
    (∀ t, (classify Scan.references true (items.map (Occurrence.rewritten 2 text))).get t =
      ((classify Scan.references true items).get t).map (Occurrence.rewritten 2 text)) ∧
    (∀ t, (classifyWindow Scan.references true (items.map (Occurrence.rewritten 2 text))
        window).get t =
      ((classifyWindow Scan.references true items window).get t).map
        (Occurrence.rewritten 2 text)) ∧
    numbers (classify Scan.references true items) = [[0], [1], [2, 4], [3], []] ∧
    numbers (classifyWindow Scan.references true items window) = [[0], [1], [2, 4], [3], []] := by
  intro items text window numbers
  have hhead : ∀ a ∈ items, (symbol a).SameHead (symbol (a.rewritten 2 text)) := by
    intro a _
    unfold Occurrence.rewritten
    split_ifs <;> exact ⟨rfl, rfl, rfl⟩
  obtain ⟨hwhole, hwindow⟩ :=
    signatures_read_one_level Scan.references true items (Occurrence.rewritten 2 text) hhead
  exact ⟨hwhole (by decide +kernel), hwindow window (by decide +kernel), by decide +kernel,
    by decide +kernel⟩

end SignatureContext
