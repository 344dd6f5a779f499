import SignatureContext.Classify
import SignatureContext.Proofs.Buckets

/-! The tier of a declaration said for each declaration by itself, and the buckets of the tiers as a
partition of what is classified. -/
namespace SignatureContext

namespace Reach
variable {α : Type} [Declares α]

/-- Where every occurrence keeps its tier, the buckets hold what they held before. -/
theorem get_sort_map {r r' : Reach} {items : List α} {f : α → α}
    (h : ∀ a ∈ items, r'.tierOf (symbol (f a)) = r.tierOf (symbol a)) (t : Tier) :
    (r'.sort (items.map f)).get t = ((r.sort items).get t).map f := by
  rw [get_sort, get_sort, List.filter_map]
  congr 1
  refine List.filter_congr fun a ha => ?_
  rw [Function.comp_apply, h a ha]

/-- Each occurrence is in one bucket and no other. -/
theorem ranked_sort_perm (r : Reach) (items : List α) :
    ((r.sort items).ranked.map Prod.snd).Perm items := by
  have hranked : (r.sort items).ranked.map Prod.snd =
      Tier.all.flatMap fun t => items.filter fun a => r.tierOf (symbol a) = t := by
    unfold Buckets.ranked
    rw [List.map_flatMap]
    simp only [get_sort, List.map_map, Function.comp_def, List.map_id']
  rw [hranked]
  exact flatMap_filter_perm (by decide) fun a _ => Tier.mem_all _

theorem tierOf_of_mem_ranked_sort {r : Reach} {items : List α} {p : Tier × α}
    (hp : p ∈ (r.sort items).ranked) : r.tierOf (symbol p.2) = p.1 := by
  have hmem := Buckets.mem_ranked.mp hp
  rw [get_sort] at hmem
  simpa using (List.mem_filter.mp hmem).2

theorem tierOf_eq_functions_iff {r : Reach} {s : Symbol} :
    r.tierOf s = .functions ↔ s.isFunction ∧ r.first s.name := by
  unfold tierOf
  constructor
  · intro h
    split_ifs at h with hfirst
    simpa using hfirst
  · intro h
    rw [if_pos (by simpa using h)]

end Reach

theorem mem_mentions {scan : Scanner} {s : Symbol} {name : String} :
    name ∈ mentions scan s ↔ name ∈ scan s.signature ∧ name ≠ s.name := by
  simp [mentions]

theorem mem_mentionedBy {scan : Scanner} {symbols sources : List Symbol} {name : String} :
    name ∈ mentionedBy scan symbols sources ↔
      (∃ u ∈ sources, name ∈ scan u.signature ∧ name ≠ u.name) ∧ ∃ s ∈ symbols, s.name = name := by
  simp [mentionedBy, mem_mentions]

/-- The signature of a function of another name mentions the name. -/
def NamedByFunction (scan : Scanner) (symbols : List Symbol) (name : String) : Prop :=
  ∃ f ∈ symbols, f.isFunction ∧ f.name ≠ name ∧ name ∈ scan f.signature

instance (scan : Scanner) (symbols : List Symbol) (name : String) :
    Decidable (NamedByFunction scan symbols name) :=
  inferInstanceAs (Decidable (∃ f ∈ symbols, _))

/-- A function has the name. -/
def NamesFunction (symbols : List Symbol) (name : String) : Prop :=
  ∃ f ∈ symbols, f.isFunction ∧ f.name = name

instance (symbols : List Symbol) (name : String) : Decidable (NamesFunction symbols name) :=
  inferInstanceAs (Decidable (∃ f ∈ symbols, _))

/-- The signature of a declaration of the second tier mentions the name. -/
def NamedBySecondTier (scan : Scanner) (symbols : List Symbol) (name : String) : Prop :=
  ∃ u ∈ symbols, ¬ u.isFunction ∧ NamedByFunction scan symbols u.name ∧ name ∈ scan u.signature

instance (scan : Scanner) (symbols : List Symbol) (name : String) :
    Decidable (NamedBySecondTier scan symbols name) :=
  inferInstanceAs (Decidable (∃ u ∈ symbols, _))

/-- The tier of a declaration among others: the first rule that applies decides. -/
def wholeTier (scan : Scanner) (transitive : Bool) (symbols : List Symbol) (s : Symbol) : Tier :=
  if s.isFunction then .functions
  else if NamedByFunction scan symbols s.name then .signatureTypes
  else if transitive ∧ ¬ NamesFunction symbols s.name ∧ NamedBySecondTier scan symbols s.name then
    .dependencies
  else if s.origin ≠ none then .imported
  else .native

theorem mem_map_name_functions {symbols : List Symbol} {name : String} :
    name ∈ (symbols.filter (·.isFunction)).map (·.name) ↔ NamesFunction symbols name := by
  simp [NamesFunction, and_assoc]

section WholeReach
variable {scan : Scanner} {transitive : Bool} {symbols : List Symbol} {s : Symbol}

theorem mem_second_wholeReach (hs : s ∈ symbols) :
    s.name ∈ (wholeReach scan transitive symbols).second ↔
      NamedByFunction scan symbols s.name := by
  unfold wholeReach NamedByFunction
  rw [mem_mentionedBy]
  constructor
  · rintro ⟨⟨f, hf, hscan, hne⟩, _⟩
    obtain ⟨hmem, hfunction⟩ := List.mem_filter.mp hf
    exact ⟨f, hmem, hfunction, hne.symm, hscan⟩
  · rintro ⟨f, hmem, hfunction, hne, hscan⟩
    exact ⟨⟨f, List.mem_filter.mpr ⟨hmem, hfunction⟩, hscan, hne.symm⟩, s, hs, rfl⟩

theorem mem_third_wholeReach {name : String} :
    name ∈ (wholeReach scan transitive symbols).third ↔ transitive ∧
      (∃ u ∈ symbols, (¬ u.isFunction ∧ NamedByFunction scan symbols u.name) ∧
        name ∈ scan u.signature ∧ name ≠ u.name) ∧ (∃ s ∈ symbols, s.name = name) ∧
      ¬ NamesFunction symbols name ∧ name ∉ (wholeReach scan transitive symbols).second := by
  cases transitive with
  | false => simp [wholeReach]
  | true =>
    have hthird : (wholeReach scan true symbols).third =
        (mentionedBy scan symbols (symbols.filter fun u =>
          !u.isFunction && (wholeReach scan true symbols).second.contains u.name)).filter
          (!((symbols.filter (·.isFunction)).map (·.name) ++
            (wholeReach scan true symbols).second).contains ·) := rfl
    have hsources : ∀ u, (u ∈ symbols.filter fun u =>
        !u.isFunction && (wholeReach scan true symbols).second.contains u.name) ↔
          u ∈ symbols ∧ ¬ u.isFunction ∧ NamedByFunction scan symbols u.name := by
      intro u
      rw [List.mem_filter]
      refine and_congr_right fun hu => ?_
      rw [Bool.and_eq_true, List.contains_iff_mem, mem_second_wholeReach hu]
      simp
    have hclaimed : (!((symbols.filter (·.isFunction)).map (·.name) ++
        (wholeReach scan true symbols).second).contains name) = true ↔
          ¬ NamesFunction symbols name ∧ name ∉ (wholeReach scan true symbols).second := by
      rw [Bool.not_eq_true', ← Bool.not_eq_true, List.contains_iff_mem, List.mem_append,
        mem_map_name_functions, not_or]
    rw [hthird, List.mem_filter, mem_mentionedBy, hclaimed]
    simp only [hsources, and_assoc, true_and]

/-- A name that no function mentions is not the name of a declaration of the second tier, so no
declaration comes into the third tier by mentioning itself. -/
theorem mem_third_wholeReach_of_not_named (hs : s ∈ symbols)
    (hsecond : ¬ NamedByFunction scan symbols s.name) :
    s.name ∈ (wholeReach scan transitive symbols).third ↔
      transitive ∧ ¬ NamesFunction symbols s.name ∧ NamedBySecondTier scan symbols s.name := by
  rw [mem_third_wholeReach, mem_second_wholeReach hs]
  constructor
  · rintro ⟨htransitive, ⟨u, hu, ⟨hkind, hnamed⟩, hscan, _⟩, _, hfunction, _⟩
    exact ⟨htransitive, hfunction, u, hu, hkind, hnamed, hscan⟩
  · rintro ⟨htransitive, hfunction, u, hu, hkind, hnamed, hscan⟩
    have hne : s.name ≠ u.name := fun h => hsecond (h ▸ hnamed)
    exact ⟨htransitive, ⟨u, hu, ⟨hkind, hnamed⟩, hscan, hne⟩, ⟨s, hs, rfl⟩, hfunction, hsecond⟩

theorem tierOf_wholeReach (hs : s ∈ symbols) :
    (wholeReach scan transitive symbols).tierOf s = wholeTier scan transitive symbols s := by
  have hfirst : (wholeReach scan transitive symbols).first s.name = true := rfl
  have hsecond : s.name ∈ (wholeReach scan transitive symbols).second ↔
      NamedByFunction scan symbols s.name := mem_second_wholeReach hs
  unfold Reach.tierOf wholeTier
  by_cases hfunction : s.isFunction
  · simp [hfunction, hfirst]
  · by_cases hnamed : NamedByFunction scan symbols s.name
    · simp [hfunction, hnamed, hsecond]
    · have hthird : s.name ∈ (wholeReach scan transitive symbols).third ↔
          transitive ∧ ¬ NamesFunction symbols s.name ∧ NamedBySecondTier scan symbols s.name :=
        mem_third_wholeReach_of_not_named hs hnamed
      simp [hfunction, hnamed, hsecond, hthird, Symbol.imported, Option.isSome_iff_ne_none]

end WholeReach

/-- Each occurrence comes into one bucket, that of its tier, and stays in order there. -/
theorem classify_partition {α : Type} [Declares α] (scan : Scanner) (transitive : Bool)
    (items : List α) :
    ((classify scan transitive items).ranked.map Prod.snd).Perm items ∧
    ∀ t, (classify scan transitive items).get t =
      items.filter fun a => wholeTier scan transitive (items.map symbol) (symbol a) = t := by
  refine ⟨(wholeReach scan transitive (items.map symbol)).ranked_sort_perm items, fun t => ?_⟩
  unfold classify
  rw [Reach.get_sort]
  refine List.filter_congr fun a ha => ?_
  rw [tierOf_wholeReach (List.mem_map_of_mem ha)]

end SignatureContext
