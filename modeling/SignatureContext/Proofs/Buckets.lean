import SignatureContext.Tier
import Mathlib.Data.List.Basic
import Mathlib.Tactic.SplitIfs

/-! Lists taken apart by tier, and the buckets of all tiers in one list, which may be cut at any
place of any tier. -/
namespace SignatureContext

variable {α : Type}

/-- A list taken apart by tier is neither shortened nor repeated. -/
theorem flatMap_filter_perm {f : α → Tier} {tiers : List Tier} (hnodup : tiers.Nodup)
    {items : List α} (hitems : ∀ a ∈ items, f a ∈ tiers) :
    (tiers.flatMap fun t => items.filter fun a => f a = t).Perm items := by
  induction tiers generalizing items with
  | nil =>
    have hnil : items = [] := List.eq_nil_iff_forall_not_mem.mpr fun a ha => by
      simpa using hitems a ha
    rw [hnil]
    exact List.Perm.refl _
  | cons t tiers ih =>
    obtain ⟨ht, hnodup⟩ := List.nodup_cons.mp hnodup
    let others := items.filter fun a => !decide (f a = t)
    have hothers : ∀ a ∈ others, f a ∈ tiers := by
      intro a ha
      obtain ⟨hmem, hne⟩ := List.mem_filter.mp ha
      exact (List.mem_cons.mp (hitems a hmem)).resolve_left (by simpa using hne)
    -- the later tiers take nothing from the bucket of `t`
    have hlater : ∀ u ∈ tiers,
        (items.filter fun a => f a = u) = others.filter fun a => f a = u := by
      intro u hu
      have hne : u ≠ t := fun h => ht (h ▸ hu)
      rw [List.filter_filter]
      refine List.filter_congr fun a _ => ?_
      by_cases h : f a = u <;> simp [h, hne]
    rw [List.flatMap_cons, List.flatMap_congr hlater]
    exact ((ih hnodup hothers).append_left _).trans (List.filter_append_perm _ items)

namespace Buckets

/-- The functions, with their tier. -/
def upper (b : Buckets α) : List (Tier × α) :=
  b.functions.map (Tier.functions, ·)

/-- What comes after the functions, with its tier. -/
def lower (b : Buckets α) : List (Tier × α) :=
  [Tier.signatureTypes, .dependencies, .native, .imported].flatMap fun t => (b.get t).map (t, ·)

variable {b : Buckets α} {p : Tier × α}

theorem ranked_eq (b : Buckets α) : b.ranked = b.upper ++ b.lower := rfl

theorem map_snd_upper (b : Buckets α) : b.upper.map Prod.snd = b.functions := by
  unfold upper
  rw [List.map_map]
  exact List.map_id _

theorem eq_functions_of_mem_upper (hp : p ∈ b.upper) : p.1 = .functions := by
  obtain ⟨a, _, rfl⟩ := List.mem_map.mp hp
  rfl

theorem ne_functions_of_mem_lower (hp : p ∈ b.lower) : p.1 ≠ .functions := by
  obtain ⟨t, ht, hp⟩ := List.mem_flatMap.mp hp
  obtain ⟨a, _, rfl⟩ := List.mem_map.mp hp
  rintro rfl
  simp at ht

theorem ranked_drop_sublist (b : Buckets α) (tiers : List Tier) :
    (b.drop tiers).ranked.Sublist b.ranked := by
  unfold ranked
  induction Tier.all with
  | nil => exact List.Sublist.refl _
  | cons t later ih =>
    rw [List.flatMap_cons, List.flatMap_cons, get_drop]
    refine List.Sublist.append ?_ ih
    split_ifs
    · exact List.nil_sublist _
    · exact List.Sublist.refl _

theorem ranked_pairwise (b : Buckets α) :
    b.ranked.Pairwise fun p q => p.1.number ≤ q.1.number := by
  have hall : Tier.all.Pairwise fun t u => t.number ≤ u.number := by decide
  unfold ranked
  refine List.pairwise_flatMap.mpr ⟨fun t _ => ?_, hall.imp fun hle p hp q hq => ?_⟩
  · exact List.pairwise_map.mpr (List.pairwise_of_forall fun _ _ => Nat.le_refl _)
  · obtain ⟨_, _, rfl⟩ := List.mem_map.mp hp
    obtain ⟨_, _, rfl⟩ := List.mem_map.mp hq
    exact hle

/-- There are no functions behind something that is none. -/
theorem ne_functions_of_sublist {q : Tier × α} (h : [p, q].Sublist b.ranked)
    (hp : p.1 ≠ .functions) : q.1 ≠ .functions := by
  intro hq
  have hordered := b.ranked_pairwise.sublist h
  have hle : p.1.number ≤ q.1.number := List.rel_of_pairwise_cons hordered List.mem_cons_self
  rw [hq] at hle
  revert hle hp
  cases p.1 <;> decide

theorem sublist_lower {items : List (Tier × α)} (hsublist : items.Sublist b.ranked)
    (hitems : ∀ p ∈ items, p.1 ≠ .functions) : items.Sublist b.lower := by
  have hupper : (b.upper.filter fun p => p.1 ≠ .functions) = [] :=
    List.filter_eq_nil_iff.mpr fun p hp => by simpa using eq_functions_of_mem_upper hp
  have hlower : (b.lower.filter fun p => p.1 ≠ .functions) = b.lower :=
    List.filter_eq_self.mpr fun p hp => by simpa using ne_functions_of_mem_lower hp
  have hfilter := hsublist.filter fun p => p.1 ≠ .functions
  rw [ranked_eq, List.filter_append, hupper, hlower, List.nil_append,
    List.filter_eq_self.mpr fun p hp => by simpa using hitems p hp] at hfilter
  exact hfilter

section Place

/-- What comes before place `i` of the tier. -/
def before (b : Buckets α) (t : Tier) (i : ℕ) : Buckets α :=
  PerTier.ofFn fun u =>
    if u.number < t.number then b.get u else if u = t then (b.get u).take i else []

/-- What comes from place `i` of the tier on. -/
def behind (b : Buckets α) (t : Tier) (i : ℕ) : Buckets α :=
  PerTier.ofFn fun u =>
    if t.number < u.number then b.get u else if u = t then (b.get u).drop i else []

/-- The buckets with one more at place `i` of the tier. -/
def insert (b : Buckets α) (t : Tier) (i : ℕ) (a : α) : Buckets α :=
  b.modify t fun items => items.take i ++ a :: items.drop i

private theorem take_append_drop_append {β : Type} (items rest : List β) (i : ℕ) :
    items.take i ++ (items.drop i ++ rest) = items ++ rest := by
  rw [← List.append_assoc, List.take_append_drop]

variable (b : Buckets α) (t : Tier) (i : ℕ) (a : α)

theorem ranked_split : b.ranked = (b.before t i).ranked ++ (b.behind t i).ranked := by
  cases t <;> simp [ranked, Tier.all, before, behind, Tier.number, take_append_drop_append]

theorem ranked_insert :
    (b.insert t i a).ranked = (b.before t i).ranked ++ (t, a) :: (b.behind t i).ranked := by
  cases t <;> simp [ranked, Tier.all, before, behind, insert, Tier.number]

theorem count_insert : (b.insert t i a).count = b.count + 1 := by
  rw [← length_ranked, ← length_ranked, ranked_insert, b.ranked_split t i]
  simp only [List.length_append, List.length_cons]
  omega

variable {b t i a} in
theorem mem_before {t₀ : Tier} {i₀ : ℕ} (ha : (b.get t₀)[i₀]? = some a)
    (hearlier : t₀.number < t.number ∨ t₀ = t ∧ i₀ < i) : a ∈ (b.before t i).get t₀ := by
  unfold before
  rw [PerTier.get_ofFn]
  rcases hearlier with htier | ⟨rfl, hplace⟩
  · rw [if_pos htier]
    exact List.mem_of_getElem? ha
  · rw [if_neg (Nat.lt_irrefl _), if_pos rfl]
    exact List.mem_of_getElem? ((List.getElem?_take_of_lt hplace).trans ha)

end Place

end Buckets

end SignatureContext
