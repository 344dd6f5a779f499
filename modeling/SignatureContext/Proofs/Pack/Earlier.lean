import SignatureContext.Proofs.Pack.Places
import SignatureContext.Proofs.Pack.Repeat

/-! A packing decides on each declaration by what comes before it. Cut off at any place, the buckets
have the packing that the whole buckets have up to there. -/
namespace SignatureContext

/-- In the order of tiers, and then of buckets. -/
def Place.Precedes (p q : Place) : Prop :=
  p.tier.number < q.tier.number ∨ p.tier = q.tier ∧ p.index < q.index

namespace Buckets
variable {α : Type} {b : Buckets α} {t : Tier} {i : ℕ}

theorem take_ranked (b : Buckets α) (t : Tier) (i : ℕ) :
    b.ranked.take (b.before t i).count = (b.before t i).ranked := by
  rw [b.ranked_split t i, ← length_ranked]
  exact List.take_left

theorem count_before_le (b : Buckets α) (t : Tier) (i : ℕ) : (b.before t i).count ≤ b.count := by
  rw [← length_ranked, ← length_ranked, b.ranked_split t i, List.length_append]
  exact Nat.le_add_right _ _

theorem getElem?_placed (t : Tier) (i : ℕ) :
    (b.placed.get t)[i]? = (b.get t)[i]?.map (Placed.mk ⟨t, i⟩) := by
  rw [get_placed, List.getElem?_map, List.getElem?_zipIdx, Option.map_map, Nat.zero_add]
  rfl

theorem placed_before (b : Buckets α) (t : Tier) (i : ℕ) :
    (b.before t i).placed = b.placed.before t i := by
  refine PerTier.ext_get fun u => List.ext_getElem? fun k => ?_
  rw [getElem?_placed]
  unfold before
  rw [PerTier.get_ofFn, PerTier.get_ofFn]
  split_ifs
  · rw [getElem?_placed]
  · rw [List.getElem?_take, List.getElem?_take, getElem?_placed]
    split_ifs <;> rfl
  · rfl

theorem place_of_getElem?_placed {q : Placed α} (h : (b.placed.get t)[i]? = some q) :
    q.place = ⟨t, i⟩ := by
  rw [getElem?_placed] at h
  obtain ⟨a, -, rfl⟩ := Option.map_eq_some_iff.mp h
  rfl

theorem precedes_of_mem_before {p : Tier × Placed α} (hp : p ∈ (b.placed.before t i).ranked) :
    p.2.place.Precedes ⟨t, i⟩ := by
  obtain ⟨k, hk⟩ := List.mem_iff_getElem?.mp (mem_ranked.mp hp)
  unfold before at hk
  rw [PerTier.get_ofFn] at hk
  split_ifs at hk with hearlier hsame
  · rw [place_of_getElem?_placed hk]
    exact Or.inl hearlier
  · rw [List.getElem?_take] at hk
    split_ifs at hk with hindex
    rw [place_of_getElem?_placed hk]
    exact Or.inr ⟨hsame, hindex⟩
  · nomatch hk

theorem not_precedes_of_mem_behind {p : Tier × Placed α} (hp : p ∈ (b.placed.behind t i).ranked) :
    ¬ p.2.place.Precedes ⟨t, i⟩ := by
  obtain ⟨k, hk⟩ := List.mem_iff_getElem?.mp (mem_ranked.mp hp)
  unfold behind at hk
  rw [PerTier.get_ofFn] at hk
  split_ifs at hk with hlater hsame
  · rw [place_of_getElem?_placed hk]
    rintro (hearlier | ⟨hsame, -⟩)
    · exact Nat.lt_asymm hlater hearlier
    · exact Nat.ne_of_gt hlater (congrArg Tier.number hsame)
  · rw [hsame, List.getElem?_drop] at hk
    rw [place_of_getElem?_placed hk]
    rintro (hearlier | ⟨-, hindex⟩)
    · exact Nat.lt_irrefl _ hearlier
    · exact Nat.not_lt.mpr (Nat.le_add_right i k) hindex
  · nomatch hk

end Buckets

variable {α : Type} [Declares α]

/-- The loads of a packing: at its start, and after each declaration that is offered. -/
def loads (budget : ℤ) (b : Buckets α) : List (Load α) :=
  b.ranked.scanl (Load.offer budget) (Load.start budget)

section Cut
variable (budget : ℤ) (b : Buckets α) (t : Tier) (i : ℕ)

theorem getElem?_loads :
    (loads budget b)[(b.before t i).count]? = some (pack budget (b.before t i)).toLoad := by
  unfold loads
  rw [List.getElem?_scanl, if_pos (b.length_ranked ▸ b.count_before_le t i), b.take_ranked]
  rfl

theorem exists_items_pack_eq_append :
    ∃ taken : List (Tier × α), taken.Sublist (b.behind t i).ranked ∧
      (pack budget b).items = (pack budget (b.before t i)).items ++ taken.map Prod.snd := by
  obtain ⟨taken, h⟩ :=
    exists_choice budget (pack budget (b.before t i)).toLoad (b.behind t i).ranked
  rw [← toLoad_pack] at h
  exact ⟨taken, h.sublist, h.items_eq⟩

/-- The places that are packed before a cut are those that are packed of what comes before it. -/
theorem mem_packedPlaces_before_iff {p : Place} :
    p ∈ packedPlaces budget (b.before t i) ↔ p ∈ packedPlaces budget b ∧ p.Precedes ⟨t, i⟩ := by
  obtain ⟨taken, hbehind, hitems⟩ := exists_items_pack_eq_append budget b.placed t i
  obtain ⟨kept, h, hkept⟩ := exists_choice_pack budget (b.placed.before t i)
  unfold packedPlaces
  rw [Buckets.placed_before, hitems, List.map_append, List.mem_append]
  have hbefore : ∀ p ∈ (pack budget (b.placed.before t i)).items.map Placed.place,
      p.Precedes ⟨t, i⟩ := by
    rw [hkept, List.map_map]
    intro p hp
    obtain ⟨q, hq, rfl⟩ := List.mem_map.mp hp
    exact Buckets.precedes_of_mem_before (h.sublist.subset hq)
  refine ⟨fun hp => ⟨Or.inl hp, hbefore p hp⟩, ?_⟩
  rintro ⟨hp | hp, hprecedes⟩
  · exact hp
  · rw [List.map_map] at hp
    obtain ⟨q, hq, rfl⟩ := List.mem_map.mp hp
    exact absurd hprecedes (Buckets.not_precedes_of_mem_behind (hbehind.subset hq))

/-- What comes behind a cut changes nothing before it: what is packed of the buckets up to there is
packed first of all of them, the load at the cut is the same, and of any other buckets that are
alike up to there the same places are packed. -/
theorem later_never_matters :
    (pack budget (b.before t i)).items <+: (pack budget b).items ∧
    (loads budget b)[(b.before t i).count]? = some (pack budget (b.before t i)).toLoad ∧
    ∀ b' : Buckets α, b'.before t i = b.before t i → ∀ p : Place, p.Precedes ⟨t, i⟩ →
      (p ∈ packedPlaces budget b' ↔ p ∈ packedPlaces budget b) := by
  refine ⟨?_, getElem?_loads budget b t i, fun b' halike p hp => ?_⟩
  · obtain ⟨taken, -, hitems⟩ := exists_items_pack_eq_append budget b t i
    rw [hitems]
    exact List.prefix_append _ _
  · have hsame : p ∈ packedPlaces budget (b'.before t i) ↔
        p ∈ packedPlaces budget (b.before t i) := by
      rw [halike]
    rw [mem_packedPlaces_before_iff, mem_packedPlaces_before_iff] at hsame
    simpa only [hp, and_true] using hsame

end Cut

/-- More than `twoSizes` has, all of it behind what it has. -/
def twoSizesAndMore : Buckets Symbol :=
  { twoSizes with
    native := [shortItem, longItem]
    imported := [{ kind := .typeAlias, name := "L", signature := "type L = A" }] }

theorem twoSizes_up_to_cut :
    twoSizesAndMore.before .native 1 = twoSizes.before .native 1 ∧
    (Place.mk .native 0).Precedes ⟨.native, 1⟩ ∧
    (⟨.native, 0⟩ ∈ packedPlaces 15 twoSizesAndMore ↔ ⟨.native, 0⟩ ∈ packedPlaces 15 twoSizes) := by
  have halike : twoSizesAndMore.before .native 1 = twoSizes.before .native 1 := rfl
  have hprecedes : (Place.mk .native 0).Precedes ⟨.native, 1⟩ := Or.inr ⟨rfl, Nat.one_pos⟩
  exact ⟨halike, hprecedes,
    (later_never_matters 15 twoSizes .native 1).2.2 twoSizesAndMore halike _ hprecedes⟩

end SignatureContext
