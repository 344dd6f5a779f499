import SignatureContext.Proofs.Pack.Image

/-! Declarations with the places that they have in buckets. A packing does not look at places, so it
shows by them which of several equal declarations it takes. -/
namespace SignatureContext

/-- A tier, and an index in its bucket. -/
structure Place where
  tier : Tier
  index : ℕ
deriving Repr, DecidableEq

/-- Something at its place. -/
structure Placed (α : Type) where
  place : Place
  item : α
deriving Repr, DecidableEq

instance {α : Type} [Declares α] : Declares (Placed α) :=
  ⟨fun q => symbol q.item⟩

namespace Buckets
variable {α : Type}

def filter (keep : α → Bool) (b : Buckets α) : Buckets α :=
  PerTier.ofFn fun t => (b.get t).filter keep

/-- Everything with its place. -/
def placed (b : Buckets α) : Buckets (Placed α) :=
  PerTier.ofFn fun t => (b.get t).zipIdx.map fun p => ⟨⟨t, p.2⟩, p.1⟩

theorem ranked_filter (keep : α → Bool) (b : Buckets α) :
    (b.filter keep).ranked = b.ranked.filter fun p => keep p.2 := by
  unfold ranked filter
  simp only [PerTier.get_ofFn, List.filter_flatMap, List.filter_map]
  rfl

variable {b : Buckets α}

theorem get_placed (t : Tier) :
    b.placed.get t = (b.get t).zipIdx.map fun p => ⟨⟨t, p.2⟩, p.1⟩ := by
  simp [placed]

theorem map_item_placed (b : Buckets α) : b.placed.map Placed.item = b := by
  refine PerTier.ext_get fun t => ?_
  rw [get_map, get_placed, List.map_map]
  exact List.zipIdx_map_fst 0 (b.get t)

theorem map_place_placed (t : Tier) :
    (b.placed.get t).map Placed.place = (List.range' 0 (b.get t).length).map (Place.mk t) := by
  rw [get_placed, List.map_map, ← List.zipIdx_map_snd, List.map_map]
  rfl

theorem places_nodup (b : Buckets α) : (b.placed.ranked.map fun p => p.2.place).Nodup := by
  unfold ranked
  rw [List.map_flatMap]
  simp only [List.map_map, Function.comp_def, map_place_placed]
  refine List.nodup_flatMap.mpr ⟨fun t _ => ?_, ?_⟩
  · have hindex : Function.Injective (Place.mk t) := fun i j h => (Place.mk.inj h).2
    exact (List.nodup_range').map hindex
  -- places of two tiers differ in the tier
  · refine (by decide : Tier.all.Nodup).imp fun {t u} hne p ht hu => hne ?_
    obtain ⟨i, -, rfl⟩ := List.mem_map.mp ht
    obtain ⟨j, -, hj⟩ := List.mem_map.mp hu
    exact (Place.mk.inj hj).1.symm

end Buckets

section Pack
variable {α : Type} [Declares α] (budget : ℤ)

theorem pack_map_item (b : Buckets (Placed α)) :
    pack budget (b.map Placed.item) = (pack budget b).map Placed.item := by
  have halike : PacksAlike (Placed.item : Placed α → α) Set.univ :=
    ⟨fun _ _ => rfl, fun _ _ _ _ => Iff.rfl⟩
  exact pack_map halike (fun _ _ => Set.mem_univ _) budget

/-- Which places they have makes no difference to what is packed. -/
theorem pack_eq_map_item (b : Buckets α) :
    pack budget b = (pack budget b.placed).map Placed.item := by
  rw [← pack_map_item, Buckets.map_item_placed]

/-- The places of what is packed, in order. -/
def packedPlaces (b : Buckets α) : List Place :=
  (pack budget b.placed).items.map Placed.place

end Pack

end SignatureContext
