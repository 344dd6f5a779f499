import SignatureContext.Proofs.Pack.Choice

/-! Packings of images. A packing looks at nothing but tokens and which keys are equal, so it
commutes with every map that keeps these. -/
namespace SignatureContext

section Map
variable {α β : Type}

def Buckets.map (f : α → β) (b : Buckets α) : Buckets β :=
  PerTier.ofFn fun t => (b.get t).map f

@[simp] theorem Buckets.get_map (f : α → β) (b : Buckets α) (t : Tier) :
    (b.map f).get t = (b.get t).map f := by
  simp [Buckets.map]

theorem Buckets.drop_map (f : α → β) (b : Buckets α) (tiers : List Tier) :
    (b.map f).drop tiers = (b.drop tiers).map f := by
  refine PerTier.ext_get fun t => ?_
  rw [get_drop, get_map, get_map, get_drop]
  split_ifs <;> rfl

theorem Buckets.ranked_map (f : α → β) (b : Buckets α) :
    (b.map f).ranked = b.ranked.map (Prod.map id f) := by
  unfold ranked
  simp only [get_map, List.map_flatMap, List.map_map]
  rfl

theorem Buckets.count_map (f : α → β) (b : Buckets α) : (b.map f).count = b.count := by
  rw [← length_ranked, ranked_map, List.length_map, length_ranked]

def Load.map (f : α → β) (l : Load α) : Load β :=
  ⟨l.items.map f, l.total, l.exceeded, l.counts⟩

def Packing.map (f : α → β) (p : Packing α) : Packing β :=
  { p.toLoad.map f with excluded := p.excluded }

end Map

variable {α β : Type} [Declares α] [Declares β]

/-- On the set, the map keeps whatever a packing looks at. -/
structure PacksAlike (f : α → β) (S : Set α) : Prop where
  tokens : ∀ a ∈ S, (symbol (f a)).tokens = (symbol a).tokens
  key_iff : ∀ a ∈ S, ∀ b ∈ S,
    (symbol (f a)).key = (symbol (f b)).key ↔ (symbol a).key = (symbol b).key

namespace PacksAlike
variable {f : α → β} {S : Set α} {budget : ℤ} {l : Load α} {t : Tier} {a : α}

theorem mem_keys_map (h : PacksAlike f S) (hl : ∀ b ∈ l.items, b ∈ S) (ha : a ∈ S) :
    (symbol (f a)).key ∈ (l.map f).keys ↔ (symbol a).key ∈ l.keys := by
  simp only [Load.keys, Load.map, List.map_map, List.mem_map, Function.comp_apply]
  refine exists_congr fun b => and_congr_right fun hb => ?_
  exact h.key_iff b (hl b hb) a ha

theorem admits_map (h : PacksAlike f S) (ha : a ∈ S) :
    (l.map f).Admits budget t (f a) ↔ l.Admits budget t a := by
  unfold Load.Admits
  rw [h.tokens a ha]
  rfl

theorem take_map (h : PacksAlike f S) (ha : a ∈ S) :
    (l.map f).take t (f a) = (l.take t a).map f := by
  simp [Load.take, Load.map, h.tokens a ha]

/-- The loads before and after the map go the same way at each offer. -/
theorem offer_map (h : PacksAlike f S) (hl : ∀ b ∈ l.items, b ∈ S) (ha : a ∈ S) :
    (l.map f).offer budget (t, f a) = (l.offer budget (t, a)).map f := by
  by_cases hseen : (symbol a).key ∈ l.keys
  · have hseen' := (h.mem_keys_map hl ha).mpr hseen
    rw [Load.offer_of_repeated hseen, Load.offer_of_repeated hseen']
  · have hnew := (h.mem_keys_map hl ha).not.mpr hseen
    by_cases hadmits : l.Admits budget t a
    · have hadmits' := (h.admits_map ha).mpr hadmits
      rw [Load.offer_of_admits hseen hadmits, Load.offer_of_admits hnew hadmits', h.take_map ha]
    · have hrefused := (h.admits_map ha).not.mpr hadmits
      rw [Load.offer_of_not_admits hseen hadmits, Load.offer_of_not_admits hnew hrefused]
      rfl

omit [Declares β] in
theorem mem_of_mem_offer (hl : ∀ b ∈ l.items, b ∈ S) (ha : a ∈ S) :
    ∀ b ∈ (l.offer budget (t, a)).items, b ∈ S := by
  by_cases hseen : (symbol a).key ∈ l.keys
  · rw [Load.offer_of_repeated hseen]
    exact hl
  · by_cases hadmits : l.Admits budget t a
    · rw [Load.offer_of_admits hseen hadmits]
      simpa [Load.take, or_imp, forall_and] using ⟨hl, ha⟩
    · rw [Load.offer_of_not_admits hseen hadmits]
      exact hl

theorem foldl_offer_map (h : PacksAlike f S) {offered : List (Tier × α)}
    (hl : ∀ b ∈ l.items, b ∈ S) (hoffered : ∀ p ∈ offered, p.2 ∈ S) :
    (offered.map (Prod.map id f)).foldl (Load.offer budget) (l.map f) =
      (offered.foldl (Load.offer budget) l).map f := by
  induction offered generalizing l with
  | nil => rfl
  | cons p offered ih =>
    obtain ⟨t, a⟩ := p
    obtain ⟨ha, hoffered⟩ := List.forall_mem_cons.mp hoffered
    rw [List.map_cons, List.foldl_cons, List.foldl_cons, Prod.map_apply, id, h.offer_map hl ha]
    exact ih (mem_of_mem_offer hl ha) hoffered

end PacksAlike

theorem pack_map {f : α → β} {b : Buckets α} {S : Set α} (h : PacksAlike f S)
    (hb : ∀ p ∈ b.ranked, p.2 ∈ S) (budget : ℤ) :
    pack budget (b.map f) = (pack budget b).map f := by
  have hload : (b.map f).ranked.foldl (Load.offer budget) (Load.start budget) =
      (b.ranked.foldl (Load.offer budget) (Load.start budget)).map f := by
    rw [Buckets.ranked_map]
    exact h.foldl_offer_map (l := Load.start budget) (by simp [Load.start]) hb
  unfold pack
  simp only [hload, Buckets.count_map, Packing.map]
  simp [Load.map]

end SignatureContext
