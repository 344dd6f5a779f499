import SignatureContext.Proofs.Pack.Room

/-! What is packed already may be offered again: only the number of what is left out grows. -/
namespace SignatureContext

variable {α : Type} [Declares α]

section Place
variable (budget : ℤ) (b : Buckets α) (t : Tier) (i : ℕ)

/-- A packing goes on from the packing of what comes before a place. -/
theorem toLoad_pack :
    (pack budget b).toLoad =
      (b.behind t i).ranked.foldl (Load.offer budget) (pack budget (b.before t i)).toLoad := by
  unfold pack
  dsimp only
  rw [b.ranked_split t i, List.foldl_append]

theorem toLoad_pack_insert (a : α) :
    (pack budget (b.insert t i a)).toLoad =
      (b.behind t i).ranked.foldl (Load.offer budget)
        ((pack budget (b.before t i)).toLoad.offer budget (t, a)) := by
  unfold pack
  dsimp only
  rw [b.ranked_insert, List.foldl_append, List.foldl_cons]

end Place

variable {budget : ℤ} {b : Buckets α} {t t₀ : Tier} {i i₀ : ℕ} {a a' : α}

/-- What is packed in the end and comes before a place has its key packed at that place. -/
theorem key_mem_pack_before (ha : a ∈ (b.before t i).get t₀) (hpacked : a ∈ (pack budget b).items) :
    (symbol a).key ∈ (pack budget (b.before t i)).keys := by
  by_contra hkey
  obtain ⟨htier, hroom, -⟩ := no_room_of_key_not_mem_pack ha hkey
  obtain ⟨taken, h⟩ :=
    exists_choice budget (pack budget (b.before t i)).toLoad (b.behind t i).ranked
  rw [← toLoad_pack] at h
  rw [h.items_eq] at hpacked
  rcases List.mem_append.mp hpacked with hbefore | hbehind
  · exact hkey (List.mem_map.mpr ⟨a, hbefore, rfl⟩)
  -- a later occurrence would have had to fit where the earlier one did not
  · obtain ⟨⟨t₁, a⟩, hp, rfl⟩ := List.mem_map.mp hbehind
    have horder : [(t₀, a), (t₁, a)].Sublist b.ranked := by
      rw [b.ranked_split t i]
      exact (List.singleton_sublist.mpr (Buckets.mem_ranked.mpr ha)).append
        (List.singleton_sublist.mpr (h.sublist.subset hp))
    have hfits := h.room_of_mem_taken hp (Buckets.ne_functions_of_sublist horder htier)
    dsimp only at hfits hroom
    omega

/-- One more declaration of a key behind a packed one changes nothing but that one more is left
out. -/
theorem repeated_only_left_out (ha : (b.get t₀)[i₀]? = some a)
    (hpacked : a ∈ (pack budget b).items) (hkey : (symbol a').key = (symbol a).key)
    (hlater : t₀.number < t.number ∨ t₀ = t ∧ i₀ < i) :
    pack budget (b.insert t i a') =
      { pack budget b with excluded := (pack budget b).excluded + 1 } := by
  have hseen : (symbol a').key ∈ (pack budget (b.before t i)).keys := by
    rw [hkey]
    exact key_mem_pack_before (Buckets.mem_before ha hlater) hpacked
  have hload : (pack budget (b.insert t i a')).toLoad = (pack budget b).toLoad := by
    rw [toLoad_pack_insert, Load.offer_of_repeated hseen, ← toLoad_pack]
  have hexcluded :
      (b.insert t i a').count - (pack budget b).items.length = (pack budget b).excluded + 1 := by
    rw [Buckets.count_insert, Nat.sub_add_comm (length_items_pack_le budget b)]
    rfl
  rw [pack_eq budget (b.insert t i a'), hload, hexcluded]

/-- A function and the type that it names. -/
def single : Buckets Symbol :=
  { Buckets.empty with
    functions := [{ kind := .function, name := "f", signature := "function f(): Item" }]
    signatureTypes := [shortItem] }

theorem single_repeated :
    (single.get .signatureTypes)[0]? = some shortItem ∧ shortItem ∈ (pack 20 single).items ∧
    pack 20 (single.insert .native 0 shortItem) = { pack 20 single with excluded := 1 } := by
  have hplace : (single.get .signatureTypes)[0]? = some shortItem := rfl
  have hpacked : shortItem ∈ (pack 20 single).items := by decide +kernel
  exact ⟨hplace, hpacked, repeated_only_left_out hplace hpacked rfl (Or.inl (by decide))⟩

/-- The repeated declaration is counted among what is left out. -/
theorem repeat_counts_as_left_out :
    shortItem ∈ (pack 20 single).items ∧
    ¬ (pack 20 (single.insert .native 0 shortItem)).excluded = (pack 20 single).excluded := by
  decide +kernel

end SignatureContext
