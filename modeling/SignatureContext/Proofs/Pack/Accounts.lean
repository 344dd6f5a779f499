import SignatureContext.Proofs.Pack.Choice
import Mathlib.Algebra.GroupWithZero.Nat

/-! What a packing reports about itself agrees with what it has taken, in every field. -/
namespace SignatureContext

variable {α : Type} [Declares α]

/-- The packing took `taken` from the buckets, each declaration with the tier whose bucket it was
in, and reports just that. -/
structure Packing.Accounts (p : Packing α) (budget : ℤ) (b : Buckets α)
    (taken : List (Tier × α)) : Prop where
  sublist : taken.Sublist b.ranked
  items : p.items = taken.map Prod.snd
  keys_nodup : p.keys.Nodup
  total : p.total = totalTokens (p.items.map symbol)
  counts : ∀ t, p.counts.get t = (taken.filter fun q => q.1 = t).length
  counts_sum : p.counts.toList.sum = p.items.length
  excluded : (p.excluded : ℤ) = b.count - p.items.length
  functions : (taken.filter fun q => q.1 = .functions).map Prod.snd = firsts b.functions
  nonpositive : budget ≤ 0 → ∀ q ∈ taken, q.1 = .functions
  total_le : (p.total : ℤ) ≤ max budget (totalTokens ((firsts b.functions).map symbol))

/-- Whatever the buckets hold and whatever the budget is, a packing's report agrees with what it has
taken. -/
theorem pack_accounts (budget : ℤ) (b : Buckets α) :
    ∃ taken, (pack budget b).Accounts budget b taken := by
  obtain ⟨taken, h, hfunctions⟩ := exists_taken budget b
  have hitems : (pack budget b).items = taken.map Prod.snd := h.items_eq
  have hcounts : ∀ t, (pack budget b).counts.get t = (taken.filter fun q => q.1 = t).length := by
    intro t
    rw [h.counts_eq t]
    simp [Load.start]
  refine ⟨taken, h.sublist, hitems, ?_, ?_, hcounts, ?_, ?_, hfunctions, h.taken_of_nonpositive,
    total_pack_le budget b⟩
  · exact h.keys_nodup List.nodup_nil
  · rw [h.total_eq, hitems, List.map_map]
    simp [Load.start, Function.comp_def]
  -- the tiers take `taken` apart, so their counts add up to its length
  · have hperm : (Tier.all.flatMap fun t => taken.filter fun q => q.1 = t).Perm taken :=
      flatMap_filter_perm (by decide) fun q _ => q.1.mem_all
    unfold PerTier.toList
    rw [hitems, List.length_map, ← hperm.length_eq, List.length_flatMap, ← funext hcounts]
  · have hlength : (pack budget b).items.length ≤ b.count := by
      rw [hitems, List.length_map, ← b.length_ranked]
      exact h.sublist.length_le
    have hexcluded : (pack budget b).excluded = b.count - (pack budget b).items.length := rfl
    omega

end SignatureContext
