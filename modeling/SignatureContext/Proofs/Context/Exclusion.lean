import SignatureContext.Proofs.Context.Candidates
import SignatureContext.Proofs.Pack.Refusal

/-! What a context leaves out. Over an extractor that tells declarations apart there are no two of
one key, so nothing is left out but for lack of budget. -/
namespace SignatureContext

namespace Builder
variable {b : Builder}

theorem nodup_keys_ranked_buckets (h : b.source.Regular) (r : Read) :
    ((b.buckets r).ranked.map fun p => (symbol p.2).key).Nodup := by
  have hwalk : ((b.walk r.file).symbols.map Symbol.key).Nodup :=
    Resolver.nodup_keys_resolve (r := b.resolver) h r.file []
  have hcandidates : ((b.candidates r.file).map Symbol.key).Nodup :=
    (List.filter_sublist.map Symbol.key).nodup hwalk
  have hsorted : ((b.sorted r).ranked.map fun p => (symbol p.2).key).Nodup := by
    have hperm := (b.ranked_sorted_perm r).map Symbol.key
    rw [List.map_map] at hperm
    exact hperm.nodup_iff.mpr hcandidates
  exact ((b.ranked_buckets_sublist r).map _).nodup hsorted

end Builder

/-- Over such an extractor a walk finds no key twice. So what a read leaves out of a budget that is
positive is what the budget refused, and it is exceeded just if something is left out. -/
theorem regular_left_out_for_budget {s : Source} (h : s.Regular) :
    (∀ (r : Resolver) (file : String) (visited : List String), r.source = s →
      ((r.resolve file visited).symbols.map Symbol.key).Nodup) ∧
    ∀ (b : Builder) (r : Read), b.source = s → 0 < b.config.budget.maxTokens →
      (b.build r).skippedBarrel = false →
        let p := (b.build r).packing
        let refused := refusedBy b.config.budget.maxTokens (b.buckets r)
        (p.items ++ refused.map Prod.snd).Perm ((b.buckets r).ranked.map Prod.snd) ∧
        p.excluded = refused.length ∧ (p.exceeded ↔ 0 < p.excluded) := by
  constructor
  · rintro r file visited rfl
    exact Resolver.nodup_keys_resolve h file visited
  · rintro b r rfl hbudget hread
    have hkeys := Builder.nodup_keys_ranked_buckets h r
    have hexcluded : (b.packing r).excluded =
        (refusedBy b.config.budget.maxTokens (b.buckets r)).length := excluded_pack hkeys
    dsimp only
    rw [Builder.packing_build hread]
    refine ⟨pack_append_refusedBy_perm _ hkeys, hexcluded, ?_⟩
    rw [hexcluded, List.length_pos_iff]
    have hexceeded : (b.packing r).exceeded ↔ b.config.budget.maxTokens ≤ 0 ∨
        refusedBy b.config.budget.maxTokens (b.buckets r) ≠ [] := exceeded_pack_iff
    rw [hexceeded]
    exact or_iff_right (by omega)

/-- A budget for two of the three declarations, which all have one name. -/
theorem homonyms_one_left_out :
    let b : Builder := ⟨homonyms, { budget := { maxTokens := 12 } }, "/", .top, Scan.references⟩
    let r : Read := ⟨"/p/a", none⟩
    b.source.Regular ∧ 0 < b.config.budget.maxTokens ∧ (b.build r).skippedBarrel = false ∧
    ((b.resolver.resolve "/p/a" []).symbols.map Symbol.key).Nodup ∧
    (b.build r).packing.excluded = (refusedBy 12 (b.buckets r)).length ∧
    (refusedBy 12 (b.buckets r)).map (fun p => p.2.key) = [(some "./q/b", "Item")] := by
  intro b r
  have hread : (b.build r).skippedBarrel = false := by decide +kernel
  obtain ⟨hwalk, hleft⟩ := regular_left_out_for_budget homonyms_regular
  obtain ⟨-, hexcluded, -⟩ := hleft b r rfl (by decide) hread
  exact ⟨homonyms_regular, by decide, hread, hwalk b.resolver "/p/a" [] rfl, hexcluded,
    by decide +kernel⟩

end SignatureContext
