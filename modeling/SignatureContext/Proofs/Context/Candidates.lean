import SignatureContext.Context
import SignatureContext.Proofs.Classify.Partition
import SignatureContext.Proofs.Walk.Origins

/-! On the way from the walk to the packing declarations are only left out, so whatever is packed is
as the walk found it. -/
namespace SignatureContext.Builder
variable {b : Builder} {file : String} {s : Symbol}

theorem allows_of_mem_candidates (hs : s ∈ b.candidates file) : b.config.inject.allows s.kind :=
  (List.mem_filter.mp hs).2

theorem mem_walk_of_mem_candidates (hs : s ∈ b.candidates file) :
    s ∈ (b.resolver.resolve file []).symbols :=
  (List.mem_filter.mp hs).1

/-- A candidate without an origin is of the file that is read, any other one is some hops away. -/
theorem origin_of_mem_candidates (h : b.source.Unannotated) (hs : s ∈ b.candidates file) :
    (s.origin = none ∧ s ∈ b.resolver.declared (Path.normalize file)) ∨
      ∃ (path : String) (d : ℤ),
        s.origin = some (Path.relative b.cwd b.root (Path.normalize path)) ∧
        s.depth = some d ∧ 1 ≤ d ∧ d ≤ b.config.imports.effectiveDepth := by
  rcases Resolver.origin_of_mem_resolve (mem_walk_of_mem_candidates hs) with hentry | hfound
  · exact Or.inl ⟨(Resolver.declared_unannotated (r := b.resolver) h hentry).1, hentry⟩
  · exact Or.inr hfound

theorem ranked_buckets_sublist (b : Builder) (r : Read) :
    (b.buckets r).ranked.Sublist (b.sorted r).ranked := by
  unfold buckets
  split_ifs
  · exact Buckets.ranked_drop_sublist _ _
  · exact List.Sublist.refl _

theorem ranked_sorted_perm (b : Builder) (r : Read) :
    ((b.sorted r).ranked.map Prod.snd).Perm (b.candidates r.file) :=
  (b.reach r).ranked_sort_perm (b.candidates r.file)

theorem mem_candidates_of_mem_ranked {r : Read} {p : Tier × Symbol}
    (hp : p ∈ (b.buckets r).ranked) : p.2 ∈ b.candidates r.file := by
  have hsorted : p ∈ (b.sorted r).ranked := (b.ranked_buckets_sublist r).subset hp
  exact (b.ranked_sorted_perm r).mem_iff.mp (List.mem_map_of_mem hsorted)

theorem packing_build {r : Read} (h : (b.build r).skippedBarrel = false) :
    (b.build r).packing = b.packing r := by
  unfold build at h ⊢
  split_ifs at h ⊢
  rfl

end SignatureContext.Builder
