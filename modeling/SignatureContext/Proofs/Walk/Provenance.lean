import SignatureContext.Proofs.Walk.Reach

/-! Where the declarations found by a walk come from. -/
namespace SignatureContext

theorem ImportEdge.admits_iff {e : ImportEdge} {s : Symbol} :
    e.admits s ↔ e.names = [] ∨ s.name ∈ e.names := by
  unfold admits
  rw [Bool.or_eq_true, List.isEmpty_iff, List.contains_iff_mem]

namespace Resolver

/-- The declaration `s` is one of a file `g` to which `n + 1` imports lead from the entry, the last
of them admits it, and nothing but its origin and its depth was written into it. -/
def Traced (r : Resolver) (entry : String) (s : Symbol) : Prop :=
  ∃ (n : ℕ) (f g : String) (e : ImportEdge) (x : Extraction) (t : Symbol) (origin : String),
    r.Hops entry n f ∧ r.Imports f e g ∧ r.source.extract g = .ok x ∧ n + 1 ≤ r.maxDepth ∧
    t ∈ x.symbols ∧ (e.names = [] ∨ t.name ∈ e.names) ∧
      Path.relative? r.cwd r.root g = some origin ∧
    s = { t with origin := some origin, depth := some (n + 1 : ℕ) }

theorem relative?_of_imports {r : Resolver} {f g : String} {e : ImportEdge}
    (h : r.Imports f e g) :
    Path.relative? r.cwd r.root g = some (Path.relative r.cwd r.root g) := by
  obtain ⟨x, _, _, hg⟩ := h
  obtain ⟨_, path, _, rfl⟩ := target?_eq_some hg
  exact Path.relative?_normalize r.cwd r.root path

theorem TourOf.traced {r : Resolver} {file : String} {visited : List String} {as : List Arrival}
    (h : r.TourOf file visited as) :
    ∀ s ∈ as.flatMap r.block, r.Traced (Path.normalize file) s := by
  intro s hs
  obtain ⟨a, ha, hblock⟩ := List.mem_flatMap.mp hs
  obtain ⟨t, ht, rfl⟩ := List.mem_map.mp hblock
  obtain ⟨hdeclared, hadmits⟩ := List.mem_filter.mp ht
  obtain ⟨x, hx, hmem⟩ := mem_declared.mp hdeclared
  obtain ⟨n, f, hf, hop, hdepth⟩ := h.hops a ha
  have hbound := (h.tour.depth_bounds a ha).2
  refine ⟨n, f, a.file, a.edge, x, t, Path.relative r.cwd r.root a.file, hf, hop, hx, by omega,
    hmem,
    ImportEdge.admits_iff.mp hadmits, relative?_of_imports hop, ?_⟩
  rw [hdepth]
  rfl

/-- What the entry file declares comes first and unchanged. What follows was found in files that a
chain of imports leads to, one chain for each declaration. -/
theorem resolve_traced (r : Resolver) (file : String) (visited : List String) :
    (∀ fault, r.source.extract (Path.normalize file) = .error fault →
      (r.resolve file visited).symbols = []) ∧
    ∀ x, r.source.extract (Path.normalize file) = .ok x →
      ∃ found, (r.resolve file visited).symbols = x.symbols ++ found ∧
        ∀ s ∈ found, r.Traced (Path.normalize file) s := by
  obtain ⟨as, h⟩ := r.exists_tourOf file visited
  constructor
  · intro fault hx
    have htour := h.tour
    rw [show r.edges (Path.normalize file) = [] by simp [edges, hx]] at htour
    rw [h.symbols_eq, htour.eq_nil]
    simp [declared, hx]
  · intro x hx
    refine ⟨as.flatMap r.block, ?_, h.traced⟩
    rw [h.symbols_eq]
    simp [declared, hx]

end Resolver

end SignatureContext
