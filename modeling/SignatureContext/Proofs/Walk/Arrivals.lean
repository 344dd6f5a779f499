import SignatureContext.Proofs.Walk.Tour

/-! What holds of the arrivals of a tour, and so of every walk from an entry file. -/
namespace SignatureContext.Resolver

namespace Tour

theorem eq_nil {r : Resolver} {n : ℕ} {depth : ℤ} {visited : List String} {as : List Arrival}
    (h : r.Tour n depth [] visited as) : as = [] := by
  cases h <;> rfl

variable {r : Resolver} {n : ℕ} {depth : ℤ} {es : List ImportEdge} {visited : List String}
  {as : List Arrival}

/-- What is visited and what remains decide all arrivals. -/
theorem unique {bs : List Arrival} (h : r.Tour n depth es visited as)
    (h' : r.Tour n depth es visited bs) : as = bs := by
  induction h generalizing bs with
  | stop => cases h' with
    | stop => rfl
  | done => cases h' with
    | done => rfl
  | skip hseen _ ih => cases h' with
    | skip _ rest' => exact ih rest'
    | arrive hg hnew => exact absurd (hseen _ hg) hnew
  | arrive hg hnew _ _ ihbelow ihrest => cases h' with
    | skip hseen => exact absurd (hseen _ hg) hnew
    | arrive hg' _ descent' rest' =>
      cases Option.some.inj (hg.symm.trans hg')
      cases ihbelow descent'
      cases ihrest rest'
      rfl

theorem not_mem_visited (h : r.Tour n depth es visited as) : ∀ a ∈ as, a.file ∉ visited := by
  induction h with
  | stop => simp
  | done => simp
  | skip hseen rest ih => exact ih
  | arrive hg hnew descent rest ihbelow ihrest =>
    rw [List.forall_mem_cons, List.forall_mem_append]
    refine ⟨hnew, ?_, ?_⟩
    · exact fun a ha hv => ihbelow a ha (List.mem_append_left _ hv)
    · exact fun a ha hv => ihrest a ha (List.mem_append_left _ hv)

/-- Only targets of imports are arrived at, so only normal forms of paths. -/
theorem target (h : r.Tour n depth es visited as) :
    ∀ a ∈ as, r.target? a.edge = some a.file := by
  induction h with
  | stop => simp
  | done => simp
  | skip hseen rest ih => exact ih
  | arrive hg hnew descent rest ihbelow ihrest =>
    rw [List.forall_mem_cons, List.forall_mem_append]
    exact ⟨hg, ihbelow, ihrest⟩

/-- No file is arrived at twice. -/
theorem nodup (h : r.Tour n depth es visited as) : (as.map Arrival.file).Nodup := by
  induction h with
  | stop => simp
  | done => simp
  | skip hseen rest ih => exact ih
  | @arrive n depth e es visited g below as hg hnew descent rest ihbelow ihrest =>
    have hbelow : ∀ a ∈ below, a.file ≠ g := fun a ha heq =>
      descent.not_mem_visited a ha (by simp [heq])
    have hrest : ∀ a ∈ as, a.file ∉ g :: below.map Arrival.file := fun a ha hmem =>
      rest.not_mem_visited a ha (List.mem_append_right _ hmem)
    rw [List.map_cons, List.map_append, List.nodup_cons, List.nodup_append]
    refine ⟨?_, ihbelow, ihrest, ?_⟩
    · intro hmem
      rcases List.mem_append.mp hmem with hmem | hmem
      · obtain ⟨a, ha, heq⟩ := List.mem_map.mp hmem
        exact hbelow a ha heq
      · obtain ⟨a, ha, heq⟩ := List.mem_map.mp hmem
        exact hrest a ha (by simp [heq])
    · intro f hf f' hf' heq
      obtain ⟨a, ha, rfl⟩ := List.mem_map.mp hf'
      exact hrest a ha (by rw [← heq]; exact List.mem_cons_of_mem _ hf)

/-- Arrivals lie below the file they start from, and no further than the hops that remain. -/
theorem depth_bounds (h : r.Tour n depth es visited as) :
    ∀ a ∈ as, depth < a.depth ∧ a.depth ≤ depth + n := by
  induction h with
  | stop => simp
  | done => simp
  | skip hseen rest ih => exact ih
  | arrive hg hnew descent rest ihbelow ihrest =>
    rw [List.forall_mem_cons, List.forall_mem_append]
    refine ⟨?_, ?_, ihrest⟩
    · dsimp only
      omega
    · intro a ha
      have := ihbelow a ha
      omega

/-- Each hop costs an arrival. -/
theorem depth_le_length (h : r.Tour n depth es visited as) :
    ∀ a ∈ as, a.depth ≤ depth + as.length := by
  induction h with
  | stop => simp
  | done => simp
  | skip hseen rest ih => exact ih
  | arrive hg hnew descent rest ihbelow ihrest =>
    rw [List.length_cons, List.length_append, List.forall_mem_cons, List.forall_mem_append]
    refine ⟨?_, ?_, ?_⟩
    · dsimp only
      omega
    · intro a ha
      have := ihbelow a ha
      omega
    · intro a ha
      have := ihrest a ha
      omega

private theorem below_subset {e : ImportEdge} {g : String} (below as : List Arrival) :
    visited ++ [g] ++ below.map Arrival.file ⊆
      visited ++ (⟨e, g, depth⟩ :: (below ++ as)).map Arrival.file := by
  intro p hp
  simp only [List.map_cons, List.map_append, List.mem_append, List.mem_cons] at hp ⊢
  tauto

private theorem rest_subset {e : ImportEdge} {g : String} (below as : List Arrival) :
    visited ++ g :: below.map Arrival.file ++ as.map Arrival.file ⊆
      visited ++ (⟨e, g, depth⟩ :: (below ++ as)).map Arrival.file := by
  intro p hp
  simp only [List.map_cons, List.map_append, List.mem_append, List.mem_cons] at hp ⊢
  tauto

/-- As long as a hop remains, the imports that a tour starts from are all visited at its end. -/
theorem covers_imports (h : r.Tour n depth es visited as) (hn : n ≠ 0) :
    ∀ e ∈ es, ∀ g, r.target? e = some g → g ∈ visited ++ as.map Arrival.file := by
  induction h with
  | stop => exact absurd rfl hn
  | done => simp
  | skip hseen rest ih =>
    intro e he g hg
    rcases List.mem_cons.mp he with rfl | he
    · exact List.mem_append_left _ (hseen g hg)
    · exact ih hn e he g hg
  | @arrive n depth e es visited g below as hg hnew descent rest ihbelow ihrest =>
    intro e' he g' hg'
    rcases List.mem_cons.mp he with rfl | he
    · have heq : g = g' := by simpa [hg] using hg'
      simp [heq]
    · exact rest_subset below as (ihrest hn e' he g' hg')

/-- What a file arrived at imports is visited at the end, unless the file lies at the last hop. -/
theorem covers_arrivals (h : r.Tour n depth es visited as) :
    ∀ a ∈ as, a.depth < depth + n → ∀ e ∈ r.edges a.file, ∀ g, r.target? e = some g →
      g ∈ visited ++ as.map Arrival.file := by
  induction h with
  | stop => simp
  | done => simp
  | skip hseen rest ih => exact ih
  | @arrive n depth e es visited g below as hg hnew descent rest ihbelow ihrest =>
    rw [List.forall_mem_cons, List.forall_mem_append]
    refine ⟨?_, ?_, ?_⟩
    · intro hdepth e' he g' hg'
      have hn : n ≠ 0 := by
        dsimp only at hdepth
        omega
      exact below_subset below as (descent.covers_imports hn e' he g' hg')
    · intro a ha hdepth e' he g' hg'
      exact below_subset below as (ihbelow a ha (by omega) e' he g' hg')
    · intro a ha hdepth e' he g' hg'
      exact rest_subset below as (ihrest a ha hdepth e' he g' hg')

end Tour

/-- The walk from an entry file is the tour `as` behind what the file itself declares. -/
structure TourOf (r : Resolver) (file : String) (visited : List String) (as : List Arrival) :
    Prop where
  tour : r.Tour r.maxDepth 0 (r.edges (Path.normalize file))
    (Walk.visit { visited } (Path.normalize file)).visited as
  visited_eq : (r.resolve file visited).visited =
    (Walk.visit { visited } (Path.normalize file)).visited ++ as.map Arrival.file
  symbols_eq : (r.resolve file visited).symbols =
    r.declared (Path.normalize file) ++ as.flatMap r.block
  reached_eq : r.reached file visited =
    (Path.normalize file, 0) :: as.map fun a => (a.file, a.depth)
  attempts : r.attempts file visited = Path.normalize file :: as.map Arrival.file

theorem exists_tourOf (r : Resolver) (file : String) (visited : List String) :
    ∃ as, r.TourOf file visited as := by
  let start := Walk.visit { visited } (Path.normalize file)
  let handed := (r.extract start (Path.normalize file)).2
  obtain ⟨as, htour, hgains⟩ := r.follow_tour r.maxDepth 0 (r.edges (Path.normalize file))
    (handed.collect (r.declared (Path.normalize file)))
  have hresolve : r.Gains (handed.collect (r.declared (Path.normalize file)))
      (r.resolve file visited) as := by
    unfold resolve
    unfold edges declared at hgains
    cases hx : r.source.extract (Path.normalize file) with
    | ok x => simpa [declared, handed, start, extract, hx] using hgains
    | error fault =>
      rw [hx] at hgains
      simp only [follow_nil] at hgains
      simpa [declared, handed, start, extract, hx, Walk.collect] using hgains.note rfl
  have hstart : start.symbols = [] ∧ start.events = [] ∧ start.extracted = [] := by
    unfold start Walk.visit
    split <;> exact ⟨rfl, rfl, rfl⟩
  refine ⟨as, htour, hresolve.visited, ?_, ?_, ?_⟩
  · simpa [handed, extract, Walk.collect, hstart] using hresolve.symbols
  · unfold reached
    rw [hresolve.reached]
    simp [handed, extract, Walk.collect, Walk.reached, hstart]
  · simpa [attempts, handed, extract, Walk.collect, hstart] using hresolve.extracted

theorem attempts_eq_map_reached (r : Resolver) (file : String) (visited : List String) :
    r.attempts file visited = (r.reached file visited).map Prod.fst := by
  obtain ⟨as, h⟩ := r.exists_tourOf file visited
  rw [h.attempts, h.reached_eq, List.map_cons, List.map_map]
  rfl

namespace TourOf
variable {r : Resolver} {file : String} {visited : List String} {as : List Arrival}

theorem mem_visited (h : r.TourOf file visited as) {p : String} :
    p ∈ (r.resolve file visited).visited ↔ p ∈ visited ∨ p ∈ r.attempts file visited := by
  rw [h.visited_eq, h.attempts, List.mem_append, Walk.mem_visited_visit, List.mem_cons, or_assoc]

theorem ne_entry (h : r.TourOf file visited as) : ∀ a ∈ as, a.file ≠ Path.normalize file :=
  fun a ha heq => h.tour.not_mem_visited a ha (Walk.mem_visited_visit.mpr (Or.inr heq))

theorem not_mem_visited (h : r.TourOf file visited as) : ∀ a ∈ as, a.file ∉ visited :=
  fun a ha hv => h.tour.not_mem_visited a ha (Walk.mem_visited_visit.mpr (Or.inl hv))

theorem nodup_attempts (h : r.TourOf file visited as) : (r.attempts file visited).Nodup := by
  rw [h.attempts, List.nodup_cons]
  refine ⟨fun hmem => ?_, h.tour.nodup⟩
  obtain ⟨a, ha, heq⟩ := List.mem_map.mp hmem
  exact h.ne_entry a ha heq

end TourOf

end SignatureContext.Resolver
