import SignatureContext.Proofs.Walk.Provenance

/-! Which of several imports of one file decides what the walk finds in it: the first one on the
way, however many follow. -/
namespace SignatureContext.Resolver

namespace Tour
variable {r : Resolver} {n : ℕ} {depth : ℤ} {es es' : List ImportEdge} {visited : List String}
  {as : List Arrival}

theorem split (h : r.Tour (n + 1) depth (es ++ es') visited as) :
    ∃ front back, as = front ++ back ∧ r.Tour (n + 1) depth es visited front ∧
      r.Tour (n + 1) depth es' (visited ++ front.map Arrival.file) back := by
  induction es generalizing visited as with
  | nil => exact ⟨[], as, rfl, .done n depth visited, by simpa using h⟩
  | cons e es ih =>
    cases h with
    | skip hseen rest =>
      obtain ⟨front, back, rfl, hfront, hback⟩ := ih rest
      exact ⟨front, back, rfl, .skip hseen hfront, hback⟩
    | @arrive _ _ _ _ _ g below _ hg hnew descent rest =>
      obtain ⟨front, back, rfl, hfront, hback⟩ := ih rest
      refine ⟨_, back, ?_, .arrive hg hnew descent hfront, ?_⟩
      · simp
      · simpa using hback

end Tour

/-- The walk from an entry file comes to `a.file` for the first time along `a.edge`. -/
def Arrives (r : Resolver) (file : String) (a : Arrival) : Prop :=
  ∃ as, r.Tour r.maxDepth 0 (r.edges (Path.normalize file)) [Path.normalize file] as ∧ a ∈ as

theorem resolveImports_tour (r : Resolver) (es : List ImportEdge) (visited : List String) :
    ∃ as, r.Tour r.maxDepth 0 es visited as ∧
      (r.resolveImports es 0 visited).visited = visited ++ as.map Arrival.file := by
  obtain ⟨as, htour, hgains⟩ := r.follow_tour r.maxDepth 0 es { visited }
  refine ⟨as, htour, ?_⟩
  unfold resolveImports
  rw [Int.sub_zero, Int.toNat_natCast]
  exact hgains.visited

theorem TourOf.tour_from_entry {r : Resolver} {file : String} {as : List Arrival}
    (h : r.TourOf file [] as) :
    r.Tour r.maxDepth 0 (r.edges (Path.normalize file)) [Path.normalize file] as := by
  have htour := h.tour
  rw [Walk.visit_of_not_mem List.not_mem_nil] at htour
  exact htour

theorem TourOf.mem_of_arrives {r : Resolver} {file : String} {as : List Arrival}
    (h : r.TourOf file [] as) {a : Arrival} (ha : r.Arrives file a) : a ∈ as := by
  obtain ⟨bs, hbs, ha⟩ := ha
  cases hbs.unique h.tour_from_entry
  exact ha

theorem Arrives.unique {r : Resolver} {file : String} {a b : Arrival} (ha : r.Arrives file a)
    (hb : r.Arrives file b) (hfile : a.file = b.file) : a = b := by
  obtain ⟨as, htour, ha⟩ := ha
  obtain ⟨bs, htour', hb⟩ := hb
  cases htour.unique htour'
  exact List.inj_on_of_nodup_map htour.nodup ha hb hfile

/-- An import of the entry file comes first to its target, unless those before it led there. -/
theorem arrives_of_not_mem_before {r : Resolver} {file : String} {before after : List ImportEdge}
    {e : ImportEdge} {g : String} (hdepth : 1 ≤ r.maxDepth)
    (hsplit : r.edges (Path.normalize file) = before ++ e :: after) (hg : r.target? e = some g)
    (hnew : g ∉ (r.resolveImports before 0 [Path.normalize file]).visited) :
    r.Arrives file ⟨e, g, 1⟩ := by
  obtain ⟨as, htour⟩ := r.exists_tourOf file []
  obtain ⟨n, hn⟩ : ∃ n, r.maxDepth = n + 1 := ⟨r.maxDepth - 1, by omega⟩
  have hentry := htour.tour_from_entry
  -- the imports before `e` make a tour of their own, and it visits what they visit
  have hwhole := hentry
  rw [hn, hsplit] at hwhole
  obtain ⟨front, back, rfl, hfront, hback⟩ := hwhole.split
  obtain ⟨bs, hbefore, hvisited⟩ := r.resolveImports_tour before [Path.normalize file]
  rw [hn] at hbefore
  cases hfront.unique hbefore
  rw [← hvisited] at hback
  cases hback with
  | skip hseen => exact absurd (hseen g hg) hnew
  | arrive hg' =>
    cases Option.some.inj (hg.symm.trans hg')
    exact ⟨_, hentry, List.mem_append_right _ List.mem_cons_self⟩

theorem TourOf.exists_arrives {r : Resolver} {file g : String} {e : ImportEdge}
    {as : List Arrival} (h : r.TourOf file [] as) (hdepth : 1 ≤ r.maxDepth)
    (hop : r.Imports (Path.normalize file) e g) (hne : g ≠ Path.normalize file) :
    ∃ a, r.Arrives file a ∧ a.file = g := by
  obtain ⟨he, hg⟩ := imports_iff.mp hop
  have hvisited := h.tour_from_entry.covers_imports (by omega) e he g hg
  rcases List.mem_append.mp hvisited with hentry | hmem
  · exact absurd (List.mem_singleton.mp hentry) hne
  · obtain ⟨a, ha, hfile⟩ := List.mem_map.mp hmem
    exact ⟨a, ⟨as, h.tour_from_entry, ha⟩, hfile⟩

/-- An arrival adds what its import admits of the file. -/
theorem TourOf.found_mem_symbols {r : Resolver} {file : String} {as : List Arrival} {a : Arrival}
    {x : Extraction} {t : Symbol} (h : r.TourOf file [] as) (ha : r.Arrives file a)
    (hx : r.source.extract a.file = .ok x) (ht : t ∈ x.symbols) (hadmits : a.edge.admits t) :
    t.found (Path.relative r.cwd r.root a.file) a.depth ∈ (r.resolve file []).symbols := by
  have hblock : t.found (Path.relative r.cwd r.root a.file) a.depth ∈ r.block a :=
    List.mem_map_of_mem (List.mem_filter.mpr ⟨mem_declared.mpr ⟨x, hx, ht⟩, hadmits⟩)
  rw [h.symbols_eq]
  exact List.mem_append_right _ (List.mem_flatMap.mpr ⟨a, h.mem_of_arrives ha, hblock⟩)

/-- The walk finds in a file that the entry file imports what the import admits by which it first
came there: that of the entry file, unless the imports before it led there already. -/
theorem symbols_of_first_import {r : Resolver} {file g : String} {e : ImportEdge} {x : Extraction}
    (hdepth : 1 ≤ r.maxDepth) (hop : r.Imports (Path.normalize file) e g)
    (hne : g ≠ Path.normalize file) (hx : r.source.extract g = .ok x) :
    ∃ (a : Arrival) (origin : String),
      (r.Arrives file a ∧ a.file = g ∧ ∀ b, r.Arrives file b → b.file = g → b = a) ∧
      (∃ (n : ℕ) (f : String), r.Hops (Path.normalize file) n f ∧ r.Imports f a.edge g ∧
        n + 1 ≤ r.maxDepth ∧ a.depth = (n + 1 : ℕ)) ∧
      Path.relative? r.cwd r.root g = some origin ∧
      (∀ t ∈ x.symbols, a.edge.names = [] ∨ t.name ∈ a.edge.names →
        { t with origin := some origin, depth := some a.depth } ∈ (r.resolve file []).symbols) ∧
      ∀ before after, r.edges (Path.normalize file) = before ++ e :: after →
        g ∉ (r.resolveImports before 0 [Path.normalize file]).visited → a = ⟨e, g, 1⟩ := by
  obtain ⟨as, h⟩ := r.exists_tourOf file []
  obtain ⟨a, ha, rfl⟩ := h.exists_arrives hdepth hop hne
  obtain ⟨n, f, hf, himports, hn⟩ := h.hops a (h.mem_of_arrives ha)
  have hbound := (h.tour.depth_bounds a (h.mem_of_arrives ha)).2
  refine ⟨a, Path.relative r.cwd r.root a.file, ⟨ha, rfl, fun b hb hfile => hb.unique ha hfile⟩,
    ⟨n, f, hf, himports, by omega, hn⟩, relative?_of_imports hop, ?_, ?_⟩
  · intro t ht hadmits
    exact h.found_mem_symbols ha hx ht (ImportEdge.admits_iff.mpr hadmits)
  · intro before after hsplit hnew
    have hfirst := arrives_of_not_mem_before hdepth hsplit (imports_iff.mp hop).2 hnew
    exact ha.unique hfirst rfl

def typeA : Symbol := { kind := .typeAlias, name := "A", signature := "type A = string" }

def typeB : Symbol := { kind := .typeAlias, name := "B", signature := "type B = number" }

/-- An import of `/t` in `/a` by name. -/
def importOf (name : String) : ImportEdge :=
  { source := "/a", specifier := "./t", target := some "/t", names := [name] }

/-- The file `/a` imports one type of `/t` by one statement and the other by the next. -/
def twice : Resolver where
  source := ((Registry.empty.put "/a" (some ⟨[], [importOf "A", importOf "B"], none⟩)).put
    "/t" (some ⟨[typeA, typeB], [], none⟩)).source [] []
  maxDepth := 1
  typeOnly := true
  root := "/"
  cwd := .top

/-- The first of the two statements finds its type. -/
theorem first_of_two_imports_finds :
    1 ≤ twice.maxDepth ∧ twice.Imports (Path.normalize "/a") (importOf "A") "/t" ∧
      "/t" ≠ Path.normalize "/a" ∧ (∃ x, twice.source.extract "/t" = .ok x ∧ typeA ∈ x.symbols) ∧
      typeA.found "./t" 1 ∈ (twice.resolve "/a" []).symbols := by
  have hop : twice.Imports (Path.normalize "/a") (importOf "A") "/t" :=
    imports_iff.mpr ⟨by decide +kernel, by decide +kernel⟩
  have hne : "/t" ≠ Path.normalize "/a" := by decide +kernel
  obtain ⟨x, hx, ht⟩ := mem_declared.mp (show typeA ∈ twice.declared "/t" by decide +kernel)
  obtain ⟨a, origin, _, _, horigin, hfound, hfirst⟩ := symbols_of_first_import le_rfl hop hne hx
  cases hfirst [] [importOf "B"] (by decide +kernel) (by decide +kernel)
  have hroot : Path.relative? twice.cwd twice.root "/t" = some "./t" := by decide +kernel
  cases Option.some.inj (hroot.symm.trans horigin)
  exact ⟨le_rfl, hop, hne, ⟨x, hx, ht⟩, hfound typeA ht (Or.inr (by decide))⟩

/-- The second of the two statements does not find its type. -/
theorem second_of_two_imports_misses :
    ¬ ∀ e g x, twice.Imports (Path.normalize "/a") e g → g ≠ Path.normalize "/a" →
      twice.source.extract g = .ok x → ∀ t ∈ x.symbols, e.names = [] ∨ t.name ∈ e.names →
        ∃ s ∈ (twice.resolve "/a" []).symbols, s.name = t.name ∧
          s.origin = Path.relative? twice.cwd twice.root g := by
  intro h
  have hop : twice.Imports (Path.normalize "/a") (importOf "B") "/t" :=
    imports_iff.mpr ⟨by decide +kernel, by decide +kernel⟩
  obtain ⟨x, hx, ht⟩ := mem_declared.mp (show typeB ∈ twice.declared "/t" by decide +kernel)
  obtain ⟨s, hs, hname, _⟩ :=
    h (importOf "B") "/t" x hop (by decide +kernel) hx typeB ht (Or.inr (by decide))
  have hnone : ∀ s ∈ (twice.resolve "/a" []).symbols, s.name ≠ "B" := by decide +kernel
  exact hnone s hs hname

end SignatureContext.Resolver
