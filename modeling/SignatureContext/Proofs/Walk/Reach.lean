import SignatureContext.Proofs.Registry
import SignatureContext.Proofs.Walk.Arrivals
import Mathlib.Data.Set.Card

/-! Which files a walk reaches, against the graph of imports. A walk never goes further than it may.
What it may miss lies behind files that it reached at its last hop and not by a shortest way. -/
namespace SignatureContext.Resolver

/-- The file `f` can be extracted, and its import `e` leads to `g`. -/
def Imports (r : Resolver) (f : String) (e : ImportEdge) (g : String) : Prop :=
  ∃ x, r.source.extract f = .ok x ∧ e ∈ x.edges ∧ r.target? e = some g

theorem imports_iff {r : Resolver} {f g : String} {e : ImportEdge} :
    r.Imports f e g ↔ e ∈ r.edges f ∧ r.target? e = some g := by
  rw [mem_edges]
  constructor
  · rintro ⟨x, hx, he, hg⟩
    exact ⟨⟨x, hx, he⟩, hg⟩
  · rintro ⟨⟨x, hx, he⟩, hg⟩
    exact ⟨x, hx, he, hg⟩

/-- A way of exactly `n` imports from the entry file to another. -/
inductive Hops (r : Resolver) (entry : String) : ℕ → String → Prop
  | entry : Hops r entry 0 entry
  | step {n : ℕ} {f g : String} {e : ImportEdge} (h : Hops r entry n f) (hop : r.Imports f e g) :
      Hops r entry (n + 1) g

/-- Each arrival of a tour lies at the end of a way through the graph that is as long as its depth
says, and whose last import is the one that led to it. -/
theorem Tour.hops {r : Resolver} {entry f : String} {n k : ℕ} {depth : ℤ} {es : List ImportEdge}
    {visited : List String} {as : List Arrival} (h : r.Tour n depth es visited as)
    (hdepth : depth = k) (hf : r.Hops entry k f) (hes : es ⊆ r.edges f) :
    ∀ a ∈ as, ∃ (m : ℕ) (g : String), r.Hops entry m g ∧ r.Imports g a.edge a.file ∧
      a.depth = (m + 1 : ℕ) := by
  induction h generalizing f k with
  | stop => simp
  | done => simp
  | skip hseen rest ih => exact ih hdepth hf (List.subset_of_cons_subset hes)
  | @arrive n depth e es visited g below as hg hnew descent rest ihbelow ihrest =>
    have hop : r.Imports f e g := imports_iff.mpr ⟨hes List.mem_cons_self, hg⟩
    have hdepth' : depth + 1 = (k + 1 : ℕ) := by rw [hdepth]; rfl
    rw [List.forall_mem_cons, List.forall_mem_append]
    refine ⟨⟨k, f, hf, hop, hdepth'⟩, ?_, ?_⟩
    · exact ihbelow hdepth' (hf.step hop) (List.Subset.refl _)
    · exact ihrest hdepth hf (List.subset_of_cons_subset hes)

namespace TourOf
variable {r : Resolver} {file : String} {visited : List String} {as : List Arrival}

theorem hops (h : r.TourOf file visited as) :
    ∀ a ∈ as, ∃ (m : ℕ) (g : String), r.Hops (Path.normalize file) m g ∧
      r.Imports g a.edge a.file ∧ a.depth = (m + 1 : ℕ) :=
  h.tour.hops rfl .entry (List.Subset.refl _)

theorem mem_reached (h : r.TourOf file visited as) {f : String} {d : ℤ} :
    (f, d) ∈ r.reached file visited ↔
      (f = Path.normalize file ∧ d = 0) ∨ ∃ a ∈ as, a.file = f ∧ a.depth = d := by
  rw [h.reached_eq, List.mem_cons, List.mem_map]
  simp only [Prod.mk.injEq]

/-- A file is reached by a way through the graph that is as long as the walk says. -/
theorem hops_of_mem_reached (h : r.TourOf file visited as) {f : String} {d : ℤ}
    (hf : (f, d) ∈ r.reached file visited) :
    ∃ n : ℕ, d = n ∧ n ≤ r.maxDepth ∧ r.Hops (Path.normalize file) n f := by
  rcases h.mem_reached.mp hf with ⟨rfl, rfl⟩ | ⟨a, ha, rfl, rfl⟩
  · exact ⟨0, rfl, Nat.zero_le _, .entry⟩
  · obtain ⟨m, g, hg, hop, hdepth⟩ := h.hops a ha
    have hbound := (h.tour.depth_bounds a ha).2
    exact ⟨m + 1, hdepth, by omega, hg.step hop⟩

theorem mem_visited_iff_reached (h : r.TourOf file [] as) {p : String} :
    p ∈ (r.resolve file []).visited ↔ ∃ d, (p, d) ∈ r.reached file [] := by
  rw [h.mem_visited, attempts_eq_map_reached, List.mem_map]
  simp

/-- What a file reached before the last hop imports has been visited in the end. -/
theorem closed (h : r.TourOf file visited as) {f g : String} {d : ℤ} {e : ImportEdge}
    (hf : (f, d) ∈ r.reached file visited) (hd : d < r.maxDepth) (hop : r.Imports f e g) :
    g ∈ (r.resolve file visited).visited := by
  obtain ⟨he, hg⟩ := imports_iff.mp hop
  rw [h.visited_eq]
  rcases h.mem_reached.mp hf with ⟨rfl, rfl⟩ | ⟨a, ha, rfl, rfl⟩
  · exact h.tour.covers_imports (by omega) e he g hg
  · exact h.tour.covers_arrivals a ha (by omega) e he g hg

/-- No file is deeper than the number of files reached before it. -/
theorem depth_lt_length (h : r.TourOf file visited as) {f : String} {d : ℤ}
    (hf : (f, d) ∈ r.reached file visited) : d < (r.attempts file visited).length := by
  rw [h.attempts, List.length_cons, List.length_map]
  rcases h.mem_reached.mp hf with ⟨rfl, rfl⟩ | ⟨a, ha, rfl, rfl⟩
  · omega
  · have := h.tour.depth_le_length a ha
    omega

end TourOf

/-- A set of files that has the entry, and with a file nearer than `bound` all its imports, has
every file within `bound` hops. -/
theorem Hops.mem_of_closed {r : Resolver} {entry : String} {files : List String} {bound : ℕ}
    (hentry : entry ∈ files)
    (hclosed : ∀ n f, n < bound → r.Hops entry n f → f ∈ files →
      ∀ e g, r.Imports f e g → g ∈ files)
    {n : ℕ} {p : String} (h : r.Hops entry n p) (hn : n ≤ bound) : p ∈ files := by
  induction h with
  | entry => exact hentry
  | step h hop ih => exact hclosed _ _ (by omega) h (ih (by omega)) _ _ hop

theorem entry_mem_visited (r : Resolver) (file : String) (visited : List String) :
    Path.normalize file ∈ (r.resolve file visited).visited := by
  obtain ⟨as, h⟩ := r.exists_tourOf file visited
  exact h.mem_visited.mpr (Or.inr (h.attempts ▸ List.mem_cons_self))

/-- A walk visits only files within its hops. It visits all of them exactly if every file that it
reached at its last hop, although a shorter way leads there, has all its imports visited. -/
theorem visited_iff_hops (r : Resolver) (file : String) :
    (∀ p ∈ (r.resolve file []).visited, ∃ n ≤ r.maxDepth, r.Hops (Path.normalize file) n p) ∧
    ((∀ p, p ∈ (r.resolve file []).visited ↔
        ∃ n ≤ r.maxDepth, r.Hops (Path.normalize file) n p) ↔
      ∀ f n, (f, (r.maxDepth : ℤ)) ∈ r.reached file [] → n < r.maxDepth →
        r.Hops (Path.normalize file) n f →
        ∀ e g, r.Imports f e g → g ∈ (r.resolve file []).visited) := by
  obtain ⟨as, h⟩ := r.exists_tourOf file []
  have hwithin : ∀ p ∈ (r.resolve file []).visited,
      ∃ n ≤ r.maxDepth, r.Hops (Path.normalize file) n p := by
    intro p hp
    obtain ⟨d, hd⟩ := h.mem_visited_iff_reached.mp hp
    obtain ⟨n, _, hn, hops⟩ := h.hops_of_mem_reached hd
    exact ⟨n, hn, hops⟩
  refine ⟨hwithin, ?_, ?_⟩
  · intro hall f n _ hn hops e g hop
    exact (hall g).mpr ⟨n + 1, hn, hops.step hop⟩
  · intro hlast p
    refine ⟨hwithin p, fun ⟨n, hn, hops⟩ => ?_⟩
    refine hops.mem_of_closed (r.entry_mem_visited file []) ?_ hn
    intro m f hm hf hvisited e g hop
    obtain ⟨d, hd⟩ := h.mem_visited_iff_reached.mp hvisited
    obtain ⟨k, rfl, hk, _⟩ := h.hops_of_mem_reached hd
    -- a file reached before the last hop has all its imports visited anyway
    rcases hk.lt_or_eq with hlt | rfl
    · exact h.closed hd (by omega) hop
    · exact hlast f m hd hm hf e g hop

/-- A registered file that imports other files whole and declares nothing. -/
def importing (file : String) (targets : List String) : RegisteredFile where
  symbols := []
  edges := targets.map fun t => { source := file, specifier := "." ++ t, target := some t }
  text := none

/-- Four files in a circle, of which `/a` leads to `/c` by way of `/b` first and then directly. -/
def circle (maxDepth : ℕ) : Resolver where
  source := ((((Registry.empty.put "/a" (importing "/a" ["/b", "/c"])).put
    "/b" (importing "/b" ["/c"])).put "/c" (importing "/c" ["/d"])).put
    "/d" (importing "/d" ["/a"])).source [] []
  maxDepth := maxDepth
  typeOnly := true
  root := "/"
  cwd := .top

/-- With two hops, `/c` is first reached at the second one, and `/d` behind it is missed. -/
theorem circle_misses_file_within_hops :
    ¬ ∀ p, p ∈ ((circle 2).resolve "/a" []).visited ↔
      ∃ n ≤ (circle 2).maxDepth, (circle 2).Hops (Path.normalize "/a") n p := by
  intro h
  have hc : (circle 2).Imports (Path.normalize "/a")
      { source := "/a", specifier := "./c", target := some "/c" } "/c" :=
    imports_iff.mpr ⟨by decide +kernel, by decide +kernel⟩
  have hd : (circle 2).Imports "/c"
      { source := "/c", specifier := "./d", target := some "/d" } "/d" :=
    imports_iff.mpr ⟨by decide +kernel, by decide +kernel⟩
  have hmissed : "/d" ∉ ((circle 2).resolve "/a" []).visited := by decide +kernel
  exact hmissed ((h "/d").mpr ⟨2, le_rfl, (Hops.entry.step hc).step hd⟩)

theorem length_le_encard {s : Set String} {l : List String} (hnodup : l.Nodup)
    (hs : ∀ p ∈ l, p ∈ s) : (l.length : ℕ∞) ≤ s.encard := by
  have hsub : (l.toFinset : Set String) ⊆ s := fun p hp => hs p (by simpa using hp)
  have hcard := Set.encard_le_encard hsub
  rw [Set.encard_coe_eq_coe_finsetCard, List.toFinset_card_of_nodup hnodup] at hcard
  exact hcard

theorem encard_le_length {s : Set String} {l : List String} (hs : ∀ p ∈ s, p ∈ l) :
    s.encard ≤ l.length := by
  have hsub : s ⊆ (l.toFinset : Set String) := fun p hp => by simpa using hs p hp
  have hcard := Set.encard_le_encard hsub
  rw [Set.encard_coe_eq_coe_finsetCard] at hcard
  exact hcard.trans (by exact_mod_cast l.toFinset_card_le)

/-- Whatever a file reached before the last hop imports is visited in the end. So a walk that may go
as many hops as there are files to be reached visits just these. -/
theorem visited_closed_and_complete (r : Resolver) (file : String) :
    (∀ f d, (f, d) ∈ r.reached file [] → d < r.maxDepth →
      ∀ e g, r.Imports f e g → g ∈ (r.resolve file []).visited) ∧
    ({p | ∃ n, r.Hops (Path.normalize file) n p}.encard ≤ r.maxDepth →
      ∀ p, p ∈ (r.resolve file []).visited ↔ ∃ n, r.Hops (Path.normalize file) n p) := by
  obtain ⟨as, h⟩ := r.exists_tourOf file []
  refine ⟨fun f d hf hd e g hop => h.closed hf hd hop, fun hcard p => ?_⟩
  have hreachable : ∀ f d, (f, d) ∈ r.reached file [] →
      ∃ n, r.Hops (Path.normalize file) n f := by
    intro f d hf
    obtain ⟨n, _, _, hops⟩ := h.hops_of_mem_reached hf
    exact ⟨n, hops⟩
  -- the files reached are distinct, and each file lies less deep than their number
  have hlength : (r.attempts file []).length ≤ r.maxDepth := by
    have hle := length_le_encard (s := {p | ∃ n, r.Hops (Path.normalize file) n p})
      h.nodup_attempts (by
        rw [attempts_eq_map_reached]
        intro p hp
        obtain ⟨⟨f, d⟩, hf, rfl⟩ := List.mem_map.mp hp
        exact hreachable f d hf)
    exact_mod_cast hle.trans hcard
  constructor
  · intro hp
    obtain ⟨d, hd⟩ := h.mem_visited_iff_reached.mp hp
    exact hreachable p d hd
  · rintro ⟨n, hops⟩
    refine hops.mem_of_closed (r.entry_mem_visited file []) ?_ le_rfl
    intro m f _ _ hvisited e g hop
    obtain ⟨d, hd⟩ := h.mem_visited_iff_reached.mp hvisited
    have hlt := h.depth_lt_length hd
    exact h.closed hd (by omega) hop

theorem circle_hops {maxDepth n : ℕ} {p : String}
    (h : (circle maxDepth).Hops (Path.normalize "/a") n p) : p ∈ ["/a", "/b", "/c", "/d"] := by
  have hclosed : ∀ f ∈ ["/a", "/b", "/c", "/d"], ∀ e ∈ (circle 0).edges f,
      ∀ g ∈ (circle 0).target? e, g ∈ ["/a", "/b", "/c", "/d"] := by decide +kernel
  refine h.mem_of_closed (by decide +kernel) ?_ le_rfl
  intro m f _ _ hf e g hop
  obtain ⟨he, hg⟩ := imports_iff.mp hop
  exact hclosed f hf e he g hg

/-- Four hops are enough for the four files, and `/d` is visited as an import of `/c`. -/
theorem circle_complete :
    ("/c", 2) ∈ (circle 4).reached "/a" [] ∧ "/d" ∈ ((circle 4).resolve "/a" []).visited ∧
    {p | ∃ n, (circle 4).Hops (Path.normalize "/a") n p}.encard ≤ (circle 4).maxDepth ∧
    ∀ p, p ∈ ((circle 4).resolve "/a" []).visited ↔
      ∃ n, (circle 4).Hops (Path.normalize "/a") n p := by
  have hc : ("/c", 2) ∈ (circle 4).reached "/a" [] := by decide +kernel
  have hd : (circle 4).Imports "/c"
      { source := "/c", specifier := "./d", target := some "/d" } "/d" :=
    imports_iff.mpr ⟨by decide +kernel, by decide +kernel⟩
  have hcard : {p | ∃ n, (circle 4).Hops (Path.normalize "/a") n p}.encard ≤
      (circle 4).maxDepth := by
    refine encard_le_length (l := ["/a", "/b", "/c", "/d"]) fun p hp => ?_
    obtain ⟨n, hops⟩ := hp
    exact circle_hops hops
  obtain ⟨hclosed, hcomplete⟩ := visited_closed_and_complete (circle 4) "/a"
  exact ⟨hc, hclosed "/c" 2 hc (by decide +kernel) _ "/d" hd, hcard, hcomplete hcard⟩

end SignatureContext.Resolver
