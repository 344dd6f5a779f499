import SignatureContext.Proofs.Path.Origin
import SignatureContext.Proofs.Walk.Agreement
import SignatureContext.Proofs.Walk.Provenance
import Mathlib.Data.List.Nodup

/-! The origins that a walk writes into declarations. Only those of the entry file have none, and
two files that are named from the top have two origins, so nothing is known by another's key. -/
namespace SignatureContext

/-- An extractor leaves it to the walk to say where declarations are found. -/
def Source.Unannotated (s : Source) : Prop :=
  ∀ file x, s.extract file = .ok x → ∀ t ∈ x.symbols, t.origin = none ∧ t.depth = none

/-- An extractor that finds a name in a file once at most, and names the targets of imports from the
top. -/
structure Source.Regular (s : Source) : Prop where
  unannotated : s.Unannotated
  names_nodup : ∀ file x, s.extract file = .ok x → (x.symbols.map (·.name)).Nodup
  targets : ∀ file x, s.extract file = .ok x → ∀ e ∈ x.edges, ∀ path, e.target? = some path →
    Path.OneSlash path

/-- The declaration with another text for its origin, if it has one. -/
def Symbol.renamed (σ : String → String) (s : Symbol) : Symbol :=
  { s with origin := s.origin.map σ }

theorem Symbol.renamed_of_native {s : Symbol} (h : s.origin = none) (σ : String → String) :
    s.renamed σ = s := by
  unfold renamed
  rw [h, Option.map_none, ← h]

theorem Symbol.renamed_found (σ : String → String) (s : Symbol) (origin : String) (depth : ℤ) :
    (s.found origin depth).renamed σ = s.found (σ origin) depth := rfl

namespace Resolver
variable {r : Resolver} {file : String} {visited : List String}

theorem declared_unannotated (h : r.source.Unannotated) {f : String} {s : Symbol}
    (hs : s ∈ r.declared f) : s.origin = none ∧ s.depth = none := by
  obtain ⟨x, hx, hmem⟩ := mem_declared.mp hs
  exact h f x hx s hmem

theorem declared_names_nodup (h : r.source.Regular) (f : String) :
    ((r.declared f).map (·.name)).Nodup := by
  unfold declared
  cases hx : r.source.extract f with
  | ok x => exact h.names_nodup f x hx
  | error fault => exact List.nodup_nil

/-- Where a declaration in the output of a walk is from: the entry file, or so many hops away. -/
theorem origin_of_mem_resolve {s : Symbol} (hs : s ∈ (r.resolve file visited).symbols) :
    s ∈ r.declared (Path.normalize file) ∨
      ∃ (path : String) (d : ℤ),
        s.origin = some (Path.relative r.cwd r.root (Path.normalize path)) ∧
        s.depth = some d ∧ 1 ≤ d ∧ d ≤ r.maxDepth := by
  obtain ⟨as, h⟩ := r.exists_tourOf file visited
  rw [h.symbols_eq] at hs
  rcases List.mem_append.mp hs with hentry | hfound
  · exact Or.inl hentry
  · right
    obtain ⟨n, f, g, e, x, t, origin, -, hop, -, hn, -, -, horigin, rfl⟩ := h.traced s hfound
    obtain ⟨_, _, _, htarget⟩ := hop
    obtain ⟨_, path, _, rfl⟩ := target?_eq_some htarget
    cases Option.some.inj (horigin.symm.trans (Path.relative?_normalize r.cwd r.root path))
    exact ⟨path, (n + 1 : ℕ), rfl, rfl, by omega, by omega⟩

theorem native_of_mem_resolve {s : Symbol} (hs : s ∈ (r.resolve file visited).symbols)
    (hnative : s.origin = none) : s ∈ r.declared (Path.normalize file) := by
  rcases origin_of_mem_resolve hs with hentry | ⟨path, d, horigin, -⟩
  · exact hentry
  · rw [hnative] at horigin
    cases horigin

section Root
variable {root : String} {σ : String → String}

theorem agrees_reroot (r : Resolver) (root : String) : r.Agrees { r with root } where
  maxDepth := rfl
  followed _ := rfl

theorem block_reroot {a : Arrival} {path : String} (hfile : a.file = Path.normalize path)
    (hσ : ∀ path, σ (Path.relative r.cwd r.root (Path.normalize path)) =
      Path.relative r.cwd root (Path.normalize path)) :
    { r with root }.block a = (r.block a).map (Symbol.renamed σ) := by
  unfold block brought
  rw [List.map_map]
  refine List.map_congr_left fun s _ => ?_
  rw [Function.comp_apply, Symbol.renamed_found, hfile, hσ]

/-- From another root a walk finds the same declarations under other origins. -/
theorem symbols_resolve_reroot (h : r.source.Unannotated)
    (hσ : ∀ path, σ (Path.relative r.cwd r.root (Path.normalize path)) =
      Path.relative r.cwd root (Path.normalize path)) (file : String) (visited : List String) :
    ({ r with root }.resolve file visited).symbols =
      (r.resolve file visited).symbols.map (Symbol.renamed σ) := by
  obtain ⟨as, htour⟩ := r.exists_tourOf file visited
  have hentry : (r.declared (Path.normalize file)).map (Symbol.renamed σ) =
      r.declared (Path.normalize file) := by
    refine (List.map_congr_left fun s hs => ?_).trans (List.map_id _)
    exact Symbol.renamed_of_native (declared_unannotated h hs).1 σ
  have hblocks : as.flatMap { r with root }.block =
      (as.flatMap r.block).map (Symbol.renamed σ) := by
    rw [List.map_flatMap]
    refine List.flatMap_congr fun a ha => ?_
    obtain ⟨_, path, _, hfile⟩ := target?_eq_some (htour.tour.target a ha)
    exact block_reroot hfile hσ
  rw [htour.symbols_eq, (htour.agree (r.agrees_reroot root)).symbols_eq, List.map_append, hentry,
    hblocks]
  rfl

end Root

section Keys

theorem origin_of_mem_block {a : Arrival} {s : Symbol} (hs : s ∈ r.block a) :
    s.origin = some (Path.relative r.cwd r.root a.file) := by
  obtain ⟨t, -, rfl⟩ := List.mem_map.mp hs
  rfl

theorem nodup_keys_of_nodup_names {symbols : List Symbol} (h : (symbols.map (·.name)).Nodup) :
    (symbols.map Symbol.key).Nodup := by
  refine List.Nodup.of_map Prod.snd ?_
  rw [List.map_map]
  exact h

theorem names_block_nodup (h : r.source.Regular) (a : Arrival) :
    ((r.block a).map (·.name)).Nodup := by
  have hnames : (r.block a).map (·.name) =
      ((r.declared a.file).filter a.edge.admits).map (·.name) := by
    unfold block brought
    rw [List.map_map]
    rfl
  rw [hnames]
  exact (List.filter_sublist.map _).nodup (declared_names_nodup h a.file)

/-- Files that a walk arrives at are told apart by their origins. -/
theorem file_eq_of_origin_eq {as : List Arrival} (h : r.source.Regular)
    (htour : r.TourOf file visited as) {a b : Arrival} (ha : a ∈ as) (hb : b ∈ as)
    (horigin : Path.relative r.cwd r.root a.file = Path.relative r.cwd r.root b.file) :
    a.file = b.file := by
  have hnamed : ∀ c ∈ as, ∃ path, Path.OneSlash path ∧ c.file = Path.normalize path := by
    intro c hc
    obtain ⟨_, g, _, ⟨x, hx, he, htarget⟩, _⟩ := htour.hops c hc
    obtain ⟨_, path, hpath, hfile⟩ := target?_eq_some htarget
    exact ⟨path, h.targets g x hx c.edge he path hpath, hfile⟩
  obtain ⟨p, hp, hafile⟩ := hnamed a ha
  obtain ⟨q, hq, hbfile⟩ := hnamed b hb
  rw [hafile, hbfile, Path.relative_normalize_eq_iff] at horigin
  rw [hafile, hbfile]
  exact hp.eq_of_absoluteParts hq horigin

/-- No two declarations in the output of a walk have one key: within a file they differ by their
names, and the files by their origins. -/
theorem nodup_keys_resolve (h : r.source.Regular) (file : String) (visited : List String) :
    ((r.resolve file visited).symbols.map Symbol.key).Nodup := by
  obtain ⟨as, htour⟩ := r.exists_tourOf file visited
  rw [htour.symbols_eq, List.map_append, List.map_flatMap]
  refine List.Nodup.append ?_ (List.nodup_flatMap.mpr ⟨?_, ?_⟩) ?_
  · exact nodup_keys_of_nodup_names (declared_names_nodup h (Path.normalize file))
  · exact fun a _ => nodup_keys_of_nodup_names (names_block_nodup h a)
  -- the arrivals are at different files, hence under different origins
  · have hfiles : as.Pairwise fun a b => a.file ≠ b.file :=
      List.pairwise_map.mp htour.tour.nodup
    refine hfiles.imp_of_mem fun {a b} ha hb hne => ?_
    intro key hka hkb
    obtain ⟨s, hs, rfl⟩ := List.mem_map.mp hka
    obtain ⟨t, ht, heq⟩ := List.mem_map.mp hkb
    have horigin : t.origin = s.origin := congrArg Prod.fst heq
    rw [origin_of_mem_block hs, origin_of_mem_block ht] at horigin
    exact hne (file_eq_of_origin_eq h htour ha hb (Option.some.inj horigin).symm)
  · intro key hentry hfound
    obtain ⟨s, hs, rfl⟩ := List.mem_map.mp hentry
    obtain ⟨a, _, hblock⟩ := List.mem_flatMap.mp hfound
    obtain ⟨t, ht, heq⟩ := List.mem_map.mp hblock
    have horigin : t.origin = s.origin := congrArg Prod.fst heq
    rw [(declared_unannotated h.unannotated hs).1, origin_of_mem_block ht] at horigin
    cases horigin

end Keys

end Resolver

def item : Symbol :=
  { kind := .typeAlias, name := "Item", signature := "type Item = {}", lineStart := some 0,
    lineEnd := some 0 }

def wholeImport (target : String) : ImportEdge :=
  { source := "/p/a", specifier := "./" ++ target, target := some target }

/-- Three files that declare a type of one name, two of them imported by the first. -/
def homonyms : Source where
  extract file :=
    if file = "/p/a" then .ok ⟨file, [item], [wholeImport "/p/b", wholeImport "/q/b"]⟩
    else if file = "/p/b" ∨ file = "/q/b" then .ok ⟨file, [item], []⟩
    else .error (.notFound file)
  text _ := .ok (some "type Item = {}")

theorem homonyms_regular : homonyms.Regular := by
  have hx : ∀ file x, homonyms.extract file = .ok x → x.symbols = [item] ∧
      (x.edges = [wholeImport "/p/b", wholeImport "/q/b"] ∨ x.edges = []) := by
    intro file x hx
    unfold homonyms at hx
    dsimp only at hx
    split_ifs at hx <;> cases hx
    · exact ⟨rfl, Or.inl rfl⟩
    · exact ⟨rfl, Or.inr rfl⟩
  refine ⟨?_, ?_, ?_⟩
  · intro file x h t ht
    rw [(hx file x h).1, List.mem_singleton] at ht
    rw [ht]
    exact ⟨rfl, rfl⟩
  · intro file x h
    rw [(hx file x h).1]
    exact List.nodup_singleton _
  · intro file x h e he path hpath
    rcases (hx file x h).2 with hedges | hedges <;> rw [hedges] at he
    · rcases List.mem_pair.mp he with rfl | rfl <;> cases hpath
      · exact ⟨['p', '/', 'b'], by decide +kernel, by decide⟩
      · exact ⟨['q', '/', 'b'], by decide +kernel, by decide⟩
    · cases he

end SignatureContext
