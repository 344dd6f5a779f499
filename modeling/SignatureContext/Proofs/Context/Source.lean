import SignatureContext.Context
import SignatureContext.Proofs.Walk.Agreement

/-! What a context owes to its source. A failure of the source counts as an empty file, and what the
settings keep out might as well not be in the source. -/
namespace SignatureContext

namespace Resolver

/-- Every file that a walk comes to has a place below the root. -/
theorem relative?_of_mem_attempts {r : Resolver} {file p : String} {visited : List String}
    (hp : p ∈ r.attempts file visited) :
    Path.relative? r.cwd r.root p = some (Path.relative r.cwd r.root p) := by
  obtain ⟨as, h⟩ := r.exists_tourOf file visited
  rw [h.attempts] at hp
  rcases List.mem_cons.mp hp with rfl | hp
  · exact Path.relative?_normalize r.cwd r.root file
  · obtain ⟨a, ha, rfl⟩ := List.mem_map.mp hp
    obtain ⟨_, path, _, hfile⟩ := target?_eq_some (h.tour.target a ha)
    rw [hfile]
    exact Path.relative?_normalize r.cwd r.root path

/-- If the files of the second resolver declare only those kinds that are kept, its walks find what
is kept of what the walks of the first one find. -/
theorem Agrees.symbols_resolve {r r' : Resolver} (hr : r.Agrees r') (hcwd : r'.cwd = r.cwd)
    (hroot : r'.root = r.root) (keep : Kind → Bool)
    (hdeclared : ∀ f, r'.declared f = (r.declared f).filter (keep ·.kind)) (file : String)
    (visited : List String) :
    (r'.resolve file visited).symbols =
      (r.resolve file visited).symbols.filter (keep ·.kind) := by
  obtain ⟨as, h⟩ := r.exists_tourOf file visited
  have hblock : ∀ a, r'.block a = (r.block a).filter (keep ·.kind) := by
    intro a
    unfold block brought
    rw [hcwd, hroot, hdeclared, List.filter_map, List.filter_filter, List.filter_filter]
    -- the kind of a declaration stays the same when it is found
    congr 1
    exact List.filter_congr fun s _ => Bool.and_comm _ _
  rw [h.symbols_eq, (h.agree hr).symbols_eq, List.filter_append, List.filter_flatMap, hdeclared]
  congr 1
  exact List.flatMap_congr fun a _ => hblock a

end Resolver

namespace Builder

/-- The second builder has everything that the context of the file is made from in common with the
first one. -/
structure Alike (b b' : Builder) (file : String) : Prop where
  text : b'.text? file = b.text? file
  candidates : b'.candidates file = b.candidates file
  scan : b'.scan = b.scan
  filtering : b'.config.filtering = b.config.filtering
  budget : b'.config.budget = b.config.budget

namespace Alike
variable {b b' : Builder} {r : Read}

theorem window (h : b.Alike b' r.file) : b'.window? r = b.window? r := by
  unfold window?
  rw [h.text]

theorem sorted (h : b.Alike b' r.file) : b'.sorted r = b.sorted r := by
  unfold Builder.sorted reach
  rw [h.candidates, h.scan, h.filtering, h.window]

theorem packing (h : b.Alike b' r.file) : b'.packing r = b.packing r := by
  unfold Builder.packing buckets
  rw [h.sorted, h.window, h.filtering, h.budget]

theorem rendered (h : b.Alike b' r.file) : b'.rendered r = b.rendered r := by
  unfold Builder.rendered totalLines
  rw [h.packing, h.filtering, h.text]

theorem build (h : b.Alike b' r.file) : b'.build r = b.build r := by
  unfold Builder.build skips
  rw [h.packing, h.rendered, h.budget, h.text]

end Alike

end Builder

section Failures

/-- The source on which the failing files are empty and the unreadable ones have no text. -/
def Source.emptied (s : Source) (failing unreadable : String → Prop) [DecidablePred failing]
    [DecidablePred unreadable] : Source where
  extract file := if failing file then .ok ⟨file, [], []⟩ else s.extract file
  text file := if unreadable file then .ok none else s.text file

/-- To empty a file changes what is extracted only where it was a fault. -/
theorem Source.extract_emptied {s : Source} (failing unreadable : String → Prop)
    [DecidablePred failing] [DecidablePred unreadable]
    (h : ∀ file, failing file → ∃ fault, s.extract file = .error fault) (file : String) :
    (s.emptied failing unreadable).extract file = s.extract file ∨
      (∃ fault, s.extract file = .error fault) ∧
        (s.emptied failing unreadable).extract file = .ok ⟨file, [], []⟩ := by
  unfold Source.emptied
  by_cases hfile : failing file
  · exact Or.inr ⟨h file hfile, if_pos hfile⟩
  · exact Or.inl (if_neg hfile)

variable {failing unreadable : String → Prop} [DecidablePred failing] [DecidablePred unreadable]

namespace Resolver
variable (r : Resolver)

theorem edges_emptied (h : ∀ file, failing file → ∃ fault, r.source.extract file = .error fault)
    (file : String) :
    { r with source := r.source.emptied failing unreadable }.edges file = r.edges file := by
  unfold edges
  rcases Source.extract_emptied failing unreadable h file with hsame | ⟨⟨fault, hfault⟩, hempty⟩
  · rw [hsame]
  · rw [hempty, hfault]

theorem declared_emptied
    (h : ∀ file, failing file → ∃ fault, r.source.extract file = .error fault) (file : String) :
    { r with source := r.source.emptied failing unreadable }.declared file = r.declared file := by
  unfold declared
  rcases Source.extract_emptied failing unreadable h file with hsame | ⟨⟨fault, hfault⟩, hempty⟩
  · rw [hsame]
  · rw [hempty, hfault]

theorem agrees_emptied
    (h : ∀ file, failing file → ∃ fault, r.source.extract file = .error fault) :
    r.Agrees { r with source := r.source.emptied failing unreadable } where
  maxDepth := rfl
  followed file := by
    rw [r.edges_emptied h]
    rfl

theorem symbols_resolve_emptied
    (h : ∀ file, failing file → ∃ fault, r.source.extract file = .error fault) (file : String)
    (visited : List String) :
    ({ r with source := r.source.emptied failing unreadable }.resolve file visited).symbols =
      (r.resolve file visited).symbols := by
  let r' : Resolver := { r with source := r.source.emptied failing unreadable }
  have hr : r.Agrees r' := r.agrees_emptied h
  -- a file that fails declares nothing already, so no kind has to be kept out
  have hdeclared : ∀ f, r'.declared f = (r.declared f).filter fun _ => true := by
    intro f
    rw [List.filter_true]
    exact r.declared_emptied h f
  have hkept := hr.symbols_resolve rfl rfl (fun _ => true) hdeclared file visited
  rwa [List.filter_true] at hkept

end Resolver

theorem Builder.text?_emptied {b : Builder}
    (h : ∀ file, unreadable file → ∃ fault, b.source.text file = .error fault) (file : String) :
    { b with source := b.source.emptied failing unreadable }.text? file = b.text? file := by
  unfold Builder.text? Source.emptied
  by_cases hfile : unreadable file
  · obtain ⟨fault, hfault⟩ := h file hfile
    simp [hfile, hfault]
  · simp [hfile]

theorem Builder.alike_emptied {b : Builder}
    (hfailing : ∀ file, failing file → ∃ fault, b.source.extract file = .error fault)
    (hunreadable : ∀ file, unreadable file → ∃ fault, b.source.text file = .error fault)
    (file : String) :
    b.Alike { b with source := b.source.emptied failing unreadable } file where
  text := text?_emptied hunreadable file
  candidates := by
    unfold candidates walk
    exact congrArg _ (b.resolver.symbols_resolve_emptied hfailing file [])
  scan := rfl
  filtering := rfl
  budget := rfl

/-- Whatever fails, there is a context: every file that the read comes to has a place below the
root, and the context is that of a source which has empty files instead of the failing ones. -/
theorem build_emptied (b : Builder) (r : Read)
    (hfailing : ∀ file, failing file → ∃ fault, b.source.extract file = .error fault)
    (hunreadable : ∀ file, unreadable file → ∃ fault, b.source.text file = .error fault) :
    (∀ file ∈ b.attempts r, ∃ origin, Path.relative? b.cwd b.root file = some origin) ∧
    { b with source := b.source.emptied failing unreadable }.build r = b.build r := by
  refine ⟨fun file hfile => ?_, (Builder.alike_emptied hfailing hunreadable r.file).build⟩
  unfold Builder.attempts at hfile
  split_ifs at hfile
  · exact absurd hfile List.not_mem_nil
  · have horigin := Resolver.relative?_of_mem_attempts hfile
    exact ⟨_, horigin⟩

/-- A source of two files, one of which imports the other after one that cannot be extracted. No
file can be read. -/
def damaged : Source where
  extract file :=
    if file = "/a" then
      .ok ⟨file, [], [{ source := file, specifier := "./b", target := some "/b" },
        { source := file, specifier := "./t", target := some "/t" }]⟩
    else if file = "/t" then
      .ok ⟨file, [{ kind := .typeAlias, name := "T", signature := "type T = string" }], []⟩
    else .error .crashed
  text _ := .error .denied

/-- The context of `/a` has what the second import finds, although the first one, and reading `/a`,
fail. -/
theorem damaged_build :
    let b : Builder := ⟨damaged, {}, "/", .top, Scan.references⟩
    let b' : Builder := { b with source := damaged.emptied (· = "/b") fun _ => True }
    (∀ file, file = "/b" → ∃ fault, damaged.extract file = .error fault) ∧
    (∀ file, True → ∃ fault, damaged.text file = .error fault) ∧
    b'.build ⟨"/a", some ⟨0, 1⟩⟩ = b.build ⟨"/a", some ⟨0, 1⟩⟩ ∧
    (b.build ⟨"/a", some ⟨0, 1⟩⟩).symbols.map (·.name) = ["T"] := by
  intro b b'
  have hfailing : ∀ file, file = "/b" → ∃ fault, damaged.extract file = .error fault := by
    rintro file rfl
    exact ⟨.crashed, rfl⟩
  have hunreadable : ∀ file, True → ∃ fault, damaged.text file = .error fault :=
    fun file _ => ⟨.denied, rfl⟩
  exact ⟨hfailing, hunreadable, (build_emptied b ⟨"/a", some ⟨0, 1⟩⟩ hfailing hunreadable).2,
    by decide +kernel⟩

end Failures

section Filters

/-- Whether an import leads anywhere and the settings let it be followed. -/
def ImportSettings.follows (c : ImportSettings) (e : ImportEdge) : Bool :=
  e.relative && e.target?.isSome && (c.typeOnly || !e.typeOnly)

theorem ImportSettings.follows_iff {c : ImportSettings} {e : ImportEdge} :
    c.follows e ↔ e.relative ∧ e.target?.isSome ∧ (e.typeOnly → c.typeOnly) := by
  unfold follows
  cases c.typeOnly <;> cases e.typeOnly <;> simp

/-- What is found in a file without the kinds and the imports that the settings keep out. -/
def Extraction.filtered (x : Extraction) (c : Config) : Extraction :=
  { x with
    symbols := x.symbols.filter fun s => c.inject.allows s.kind
    edges := x.edges.filter c.imports.follows }

def Source.filtered (s : Source) (c : Config) : Source where
  extract file := (s.extract file).map (·.filtered c)
  text := s.text

/-- The settings that keep nothing out and are otherwise the same. -/
def Config.unfiltered (c : Config) : Config :=
  { c with inject := {}, imports := { c.imports with typeOnly := true } }

/-- The builder that finds in its source only what the settings of the first one let through, and
keeps nothing out itself. -/
def Builder.filtered (b : Builder) : Builder :=
  { b with source := b.source.filtered b.config, config := b.config.unfiltered }

namespace Builder
variable (b : Builder)

theorem extract_filtered (file : String) :
    b.filtered.resolver.source.extract file =
      (b.resolver.source.extract file).map (·.filtered b.config) := rfl

theorem edges_filtered (file : String) :
    b.filtered.resolver.edges file = (b.resolver.edges file).filter b.config.imports.follows := by
  unfold Resolver.edges
  rw [extract_filtered]
  cases b.resolver.source.extract file <;> rfl

theorem declared_filtered (file : String) :
    b.filtered.resolver.declared file =
      (b.resolver.declared file).filter fun s => b.config.inject.allows s.kind := by
  unfold Resolver.declared
  rw [extract_filtered]
  cases b.resolver.source.extract file <;> rfl

theorem target?_of_follows {e : ImportEdge} (h : b.config.imports.follows e) :
    b.filtered.resolver.target? e = b.resolver.target? e := by
  obtain ⟨hrelative, _, htype⟩ := ImportSettings.follows_iff.mp h
  have hfollowed : e.relative ∧ (e.typeOnly → b.filtered.resolver.typeOnly) :=
    ⟨hrelative, fun _ => rfl⟩
  unfold Resolver.target?
  rw [if_pos hfollowed, if_pos ⟨hrelative, htype⟩]

theorem target?_of_not_follows {e : ImportEdge} (h : ¬ b.config.imports.follows e) :
    b.resolver.target? e = none := by
  by_contra hsome
  obtain ⟨g, hg⟩ := Option.ne_none_iff_exists'.mp hsome
  obtain ⟨⟨hrelative, htype⟩, path, hpath, _⟩ := Resolver.target?_eq_some hg
  exact h (ImportSettings.follows_iff.mpr ⟨hrelative, by simp [hpath], htype⟩)

theorem agrees_filtered : b.resolver.Agrees b.filtered.resolver where
  maxDepth := rfl
  followed file := by
    rw [edges_filtered]
    unfold Resolver.followed
    rw [List.filterMap_filter]
    refine List.filterMap_congr fun e _ => ?_
    by_cases h : b.config.imports.follows e
    · rw [if_pos h, b.target?_of_follows h]
    · rw [if_neg h, b.target?_of_not_follows h]
      rfl

theorem alike_filtered (file : String) : b.Alike b.filtered file where
  text := rfl
  candidates := by
    have hsymbols : (b.filtered.walk file).symbols = b.candidates file :=
      b.agrees_filtered.symbols_resolve rfl rfl b.config.inject.allows b.declared_filtered file []
    have hallows : ∀ k, b.filtered.config.inject.allows k := by
      intro k
      cases k <;> rfl
    -- what the walk finds has allowed kinds only, so the filter after it keeps everything
    have hall : b.filtered.candidates file = (b.filtered.walk file).symbols :=
      List.filter_eq_self.mpr fun s _ => hallows s.kind
    rw [hall, hsymbols]
  scan := rfl
  filtering := rfl
  budget := rfl

end Builder

/-- Keeping kinds and imports out on the way gives the tiers and the context that the source without
them gives. -/
theorem build_filtered (b : Builder) (r : Read) :
    b.filtered.sorted r = b.sorted r ∧ b.filtered.build r = b.build r :=
  ⟨(b.alike_filtered r.file).sorted, (b.alike_filtered r.file).build⟩

end Filters

end SignatureContext
