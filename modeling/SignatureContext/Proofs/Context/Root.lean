import SignatureContext.Proofs.Context.Candidates
import SignatureContext.Proofs.Pack.Image

/-! Contexts under different roots. The texts of origins decide neither tiers nor what is packed or
seen, so another root changes nothing else. -/
namespace SignatureContext

/-- The context with other texts for origins. -/
def Context.renamed (σ : String → String) (c : Context) : Context :=
  { c with
    symbols := c.symbols.map (Symbol.renamed σ)
    packing := c.packing.map (Symbol.renamed σ) }

section Renamed
variable (σ : String → String)

theorem Symbol.imported_renamed (s : Symbol) : (s.renamed σ).imported = s.imported :=
  Option.isSome_map

theorem mentionedBy_renamed (scan : Scanner) (symbols sources : List Symbol) :
    mentionedBy scan (symbols.map (Symbol.renamed σ)) (sources.map (Symbol.renamed σ)) =
      mentionedBy scan symbols sources := by
  unfold mentionedBy
  rw [List.flatMap_map, List.map_map]
  rfl

theorem wholeReach_renamed (scan : Scanner) (transitive : Bool) (symbols : List Symbol) :
    wholeReach scan transitive (symbols.map (Symbol.renamed σ)) =
      wholeReach scan transitive symbols := by
  unfold wholeReach
  simp only [List.filter_map, mentionedBy_renamed, List.map_map]
  rfl

theorem windowReach_renamed (scan : Scanner) (transitive : Bool) (symbols : List Symbol)
    (window : String) :
    windowReach scan transitive (symbols.map (Symbol.renamed σ)) window =
      windowReach scan transitive symbols window := by
  unfold windowReach usedNames
  simp only [List.filter_map, mentionedBy_renamed, List.map_map]
  rfl

theorem Reach.tierOf_renamed (r : Reach) (s : Symbol) : r.tierOf (s.renamed σ) = r.tierOf s := by
  unfold tierOf
  rw [Symbol.imported_renamed]
  rfl

theorem Reach.sort_renamed (r : Reach) (symbols : List Symbol) :
    r.sort (symbols.map (Symbol.renamed σ)) = (r.sort symbols).map (Symbol.renamed σ) := by
  refine PerTier.ext_get fun t => ?_
  rw [Buckets.get_map]
  exact get_sort_map (fun s _ => r.tierOf_renamed σ s) t

theorem LineRange.unseen_renamed (r : LineRange) (total : ℤ) (symbols : List Symbol) :
    r.unseen total (symbols.map (Symbol.renamed σ)) =
      (r.unseen total symbols).map (Symbol.renamed σ) := by
  unfold unseen
  rw [List.filter_map]
  congr 1
  refine List.filter_congr fun s _ => ?_
  rw [Function.comp_apply]
  unfold shows
  rw [Symbol.imported_renamed]
  rfl

theorem totalTokens_renamed (symbols : List Symbol) :
    totalTokens (symbols.map (Symbol.renamed σ)) = totalTokens symbols := by
  induction symbols with
  | nil => rfl
  | cons s symbols ih =>
    rw [List.map_cons, totalTokens_cons, totalTokens_cons, ih]
    rfl

/-- Where no two origins get one text, keys are equal as before. -/
theorem Symbol.packsAlike_renamed {origins : Set String} {σ : String → String}
    (hσ : Set.InjOn σ origins) :
    PacksAlike (Symbol.renamed σ) {s : Symbol | ∀ o ∈ s.origin, o ∈ origins} where
  tokens _ _ := rfl
  key_iff s hs t ht := by
    have horigin : s.origin.map σ = t.origin.map σ ↔ s.origin = t.origin := by
      cases hso : s.origin with
      | none => cases t.origin <;> simp
      | some o =>
        cases hto : t.origin with
        | none => simp
        | some o' => simpa using hσ.eq_iff (hs o hso) (ht o' hto)
    calc (s.renamed σ).key = (t.renamed σ).key
        ↔ s.origin.map σ = t.origin.map σ ∧ s.name = t.name := Prod.mk.injEq .. ▸ Iff.rfl
      _ ↔ s.origin = t.origin ∧ s.name = t.name := and_congr_left' horigin
      _ ↔ s.key = t.key := Prod.mk.injEq .. ▸ Iff.rfl

end Renamed

namespace Builder
variable {b : Builder} {root : String} {σ : String → String}

/-- The builder with another root. -/
def rerooted (b : Builder) (root : String) : Builder :=
  { b with root }

section
variable (hσ : ∀ path, σ (Path.relative b.cwd b.root (Path.normalize path)) =
  Path.relative b.cwd root (Path.normalize path))
include hσ

theorem candidates_rerooted (h : b.source.Unannotated) (file : String) :
    (b.rerooted root).candidates file = (b.candidates file).map (Symbol.renamed σ) := by
  have hresolver : (b.rerooted root).resolver = { b.resolver with root } := rfl
  have hwalk : ((b.rerooted root).walk file).symbols =
      (b.walk file).symbols.map (Symbol.renamed σ) := by
    unfold walk
    rw [hresolver]
    exact Resolver.symbols_resolve_reroot (r := b.resolver) h hσ file []
  unfold candidates
  rw [hwalk, List.filter_map]
  rfl

theorem buckets_rerooted (h : b.source.Unannotated) (r : Read) :
    (b.rerooted root).buckets r = (b.buckets r).map (Symbol.renamed σ) := by
  have hreach : (b.rerooted root).reach r = b.reach r := by
    unfold reach
    rw [candidates_rerooted hσ h]
    have hwindow : (b.rerooted root).window? r = b.window? r := rfl
    rw [hwindow]
    cases b.window? r with
    | some window => exact windowReach_renamed σ ..
    | none => exact wholeReach_renamed σ ..
  have hsorted : (b.rerooted root).sorted r = (b.sorted r).map (Symbol.renamed σ) := by
    unfold sorted
    rw [hreach, candidates_rerooted hσ h, Reach.sort_renamed]
  unfold buckets
  rw [hsorted, Buckets.drop_map]
  exact (apply_ite (Buckets.map (Symbol.renamed σ)) ..).symm

theorem packing_rerooted (h : b.source.Unannotated)
    (hinj : Set.InjOn σ (Path.origins b.cwd b.root)) (r : Read) :
    (b.rerooted root).packing r = (b.packing r).map (Symbol.renamed σ) := by
  unfold packing
  rw [buckets_rerooted hσ h]
  refine pack_map (Symbol.packsAlike_renamed hinj) (fun p hp o ho => ?_) _
  rcases origin_of_mem_candidates h (mem_candidates_of_mem_ranked hp) with ⟨hnone, -⟩ | hfound
  · rw [hnone] at ho
    cases ho
  · obtain ⟨path, _, horigin, -⟩ := hfound
    rw [horigin] at ho
    cases ho
    exact ⟨path, rfl⟩

theorem rendered_rerooted (h : b.source.Unannotated)
    (hinj : Set.InjOn σ (Path.origins b.cwd b.root)) (r : Read) :
    (b.rerooted root).rendered r = (b.rendered r).map (Symbol.renamed σ) := by
  unfold rendered
  rw [packing_rerooted hσ h hinj]
  cases r.range with
  | none => rfl
  | some range =>
    dsimp only
    rw [apply_ite (List.map (Symbol.renamed σ)), ← LineRange.unseen_renamed]
    rfl

end

end Builder

/-- Another root gives the same context up to the texts of origins, and a file has one origin under
either root with just the same files. -/
theorem build_rerooted (b : Builder) (root : String) (h : b.source.Unannotated) :
    ∃ σ : String → String,
      (∀ path origin, Path.relative? b.cwd b.root (Path.normalize path) = some origin →
        Path.relative? b.cwd root (Path.normalize path) = some (σ origin)) ∧
      Set.InjOn σ (Path.origins b.cwd b.root) ∧
      ∀ r, (b.rerooted root).build r = (b.build r).renamed σ := by
  obtain ⟨σ, hσ, hinj⟩ := Path.exists_renaming b.cwd b.root root
  refine ⟨σ, ?_, hinj, fun r => ?_⟩
  · intro path origin horigin
    rw [Path.relative?_normalize] at horigin ⊢
    cases horigin
    rw [hσ]
  · have hskips : (b.rerooted root).skips r.file = b.skips r.file := rfl
    unfold Builder.build
    rw [hskips]
    cases hskip : b.skips r.file with
    | true => rfl
    | false =>
      dsimp only
      rw [if_neg Bool.false_ne_true, if_neg Bool.false_ne_true, Builder.packing_rerooted hσ h hinj,
        Builder.rendered_rerooted hσ h hinj, totalTokens_renamed]
      rfl

/-- Seen from the directory of the file that is read, the two files that it imports have other
origins. -/
theorem homonyms_rerooted :
    let b : Builder := ⟨homonyms, {}, "/", .top, Scan.references⟩
    b.source.Unannotated ∧
    ((b.rerooted "/p").build ⟨"/p/a", none⟩).symbols.map (·.origin) =
      [none, some "./b", some "./../q/b"] ∧
    ∃ σ : String → String, σ "./p/b" = "./b" ∧ σ "./q/b" = "./../q/b" ∧
      (b.rerooted "/p").build ⟨"/p/a", none⟩ = (b.build ⟨"/p/a", none⟩).renamed σ := by
  intro b
  have hsource : b.source.Unannotated := homonyms_regular.unannotated
  obtain ⟨σ, hσ, -, hbuild⟩ := build_rerooted b "/p" hsource
  have hnear := hσ "/p/b" "./p/b" (by decide +kernel)
  have hfar := hσ "/q/b" "./q/b" (by decide +kernel)
  refine ⟨hsource, by decide +kernel, σ, ?_, ?_, hbuild _⟩
  · have horigin : Path.relative? .top "/p" (Path.normalize "/p/b") = some "./b" := by
      decide +kernel
    exact Option.some.inj (hnear.symm.trans horigin)
  · have horigin : Path.relative? .top "/p" (Path.normalize "/q/b") = some "./../q/b" := by
      decide +kernel
    exact Option.some.inj (hfar.symm.trans horigin)

end SignatureContext
