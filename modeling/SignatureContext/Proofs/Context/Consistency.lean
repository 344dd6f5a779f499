import SignatureContext.Proofs.Context.Candidates
import SignatureContext.Proofs.Pack.Choice
import SignatureContext.Proofs.Visible

/-! A context agrees with itself and with the settings it was made under, from what the walk found
to what is shown. -/
namespace SignatureContext

section Tokens
variable {l l' : List Symbol}

theorem totalTokens_le_of_sublist (h : l.Sublist l') : totalTokens l ≤ totalTokens l' := by
  induction h with
  | slnil => exact le_rfl
  | cons s _ ih =>
    rw [totalTokens_cons]
    omega
  | cons_cons s _ ih =>
    rw [totalTokens_cons, totalTokens_cons]
    omega

/-- A declaration has tokens, so none can be missing where the tokens are the same. -/
theorem totalTokens_eq_iff_of_sublist (h : l.Sublist l') :
    totalTokens l = totalTokens l' ↔ l = l' := by
  refine ⟨fun heq => ?_, fun heq => congrArg totalTokens heq⟩
  induction h with
  | slnil => rfl
  | cons s hsub _ =>
    have hle := totalTokens_le_of_sublist hsub
    have hpos := s.tokens_pos
    rw [totalTokens_cons] at heq
    omega
  | cons_cons s _ ih =>
    rw [totalTokens_cons, totalTokens_cons] at heq
    rw [ih (by omega)]

end Tokens

namespace Builder
variable {b : Builder} {r : Read} {s : Symbol}

theorem rendered_sublist (b : Builder) (r : Read) : (b.rendered r).Sublist (b.packing r).items := by
  unfold rendered
  cases r.range with
  | none => exact List.Sublist.refl _
  | some range =>
    dsimp only
    split_ifs
    · exact List.filter_sublist
    · exact List.Sublist.refl _

theorem rendered_of_whole (h : r.range = none ∨ ¬ b.config.filtering.hideVisible) :
    b.rendered r = (b.packing r).items := by
  unfold rendered
  rcases h with hrange | hhide
  · rw [hrange]
  · cases r.range with
    | none => rfl
    | some range => exact if_neg hhide

/-- Only what the window shows is hidden. -/
theorem shows_of_not_mem_rendered (hs : s ∈ (b.packing r).items) (hhidden : s ∉ b.rendered r) :
    ∃ range, r.range = some range ∧ range.shows (b.totalLines range r.file) s := by
  unfold rendered at hhidden
  cases hrange : r.range with
  | none =>
    rw [hrange] at hhidden
    exact absurd hs hhidden
  | some range =>
    rw [hrange] at hhidden
    dsimp only at hhidden
    split_ifs at hhidden
    · refine ⟨range, rfl, ?_⟩
      by_contra hshown
      exact hhidden (List.mem_filter.mpr ⟨hs, by simpa using hshown⟩)
    · exact absurd hs hhidden

theorem mem_candidates_of_mem_packing (hs : s ∈ (b.packing r).items) : s ∈ b.candidates r.file := by
  obtain ⟨t, hp⟩ := mem_ranked_of_mem_items_pack hs
  exact mem_candidates_of_mem_ranked hp

theorem counts_packing_of_window {t : Tier} (hrange : r.range ≠ none)
    (htext : b.text? r.file ≠ none) (hused : b.config.filtering.onlyUsed)
    (ht : t = .native ∨ t = .imported) :
    (b.packing r).counts.get t = 0 := by
  have hwindow : (b.window? r).isSome := by
    obtain ⟨range, hrange⟩ := Option.ne_none_iff_exists'.mp hrange
    obtain ⟨text, htext⟩ := Option.ne_none_iff_exists'.mp htext
    unfold window?
    rw [hrange, htext]
    rfl
  refine counts_pack_of_empty _ _ ?_
  unfold buckets
  rw [hwindow, hused]
  exact (Buckets.get_drop ..).trans (if_pos (by simpa using ht))

end Builder

/-- What a renderer may rely on in the context that a builder makes for a read. -/
structure Context.Consistent (b : Builder) (r : Read) (c : Context) : Prop where
  shown : c.symbols.Sublist c.packing.items
  allowed : ∀ s, s ∈ c.symbols ∨ s ∈ c.packing.items → b.config.inject.allows s.kind
  depth : ∀ s, s ∈ c.symbols ∨ s ∈ c.packing.items → s.origin ≠ none →
    ∃ d, s.depth = some d ∧ 1 ≤ d ∧ d ≤ b.config.imports.effectiveDepth
  tokens : c.estimatedTokens = totalTokens c.symbols
  tokens_le : c.estimatedTokens ≤ c.packing.total
  tokens_eq_iff : c.estimatedTokens = c.packing.total ↔ c.symbols = c.packing.items
  whole : r.range = none ∨ ¬ b.config.filtering.hideVisible → c.symbols = c.packing.items
  used : r.range ≠ none → b.text? r.file ≠ none → b.config.filtering.onlyUsed →
    c.packing.counts.native = 0 ∧ c.packing.counts.imported = 0
  hidden : ∀ s ∈ c.packing.items, s ∉ c.symbols → s.origin = none ∧
    (∃ x, b.source.extract (Path.normalize r.file) = .ok x ∧ s ∈ x.symbols) ∧
    s.lineStart ≠ none ∧ s.lineEnd ≠ none

/-- A file that only passes on exports has a context of nothing. -/
theorem Context.consistent_of_skipped (b : Builder) (r : Read) :
    Context.Consistent b r ⟨[], Builder.nothingPacked, r.range.isSome, 0, true⟩ where
  shown := List.Sublist.refl _
  allowed := by simp [Builder.nothingPacked]
  depth := by simp [Builder.nothingPacked]
  tokens := rfl
  tokens_le := le_rfl
  tokens_eq_iff := iff_of_true rfl rfl
  whole _ := rfl
  used _ _ _ := ⟨rfl, rfl⟩
  hidden := by simp [Builder.nothingPacked]

/-- Under all settings, for all reads and whatever the source says or fails to say, the context is
consistent. -/
theorem build_consistent (b : Builder) (r : Read) (h : b.source.Unannotated) :
    (b.build r).Consistent b r := by
  unfold Builder.build
  split_ifs
  · exact Context.consistent_of_skipped b r
  have hshown := b.rendered_sublist r
  have htotal : (b.packing r).total = totalTokens (b.packing r).items := by
    have hsum : (b.packing r).total = totalTokens ((b.packing r).items.map symbol) := total_pack _ _
    rwa [show (b.packing r).items.map symbol = (b.packing r).items from List.map_id _] at hsum
  have hcandidate : ∀ s, s ∈ b.rendered r ∨ s ∈ (b.packing r).items → s ∈ b.candidates r.file := by
    rintro s (hs | hs)
    · exact Builder.mem_candidates_of_mem_packing (hshown.subset hs)
    · exact Builder.mem_candidates_of_mem_packing hs
  refine ⟨hshown, ?_, ?_, rfl, ?_, ?_, Builder.rendered_of_whole, ?_, ?_⟩
  · exact fun s hs => Builder.allows_of_mem_candidates (hcandidate s hs)
  · intro s hs himported
    rcases Builder.origin_of_mem_candidates h (hcandidate s hs) with ⟨hnone, -⟩ | hfound
    · exact absurd hnone himported
    · obtain ⟨path, d, -, hdepth, hpos, hmax⟩ := hfound
      exact ⟨d, hdepth, hpos, hmax⟩
  · dsimp only
    rw [htotal]
    exact totalTokens_le_of_sublist hshown
  · dsimp only
    rw [htotal]
    exact totalTokens_eq_iff_of_sublist hshown
  · intro hrange htext hused
    exact ⟨Builder.counts_packing_of_window hrange htext hused (Or.inl rfl),
      Builder.counts_packing_of_window hrange htext hused (Or.inr rfl)⟩
  · intro s hs hhidden
    obtain ⟨range, -, hseen⟩ := Builder.shows_of_not_mem_rendered hs hhidden
    obtain ⟨hnative, first, last, hfirst, hlast, -⟩ := LineRange.shows_iff.mp hseen
    have hdeclared : s ∈ b.resolver.declared (Path.normalize r.file) :=
      Resolver.native_of_mem_resolve
        (Builder.mem_walk_of_mem_candidates (hcandidate s (Or.inr hs))) hnative
    exact ⟨hnative, Resolver.mem_declared.mp hdeclared, by simp [hfirst], by simp [hlast]⟩

/-- A window that shows the first of three declarations: that one is packed and not shown again. -/
theorem homonyms_first_hidden :
    let b : Builder := ⟨homonyms, {}, "/", .top, Scan.references⟩
    let r : Read := ⟨"/p/a", some ⟨0, 1⟩⟩
    b.source.Unannotated ∧ (b.build r).Consistent b r ∧
    (b.build r).packing.items.map Symbol.key =
      [(none, "Item"), (some "./p/b", "Item"), (some "./q/b", "Item")] ∧
    (b.build r).symbols.map Symbol.key = [(some "./p/b", "Item"), (some "./q/b", "Item")] ∧
    (b.build r).estimatedTokens = 12 ∧ (b.build r).packing.total = 18 := by
  intro b r
  exact ⟨homonyms_regular.unannotated, build_consistent b r homonyms_regular.unannotated,
    by decide +kernel, by decide +kernel, by decide +kernel, by decide +kernel⟩

end SignatureContext
