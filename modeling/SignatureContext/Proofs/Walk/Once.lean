import SignatureContext.Proofs.Walk.Arrivals

/-! Each file is extracted at most once in a walk, and contributes its declarations in one piece. -/
namespace SignatureContext.Resolver

/-- Whether the file can be extracted. -/
def extracts (r : Resolver) (file : String) : Bool :=
  (r.source.extract file).isOk

/-- What a file that was extracted adds to the declarations found: all of its own for the entry
file, and a part of its own in their order for another, marked with where they were found. -/
def Contributes (r : Resolver) (entry file : String) (block : List Symbol) : Prop :=
  ∃ x, r.source.extract file = .ok x ∧
    if file = entry then block = x.symbols
    else ∃ (kept : List Symbol) (depth : ℤ), kept.Sublist x.symbols ∧
      block = kept.map (·.found (Path.relative r.cwd r.root file) depth)

theorem declared_of_not_extracts {r : Resolver} {file : String} (h : r.extracts file = false) :
    r.declared file = [] := by
  unfold extracts at h
  unfold declared
  cases hx : r.source.extract file with
  | ok x => simp [hx, Except.isOk, Except.toBool] at h
  | error fault => rfl

theorem contributes_declared {r : Resolver} {entry : String} (h : r.extracts entry) :
    r.Contributes entry entry (r.declared entry) := by
  unfold extracts at h
  unfold Contributes declared
  cases hx : r.source.extract entry with
  | ok x => exact ⟨x, rfl, by rw [if_pos rfl]⟩
  | error fault => simp [hx, Except.isOk, Except.toBool] at h

theorem contributes_block {r : Resolver} {entry : String} {a : Arrival} (hne : a.file ≠ entry)
    (h : r.extracts a.file) : r.Contributes entry a.file (r.block a) := by
  unfold extracts at h
  unfold Contributes block declared
  cases hx : r.source.extract a.file with
  | ok x =>
    refine ⟨x, rfl, ?_⟩
    rw [if_neg hne]
    exact ⟨x.symbols.filter a.edge.admits, a.depth, List.filter_sublist, rfl⟩
  | error fault => simp [hx, Except.isOk, Except.toBool] at h

/-- Pieces of files that cannot be extracted are empty, so they can be left out. -/
theorem flatMap_extracted {r : Resolver} {pieces : List (String × List Symbol)}
    (h : ∀ p ∈ pieces, r.extracts p.1 = false → p.2 = []) :
    (pieces.filter fun p => r.extracts p.1).flatMap Prod.snd = pieces.flatMap Prod.snd := by
  induction pieces with
  | nil => rfl
  | cons p pieces ih =>
    have hrest := ih fun q hq => h q (List.mem_cons_of_mem _ hq)
    rw [List.filter_cons, List.flatMap_cons, ← hrest]
    split_ifs with hp
    · rfl
    · rw [h p List.mem_cons_self (by simpa using hp), List.nil_append]

/-- The files that a walk arrives at after the entry, each with what it adds. -/
def pieces (r : Resolver) (entry : String) (as : List Arrival) : List (String × List Symbol) :=
  (entry, r.declared entry) :: as.map fun a => (a.file, r.block a)

theorem flatMap_pieces (r : Resolver) (entry : String) (as : List Arrival) :
    (r.pieces entry as).flatMap Prod.snd = r.declared entry ++ as.flatMap r.block := by
  unfold pieces
  rw [List.flatMap_cons, List.flatMap_map]

theorem map_fst_pieces (r : Resolver) (entry : String) (as : List Arrival) :
    (r.pieces entry as).map Prod.fst = entry :: as.map Arrival.file := by
  unfold pieces
  rw [List.map_cons, List.map_map]
  rfl

theorem pieces_empty {r : Resolver} {entry : String} {as : List Arrival} :
    ∀ p ∈ r.pieces entry as, r.extracts p.1 = false → p.2 = [] := by
  intro p hp hfails
  rcases List.mem_cons.mp hp with rfl | hp
  · exact declared_of_not_extracts hfails
  · obtain ⟨a, _, rfl⟩ := List.mem_map.mp hp
    unfold block brought
    rw [declared_of_not_extracts hfails]
    rfl

theorem pieces_contribute {r : Resolver} {entry : String} {as : List Arrival}
    (hne : ∀ a ∈ as, a.file ≠ entry) :
    ∀ p ∈ r.pieces entry as, r.extracts p.1 → r.Contributes entry p.1 p.2 := by
  intro p hp hextracts
  rcases List.mem_cons.mp hp with rfl | hp
  · exact contributes_declared hextracts
  · obtain ⟨a, ha, rfl⟩ := List.mem_map.mp hp
    exact contributes_block (hne a ha) hextracts

/-- Whatever may fail, no file is extracted twice or although it was visited before, all that is
extracted is visited, and each file extracted adds one piece to the output, in the same order. -/
theorem resolve_extracts_once (r : Resolver) (file : String) (visited : List String) :
    (∀ p ∈ r.attempts file visited, ∃ path, p = Path.normalize path) ∧
    (r.attempts file visited).Nodup ∧
    (∀ p ∈ r.attempts file visited, p ∈ visited → p = Path.normalize file) ∧
    (∀ p, p ∈ (r.resolve file visited).visited ↔
      p ∈ visited ∨ p = Path.normalize file ∨ p ∈ r.attempts file visited) ∧
    ∃ pieces : List (String × List Symbol),
      pieces.map Prod.fst = (r.attempts file visited).filter r.extracts ∧
      (r.resolve file visited).symbols = pieces.flatMap Prod.snd ∧
      ∀ p ∈ pieces, r.Contributes (Path.normalize file) p.1 p.2 := by
  obtain ⟨as, h⟩ := r.exists_tourOf file visited
  refine ⟨?_, h.nodup_attempts, ?_, ?_, ?_⟩
  · intro p hp
    rw [h.attempts] at hp
    rcases List.mem_cons.mp hp with rfl | hp
    · exact ⟨file, rfl⟩
    · obtain ⟨a, ha, rfl⟩ := List.mem_map.mp hp
      obtain ⟨_, path, _, heq⟩ := target?_eq_some (h.tour.target a ha)
      exact ⟨path, heq⟩
  · intro p hp hv
    rw [h.attempts] at hp
    rcases List.mem_cons.mp hp with rfl | hp
    · rfl
    · obtain ⟨a, ha, rfl⟩ := List.mem_map.mp hp
      exact absurd hv (h.not_mem_visited a ha)
  · intro p
    have hentry : Path.normalize file ∈ r.attempts file visited :=
      h.attempts ▸ List.mem_cons_self
    rw [h.mem_visited]
    constructor
    · rintro (hv | hp)
      · exact Or.inl hv
      · exact Or.inr (Or.inr hp)
    · rintro (hv | rfl | hp)
      · exact Or.inl hv
      · exact Or.inr hentry
      · exact Or.inr hp
  · refine ⟨(r.pieces (Path.normalize file) as).filter fun p => r.extracts p.1, ?_, ?_, ?_⟩
    · rw [h.attempts, ← map_fst_pieces r, List.filter_map]
      rfl
    · rw [h.symbols_eq, flatMap_extracted pieces_empty, flatMap_pieces]
    · intro p hp
      obtain ⟨hmem, hextracts⟩ := List.mem_filter.mp hp
      exact pieces_contribute h.ne_entry p hmem hextracts

end SignatureContext.Resolver
