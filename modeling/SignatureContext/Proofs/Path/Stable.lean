import SignatureContext.Proofs.Path.Normal

/-! A normal form is its own normal form, so a file has one identity however often its path is
brought into normal form. -/
namespace SignatureContext.Path

section Climbs
variable {parts : List Part}

/-- The parts climb first, and no more once one of them descends. -/
def ClimbsFirst (parts : List Part) : Prop :=
  ∃ n down, parts = List.replicate n up ++ down ∧ ∀ q ∈ down, Kept true q

theorem ClimbsFirst.kept (h : ClimbsFirst parts) : ∀ q ∈ parts, Kept false q := by
  obtain ⟨n, down, rfl, hdown⟩ := h
  intro q hq
  rcases List.mem_append.mp hq with hq | hq
  · rw [List.eq_of_mem_replicate hq]
    exact kept_up
  · exact (hdown q hq).weaken

/-- Where all parts climb, there is nothing to climb out of but by one climb more. -/
theorem walk_up_of_climbs (n : ℕ) :
    walk false (List.replicate n up) up = List.replicate (n + 1) up := by
  cases n <;> simp [walk, up, here, List.replicate_succ]

/-- The parts walked so far are in reverse, so what is walked last comes first. -/
theorem climbsFirst_walk {part : Part} (h : ClimbsFirst parts.reverse) (hpart : '/' ∉ part) :
    ClimbsFirst (walk false parts part).reverse := by
  obtain ⟨n, down, hparts, hdown⟩ := h
  rw [List.reverse_eq_iff] at hparts
  by_cases hskip : part = [] ∨ part = here
  · have hstay : walk false parts part = parts := if_pos hskip
    rw [hstay]
    exact ⟨n, down, by rw [hparts, List.reverse_reverse], hdown⟩
  by_cases hup : part = up
  · rcases List.eq_nil_or_concat down with rfl | ⟨down, last, rfl⟩
    · have hclimbs : parts = List.replicate n up := by simpa using hparts
      rw [hclimbs, hup, walk_up_of_climbs, List.reverse_replicate]
      exact ⟨n + 1, [], by simp, by simp⟩
    · rw [List.concat_eq_append, List.forall_mem_append] at hdown
      have hlast : last ≠ up := (hdown.2 last List.mem_cons_self).2.2.2 rfl
      have hstack : parts = last :: (List.replicate n up ++ down).reverse := by simpa using hparts
      refine ⟨n, down, ?_, hdown.1⟩
      unfold walk
      rw [if_neg hskip, if_pos hup, hstack]
      simp [hlast]
  · obtain ⟨hne, hhere⟩ := not_or.mp hskip
    have hdescend : walk false parts part = part :: parts := by
      unfold walk
      rw [if_neg hskip, if_neg hup]
    rw [hdescend]
    refine ⟨n, down ++ [part], by simp [hparts], ?_⟩
    rw [List.forall_mem_append, List.forall_mem_singleton]
    exact ⟨hdown, hne, hhere, hpart, fun _ => hup⟩

theorem climbsFirst_walked (p : List Char) : ClimbsFirst (walked false p) := by
  have hfold : ∀ (pieces parts : List Part), ClimbsFirst parts.reverse →
      (∀ piece ∈ pieces, '/' ∉ piece) → ClimbsFirst (pieces.foldl (walk false) parts).reverse := by
    intro pieces
    induction pieces with
    | nil => exact fun parts h _ => h
    | cons piece pieces ih =>
      intro parts h hpieces
      obtain ⟨hpiece, hpieces⟩ := List.forall_mem_cons.mp hpieces
      exact ih _ (climbsFirst_walk h hpiece) hpieces
  exact hfold _ [] ⟨0, [], rfl, by simp⟩ fun piece hpiece => Text.not_mem_of_mem_split hpiece

theorem foldl_walk_of_climbsFirst (h : ClimbsFirst parts) :
    parts.foldl (walk false) [] = parts.reverse := by
  obtain ⟨n, down, rfl, hdown⟩ := h
  have hclimb : ∀ n, (List.replicate n up).foldl (walk false) [] = List.replicate n up := by
    intro n
    induction n with
    | zero => rfl
    | succ n ih =>
      rw [List.replicate_succ', List.foldl_append, ih, ← List.replicate_succ']
      exact walk_up_of_climbs n
  rw [List.foldl_append, hclimb, foldl_walk_of_kept hdown, List.reverse_append,
    List.reverse_replicate]

end Climbs

section Stable
variable {n : ℕ} {parts : List Part}

theorem lead_le_two (p : List Char) : lead p ≤ 2 := by
  unfold lead
  split <;> omega

theorem lead_assemble (hn : n ≤ 2) (h : ∀ q ∈ parts, Kept false q) :
    lead (assemble n parts) = n := by
  have hhead := head?_join_ne h
  rcases Nat.eq_zero_or_pos n with rfl | hpos
  · rw [lead_eq_zero_iff]
    unfold assemble
    split <;> simp_all [here]
  · have hone : n = 1 ∨ n = 2 := by omega
    rw [assemble_of_pos hpos]
    cases hjoin : Text.join '/' parts with
    | nil => rcases hone with rfl | rfl <;> rfl
    | cons c cs =>
      have hc : c ≠ '/' := by
        rw [hjoin] at hhead
        simpa using hhead
      rcases hone with rfl | rfl <;> simp [lead, List.replicate, hc]

theorem walked_assemble_zero (h : ClimbsFirst parts) : walked false (assemble 0 parts) = parts := by
  unfold walked
  cases parts with
  | nil => decide
  | cons first rest =>
    rw [assemble_zero (List.cons_ne_nil _ _) h.kept, ← foldl_walk_filter (· ≠ []) (by simp),
      filter_split_join h.kept, foldl_walk_of_climbsFirst h, List.reverse_reverse]

theorem lead_collapse (p : List Char) : lead (collapse p) = lead p :=
  lead_assemble (lead_le_two p) fun q hq => (kept_of_mem_walked q hq).weaken

theorem walked_collapse (p : List Char) :
    walked (0 < lead p) (collapse p) = walked (0 < lead p) p := by
  unfold collapse
  rcases Nat.eq_zero_or_pos (lead p) with hzero | hpos
  · rw [hzero]
    exact walked_assemble_zero (climbsFirst_walked p)
  · rw [decide_eq_true hpos]
    exact walked_assemble hpos kept_of_mem_walked

theorem collapse_collapse (p : List Char) : collapse (collapse p) = collapse p := by
  rw [collapse, lead_collapse, walked_collapse]
  rfl

/-- A normal form is known by its slashes and its parts. -/
theorem collapse_eq_iff {p q : List Char} :
    collapse p = collapse q ↔
      lead p = lead q ∧ walked (0 < lead p) p = walked (0 < lead q) q := by
  constructor
  · intro h
    have hlead : lead p = lead q := by rw [← lead_collapse p, h, lead_collapse]
    refine ⟨hlead, ?_⟩
    rw [← walked_collapse p, ← walked_collapse q, h, hlead]
  · rintro ⟨hlead, hwalked⟩
    unfold collapse
    rw [hwalked, hlead]

end Stable

section Backslash
variable {p : List Char}

theorem withSlashes_of_not_mem (h : '\\' ∉ p) : withSlashes p = p := by
  have hsame : ∀ c ∈ p, (if c = '\\' then '/' else c) = c := by
    intro c hc
    refine if_neg ?_
    rintro rfl
    exact h hc
  exact (List.map_congr_left hsame).trans (List.map_id' p)

theorem not_mem_withSlashes (p : List Char) : '\\' ∉ withSlashes p := by
  intro h
  obtain ⟨c, -, hc⟩ := List.mem_map.mp h
  split at hc <;> simp_all

theorem mem_walk {rooted : Bool} {parts : List Part} {part q : Part}
    (hq : q ∈ walk rooted parts part) : q ∈ parts ∨ q = part := by
  unfold walk at hq
  by_cases hskip : part = [] ∨ part = here
  · rw [if_pos hskip] at hq
    exact Or.inl hq
  rw [if_neg hskip] at hq
  by_cases hup : part = up
  · rw [if_pos hup] at hq
    cases parts with
    | nil => cases rooted <;> simp_all
    | cons last rest =>
      dsimp only at hq
      split_ifs at hq
      · exact (List.mem_cons.mp hq).elim (fun h => Or.inr (h.trans hup.symm)) Or.inl
      · exact Or.inl (List.mem_cons_of_mem _ hq)
  · rw [if_neg hup] at hq
    exact (List.mem_cons.mp hq).symm

theorem mem_foldl_walk {rooted : Bool} {pieces parts : List Part} {q : Part}
    (hq : q ∈ pieces.foldl (walk rooted) parts) : q ∈ parts ∨ q ∈ pieces := by
  induction pieces generalizing parts with
  | nil => exact Or.inl hq
  | cons piece pieces ih =>
    rcases ih hq with hq | hq
    · rcases mem_walk hq with hq | rfl
      · exact Or.inl hq
      · exact Or.inr List.mem_cons_self
    · exact Or.inr (List.mem_cons_of_mem _ hq)

/-- Walking brings in no character. -/
theorem subset_of_mem_walked {rooted : Bool} {q : Part} (hq : q ∈ walked rooted p) : q ⊆ p := by
  rcases mem_foldl_walk (List.mem_reverse.mp hq) with hnone | hsplit
  · exact absurd hnone List.not_mem_nil
  · exact Text.subset_of_mem_split hsplit

theorem not_mem_assemble {n : ℕ} {parts : List Part} (h : ∀ q ∈ parts, '\\' ∉ q) :
    '\\' ∉ assemble n parts := by
  have hslashes : '\\' ∉ List.replicate n '/' :=
    fun hmem => absurd (List.eq_of_mem_replicate hmem) (by decide)
  have hjoin : '\\' ∉ Text.join '/' parts := Text.not_mem_join (by decide) h
  unfold assemble
  split
  · decide
  · rw [List.mem_append]
    exact not_or.mpr ⟨hslashes, hjoin⟩

theorem not_mem_collapse (h : '\\' ∉ p) : '\\' ∉ collapse p :=
  not_mem_assemble fun _ hq hmem => h (subset_of_mem_walked hq hmem)

end Backslash

theorem toList_normalize (path : String) :
    (normalize path).toList = collapse (withSlashes path.toList) :=
  String.toList_ofList

theorem not_mem_normalize (path : String) : '\\' ∉ (normalize path).toList := by
  rw [toList_normalize]
  exact not_mem_collapse (not_mem_withSlashes path.toList)

theorem normalize_of_not_mem {path : String} (h : '\\' ∉ path.toList) :
    normalize path = String.ofList (collapse path.toList) := by
  unfold normalize
  rw [withSlashes_of_not_mem h]

theorem normalize_normalize (path : String) : normalize (normalize path) = normalize path := by
  rw [normalize_of_not_mem (not_mem_normalize path), toList_normalize, collapse_collapse]
  rfl

end SignatureContext.Path
