import SignatureContext.Path
import Mathlib.Data.List.Basic
import Mathlib.Tactic.SplitIfs

/-! Normal forms of paths, and the parts that they are assembled from. -/
namespace SignatureContext.Path

/-- A part as normal forms have it. Only a path that does not start from the top climbs. -/
def Kept (rooted : Bool) (part : Part) : Prop :=
  part ≠ [] ∧ part ≠ here ∧ '/' ∉ part ∧ (rooted → part ≠ up)

theorem Kept.weaken {rooted : Bool} {part : Part} (h : Kept rooted part) : Kept false part :=
  ⟨h.1, h.2.1, h.2.2.1, by simp⟩

theorem kept_up : Kept false up :=
  ⟨by decide, by decide, by decide, by simp⟩

section Walk
variable {rooted : Bool} {parts : List Part}

theorem kept_walk {part : Part} (hparts : ∀ q ∈ parts, Kept rooted q) (hpart : '/' ∉ part) :
    ∀ q ∈ walk rooted parts part, Kept rooted q := by
  unfold walk
  by_cases hskip : part = [] ∨ part = here
  · rw [if_pos hskip]
    exact hparts
  rw [if_neg hskip]
  by_cases hup : part = up
  · rw [if_pos hup]
    cases parts with
    | nil => cases rooted <;> simp [kept_up]
    | cons last rest =>
      obtain ⟨hlast, hrest⟩ := List.forall_mem_cons.mp hparts
      dsimp only
      split_ifs with htop
      · subst htop
        exact List.forall_mem_cons.mpr ⟨hlast, hparts⟩
      · exact hrest
  · rw [if_neg hup]
    obtain ⟨hne, hhere⟩ := not_or.mp hskip
    exact List.forall_mem_cons.mpr ⟨⟨hne, hhere, hpart, fun _ => hup⟩, hparts⟩

theorem kept_foldl_walk {pieces : List Part} (hparts : ∀ q ∈ parts, Kept rooted q)
    (hpieces : ∀ piece ∈ pieces, '/' ∉ piece) :
    ∀ q ∈ pieces.foldl (walk rooted) parts, Kept rooted q := by
  induction pieces generalizing parts with
  | nil => exact hparts
  | cons piece pieces ih =>
    obtain ⟨hpiece, hpieces⟩ := List.forall_mem_cons.mp hpieces
    exact ih (kept_walk hparts hpiece) hpieces

theorem kept_of_mem_walked {p : List Char} : ∀ q ∈ walked rooted p, Kept rooted q := by
  have hnone : ∀ q ∈ ([] : List Part), Kept rooted q := by simp
  have hpieces : ∀ piece ∈ Text.split '/' p, '/' ∉ piece :=
    fun piece hpiece => Text.not_mem_of_mem_split hpiece
  exact fun q hq => kept_foldl_walk hnone hpieces q (List.mem_reverse.mp hq)

theorem walk_of_kept {part : Part} (h : Kept true part) :
    walk rooted parts part = part :: parts := by
  obtain ⟨hne, hhere, -, hup⟩ := h
  unfold walk
  rw [if_neg (by simp [hne, hhere]), if_neg (hup rfl)]

theorem foldl_walk_of_kept {pieces : List Part} (h : ∀ piece ∈ pieces, Kept true piece) :
    pieces.foldl (walk rooted) parts = pieces.reverse ++ parts := by
  induction pieces generalizing parts with
  | nil => rfl
  | cons piece pieces ih =>
    obtain ⟨hpiece, hpieces⟩ := List.forall_mem_cons.mp h
    rw [List.foldl_cons, walk_of_kept hpiece, ih hpieces]
    simp

/-- Empty parts and dots are walked in place, so it does not matter which of them are left out. -/
theorem foldl_walk_filter (keep : Part → Bool)
    (hkeep : ∀ piece, ¬ keep piece → piece = [] ∨ piece = here) (pieces : List Part) :
    (pieces.filter keep).foldl (walk rooted) parts = pieces.foldl (walk rooted) parts := by
  rw [List.foldl_filter]
  congr 1
  funext parts piece
  by_cases hpiece : keep piece
  · rw [if_pos hpiece]
  · have hstay : walk rooted parts piece = parts := if_pos (hkeep piece hpiece)
    rw [if_neg hpiece, hstay]

end Walk

section Assemble
variable {n : ℕ} {parts : List Part}

theorem lead_eq_zero_iff {p : List Char} : lead p = 0 ↔ p.head? ≠ some '/' := by
  cases p with
  | nil => simp [lead]
  | cons c cs =>
    unfold lead
    split <;> simp_all

theorem assemble_of_pos (hn : 0 < n) :
    assemble n parts = List.replicate n '/' ++ Text.join '/' parts := by
  unfold assemble
  split
  · rename_i hnil
    rw [List.append_eq_nil_iff, List.replicate_eq_nil_iff] at hnil
    omega
  · rfl

theorem filter_split_join (h : ∀ q ∈ parts, Kept false q) :
    (Text.split '/' (Text.join '/' parts)).filter (· ≠ []) = parts := by
  cases parts with
  | nil => rfl
  | cons first rest =>
    have hslash : ∀ q ∈ first :: rest, '/' ∉ q := fun q hq => (h q hq).2.2.1
    rw [Text.split_join hslash (List.cons_ne_nil _ _), List.filter_eq_self]
    exact fun q hq => by simpa using (h q hq).1

theorem assemble_zero (hne : parts ≠ []) (h : ∀ q ∈ parts, Kept false q) :
    assemble 0 parts = Text.join '/' parts := by
  have hjoin : Text.join '/' parts ≠ [] := by
    intro hnil
    have hsplit := filter_split_join h
    rw [hnil] at hsplit
    exact hne (by simpa [Text.split] using hsplit.symm)
  unfold assemble
  split
  · exact absurd ‹_› hjoin
  · rfl

/-- Slashes at the start of a path are before its first part. -/
theorem filter_split_replicate_append (n : ℕ) (p : List Char) :
    (Text.split '/' (List.replicate n '/' ++ p)).filter (· ≠ []) =
      (Text.split '/' p).filter (· ≠ []) := by
  induction n with
  | zero => rfl
  | succ n ih =>
    rw [List.replicate_succ, List.cons_append, Text.split, if_pos rfl]
    simpa using ih

theorem filter_split_assemble (hn : 0 < n) (h : ∀ q ∈ parts, Kept false q) :
    (Text.split '/' (assemble n parts)).filter (· ≠ []) = parts := by
  rw [assemble_of_pos hn, filter_split_replicate_append, filter_split_join h]

theorem walked_assemble (hn : 0 < n) (h : ∀ q ∈ parts, Kept true q) :
    walked true (assemble n parts) = parts := by
  have hkept : ∀ q ∈ parts, Kept false q := fun q hq => (h q hq).weaken
  unfold walked
  rw [← foldl_walk_filter (· ≠ []) (by simp), filter_split_assemble hn hkept, foldl_walk_of_kept h]
  simp

theorem head?_join_ne (h : ∀ q ∈ parts, Kept false q) : (Text.join '/' parts).head? ≠ some '/' := by
  unfold Text.join
  cases parts with
  | nil => simp
  | cons first rest =>
    obtain ⟨hne, -, hslash, -⟩ := h first List.mem_cons_self
    obtain ⟨c, cs, rfl⟩ := List.exists_cons_of_ne_nil hne
    have hc : c ≠ '/' := by
      rintro rfl
      exact hslash List.mem_cons_self
    cases rest <;> simp [hc]

end Assemble

theorem head?_append {base : List Char} (h : base.head? = some '/') (tail : List Char) :
    (append base tail).head? = some '/' := by
  unfold append
  split_ifs with htail
  · exact htail
  · rw [List.head?_append, h]
    rfl
  · rw [List.head?_append, h]
    rfl

section Absolute
variable {cwd : Directory}

theorem absoluteParts_eq (cwd : Directory) (p : List Char) :
    absoluteParts cwd p = walked true (append cwd.path.toList p) := by
  have hlead : 0 < lead (append cwd.path.toList p) := by
    by_contra h
    exact lead_eq_zero_iff.mp (Nat.eq_zero_of_not_pos h) (head?_append cwd.head?_path p)
  unfold absoluteParts collapse
  rw [decide_eq_true hlead]
  exact filter_split_assemble hlead fun q hq => (kept_of_mem_walked q hq).weaken

/-- The present directory does not matter to a path from the top. -/
theorem absoluteParts_of_head (cwd : Directory) {p : List Char} (h : p.head? = some '/') :
    absoluteParts cwd p = walked true p := by
  have hslash : append cwd.path.toList p = p := if_pos h
  rw [absoluteParts_eq, hslash]

theorem kept_of_mem_absoluteParts {p : List Char} : ∀ q ∈ absoluteParts cwd p, Kept true q := by
  rw [absoluteParts_eq]
  exact kept_of_mem_walked

/-- The normal form of the path has one slash at its start and no more. -/
def OneSlash (path : String) : Prop :=
  ∃ rest, (normalize path).toList = '/' :: rest ∧ rest.head? ≠ some '/'

theorem OneSlash.lead_eq {path : String} (h : OneSlash path) :
    lead (withSlashes path.toList) = 1 := by
  obtain ⟨rest, hpath, hrest⟩ := h
  unfold normalize collapse at hpath
  rw [String.toList_ofList] at hpath
  have hkept : ∀ q ∈ walked (0 < lead (withSlashes path.toList)) (withSlashes path.toList),
      Kept false q := fun q hq => (kept_of_mem_walked q hq).weaken
  rcases Nat.eq_zero_or_pos (lead (withSlashes path.toList)) with hlead | hlead
  · rw [hlead] at hpath hkept
    -- a path that is not from the top starts with its first part, or is the present directory
    have hhead := head?_join_ne hkept
    unfold assemble at hpath
    split at hpath <;> simp_all [here]
  · rw [assemble_of_pos hlead] at hpath
    unfold lead at hlead hpath ⊢
    split at hpath
    · rfl
    -- two slashes stay two, so what follows the first one starts with the second
    · have htwo : '/' :: Text.join '/' (walked true (withSlashes path.toList)) = rest := by
        simp_all [List.replicate]
      simp [← htwo] at hrest
    · rfl
    · simp_all

theorem OneSlash.head?_normalize {path : String} (h : OneSlash path) :
    (normalize path).toList.head? = some '/' := by
  obtain ⟨rest, hrest, -⟩ := h
  rw [hrest]
  rfl

/-- A file that is named from the top by one slash is known by its parts. -/
theorem OneSlash.toList_normalize {path : String} (h : OneSlash path) (cwd : Directory) :
    (normalize path).toList = '/' :: Text.join '/' (absoluteParts cwd (normalize path).toList) := by
  have hlead := h.lead_eq
  have hpath : (normalize path).toList = assemble 1 (walked true (withSlashes path.toList)) := by
    unfold normalize collapse
    rw [String.toList_ofList, hlead]
    rfl
  rw [absoluteParts_of_head cwd h.head?_normalize, hpath,
    walked_assemble Nat.one_pos kept_of_mem_walked, assemble_of_pos Nat.one_pos]
  rfl

theorem OneSlash.eq_of_absoluteParts {p q : String} (hp : OneSlash p) (hq : OneSlash q)
    (h : absoluteParts cwd (normalize p).toList = absoluteParts cwd (normalize q).toList) :
    normalize p = normalize q := by
  rw [← String.toList_inj, hp.toList_normalize cwd, hq.toList_normalize cwd, h]

end Absolute

end SignatureContext.Path
