import SignatureContext.Proofs.Path.Normal
import Mathlib.Data.Set.Function

/-! Paths seen from a root. The way from a root to a file leads to that file only, so what an origin
says about a file does not depend on the root. -/
namespace SignatureContext.Path

section Steps
variable {source target : List Part}

theorem shared_le_length (source target : List Part) : shared source target ≤ source.length := by
  fun_induction shared source target with
  | case1 a as bs ih => simpa using ih
  | case2 => simp
  | case3 => simp

theorem take_shared (source target : List Part) :
    target.take (shared source target) = source.take (shared source target) := by
  fun_induction shared source target with
  | case1 a as bs ih => rw [List.take_succ_cons, List.take_succ_cons, ih]
  | case2 => rfl
  | case3 => rfl

/-- Climbing from a directory that was reached from the top forgets its last parts. -/
theorem foldl_walk_replicate_up {parts : List Part} (h : ∀ q ∈ parts, Kept true q) (n : ℕ) :
    (List.replicate n up).foldl (walk true) parts = parts.drop n := by
  induction n generalizing parts with
  | zero => rfl
  | succ n ih =>
    rw [List.replicate_succ, List.foldl_cons]
    cases parts with
    | nil =>
      have hstay : walk true [] up = [] := by decide
      rw [hstay, ih h, List.drop_nil, List.drop_nil]
    | cons last rest =>
      obtain ⟨hlast, hrest⟩ := List.forall_mem_cons.mp h
      have hpop : walk true (last :: rest) up = rest := by
        unfold walk
        rw [if_neg (by decide), if_pos rfl]
        exact if_neg (hlast.2.2.2 rfl)
      rw [hpop, ih hrest]
      rfl

/-- Whoever walks the steps from the one directory arrives at the other. -/
theorem foldl_walk_steps (hsource : ∀ q ∈ source, Kept true q)
    (htarget : ∀ q ∈ target, Kept true q) :
    (steps source target).foldl (walk true) source.reverse = target.reverse := by
  have hlength := shared_le_length source target
  have hreversed : ∀ q ∈ source.reverse, Kept true q := by simpa using hsource
  have hdown : ∀ q ∈ target.drop (shared source target), Kept true q :=
    fun q hq => htarget q (List.mem_of_mem_drop hq)
  have hclimbed : source.reverse.drop (source.length - shared source target) =
      (target.take (shared source target)).reverse := by
    rw [List.drop_reverse, take_shared]
    congr 2
    omega
  unfold steps
  rw [List.foldl_append, foldl_walk_replicate_up hreversed, foldl_walk_of_kept hdown, hclimbed,
    ← List.reverse_append, List.take_append_drop]

theorem steps_injective {other : List Part} (hsource : ∀ q ∈ source, Kept true q)
    (htarget : ∀ q ∈ target, Kept true q) (hother : ∀ q ∈ other, Kept true q)
    (h : steps source target = steps source other) : target = other := by
  have hplace := foldl_walk_steps hsource htarget
  rw [h, foldl_walk_steps hsource hother] at hplace
  exact (List.reverse_inj.mp hplace).symm

theorem kept_of_mem_steps (htarget : ∀ q ∈ target, Kept true q) :
    ∀ q ∈ steps source target, Kept false q := by
  intro q hq
  rcases List.mem_append.mp hq with hup | hdown
  · rw [List.eq_of_mem_replicate hup]
    exact kept_up
  · exact (htarget q (List.mem_of_mem_drop hdown)).weaken

end Steps

/-- The present directory is written as a dot, which no part is. -/
theorem filter_split_assemble_zero {parts : List Part} (h : ∀ q ∈ parts, Kept false q) :
    (Text.split '/' (assemble 0 parts)).filter (· ≠ here) = parts := by
  cases parts with
  | nil => decide
  | cons first rest =>
    have hslash : ∀ q ∈ first :: rest, '/' ∉ q := fun q hq => (h q hq).2.2.1
    rw [assemble_zero (List.cons_ne_nil _ _) h, Text.split_join hslash (List.cons_ne_nil _ _),
      List.filter_eq_self]
    exact fun q hq => by simpa using (h q hq).2.1

section Origins
variable (cwd : Directory) (root root' : String)

theorem toList_relative (path : String) :
    (relative cwd root (normalize path)).toList = '.' :: '/' :: assemble 0
      (steps (absoluteParts cwd root.toList) (absoluteParts cwd (normalize path).toList)) := by
  unfold relative relative?
  rw [if_neg (normalize_ne_empty path)]
  simp

/-- An origin tells a file by its parts, whatever the root is. -/
theorem relative_normalize_eq_iff (p q : String) :
    relative cwd root (normalize p) = relative cwd root (normalize q) ↔
      absoluteParts cwd (normalize p).toList = absoluteParts cwd (normalize q).toList := by
  have hroot : ∀ part ∈ absoluteParts cwd root.toList, Kept true part := kept_of_mem_absoluteParts
  have hp : ∀ part ∈ absoluteParts cwd (normalize p).toList, Kept true part :=
    kept_of_mem_absoluteParts
  have hq : ∀ part ∈ absoluteParts cwd (normalize q).toList, Kept true part :=
    kept_of_mem_absoluteParts
  rw [← String.toList_inj, toList_relative, toList_relative]
  constructor
  · intro h
    have hassemble := List.tail_eq_of_cons_eq (List.tail_eq_of_cons_eq h)
    -- the same text is cut into the same steps, and they lead to one place from the root
    refine steps_injective hroot hp hq ?_
    rw [← filter_split_assemble_zero (kept_of_mem_steps hp), hassemble,
      filter_split_assemble_zero (kept_of_mem_steps hq)]
  · intro h
    rw [h]

/-- The origins of files below a root. -/
def origins : Set String :=
  Set.range fun path => relative cwd root (normalize path)

/-- The origins below one root are renamed to those below another, no two to one. -/
theorem exists_renaming :
    ∃ σ : String → String,
      (∀ path, σ (relative cwd root (normalize path)) = relative cwd root' (normalize path)) ∧
      Set.InjOn σ (origins cwd root) := by
  have hfactors : Function.FactorsThrough (fun path => relative cwd root' (normalize path))
      (fun path => relative cwd root (normalize path)) := by
    intro p q h
    rw [relative_normalize_eq_iff] at h ⊢
    exact h
  have hσ : ∀ path, Function.extend (fun path => relative cwd root (normalize path))
      (fun path => relative cwd root' (normalize path)) id (relative cwd root (normalize path)) =
        relative cwd root' (normalize path) := fun path => hfactors.extend_apply id path
  refine ⟨_, hσ, ?_⟩
  rintro _ ⟨p, rfl⟩ _ ⟨q, rfl⟩ h
  dsimp only at h ⊢
  rw [hσ, hσ, relative_normalize_eq_iff] at h
  rw [relative_normalize_eq_iff, h]

end Origins

end SignatureContext.Path
