import Mathlib.Data.List.Basic
import SignatureContext.Text.Split

/-! The lines of a text that is put together from two: the last line of the one goes on as the first
line of the other. -/
namespace SignatureContext.Text

variable {cs ds first line : List Char} {rest : List (List Char)} {c : Char}

theorem lines_break (cs : List Char) : lines ('\n' :: cs) = [] :: lines cs := by
  rw [lines, split, if_pos rfl, lines]

theorem lines_cons (hc : c ≠ '\n') (h : lines cs = first :: rest) :
    lines (c :: cs) = (c :: first) :: rest := by
  rw [lines] at h ⊢
  rw [split, if_neg hc, h]

theorem lines_of_not_mem (h : '\n' ∉ cs) : lines cs = [cs] := by
  induction cs with
  | nil => rfl
  | cons c cs ih =>
    obtain ⟨hc, hcs⟩ := List.ne_and_not_mem_of_not_mem_cons h
    exact lines_cons hc.symm (ih hcs)

theorem exists_lines_eq_cons (cs : List Char) : ∃ first rest, lines cs = first :: rest :=
  List.exists_cons_of_ne_nil (split_ne_nil '\n' cs)

theorem lines_append_line (cs ds : List Char) :
    lines (cs ++ '\n' :: ds) = lines cs ++ lines ds :=
  split_append_cons '\n' cs ds

theorem exists_lines_append (cs : List Char) (h : lines ds = first :: rest) :
    ∃ above last, lines cs = above ++ [last] ∧
      lines (cs ++ ds) = above ++ (last ++ first) :: rest := by
  induction cs with
  | nil => exact ⟨[], [], rfl, h⟩
  | cons c cs ih =>
    obtain ⟨above, last, hcs, happend⟩ := ih
    by_cases hc : c = '\n'
    · refine ⟨[] :: above, last, ?_, ?_⟩
      · rw [hc, lines_break, hcs, List.cons_append]
      · rw [hc, List.cons_append, lines_break, happend, List.cons_append]
    · cases above with
      | nil => exact ⟨[], c :: last, lines_cons hc hcs, lines_cons hc happend⟩
      | cons line above =>
        exact ⟨(c :: line) :: above, last, lines_cons hc hcs, lines_cons hc happend⟩

/-- A text is one line, or its first line and what stands below. -/
theorem eq_or_exists_line (cs : List Char) :
    '\n' ∉ cs ∨ ∃ line below, '\n' ∉ line ∧ cs = line ++ '\n' :: below := by
  by_cases h : '\n' ∈ cs
  · obtain ⟨line, below, hcs, hline⟩ := List.eq_append_cons_of_mem h
    exact .inr ⟨line, below, hline, hcs⟩
  · exact .inl h

theorem lines_append_of_not_mem (hcs : '\n' ∉ cs) (h : lines ds = first :: rest) :
    lines (cs ++ ds) = (cs ++ first) :: rest := by
  obtain ⟨above, last, hlast, happend⟩ := exists_lines_append cs h
  rw [lines_of_not_mem hcs, ← List.nil_append [cs]] at hlast
  obtain ⟨rfl, hlast⟩ := List.append_inj' hlast rfl
  obtain rfl := List.singleton_inj.mp hlast
  exact happend

theorem prefix_of_lines_eq_cons (h : lines cs = first :: rest) : first <+: cs := by
  induction cs generalizing first rest with
  | nil =>
    obtain rfl := (List.cons.inj h).1
    exact List.nil_prefix
  | cons c cs ih =>
    by_cases hc : c = '\n'
    · rw [hc, lines_break] at h
      obtain rfl := (List.cons.inj h).1
      exact List.nil_prefix
    · obtain ⟨first', rest', hcs⟩ := exists_lines_eq_cons cs
      rw [lines_cons hc hcs] at h
      obtain rfl := (List.cons.inj h).1
      exact List.cons_prefix_cons.mpr ⟨rfl, ih hcs⟩

theorem infix_of_mem_lines (h : line ∈ lines cs) : line <:+: cs := by
  induction cs with
  | nil => exact List.mem_singleton.mp h ▸ List.nil_infix
  | cons c cs ih =>
    obtain ⟨first, rest, hfirst⟩ := exists_lines_eq_cons (c :: cs)
    rw [hfirst] at h
    rcases List.mem_cons.mp h with rfl | hrest
    · exact (prefix_of_lines_eq_cons hfirst).isInfix
    · refine (ih ?_).trans (List.suffix_cons c cs).isInfix
      -- all lines but the first are lines of the text behind its first character
      by_cases hc : c = '\n'
      · rw [hc, lines_break] at hfirst
        exact (List.cons.inj hfirst).2 ▸ hrest
      · obtain ⟨first', rest', hcs⟩ := exists_lines_eq_cons cs
        rw [lines_cons hc hcs] at hfirst
        exact hcs ▸ List.mem_cons_of_mem _ ((List.cons.inj hfirst).2 ▸ hrest)

theorem exists_mem_lines (h : c ∈ cs) (hc : c ≠ '\n') : ∃ line ∈ lines cs, c ∈ line := by
  by_contra hnone
  push Not at hnone
  exact not_mem_join hc hnone ((join_split '\n' cs).symm ▸ h)

end SignatureContext.Text
