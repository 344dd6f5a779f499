import Mathlib.Data.List.TakeWhile
import Mathlib.Tactic.SplitIfs
import SignatureContext.Text.Character

/-! What is left of a text when the blanks at its ends are cut off: of a word between blanks the
word, and in general all but blanks. -/
namespace SignatureContext.Text

variable {p : Char → Bool} {front word core back rest cs : List Char} {c : Char}

theorem dropWhile_of_head (hfirst : ∀ c ∈ cs.head?, ¬ p c) : cs.dropWhile p = cs := by
  cases cs with
  | nil => rfl
  | cons c cs => exact List.dropWhile_cons_of_neg (hfirst c rfl)

theorem dropWhile_append_of_head (hfront : ∀ c ∈ front, p c) (hfirst : ∀ c ∈ rest.head?, ¬ p c) :
    (front ++ rest).dropWhile p = rest := by
  rw [List.dropWhile_append_of_pos hfront, dropWhile_of_head hfirst]

/-- Only blanks are cut off at either end. -/
theorem exists_trimBy (p : Char → Bool) (cs : List Char) :
    ∃ front back, (∀ c ∈ front, p c) ∧ (∀ c ∈ back, p c) ∧ cs = front ++ trimBy p cs ++ back := by
  let inner := cs.dropWhile p
  have hinner : inner = trimBy p cs ++ (inner.reverse.takeWhile p).reverse := by
    unfold trimBy
    rw [← List.reverse_append, List.takeWhile_append_dropWhile, List.reverse_reverse]
  refine ⟨cs.takeWhile p, (inner.reverse.takeWhile p).reverse, fun c => List.mem_takeWhile_imp,
    fun c hc => List.mem_takeWhile_imp (List.mem_reverse.mp hc), ?_⟩
  rw [List.append_assoc, ← hinner, List.takeWhile_append_dropWhile]

theorem trimBy_eq_nil_iff : trimBy p cs = [] ↔ ∀ c ∈ cs, p c := by
  constructor
  · intro h
    obtain ⟨front, back, hfront, hback, hcs⟩ := exists_trimBy p cs
    rw [h, List.append_nil] at hcs
    rw [hcs]
    exact List.forall_mem_append.mpr ⟨hfront, hback⟩
  · intro h
    unfold trimBy
    rw [List.dropWhile_eq_nil_iff.mpr h]
    rfl

/-- What starts and ends with no blank is kept, and only blanks before it are cut off. -/
theorem prefix_trimBy (hfront : ∀ c ∈ front, p c) (hfirst : ∀ c ∈ core.head?, ¬ p c)
    (hlast : ∀ c ∈ core.getLast?, ¬ p c) (hne : core ≠ []) (rest : List Char) :
    core <+: trimBy p (front ++ core ++ rest) := by
  have hstart : ∀ c ∈ (core ++ rest).head?, ¬ p c := by
    obtain ⟨first, others, rfl⟩ := List.exists_cons_of_ne_nil hne
    exact hfirst
  have hend : core.reverse.dropWhile p = core.reverse := by
    apply dropWhile_of_head
    rwa [List.head?_reverse]
  unfold trimBy
  rw [List.append_assoc, dropWhile_append_of_head hfront hstart, List.reverse_append,
    List.dropWhile_append, hend]
  split_ifs
  · exact ⟨[], by rw [List.append_nil, List.reverse_reverse]⟩
  · rw [List.reverse_append, List.reverse_reverse]
    exact List.prefix_append _ _

theorem trimBy_append (hfront : ∀ c ∈ front, p c) (hback : ∀ c ∈ back, p c)
    (hword : ∀ c ∈ word, ¬ p c) : trimBy p (front ++ word ++ back) = word := by
  have hstart : word.dropWhile p = word :=
    List.dropWhile_eq_self_iff.mpr fun hpos => hword _ (List.getElem_mem hpos)
  have hend : word.reverse.dropWhile p = word.reverse :=
    List.dropWhile_eq_self_iff.mpr fun hpos => hword _ (List.mem_reverse.mp (List.getElem_mem hpos))
  have hlast : ∀ c ∈ back.reverse, p c := fun c hc => hback c (List.mem_reverse.mp hc)
  unfold trimBy
  rw [List.append_assoc, List.dropWhile_append_of_pos hfront, List.dropWhile_append, hstart]
  split_ifs with hempty
  -- without a word, the blanks behind it go with those before it
  · rw [List.dropWhile_eq_nil_iff.mpr hback, List.isEmpty_iff.mp hempty]
    rfl
  · rw [List.reverse_append, List.dropWhile_append_of_pos hlast, hend, List.reverse_reverse]

theorem isBlank_of_isWhiteSpace (h : isWhiteSpace c) : isBlank c :=
  (Bool.and_eq_true_iff.mp h).1

theorem isUpper_iff : c.isUpper ↔ 65 ≤ c.toNat ∧ c.toNat ≤ 90 :=
  decide_eq_true_iff.trans (and_congr UInt32.le_iff_toNat_le UInt32.le_iff_toNat_le)

theorem isLower_iff : c.isLower ↔ 97 ≤ c.toNat ∧ c.toNat ≤ 122 :=
  Bool.and_eq_true_iff.trans (and_congr (decide_eq_true_iff.trans UInt32.le_iff_toNat_le)
    (decide_eq_true_iff.trans UInt32.le_iff_toNat_le))

theorem not_isUpper_of_isBlank (h : isBlank c) : ¬ c.isUpper := by
  simp only [isBlank, Ranges.has, blankRanges, List.any_cons, List.any_nil, Bool.and_eq_true,
    Bool.or_eq_true, decide_eq_true_eq, Bool.or_false] at h
  rw [isUpper_iff]
  omega

end SignatureContext.Text
