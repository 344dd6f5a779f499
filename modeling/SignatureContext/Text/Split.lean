/-! Cutting a text at one character, joining the pieces again, and the lines of a text. -/
namespace SignatureContext.Text

/-- The pieces between the occurrences of `sep`, one more than there are occurrences. -/
def split (sep : Char) : List Char → List (List Char)
  | [] => [[]]
  | c :: cs =>
    if c = sep then [] :: split sep cs
    else match split sep cs with
      | [] => [[c]]
      | piece :: pieces => (c :: piece) :: pieces

/-- The pieces with `sep` between them. -/
def join (sep : Char) (pieces : List (List Char)) : List Char :=
  List.intercalate [sep] pieces

theorem split_ne_nil (sep : Char) (cs : List Char) : split sep cs ≠ [] := by
  cases cs with
  | nil => simp [split]
  | cons c cs =>
    simp only [split]
    split
    · simp
    · split <;> simp

@[simp] theorem join_split (sep : Char) (cs : List Char) : join sep (split sep cs) = cs := by
  induction cs with
  | nil => rfl
  | cons c cs ih =>
    by_cases hc : c = sep
    · cases hs : split sep cs with
      | nil => exact absurd hs (split_ne_nil sep cs)
      | cons piece pieces =>
        rw [hs] at ih
        simp only [split, hc, if_true, hs]
        simpa [join, List.intercalate] using ih
    · cases hs : split sep cs with
      | nil => exact absurd hs (split_ne_nil sep cs)
      | cons piece pieces =>
        rw [hs] at ih
        simp only [split, hc, if_false, hs]
        cases pieces with
        | nil => simpa [join, List.intercalate] using ih
        | cons next rest => simpa [join, List.intercalate] using ih

theorem not_mem_join {sep c : Char} {pieces : List (List Char)} (hsep : c ≠ sep)
    (h : ∀ piece ∈ pieces, c ∉ piece) : c ∉ join sep pieces := by
  induction pieces with
  | nil => simp [join]
  | cons first rest ih =>
    have hfirst : c ∉ first := h first List.mem_cons_self
    have hrest : c ∉ join sep rest := ih fun piece hpiece => h piece (List.mem_cons_of_mem _ hpiece)
    cases rest with
    | nil => simpa [join] using hfirst
    | cons next rest =>
      unfold join at hrest ⊢
      rw [List.intercalate_cons_cons]
      simp [hfirst, hsep, hrest]

theorem split_eq_splitOn (sep : Char) (cs : List Char) : split sep cs = cs.splitOn sep := by
  induction cs with
  | nil => rfl
  | cons c cs ih =>
    rw [List.splitOn_cons_eq_if_modifyHead, ← ih]
    by_cases hc : c = sep
    · simp [split, hc]
    · cases hs : split sep cs with
      | nil => exact absurd hs (split_ne_nil sep cs)
      | cons piece pieces => simp [split, hc, hs]

theorem split_append_cons (sep : Char) (cs ds : List Char) :
    split sep (cs ++ sep :: ds) = split sep cs ++ split sep ds := by
  rw [split_eq_splitOn, split_eq_splitOn, split_eq_splitOn]
  exact List.splitOn_append_cons_self cs ds

theorem split_join {sep : Char} {pieces : List (List Char)} (h : ∀ piece ∈ pieces, sep ∉ piece)
    (hne : pieces ≠ []) : split sep (join sep pieces) = pieces := by
  rw [split_eq_splitOn]
  exact List.splitOn_intercalate sep h hne

theorem not_mem_of_mem_split {sep : Char} {cs piece : List Char} (h : piece ∈ split sep cs) :
    sep ∉ piece := by
  induction cs generalizing piece with
  | nil => simp_all [split]
  | cons c cs ih =>
    cases hs : split sep cs with
    | nil => exact absurd hs (split_ne_nil sep cs)
    | cons first rest =>
      by_cases hc : c = sep
      · rw [split, if_pos hc] at h
        rcases List.mem_cons.mp h with rfl | hmem
        · simp
        · exact ih hmem
      · rw [split, if_neg hc, hs] at h
        rcases List.mem_cons.mp h with rfl | hmem
        · have hfirst := ih (hs ▸ List.mem_cons_self)
          simp [hfirst, Ne.symm hc]
        · exact ih (hs ▸ List.mem_cons_of_mem _ hmem)

theorem subset_of_mem_split {sep : Char} {cs piece : List Char} (h : piece ∈ split sep cs) :
    piece ⊆ cs := by
  induction cs generalizing piece with
  | nil => simp_all [split]
  | cons c cs ih =>
    cases hs : split sep cs with
    | nil => exact absurd hs (split_ne_nil sep cs)
    | cons first rest =>
      have hrest : ∀ q ∈ first :: rest, q ⊆ c :: cs :=
        fun q hq => List.subset_cons_of_subset c (ih (hs ▸ hq))
      by_cases hc : c = sep
      · rw [split, if_pos hc, hs] at h
        rcases List.mem_cons.mp h with rfl | hmem
        · exact List.nil_subset _
        · exact hrest piece hmem
      · rw [split, if_neg hc, hs] at h
        rcases List.mem_cons.mp h with rfl | hmem
        · exact List.cons_subset_cons c (ih (hs ▸ List.mem_cons_self))
        · exact hrest piece (List.mem_cons_of_mem _ hmem)

/-- The lines of a text, cut at line feeds only. -/
def lines (cs : List Char) : List (List Char) :=
  split '\n' cs

/-- A carriage return ends a line, together with a line feed right behind it. -/
def unifyNewlines : List Char → List Char
  | [] => []
  | '\r' :: '\n' :: cs => '\n' :: unifyNewlines cs
  | c :: cs => (if c = '\r' then '\n' else c) :: unifyNewlines cs

end SignatureContext.Text
