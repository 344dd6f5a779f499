import SignatureContext.Proofs.Path.Stable
import Mathlib.Data.List.DropRight

/-! Where a path leads that is seen from the directory of a file. The directory is cut off the path
of the file as it is written, and only what comes of joining the two is brought into normal form.
This depends on the normal form of the file's path alone for spellings which end with a file's name
and have no backslash. -/
namespace SignatureContext.Path

section Trail
variable {rooted : Bool} {front tail : List Char}

/-- The parts that the text leads to, last part first. -/
def trail (rooted : Bool) (p : List Char) : List Part :=
  (Text.split '/' p).foldl (walk rooted) []

theorem walked_eq_reverse_trail (p : List Char) : walked rooted p = (trail rooted p).reverse := rfl

theorem trail_append_cons (front tail : List Char) :
    trail rooted (front ++ '/' :: tail) =
      (Text.split '/' tail).foldl (walk rooted) (trail rooted front) := by
  unfold trail
  rw [Text.split_append_cons, List.foldl_append]

theorem trail_append_replicate (front : List Char) (n : ℕ) :
    trail rooted (front ++ List.replicate n '/') = trail rooted front := by
  induction n with
  | zero => rw [List.replicate_zero, List.append_nil]
  | succ n ih =>
    have hempty : walk rooted (trail rooted front) [] = trail rooted front := if_pos (Or.inl rfl)
    rw [List.replicate_succ', ← List.append_assoc, trail_append_cons, ih]
    -- behind the last slash there is an empty part
    exact hempty

/-- What follows the text starts a new part. -/
def Opens (front : List Char) : Prop :=
  front = [] ∨ front.getLast? = some '/'

theorem Opens.trail_append (h : Opens front) (tail : List Char) :
    trail rooted (front ++ tail) =
      (Text.split '/' tail).foldl (walk rooted) (trail rooted front) := by
  rcases h with rfl | h
  · rfl
  · obtain ⟨front, rfl⟩ := List.getLast?_eq_some_iff.mp h
    have hfront : trail rooted (front ++ ['/']) = trail rooted front :=
      trail_append_replicate front 1
    rw [List.append_assoc, List.singleton_append, trail_append_cons, hfront]

/-- Only the slashes at the start of a path count, and no more than three of them. -/
theorem lead_append (h : tail.head? ≠ some '/') : lead (front ++ tail) = lead front := by
  match front with
  | [] => exact lead_eq_zero_iff.mpr h
  | [a] => by_cases ha : a = '/' <;> cases tail <;> simp_all [lead]
  | [a, b] =>
    by_cases ha : a = '/' <;> by_cases hb : b = '/' <;> cases tail <;> simp_all [lead]
  | a :: b :: c :: rest =>
    by_cases ha : a = '/' <;> by_cases hb : b = '/' <;> by_cases hc : c = '/' <;>
      simp_all [lead]

theorem Opens.collapse_append (h : Opens front) (htail : tail.head? ≠ some '/') :
    collapse (front ++ tail) = assemble (lead front)
      ((Text.split '/' tail).foldl (walk (0 < lead front))
        (trail (0 < lead front) front)).reverse := by
  unfold collapse
  rw [lead_append htail, walked_eq_reverse_trail, h.trail_append]

/-- From where two texts lead to one place, every path leads to one place. -/
theorem Opens.collapse_append_iff {front' : List Char} (h : Opens front) (h' : Opens front') :
    collapse (front ++ here) = collapse (front' ++ here) ↔
      lead front = lead front' ∧ trail (0 < lead front) front = trail (0 < lead front') front' := by
  have hhere : here.head? ≠ some '/' := by decide
  have htrail : ∀ (rooted : Bool) (front : List Char), Opens front →
      walked rooted (front ++ here) = (trail rooted front).reverse := by
    intro rooted front h
    have hstay : walk rooted (trail rooted front) here = trail rooted front := if_pos (Or.inr rfl)
    rw [walked_eq_reverse_trail, h.trail_append]
    exact congrArg List.reverse hstay
  rw [collapse_eq_iff, lead_append hhere, lead_append hhere, htrail _ _ h, htrail _ _ h',
    List.reverse_inj]

end Trail

section Directory
variable {dir name : List Char}

/-- The directory with a slash behind it if it needs one. -/
def opening (base : List Char) : List Char :=
  if base = [] ∨ base.getLast? = some '/' then base else base ++ ['/']

theorem opens_opening (base : List Char) : Opens (opening base) := by
  unfold opening
  split_ifs with h
  · exact h
  · exact Or.inr List.getLast?_concat

theorem append_eq_opening_append {base tail : List Char} (h : tail.head? ≠ some '/') :
    append base tail = opening base ++ tail := by
  unfold append opening
  rw [if_neg h]
  split_ifs <;> simp

theorem parent_append (hname : '/' ∉ name) : parent (dir ++ name) = parent dir := by
  have hskip : ∀ c ∈ name.reverse, (c != '/') = true := by
    intro c hc
    rw [List.mem_reverse] at hc
    simpa using fun heq : c = '/' => hname (heq ▸ hc)
  unfold parent
  rw [List.reverse_append, List.dropWhile_append_of_pos hskip]

theorem Opens.parent_eq (h : Opens dir) :
    parent dir = if dir.all (· == '/') then dir else dir.rdropWhile (· == '/') := by
  have hhead : (dir.reverse.dropWhile (· != '/')).reverse = dir := by
    rcases h with rfl | h
    · rfl
    · obtain ⟨front, rfl⟩ := List.getLast?_eq_some_iff.mp h
      simp
  unfold parent
  dsimp only
  rw [hhead]
  rfl

theorem lead_append_replicate {base : List Char} {c : Char} (hlast : base.getLast? = some c)
    (hc : c ≠ '/') (n : ℕ) : lead (base ++ List.replicate n '/') = lead base := by
  obtain ⟨front, rfl⟩ := List.getLast?_eq_some_iff.mp hlast
  have hlead : ∀ tail, lead (front ++ c :: tail) = lead front :=
    fun tail => lead_append (by simpa using hc)
  rw [List.append_assoc, List.singleton_append, hlead, hlead]

/-- A directory leads to the same place with and without the slash that it needs. -/
theorem opening_leads (base : List Char) :
    lead (opening base) = lead base ∧
      ∀ rooted, trail rooted (opening base) = trail rooted base := by
  by_cases hopen : base = [] ∨ base.getLast? = some '/'
  · have hopening : opening base = base := if_pos hopen
    rw [hopening]
    exact ⟨rfl, fun _ => rfl⟩
  · have hopening : opening base = base ++ List.replicate 1 '/' := if_neg hopen
    obtain ⟨hne, hslash⟩ := not_or.mp hopen
    have hlast := List.getLast?_eq_some_getLast hne
    have hc : base.getLast hne ≠ '/' := fun hc => hslash (hlast.trans (congrArg some hc))
    rw [hopening, lead_append_replicate hlast hc]
    exact ⟨rfl, fun _ => trail_append_replicate base 1⟩

theorem Opens.opening_parent (h : Opens dir) :
    lead (opening (parent dir)) = lead dir ∧
      ∀ rooted, trail rooted (opening (parent dir)) = trail rooted dir := by
  rw [h.parent_eq]
  split_ifs with hall
  · exact opening_leads dir
  have hne : dir.rdropWhile (· == '/') ≠ [] := by
    rw [ne_eq, List.rdropWhile_eq_nil_iff, ← List.all_eq_true]
    exact hall
  have hlast := List.rdropWhile_last_not (· == '/') dir hne
  have hslashes : ∀ c ∈ dir.rtakeWhile (· == '/'), c = '/' :=
    fun c hc => by simpa using List.mem_rtakeWhile_imp hc
  have hdir : dir.rdropWhile (· == '/') ++ List.replicate (dir.rtakeWhile (· == '/')).length '/' =
      dir := by
    rw [← List.eq_replicate_of_mem hslashes]
    exact List.rdropWhile_append_rtakeWhile
  obtain ⟨hlead, htrail⟩ := opening_leads (dir.rdropWhile (· == '/'))
  have hslashed := lead_append_replicate (List.getLast?_eq_some_getLast hne) (by simpa using hlast)
    (dir.rtakeWhile (· == '/')).length
  rw [hdir] at hslashed
  refine ⟨hlead.trans hslashed.symm, fun rooted => (htrail rooted).trans ?_⟩
  rw [← trail_append_replicate _ (dir.rtakeWhile (· == '/')).length, hdir]

end Directory

section Destination
variable {p q specifier : String}

/-- Where a specifier in a file points to. -/
def destination (file specifier : String) : String :=
  normalize (join (dirname file) specifier)

/-- What a specifier in the file is put behind. -/
def entrance (p : List Char) : List Char :=
  withSlashes (opening (parent p))

theorem opens_entrance (p : List Char) : Opens (entrance p) := by
  unfold entrance withSlashes
  rcases opens_opening (parent p) with hnil | hslash
  · exact Or.inl (by rw [hnil]; rfl)
  · exact Or.inr (by rw [List.getLast?_map, hslash]; rfl)

theorem destination_eq (file : String) (h : specifier.toList.head? ≠ some '/') :
    destination file specifier =
      String.ofList (collapse (entrance file.toList ++ withSlashes specifier.toList)) := by
  unfold destination normalize join dirname entrance withSlashes
  rw [String.toList_ofList, String.toList_ofList, append_eq_opening_append h, List.map_append]

theorem destination_here_eq_iff :
    destination p "." = destination q "." ↔
      lead (entrance p.toList) = lead (entrance q.toList) ∧
        trail (0 < lead (entrance p.toList)) (entrance p.toList) =
          trail (0 < lead (entrance q.toList)) (entrance q.toList) := by
  have hhere : withSlashes ".".toList = here := by decide
  have hhead : ".".toList.head? ≠ some '/' := by decide
  rw [destination_eq p hhead, destination_eq q hhead, hhere, String.ofList_inj]
  exact (opens_entrance p.toList).collapse_append_iff (opens_entrance q.toList)

/-- From where `.` leads to one place, so does every specifier, but for those that only become
absolute when they lose their backslashes. -/
theorem destination_eq_of_here (h : destination p "." = destination q ".")
    (hspecifier : specifier.toList.head? ≠ some '\\') :
    destination p specifier = destination q specifier := by
  by_cases hroot : specifier.toList.head? = some '/'
  · have habsolute : ∀ base : String, join base specifier = specifier := by
      intro base
      unfold join append
      rw [if_pos hroot, String.ofList_toList]
    unfold destination
    rw [habsolute, habsolute]
  · have htail : (withSlashes specifier.toList).head? ≠ some '/' := by
      unfold withSlashes
      rw [List.head?_map]
      cases hhead : specifier.toList.head? with
      | none => simp
      | some c =>
        rw [hhead] at hspecifier hroot
        have hc : c ≠ '\\' := fun heq => hspecifier (congrArg some heq)
        rwa [Option.map_some, if_neg hc]
    obtain ⟨hlead, htrail⟩ := destination_here_eq_iff.mp h
    rw [destination_eq p hroot, destination_eq q hroot,
      (opens_entrance p.toList).collapse_append htail,
      (opens_entrance q.toList).collapse_append htail, htrail, hlead]

/-- A spelling without backslashes that ends with the name of a file. -/
def Plain (p : List Char) : Prop :=
  '\\' ∉ p ∧ ∃ dir name, p = dir ++ name ∧ Opens dir ∧ Kept true name

theorem parent_subset (p : List Char) : parent p ⊆ p := by
  have hdrop : ∀ (f : Char → Bool) (p : List Char), (p.reverse.dropWhile f).reverse ⊆ p :=
    fun f p => (List.rdropWhile_prefix f p).subset
  unfold parent
  dsimp only
  split_ifs
  · exact hdrop _ p
  · exact List.Subset.trans (hdrop _ _) (hdrop _ p)

theorem not_mem_opening_parent {p : List Char} (h : '\\' ∉ p) : '\\' ∉ opening (parent p) := by
  have hparent : '\\' ∉ parent p := fun hmem => h (parent_subset p hmem)
  unfold opening
  split_ifs
  · exact hparent
  · rw [List.mem_append]
    exact not_or.mpr ⟨hparent, by decide⟩

/-- Such a spelling leads to the directory and one part further. -/
theorem Plain.exists_trail_eq {p : List Char} (h : Plain p) :
    lead (entrance p) = lead (withSlashes p) ∧
      ∃ name, ∀ rooted, trail rooted (withSlashes p) = name :: trail rooted (entrance p) := by
  obtain ⟨hplain, dir, name, rfl, hdir, hname⟩ := h
  have hslash : '/' ∉ name := hname.2.2.1
  obtain ⟨c, cs, rfl⟩ := List.exists_cons_of_ne_nil hname.1
  have hhead : (c :: cs).head? ≠ some '/' := by
    intro hc
    rw [List.head?_cons, Option.some.injEq] at hc
    exact hslash (hc ▸ List.mem_cons_self)
  have hentrance : entrance (dir ++ c :: cs) = opening (parent dir) := by
    unfold entrance
    rw [withSlashes_of_not_mem (not_mem_opening_parent hplain), parent_append hslash]
  obtain ⟨hlead, htrail⟩ := hdir.opening_parent
  rw [hentrance, withSlashes_of_not_mem hplain]
  refine ⟨?_, c :: cs, fun rooted => ?_⟩
  · rw [hlead, lead_append hhead]
  · have hpieces : ∀ piece ∈ [c :: cs], '/' ∉ piece := List.forall_mem_singleton.mpr hslash
    have hsplit := Text.split_join hpieces (List.cons_ne_nil _ _)
    have hjoin : Text.join '/' [c :: cs] = c :: cs := List.intercalate_singleton
    rw [hjoin] at hsplit
    rw [hdir.trail_append, hsplit, htrail]
    exact walk_of_kept hname

/-- Where such spellings name one file, specifiers in it lead to one place. -/
theorem Plain.destination_here_eq (hp : Plain p.toList) (hq : Plain q.toList)
    (h : normalize p = normalize q) : destination p "." = destination q "." := by
  unfold normalize at h
  rw [String.ofList_inj, collapse_eq_iff] at h
  obtain ⟨hlead, hwalked⟩ := h
  obtain ⟨hleadp, name, htrailp⟩ := hp.exists_trail_eq
  obtain ⟨hleadq, name', htrailq⟩ := hq.exists_trail_eq
  rw [walked_eq_reverse_trail, walked_eq_reverse_trail, List.reverse_inj, htrailp, htrailq]
    at hwalked
  rw [destination_here_eq_iff, hleadp, hleadq]
  exact ⟨hlead, List.tail_eq_of_cons_eq hwalked⟩

end Destination

end SignatureContext.Path
