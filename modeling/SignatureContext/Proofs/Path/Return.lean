import SignatureContext.Proofs.Path.Origin
import SignatureContext.Proofs.Path.Directory

/-! From an origin back to its file. Joined to the root, an origin climbs out of what the root does
not share with the file and then comes down to the file, so nothing of the file's path is lost. -/
namespace SignatureContext.Path

section Root
variable {root : List Char} {parts : List Part}

/-- Behind a root from the top, the steps of an origin are walked from where the root is. -/
theorem collapse_append_origin (hroot : 0 < lead root) (hparts : ∀ q ∈ parts, Kept false q) :
    collapse (append root ('.' :: '/' :: assemble 0 parts)) =
      assemble (lead root) (parts.foldl (walk true) (trail true root)).reverse := by
  have htail : ('.' :: '/' :: assemble 0 parts).head? ≠ some '/' := by simp
  obtain ⟨hlead, htrail⟩ := opening_leads root
  have hsplit : Text.split '/' ('.' :: '/' :: assemble 0 parts) =
      here :: Text.split '/' (assemble 0 parts) := Text.split_append_cons '/' here _
  have hsteps : (Text.split '/' (assemble 0 parts)).foldl (walk true) (trail true root) =
      parts.foldl (walk true) (trail true root) := by
    rw [← foldl_walk_filter (· ≠ here) (by simp), filter_split_assemble_zero hparts]
  have hstay : walk true (trail true root) here = trail true root := if_pos (Or.inr rfl)
  rw [append_eq_opening_append htail, (opens_opening root).collapse_append htail, hlead,
    decide_eq_true hroot, htrail, hsplit, List.foldl_cons, hstay, hsteps]

theorem not_mem_append {base tail : List Char} (hbase : '\\' ∉ base) (htail : '\\' ∉ tail) :
    '\\' ∉ append base tail := by
  unfold append
  split_ifs <;> simp [hbase, htail]

end Root

section Origin
variable (cwd : Directory) {root path : String}

theorem toList_join (base tail : String) :
    (join base tail).toList = append base.toList tail.toList :=
  String.toList_ofList

/-- The present directory may have backslashes in its name, but it does not show in the origin of a
file that is named from the top. -/
theorem not_mem_relative (hpath : (normalize path).toList.head? = some '/') (root : String) :
    '\\' ∉ (relative cwd root (normalize path)).toList := by
  have hparts : ∀ q ∈ absoluteParts cwd (normalize path).toList, '\\' ∉ q := by
    rw [absoluteParts_of_head cwd hpath]
    exact fun q hq hmem => not_mem_normalize path (subset_of_mem_walked hq hmem)
  have hsteps : ∀ q ∈ steps (absoluteParts cwd root.toList)
      (absoluteParts cwd (normalize path).toList), '\\' ∉ q := by
    intro q hq
    rcases List.mem_append.mp hq with hup | hdown
    · rw [List.eq_of_mem_replicate hup]
      decide
    · exact hparts q (List.mem_of_mem_drop hdown)
  have hassemble := not_mem_assemble (n := 0) hsteps
  rw [toList_relative]
  simp [hassemble]

/-- From a root that starts from the top, an origin leads to the parts of its file, behind as many
slashes as the root has. -/
theorem normalize_join_relative (hroot : 0 < lead (withSlashes root.toList))
    (hpath : (normalize path).toList.head? = some '/') :
    normalize (join (normalize root) (relative cwd (normalize root) (normalize path))) =
      String.ofList (assemble (lead (withSlashes root.toList))
        (absoluteParts cwd (normalize path).toList)) := by
  let r := withSlashes root.toList
  let origin := relative cwd (normalize root) (normalize path)
  let source := absoluteParts cwd (normalize root).toList
  let target := absoluteParts cwd (normalize path).toList
  have hlead : 0 < lead (collapse r) := by rwa [lead_collapse]
  have hhead : (collapse r).head? = some '/' := by
    by_contra hne
    exact hlead.ne' (lead_eq_zero_iff.mpr hne)
  have hwhere : trail true (collapse r) = source.reverse := by
    have hwalked : source = walked true (collapse r) := by
      rw [← absoluteParts_of_head cwd hhead, ← toList_normalize]
    rw [hwalked, walked_eq_reverse_trail, List.reverse_reverse]
  have hsource : ∀ q ∈ source, Kept true q := kept_of_mem_absoluteParts
  have htarget : ∀ q ∈ target, Kept true q := kept_of_mem_absoluteParts
  have hplain : '\\' ∉ (join (normalize root) origin).toList := by
    rw [toList_join]
    exact not_mem_append (not_mem_normalize root) (not_mem_relative cwd hpath _)
  calc normalize (join (normalize root) origin)
      = String.ofList (collapse (append (collapse r) origin.toList)) := by
        rw [normalize_of_not_mem hplain, toList_join, toList_normalize]
    _ = String.ofList (assemble (lead (collapse r))
          ((steps source target).foldl (walk true) (trail true (collapse r))).reverse) := by
        rw [toList_relative, collapse_append_origin hlead (kept_of_mem_steps htarget)]
    _ = String.ofList (assemble (lead r) target) := by
        rw [lead_collapse, hwhere, foldl_walk_steps hsource htarget, List.reverse_reverse]

/-- From a root with one slash at its start, an origin leads back to its file, whatever the present
directory is. Origins of different files differ, whatever the root is. -/
theorem origin_leads_back (cwd : Directory) (root : String) :
    (OneSlash root → ∀ path, OneSlash path →
      ∃ origin, relative? cwd (normalize root) (normalize path) = some origin ∧
        ['.', '/'] <+: origin.toList ∧
        normalize (join (normalize root) origin) = normalize path) ∧
    ∀ p q, OneSlash p → OneSlash q →
      (relative? cwd (normalize root) (normalize p) = relative? cwd (normalize root) (normalize q) ↔
        normalize p = normalize q) := by
  constructor
  · intro hroot path hpath
    have hlead : 0 < lead (withSlashes root.toList) := by
      rw [hroot.lead_eq]
      exact Nat.one_pos
    have hreturn := normalize_join_relative cwd hlead hpath.head?_normalize
    rw [hroot.lead_eq, assemble_of_pos Nat.one_pos, List.replicate_one, List.singleton_append]
      at hreturn
    have hstart : ['.', '/'] <+: (relative cwd (normalize root) (normalize path)).toList := by
      rw [toList_relative]
      simp
    refine ⟨_, relative?_normalize cwd (normalize root) path, hstart, ?_⟩
    rw [hreturn, ← hpath.toList_normalize cwd, String.ofList_toList]
  · intro p q hp hq
    rw [relative?_normalize, relative?_normalize, Option.some_inj, relative_normalize_eq_iff]
    exact ⟨hp.eq_of_absoluteParts hq, fun h => by rw [h]⟩

/-- A file in a directory whose name goes on from the root's, and the root itself. -/
theorem sibling_leads_back :
    let cwd : Directory := ⟨"/home/x\\y", by decide⟩
    let root := "/repo/app/"
    let path := "/repo\\app-kit/./a.ts"
    OneSlash root ∧ OneSlash path ∧
    relative? cwd (normalize root) (normalize path) = some "./../app-kit/a.ts" ∧
    normalize (join (normalize root) "./../app-kit/a.ts") = normalize path ∧
    relative? cwd (normalize root) (normalize root) = some "./." ∧
    normalize (join (normalize root) "./.") = normalize root ∧
    relative? cwd (normalize root) (normalize path) ≠
      relative? cwd (normalize root) (normalize root) := by
  intro cwd root path
  have hroot : OneSlash root := ⟨"repo/app".toList, by decide +kernel, by decide +kernel⟩
  have hpath : OneSlash path := ⟨"repo/app-kit/a.ts".toList, by decide +kernel, by decide +kernel⟩
  have hsibling : relative? cwd (normalize root) (normalize path) = some "./../app-kit/a.ts" := by
    decide +kernel
  have hself : relative? cwd (normalize root) (normalize root) = some "./." := by decide +kernel
  obtain ⟨hback, hdiffer⟩ := origin_leads_back cwd root
  obtain ⟨origin, horigin, -, hreturn⟩ := hback hroot path hpath
  obtain rfl := Option.some.inj (hsibling.symm.trans horigin)
  obtain ⟨origin, horigin, -, hstay⟩ := hback hroot root hroot
  obtain rfl := Option.some.inj (hself.symm.trans horigin)
  have hother : normalize path ≠ normalize root := by decide +kernel
  exact ⟨hroot, hpath, hsibling, hreturn, hself, hstay,
    fun h => hother ((hdiffer path root hpath hroot).mp h)⟩

end Origin

end SignatureContext.Path
