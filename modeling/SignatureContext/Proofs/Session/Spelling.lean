import SignatureContext.Proofs.Path.Directory
import SignatureContext.Proofs.Session.History

/-! What depends on the spelling of a path. Files are registered, removed, read and extracted under
the normal forms of their paths, so that no other spelling shows. A lookup goes out from the
directory of the path as it is spelled, and tells two spellings apart where the specifier leads from
their directories to two places. -/
namespace SignatureContext

namespace Registry
variable {r : Registry} {p q specifier : String}

theorem add_eq_of_normalize_eq (h : Path.normalize p = Path.normalize q) (symbols : List Symbol)
    (imports : List ImportItem) (text : Option String) :
    r.add p symbols imports text = r.add q symbols imports text := by
  unfold add
  rw [h]

theorem remove_eq_of_normalize_eq (h : Path.normalize p = Path.normalize q) :
    r.remove p = r.remove q := by
  rw [remove_eq_put, remove_eq_put, h]

theorem text?_eq_of_normalize_eq (h : Path.normalize p = Path.normalize q) :
    r.text? p = r.text? q := by
  unfold text?
  rw [h]

theorem extract_eq_of_normalize_eq (h : Path.normalize p = Path.normalize q) :
    r.extract p = r.extract q ∨
      r.extract p = .error (.notFound p) ∧ r.extract q = .error (.notFound q) := by
  cases hfile : r.file? (Path.normalize p) with
  | none => exact Or.inr ⟨extract_of_none hfile, extract_of_none (h ▸ hfile)⟩
  | some f =>
    left
    rw [extract_of_file? hfile, extract_of_file? (h ▸ hfile), h]

/-- Only the place that the specifier leads to counts. -/
theorem resolve?_eq_of_destination_eq
    (h : Path.destination p specifier = Path.destination q specifier) :
    r.resolve? p specifier = r.resolve? q specifier := by
  have hcandidates : candidates p specifier = candidates q specifier :=
    congrArg (fun base => base :: endings.map (base ++ ·) ++
      endings.map (Path.join base <| "index" ++ ·)) h
  unfold resolve?
  rw [hcandidates]

theorem length_lt_join_index (base ending : String) :
    base.length < (Path.join base ("index" ++ ending)).length := by
  have hhead : ("index" ++ ending).toList.head? ≠ some '/' := by
    rw [String.toList_append]
    simp
  have hindex : 0 < ("index" ++ ending).toList.length := by
    rw [String.toList_append]
    simp
  unfold Path.join Path.append
  rw [if_neg hhead, ← String.length_toList, ← String.length_toList, String.toList_ofList]
  split_ifs <;> simp only [List.length_append, List.length_cons] <;> omega

/-- All other candidates are longer than the place that the specifier leads to. -/
theorem length_lt_of_mem_candidates {c : String} (hc : c ∈ candidates p specifier)
    (hne : c ≠ Path.destination p specifier) :
    (Path.destination p specifier).length < c.length := by
  have hending : ∀ e ∈ endings, 0 < e.length := by decide
  unfold candidates at hc
  rw [List.cons_append, List.mem_cons, List.mem_append, List.mem_map, List.mem_map] at hc
  rcases hc with rfl | ⟨e, he, rfl⟩ | ⟨e, -, rfl⟩
  · exact absurd rfl hne
  · have hlong := hending e he
    rw [String.length_append]
    exact Nat.lt_add_of_pos_right hlong
  · exact length_lt_join_index _ e

theorem resolve?_put_destination (f : RegisteredFile) :
    (r.put (Path.destination p specifier) (some f)).resolve? p specifier =
      some (Path.destination p specifier) := by
  have hcontains : (r.put (Path.destination p specifier) (some f)).contains
      (Path.destination p specifier) := by simp [contains_eq_isSome_file?]
  exact List.find?_cons_of_pos hcontains

/-- Where the specifier leads to two places, a file at one of them is found from one side only. -/
theorem exists_resolve?_ne (h : Path.destination p specifier ≠ Path.destination q specifier)
    (f : RegisteredFile) :
    ∃ file, Path.normalize file = file ∧
      (empty.put file (some f)).resolve? p specifier ≠
        (empty.put file (some f)).resolve? q specifier := by
  wlog hle : (Path.destination p specifier).length ≤ (Path.destination q specifier).length
    generalizing p q
  · obtain ⟨file, hfile, hne⟩ := this h.symm (Nat.le_of_not_le hle)
    exact ⟨file, hfile, hne.symm⟩
  refine ⟨Path.destination p specifier, Path.normalize_normalize _, ?_⟩
  rw [resolve?_put_destination]
  intro hfound
  -- nothing that is not longer than the other place is a candidate from there, but for itself
  have hmem : Path.destination p specifier ∈ candidates q specifier :=
    List.mem_of_find?_eq_some hfound.symm
  exact absurd (length_lt_of_mem_candidates hmem h) (Nat.not_lt_of_le hle)

end Registry

namespace Session
variable {s : Session} {p q specifier : String}

theorem answer_change_eq_of_normalize_eq (h : Path.normalize p = Path.normalize q) (c : Change) :
    s.answer (c.request p) = s.answer (c.request q) := by
  cases c with
  | add symbols imports text =>
    simp only [Change.request, answer, Registry.add_eq_of_normalize_eq h]
  | remove =>
    simp only [Change.request, answer, Registry.remove_eq_of_normalize_eq h]

theorem answer_read_eq_of_normalize_eq (h : Path.normalize p = Path.normalize q) :
    s.answer (.read p) = s.answer (.read q) := by
  simp only [answer, source, Registry.source, Registry.text?_eq_of_normalize_eq h, h]

/-- The outcomes are the same, but for the path that is said not to be found. -/
def SameButForPath (p q : String) (o o' : Outcome) : Prop :=
  o.session = o'.session ∧ o.log = o'.log ∧
    (o.answer = o'.answer ∨
      o.answer = .error (.notFound p) ∧ o'.answer = .error (.notFound q))

theorem answer_extract_of_normalize_eq (h : Path.normalize p = Path.normalize q) :
    SameButForPath p q (s.answer (.extract p)) (s.answer (.extract q)) := by
  have hsession : (s.answer (.extract p)).session = (s.answer (.extract q)).session := by
    simp only [answer, h]
  have hextract : s.source.extract p = s.source.extract q ∨
      s.source.extract p = .error (.notFound p) ∧
        s.source.extract q = .error (.notFound q) := by
    unfold source Registry.source
    dsimp only
    rw [h]
    split_ifs
    · exact Or.inl rfl
    · exact Registry.extract_eq_of_normalize_eq h
  refine ⟨hsession, rfl, ?_⟩
  unfold answer
  dsimp only
  rcases hextract with hsame | ⟨hp, hq⟩
  · exact Or.inl (by rw [hsame])
  · exact Or.inr (by rw [hp, hq]; exact ⟨rfl, rfl⟩)

theorem answer_locate_eq_of_destination_eq
    (h : Path.destination p specifier = Path.destination q specifier) :
    s.answer (.locate p specifier) = s.answer (.locate q specifier) := by
  simp only [answer, Registry.resolve?_eq_of_destination_eq h]

/-- Where a specifier leads to two places, the registration of one file is enough to tell. -/
theorem exists_answer_locate_ne
    (h : Path.destination p specifier ≠ Path.destination q specifier) :
    ∃ file, let s := after {} [.add file [] [] none]
      (s.answer (.locate p specifier)).answer ≠ (s.answer (.locate q specifier)).answer := by
  obtain ⟨file, hfile, hne⟩ := Registry.exists_resolve?_ne h ⟨[], [], none⟩
  let t : Step := ⟨file, .add [] [] none⟩
  have hregistry : (after {} [t.request]).registry =
      Registry.empty.put file (some ⟨[], [], none⟩) :=
    calc (after {} [t.request]).registry
      _ = Registry.empty.afterStep t := congrArg Session.registry (session_answer_step {} t)
      _ = Registry.empty.put (Path.normalize file) (some ⟨[], [], none⟩) := rfl
      _ = Registry.empty.put file (some ⟨[], [], none⟩) := by rw [hfile]
  refine ⟨file, fun hsame => hne ?_⟩
  rw [← hregistry]
  exact Answer.target.inj (Except.ok.inj hsame)

/-- Two spellings of a path are answered the same, but for the path that is said not to be found and
for lookups. Lookups are answered the same exactly where the specifier leads to one place from the
directories of both, and this is so for every specifier if it is so for `.`, as it is for spellings
without backslashes that end with a file's name. Only a specifier that becomes absolute when it
loses its backslashes may still tell these apart. -/
theorem spelling_shows_in_lookups_only (h : Path.normalize p = Path.normalize q) :
    (∀ (s : Session) (c : Change), s.answer (c.request p) = s.answer (c.request q)) ∧
    (∀ s : Session, SameButForPath p q (s.answer (.extract p)) (s.answer (.extract q))) ∧
    (∀ s : Session, s.answer (.read p) = s.answer (.read q)) ∧
    (∀ specifier, Path.destination p specifier = Path.destination q specifier →
      ∀ s : Session, s.answer (.locate p specifier) = s.answer (.locate q specifier)) ∧
    (∀ specifier, Path.destination p specifier ≠ Path.destination q specifier →
      ∃ file, let s := after {} [.add file [] [] none]
        (s.answer (.locate p specifier)).answer ≠ (s.answer (.locate q specifier)).answer) ∧
    ((∀ specifier : String, specifier.toList.head? ≠ some '\\' →
        Path.destination p specifier = Path.destination q specifier) ↔
      Path.destination p "." = Path.destination q ".") ∧
    (Path.Plain p.toList → Path.Plain q.toList →
      Path.destination p "." = Path.destination q ".") := by
  refine ⟨fun s c => answer_change_eq_of_normalize_eq h c,
    fun s => answer_extract_of_normalize_eq h, fun s => answer_read_eq_of_normalize_eq h,
    fun specifier hsame s => answer_locate_eq_of_destination_eq hsame,
    fun specifier hne => exists_answer_locate_ne hne, ⟨?_, ?_⟩,
    fun hp hq => hp.destination_here_eq hq h⟩
  · exact fun hall => hall "." (by decide)
  · exact fun hhere specifier hspecifier => Path.destination_eq_of_here hhere hspecifier

/-- A spelling with an empty part and a climb, and one that stays in a directory on its way. -/
theorem roundabout_spelling_unnoticed :
    let p := "/r//x/../a.ts"
    let q := "/r/./a.ts"
    Path.normalize p = Path.normalize q ∧ Path.Plain p.toList ∧ Path.Plain q.toList ∧
    (∀ (s : Session) (c : Change), s.answer (c.request p) = s.answer (c.request q)) ∧
    (∀ s : Session, SameButForPath p q (s.answer (.extract p)) (s.answer (.extract q))) ∧
    (∀ s : Session, s.answer (.read p) = s.answer (.read q)) ∧
    ∀ specifier : String, specifier.toList.head? ≠ some '\\' →
      ∀ s : Session, s.answer (.locate p specifier) = s.answer (.locate q specifier) := by
  intro p q
  have h : Path.normalize p = Path.normalize q := by decide +kernel
  have hname : Path.Kept true "a.ts".toList :=
    ⟨by decide, by decide, by decide, fun _ => by decide⟩
  have hp : Path.Plain p.toList :=
    ⟨by decide, "/r//x/../".toList, "a.ts".toList, by decide, Or.inr (by decide), hname⟩
  have hq : Path.Plain q.toList :=
    ⟨by decide, "/r/./".toList, "a.ts".toList, by decide, Or.inr (by decide), hname⟩
  obtain ⟨hchange, hextract, hread, hlocate, -, hhere, hplain⟩ := spelling_shows_in_lookups_only h
  exact ⟨h, hp, hq, hchange, hextract, hread,
    fun specifier hspecifier => hlocate specifier (hhere.mpr (hplain hp hq) specifier hspecifier)⟩

/-- The directory of a path that is spelled with backslashes is not seen. -/
theorem backslashes_hide_directory :
    ¬ ∀ (requests : List Request) (p q specifier : String), Path.normalize p = Path.normalize q →
      ((after {} requests).answer (.locate p specifier)).answer =
        ((after {} requests).answer (.locate q specifier)).answer := by
  intro hall
  let neighbour : Request := .add "C:/repo/b.ts" [] [] none
  have hsame := hall [neighbour] "C:/repo/a.ts" "C:\\repo\\a.ts" "./b" (by decide +kernel)
  have hlookup : (after {} [neighbour]).registry.resolve? "C:/repo/a.ts" "./b" =
      (after {} [neighbour]).registry.resolve? "C:\\repo\\a.ts" "./b" :=
    Answer.target.inj (Except.ok.inj hsame)
  exact absurd hlookup (by decide +kernel)

end Session

end SignatureContext
