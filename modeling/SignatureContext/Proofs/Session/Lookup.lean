import SignatureContext.Proofs.Path.Stable
import SignatureContext.Proofs.Session.History
import SignatureContext.Proofs.Walk.Reach

/-! Which file a specifier means. The first candidate that is registered decides, so that changes to
other files do not show, and what is looked up for an import can be extracted. -/
namespace SignatureContext

/-- Two searches for classes that differ in one element find the same, or one of them finds this
element. -/
theorem find?_eq_of_agree {α : Type} {p q : α → Bool} {a : α} {l : List α}
    (h : ∀ x, x ≠ a → p x = q x) (hp : l.find? p ≠ some a) (hq : l.find? q ≠ some a) :
    l.find? p = l.find? q := by
  induction l with
  | nil => rfl
  | cons x l ih =>
    by_cases hx : x = a
    · subst hx
      have hpx : ¬ p x := fun hpx => hp (List.find?_cons_of_pos hpx)
      have hqx : ¬ q x := fun hqx => hq (List.find?_cons_of_pos hqx)
      rw [List.find?_cons_of_neg hpx] at hp ⊢
      rw [List.find?_cons_of_neg hqx] at hq ⊢
      exact ih hp hq
    · by_cases hpx : p x
      · have hqx : q x := h x hx ▸ hpx
        rw [List.find?_cons_of_pos hpx, List.find?_cons_of_pos hqx]
      · have hqx : ¬ q x := h x hx ▸ hpx
        rw [List.find?_cons_of_neg hpx] at hp ⊢
        rw [List.find?_cons_of_neg hqx] at hq ⊢
        exact ih hp hq

namespace Registry
variable {r : Registry} {file specifier target path : String}

theorem contains_of_resolve? (h : r.resolve? file specifier = some target) : r.contains target :=
  List.find?_some h

theorem contains_put_of_ne {p : String} (f : Option RegisteredFile) (h : p ≠ path) :
    (r.put path f).contains p = r.contains p := by
  rw [contains_eq_isSome_file?, contains_eq_isSome_file?, file?_put, if_neg h]

/-- A change to one file changes only lookups that lead there before or after it. -/
theorem resolve?_put (f : Option RegisteredFile) (hr : r.resolve? file specifier ≠ some path)
    (hput : (r.put path f).resolve? file specifier ≠ some path) :
    (r.put path f).resolve? file specifier = r.resolve? file specifier :=
  find?_eq_of_agree (fun _ hp => contains_put_of_ne f hp) hput hr

theorem resolve?_put_none (h : r.resolve? file specifier ≠ some path) :
    (r.put path none).resolve? file specifier = r.resolve? file specifier := by
  refine resolve?_put none h fun hput => ?_
  have hcontains := contains_of_resolve? hput
  rw [contains_eq_isSome_file?, file?_put, if_pos rfl] at hcontains
  exact absurd hcontains (by simp)

/-- A file that is registered comes to be found or changes nothing. -/
theorem resolve?_put_some (f : RegisteredFile) :
    (r.put path (some f)).resolve? file specifier = r.resolve? file specifier ∨
      (r.put path (some f)).resolve? file specifier = some path := by
  by_cases hput : (r.put path (some f)).resolve? file specifier = some path
  · exact Or.inr hput
  left
  by_cases hr : r.resolve? file specifier = some path
  · -- the file was registered already, so it is registered just as before
    have hcontains : (r.put path (some f)).contains = r.contains := by
      funext p
      by_cases hp : p = path
      · subst hp
        rw [contains_of_resolve? hr]
        simp [contains_eq_isSome_file?]
      · exact contains_put_of_ne (some f) hp
    unfold resolve?
    rw [hcontains]
  · exact resolve?_put (some f) hr hput

theorem resolve?_add {symbols : List Symbol} {imports : List ImportItem} {text : Option String}
    {r' : Registry} (h : r.add path symbols imports text = .ok r') :
    r'.resolve? file specifier = r.resolve? file specifier ∨
      r'.resolve? file specifier = some (Path.normalize path) := by
  unfold add at h
  cases himports : imports.mapM (ImportItem.edgeOf (Path.normalize path)) with
  | error fault => simp [himports, bind, Except.bind] at h
  | ok edges =>
    simp only [himports] at h
    cases h
    rw [enter_eq_put]
    exact resolve?_put_some _

/-- The import is one of the file, and was registered with its target. -/
def GivesTarget (r : Registry) (file : String) (e : ImportEdge) : Prop :=
  ∃ f, r.file? (Path.normalize file) = some f ∧ e ∈ f.edges ∧ e.target?.isSome

/-- Files are registered under normal forms only. -/
def Normalized (r : Registry) : Prop :=
  ∀ p, r.contains p → Path.normalize p = p

theorem normalized_empty : empty.Normalized := by
  intro p hp
  exact absurd hp (by simp [contains, empty])

theorem Normalized.afterStep (h : r.Normalized) (t : Step) : (r.afterStep t).Normalized := by
  intro p hp
  by_cases hfile : p = t.file
  · rw [hfile]
    exact Path.normalize_normalize t.path
  · unfold Registry.afterStep at hp
    rw [contains_put_of_ne _ hfile] at hp
    exact h p hp

/-- A file that is registered under its normal form can be extracted. -/
theorem Normalized.extract (h : r.Normalized) (hp : r.contains path) :
    ∃ x, r.extract path = .ok x := by
  obtain ⟨f, hf⟩ := Option.isSome_iff_exists.mp (contains_eq_isSome_file? r path ▸ hp)
  rw [← h path hp] at hf
  exact ⟨_, extract_of_file? hf⟩

theorem exists_file?_of_extract {x : Extraction} (h : r.extract path = .ok x) :
    ∃ f, r.file? (Path.normalize path) = some f ∧
      x.edges = f.edges.map (r.complete (Path.normalize path)) := by
  cases hf : r.file? (Path.normalize path) with
  | none =>
    rw [extract_of_none hf] at h
    cases h
  | some f =>
    rw [extract_of_file? hf] at h
    cases h
    exact ⟨f, rfl, rfl⟩

theorem complete_of_target? {e : ImportEdge} (h : e.target?.isSome) : r.complete file e = e := by
  unfold complete
  simp [h]

/-- A target that an import did not have was looked up. -/
theorem resolve?_of_complete {e : ImportEdge} (h : e.target? = none)
    (ht : (r.complete file e).target? = some target) :
    r.resolve? file e.specifier = some target := by
  unfold complete at ht
  split_ifs at ht with hkept
  · rw [h] at ht
    cases ht
  · exact (Option.filter_eq_some_iff.mp ht).1

end Registry

namespace Session

theorem normalized_answer {s : Session} (h : s.registry.Normalized) (q : Request) :
    (s.answer q).session.registry.Normalized := by
  cases q with
  | add path symbols imports text =>
    have hstep := s.session_answer_step ⟨path, .add symbols imports text⟩
    exact congrArg Session.registry hstep ▸ h.afterStep _
  | remove path => exact h.afterStep ⟨path, .remove⟩
  | extract path => exact h
  | read path => exact h
  | locate file specifier => exact h
  | history => exact h
  | resolve path f => exact h
  | resolveImports edges depth f => exact h
  | build read config root cwd scan => exact h

theorem normalized_after {s : Session} (h : s.registry.Normalized) (requests : List Request) :
    (s.after requests).registry.Normalized := by
  induction requests generalizing s with
  | nil => exact h
  | cons q requests ih => exact ih (normalized_answer h q)

/-- The extractor fails on some files, and finds the others as they are registered. -/
theorem source_extract (s : Session) (path : String) :
    s.source.extract path = .error .crashed ∨ s.source.extract path = s.registry.extract path := by
  unfold source Registry.source
  dsimp only
  split_ifs
  · exact Or.inl rfl
  · exact Or.inr rfl

/-- An import that leads to a file which is not found was registered with its target. -/
theorem registered_target_of_notFound {s : Session} (h : s.registry.Normalized)
    {following : Following} {importer file missing : String} {e : ImportEdge}
    (hop : (s.resolver following).Imports importer e file)
    (hfile : s.source.extract file = .error (.notFound missing)) :
    s.registry.GivesTarget importer e := by
  obtain ⟨x, hx, he, htarget⟩ := hop
  have hextract : s.registry.extract importer = .ok x := by
    rcases s.source_extract importer with hcrashed | hsame
    · exact absurd (hcrashed.symm.trans hx) (by simp)
    · exact hsame.symm.trans hx
  obtain ⟨f, hf, hedges⟩ := Registry.exists_file?_of_extract hextract
  rw [hedges] at he
  obtain ⟨e₀, he₀, rfl⟩ := List.mem_map.mp he
  refine ⟨f, hf, ?_⟩
  by_cases hgiven : e₀.target?.isSome
  · rw [Registry.complete_of_target? hgiven]
    exact ⟨he₀, hgiven⟩
  · -- a target that was looked up is registered, so it is found
    obtain ⟨-, path, hpath, rfl⟩ := Resolver.target?_eq_some htarget
    have hlookup := Registry.resolve?_of_complete (Option.not_isSome_iff_eq_none.mp hgiven) hpath
    have hcontains := Registry.contains_of_resolve? hlookup
    obtain ⟨y, hy⟩ := h.extract hcontains
    rw [h path hcontains] at hfile
    rcases s.source_extract path with hcrashed | hsame
    · rw [hcrashed] at hfile
      cases hfile
    · rw [hsame, hy] at hfile
      cases hfile

/-- Whatever was requested before, a lookup finds a registered file or none. A registration makes it
find the file registered or changes nothing, and the removal of another file than the one found
changes nothing. So the targets that are looked up for imports can be extracted, and a walk comes to
a file that is not found only at its start, or along an import that was registered with its
target. -/
theorem lookups_settled (crashing locked : List String) (requests : List Request) :
    let s : Session := after { crashing, locked } requests
    (∀ file specifier target, s.registry.resolve? file specifier = some target →
      s.registry.contains target) ∧
    (∀ file specifier path symbols imports text,
      let s' := (s.answer (.add path symbols imports text)).session
      s'.registry.resolve? file specifier = s.registry.resolve? file specifier ∨
        s'.registry.resolve? file specifier = some (Path.normalize path)) ∧
    (∀ file specifier path, s.registry.resolve? file specifier ≠ some (Path.normalize path) →
      (s.answer (.remove path)).session.registry.resolve? file specifier =
        s.registry.resolve? file specifier) ∧
    (∀ path x, s.registry.extract path = .ok x →
      ∃ f, s.registry.file? (Path.normalize path) = some f ∧
        List.Forall₂ (fun e e' => e.target? = none → ∀ target, e'.target? = some target →
          ∃ y, s.registry.extract target = .ok y) f.edges x.edges) ∧
    ∀ (path : String) (following : Following) (file missing : String),
      let r := s.resolver following
      file ∈ r.attempts path following.visited →
        r.source.extract file = .error (.notFound missing) →
          file = Path.normalize path ∨
            (∃ n importer e, r.Hops (Path.normalize path) n importer ∧
              r.Imports importer e file) ∧
            ∀ importer e, r.Imports importer e file → s.registry.GivesTarget importer e := by
  intro s
  have hnormalized : s.registry.Normalized := normalized_after Registry.normalized_empty requests
  refine ⟨fun _ _ _ => Registry.contains_of_resolve?, ?_, ?_, ?_, ?_⟩
  · intro file specifier path symbols imports text
    cases hadd : s.registry.add path symbols imports text with
    | error fault =>
      left
      simp only [answer, hadd]
    | ok r =>
      simp only [answer, hadd]
      exact Registry.resolve?_add hadd
  · intro file specifier path hother
    exact Registry.resolve?_put_none hother
  · intro path x hx
    obtain ⟨f, hf, hedges⟩ := Registry.exists_file?_of_extract hx
    refine ⟨f, hf, ?_⟩
    rw [hedges, List.forall₂_map_right_iff, List.forall₂_same]
    intro e _ hopen target htarget
    have hlookup := Registry.resolve?_of_complete hopen htarget
    exact hnormalized.extract (Registry.contains_of_resolve? hlookup)
  · intro path following file missing r hfile hmissing
    obtain ⟨as, h⟩ := r.exists_tourOf path following.visited
    rw [h.attempts] at hfile
    rcases List.mem_cons.mp hfile with rfl | hfile
    · exact Or.inl rfl
    · right
      obtain ⟨a, ha, rfl⟩ := List.mem_map.mp hfile
      obtain ⟨n, importer, hhops, hop, -⟩ := h.hops a ha
      exact ⟨⟨n, importer, a.edge, hhops, hop⟩,
        fun importer e hop => registered_target_of_notFound hnormalized hop hmissing⟩

end Session

end SignatureContext
