import SignatureContext.Proofs.Session.History
import Mathlib.Data.List.Forall2
import Mathlib.Data.List.Induction

/-! What is known of a file after a history. A registration replaces the declarations and the
imports that the file had, while a text stays until the next one, or until the file is removed. -/
namespace SignatureContext

/-- Whether the item has the parts that an import needs. -/
def ImportItem.complete : ImportItem → Bool
  | incomplete _ => false
  | _ => true

theorem ImportItem.complete_iff (file : String) {item : ImportItem} :
    item.complete ↔ ∃ e, item.edgeOf file = .ok e := by
  cases item <;> simp [complete, edgeOf]

theorem mapM_edgeOf_eq_ok_iff {file : String} {imports : List ImportItem}
    {edges : List ImportEdge} :
    imports.mapM (ImportItem.edgeOf file) = .ok edges ↔
      List.Forall₂ (fun item e => item.edgeOf file = .ok e) imports edges := by
  induction imports generalizing edges with
  | nil => cases edges <;> simp [pure, Except.pure]
  | cons item imports ih =>
    rw [List.mapM_cons]
    cases hitem : item.edgeOf file with
    | error fault => cases edges <;> simp [bind, Except.bind, hitem]
    | ok e =>
      cases himports : imports.mapM (ImportItem.edgeOf file) with
      | error fault => cases edges <;> simp [bind, Except.bind, ← ih, himports]
      | ok es => cases edges <;> simp [bind, Except.bind, pure, Except.pure, ← ih, himports, hitem]

theorem all_complete_iff (file : String) {imports : List ImportItem} :
    imports.all ImportItem.complete ↔
      ∃ edges, imports.mapM (ImportItem.edgeOf file) = .ok edges := by
  simp only [mapM_edgeOf_eq_ok_iff]
  induction imports with
  | nil => simp
  | cons item imports ih =>
    rw [List.all_cons, Bool.and_eq_true, ih, ImportItem.complete_iff file]
    constructor
    · rintro ⟨⟨e, hitem⟩, ⟨edges, himports⟩⟩
      exact ⟨e :: edges, .cons hitem himports⟩
    · rintro ⟨_, h⟩
      cases h with
      | cons hitem himports => exact ⟨⟨_, hitem⟩, ⟨_, himports⟩⟩

namespace Change

/-- Whether the change registers the file, as it does unless an import is incomplete. -/
def registers : Change → Bool
  | add _ imports _ => imports.all ImportItem.complete
  | remove => false

/-- Whether the change registers the file with a text. -/
def givesText : Change → Bool
  | add _ imports text => imports.all ImportItem.complete && text.isSome
  | remove => false

end Change

/-- The change is the last one of its kind, and the file was not removed after it. -/
def Standing (kind : Change → Bool) (changes : List Change) (c : Change) : Prop :=
  ∃ before later, changes = before ++ c :: later ∧ kind c ∧ ∀ d ∈ later, ¬ kind d ∧ d ≠ .remove

section Standing
variable {kind : Change → Bool} {changes : List Change} {c d : Change}

theorem not_standing_nil : ¬ Standing kind [] c := by
  rintro ⟨before, later, h, -⟩
  simp at h

/-- The last change stands if it is of the kind. Otherwise the change that stood before still does,
unless this is a removal. -/
theorem standing_concat_iff :
    Standing kind (changes ++ [d]) c ↔
      (kind d ∧ c = d) ∨ (¬ kind d ∧ d ≠ .remove ∧ Standing kind changes c) := by
  constructor
  · rintro ⟨before, later, hchanges, hkind, hlater⟩
    rcases List.eq_nil_or_concat later with rfl | ⟨later, last, rfl⟩
    · obtain ⟨-, rfl⟩ := List.append_singleton_inj.mp hchanges
      exact Or.inl ⟨hkind, rfl⟩
    · rw [List.concat_eq_append, ← List.cons_append, ← List.append_assoc] at hchanges
      obtain ⟨rfl, rfl⟩ := List.append_singleton_inj.mp hchanges
      rw [List.concat_eq_append] at hlater
      obtain ⟨hlast, hremove⟩ := hlater d (by simp)
      have hfront : ∀ e ∈ later, ¬ kind e ∧ e ≠ .remove :=
        fun e he => hlater e (List.mem_append_left _ he)
      exact Or.inr ⟨hlast, hremove, before, later, rfl, hkind, hfront⟩
  · rintro (⟨hkind, rfl⟩ | ⟨hlast, hremove, before, later, rfl, hkind, hlater⟩)
    · exact ⟨changes, [], rfl, hkind, by simp⟩
    · refine ⟨before, later ++ [d], by simp, hkind, ?_⟩
      intro e he
      rcases List.mem_append.mp he with he | he
      · exact hlater e he
      · rw [List.mem_singleton.mp he]
        exact ⟨hlast, hremove⟩

theorem Standing.unique (hc : Standing kind changes c) (hd : Standing kind changes d) : c = d := by
  induction changes using List.reverseRecOn with
  | nil => exact absurd hc not_standing_nil
  | append_singleton changes e ih =>
    rcases standing_concat_iff.mp hc with ⟨hkind, rfl⟩ | ⟨hkind, -, hc⟩
    · rcases standing_concat_iff.mp hd with ⟨-, rfl⟩ | ⟨hnot, -⟩
      · rfl
      · exact absurd hkind hnot
    · rcases standing_concat_iff.mp hd with ⟨hnot, -⟩ | ⟨-, -, hd⟩
      · exact absurd hnot hkind
      · exact ih hc hd

theorem Standing.has_kind (h : Standing kind changes c) : kind c := by
  obtain ⟨before, later, -, hkind, -⟩ := h
  exact hkind

theorem Change.exists_of_givesText (h : c.givesText) :
    ∃ symbols imports t, c = .add symbols imports (some t) := by
  cases c with
  | add symbols imports text =>
    obtain ⟨t, rfl⟩ := Option.isSome_iff_exists.mp (Bool.and_eq_true_iff.mp h).2
    exact ⟨symbols, imports, t, rfl⟩
  | remove => exact absurd h (by simp [givesText])

theorem Change.registers_of_givesText (h : c.givesText) : c.registers := by
  cases c with
  | add symbols imports text => exact (Bool.and_eq_true_iff.mp h).1
  | remove => exact h

theorem Standing.givesText (h : Standing Change.registers changes c) (hc : c.givesText) :
    Standing Change.givesText changes c := by
  obtain ⟨before, later, rfl, -, hlater⟩ := h
  refine ⟨before, later, rfl, hc, fun d hd => ?_⟩
  obtain ⟨hnot, hremove⟩ := hlater d hd
  exact ⟨fun hd => hnot (Change.registers_of_givesText hd), hremove⟩

end Standing

section Folds
variable {file : String} {changes : List Change} {former : Option RegisteredFile}

theorem Change.apply_add {symbols : List Symbol} {imports : List ImportItem} {text : Option String}
    {edges : List ImportEdge} (h : imports.mapM (ImportItem.edgeOf file) = .ok edges) :
    (Change.add symbols imports text).apply file former =
      some ⟨symbols, edges, text.or (former.bind (·.text))⟩ := by
  simp only [apply, h]

theorem Change.apply_add_of_incomplete {symbols : List Symbol} {imports : List ImportItem}
    {text : Option String} (h : ¬ imports.all ImportItem.complete) :
    (Change.add symbols imports text).apply file former = former := by
  cases himports : imports.mapM (ImportItem.edgeOf file) with
  | ok edges => exact absurd ((all_complete_iff file).mpr ⟨edges, himports⟩) h
  | error fault => simp only [apply, himports]

/-- The file is registered with the declarations and the imports of the standing registration, and
it is not registered if there is none. -/
def Registered (file : String) (changes : List Change) : Option RegisteredFile → Prop
  | none => ∀ c, ¬ Standing Change.registers changes c
  | some f => ∃ imports text, Standing Change.registers changes (.add f.symbols imports text) ∧
      imports.mapM (ImportItem.edgeOf file) = .ok f.edges

theorem registered_foldl_apply (file : String) (changes : List Change) :
    Registered file changes (changes.foldl (Change.apply file) none) := by
  induction changes using List.reverseRecOn with
  | nil => exact fun c => not_standing_nil
  | append_singleton changes d ih =>
    rw [List.foldl_append, List.foldl_cons, List.foldl_nil]
    generalize changes.foldl (Change.apply file) none = former at ih ⊢
    cases d with
    | remove =>
      intro c hc
      rcases standing_concat_iff.mp hc with ⟨hkind, -⟩ | ⟨-, hremove, -⟩
      · exact absurd hkind (by simp [Change.registers])
      · exact hremove rfl
    | add symbols imports text =>
      by_cases hcomplete : imports.all ImportItem.complete
      · obtain ⟨edges, hedges⟩ := (all_complete_iff file).mp hcomplete
        rw [Change.apply_add hedges]
        exact ⟨imports, text, standing_concat_iff.mpr (Or.inl ⟨hcomplete, rfl⟩), hedges⟩
      · rw [Change.apply_add_of_incomplete hcomplete]
        have hstands : ∀ c, Standing Change.registers (changes ++ [.add symbols imports text]) c ↔
            Standing Change.registers changes c := by
          intro c
          rw [standing_concat_iff]
          simp [Change.registers, hcomplete]
        cases former with
        | none => exact fun c hc => ih c ((hstands c).mp hc)
        | some f =>
          obtain ⟨items, t, hstanding, hedges⟩ := ih
          exact ⟨items, t, (hstands _).mpr hstanding, hedges⟩

/-- The text of a file is the one that was given last. -/
theorem text_foldl_apply_eq_some_iff {t : String} :
    (changes.foldl (Change.apply file) none).bind (·.text) = some t ↔
      ∃ symbols imports, Standing Change.givesText changes (.add symbols imports (some t)) := by
  induction changes using List.reverseRecOn with
  | nil => simp [not_standing_nil]
  | append_singleton changes d ih =>
    rw [List.foldl_append, List.foldl_cons, List.foldl_nil]
    simp only [standing_concat_iff]
    generalize changes.foldl (Change.apply file) none = former at ih ⊢
    cases d with
    | remove => simp [Change.apply, Change.givesText]
    | add symbols imports text =>
      by_cases hcomplete : imports.all ImportItem.complete
      · obtain ⟨edges, hedges⟩ := (all_complete_iff file).mp hcomplete
        rw [Change.apply_add hedges]
        cases text with
        | none => simp [Change.givesText, hcomplete, ih]
        | some t' => simp [Change.givesText, hcomplete, eq_comm]
      · rw [Change.apply_add_of_incomplete hcomplete, ih]
        simp [Change.givesText, hcomplete]

theorem text_foldl_apply_eq_none_iff :
    (changes.foldl (Change.apply file) none).bind (·.text) = none ↔
      ∀ c, ¬ Standing Change.givesText changes c := by
  rw [Option.eq_none_iff_forall_ne_some]
  simp only [ne_eq, text_foldl_apply_eq_some_iff]
  constructor
  · intro hnone c hc
    obtain ⟨symbols, imports, t, rfl⟩ := Change.exists_of_givesText hc.has_kind
    exact hnone t ⟨symbols, imports, hc⟩
  · rintro hnone t ⟨symbols, imports, hc⟩
    exact hnone _ hc

end Folds

/-- The extraction has the declarations, and an import for each item, whose target is looked up now
if it was left open. -/
structure Registry.Reports (r : Registry) (file : String) (symbols : List Symbol)
    (imports : List ImportItem) (x : Extraction) : Prop where
  path : x.path = file
  symbols : x.symbols = symbols
  edges : List.Forall₂ (fun item e => ∃ e₀, item.edgeOf file = .ok e₀ ∧ e = r.complete file e₀)
    imports x.edges

theorem Registry.reports_of_mapM {r : Registry} {file : String} {symbols : List Symbol}
    {imports : List ImportItem} {edges : List ImportEdge}
    (h : imports.mapM (ImportItem.edgeOf file) = .ok edges) :
    r.Reports file symbols imports ⟨file, symbols, edges.map (r.complete file)⟩ where
  path := rfl
  symbols := rfl
  edges := by
    rw [List.forall₂_map_right_iff]
    exact (mapM_edgeOf_eq_ok_iff.mp h).imp fun item e he => ⟨e, he, rfl⟩

namespace Session

section Answers
variable {h : List Step} {path : String}

theorem file?_after_history (file : String) :
    (after {} (h.map Step.request)).registry.file? file =
      (changesOn file h).foldl (Change.apply file) none := by
  rw [after_history]
  exact Registry.file?_foldl_afterStep .empty h file

/-- The extractor fails on no file. -/
theorem answer_extract_after_history :
    ((after {} (h.map Step.request)).answer (.extract path)).answer =
      ((after {} (h.map Step.request)).registry.extract path).map .extraction := by
  rw [after_history]
  unfold answer source Registry.source
  simp

/-- Every file can be read. -/
theorem answer_read_after_history_iff {text : Option String} :
    ((after {} (h.map Step.request)).answer (.read path)).answer = .ok (.text text) ↔
      (after {} (h.map Step.request)).registry.text? path = text := by
  rw [after_history]
  unfold answer source Registry.source
  simp [Except.map]

theorem text?_after_history_eq_some_iff {t : String} :
    (after {} (h.map Step.request)).registry.text? path = some t ↔
      ∃ symbols imports, Standing Change.givesText (changesOn (Path.normalize path) h)
        (.add symbols imports (some t)) := by
  rw [Registry.text?_eq, file?_after_history]
  exact text_foldl_apply_eq_some_iff

theorem text?_after_history_eq_none_iff :
    (after {} (h.map Step.request)).registry.text? path = none ↔
      ∀ c, ¬ Standing Change.givesText (changesOn (Path.normalize path) h) c := by
  rw [Registry.text?_eq, file?_after_history]
  exact text_foldl_apply_eq_none_iff

/-- The file as it is registered after the history. -/
theorem registered_after_history (h : List Step) (path : String) :
    Registered (Path.normalize path) (changesOn (Path.normalize path) h)
      ((after {} (h.map Step.request)).registry.file? (Path.normalize path)) := by
  rw [file?_after_history]
  exact registered_foldl_apply _ _

end Answers

/-- After a history, a file is extracted as its last registration says if it was not removed since,
and is not found otherwise. Its text is the last one given to it since then. So the text is that of
the last registration unless this has none and an earlier one had. -/
theorem last_registration_stands (h : List Step) (path : String) :
    let s : Session := after {} (h.map Step.request)
    let changes := changesOn (Path.normalize path) h
    (∀ symbols imports text, Standing Change.registers changes (.add symbols imports text) →
      (∃ x, (s.answer (.extract path)).answer = .ok (.extraction x) ∧
        s.registry.Reports (Path.normalize path) symbols imports x) ∧
      ((s.answer (.read path)).answer = .ok (.text text) ↔
        text.isSome ∨ ∀ c, ¬ Standing Change.givesText changes c)) ∧
    ((∀ c, ¬ Standing Change.registers changes c) →
      (s.answer (.extract path)).answer = .error (.notFound path) ∧
      (s.answer (.read path)).answer = .ok (.text none)) ∧
    ∀ t, (s.answer (.read path)).answer = .ok (.text (some t)) ↔
      ∃ symbols imports, Standing Change.givesText changes (.add symbols imports (some t)) := by
  intro s changes
  have hregistered : Registered (Path.normalize path) changes
      (s.registry.file? (Path.normalize path)) := registered_after_history h path
  have hextract : (s.answer (.extract path)).answer = (s.registry.extract path).map .extraction :=
    answer_extract_after_history
  refine ⟨?_, ?_, ?_⟩
  · intro symbols imports text hstanding
    constructor
    · cases hf : s.registry.file? (Path.normalize path) with
      | none =>
        rw [hf] at hregistered
        exact absurd hstanding (hregistered _)
      | some f =>
        rw [hf] at hregistered
        obtain ⟨items, t, hlast, hedges⟩ := hregistered
        cases hstanding.unique hlast
        refine ⟨_, ?_, Registry.reports_of_mapM hedges⟩
        rw [hextract, Registry.extract_of_file? hf]
        rfl
    · rw [answer_read_after_history_iff]
      cases text with
      | none => simpa using text?_after_history_eq_none_iff
      | some t =>
        have hgives : Standing Change.givesText changes (.add symbols imports (some t)) :=
          hstanding.givesText (Bool.and_eq_true_iff.mpr ⟨hstanding.has_kind, rfl⟩)
        simpa using text?_after_history_eq_some_iff.mpr ⟨symbols, imports, hgives⟩
  · intro hnone
    cases hf : s.registry.file? (Path.normalize path) with
    | none =>
      refine ⟨?_, answer_read_after_history_iff.mpr ?_⟩
      · rw [hextract, Registry.extract_of_none hf]
        rfl
      · rw [Registry.text?_eq, hf]
        rfl
    | some f =>
      rw [hf] at hregistered
      obtain ⟨items, t, hlast, -⟩ := hregistered
      exact absurd hlast (hnone _)
  · intro t
    rw [answer_read_after_history_iff, text?_after_history_eq_some_iff]

/-- A file that is registered again without a text keeps the text it had. -/
theorem text_outlives_registration :
    ¬ ∀ (h : List Step) (path : String) (symbols : List Symbol) (imports : List ImportItem)
      (text : Option String),
      Standing Change.registers (changesOn (Path.normalize path) h) (.add symbols imports text) →
        ((after {} (h.map Step.request)).answer (.read path)).answer = .ok (.text text) := by
  intro hall
  let first : Change := .add [] [] (some "x")
  let second : Change := .add [] [] none
  have hchanges : changesOn (Path.normalize "/a") [⟨"/a", first⟩, ⟨"/a", second⟩] =
      [first, second] := by simp [changesOn, Step.file]
  have hread := hall [⟨"/a", first⟩, ⟨"/a", second⟩] "/a" [] [] none
    (hchanges ▸ ⟨[first], [], rfl, rfl, by simp⟩)
  rw [answer_read_after_history_iff, text?_after_history_eq_none_iff, hchanges] at hread
  exact hread first ⟨[], [second], rfl, rfl, by simp [second, Change.givesText]⟩

end Session

end SignatureContext
