import SignatureContext.Proofs.Session.Registration

/-! Requests that leave the registered files as they are. Whatever else is asked then or later, the
answer is the same as without them, but for the list of the files extracted so far. -/
namespace SignatureContext

/-- The request only asks, or it is a registration with an incomplete import. -/
def Request.Quiet : Request → Prop
  | add _ _ imports _ => ∃ item ∈ imports, ¬ item.complete
  | remove _ => False
  | _ => True

/-- The second outcome is like the first one for whoever sees no session. A list of the files
extracted so far may have gained some. -/
def Session.Outcome.Like (o o' : Session.Outcome) : Prop :=
  o'.log = o.log ∧ (o'.answer = o.answer ∨ ∃ files files', o.answer = .ok (.history files) ∧
    o'.answer = .ok (.history files') ∧ files.Sublist files')

theorem Session.Outcome.Like.of_eq {o o' : Session.Outcome} (hlog : o'.log = o.log)
    (hanswer : o'.answer = o.answer) : o.Like o' :=
  ⟨hlog, Or.inl hanswer⟩

/-- One incomplete import is enough, wherever it stands. -/
theorem Registry.add_of_incomplete {imports : List ImportItem}
    (h : ∃ item ∈ imports, ¬ item.complete) (r : Registry) (path : String) (symbols : List Symbol)
    (text : Option String) : ∃ fault, r.add path symbols imports text = .error fault := by
  have hall : ¬ imports.all ImportItem.complete := by
    obtain ⟨item, hitem, hcomplete⟩ := h
    exact fun hall => hcomplete (List.all_eq_true.mp hall item hitem)
  cases himports : imports.mapM (ImportItem.edgeOf (Path.normalize path)) with
  | ok edges => exact absurd ((all_complete_iff _).mpr ⟨edges, himports⟩) hall
  | error fault =>
    refine ⟨fault, ?_⟩
    simp only [add, himports]
    rfl

namespace Session

/-- The sessions differ in nothing but the files extracted so far, of which the second one may have
more. -/
structure Beside (s s' : Session) : Prop where
  registry : s'.registry = s.registry
  crashing : s'.crashing = s.crashing
  locked : s'.locked = s.locked
  extracted : s.extracted.Sublist s'.extracted

theorem Beside.refl (s : Session) : s.Beside s :=
  ⟨rfl, rfl, rfl, List.Sublist.refl _⟩

theorem Beside.trans {s₁ s₂ s₃ : Session} (h : s₁.Beside s₂) (h' : s₂.Beside s₃) : s₁.Beside s₃ :=
  ⟨h'.registry.trans h.registry, h'.crashing.trans h.crashing, h'.locked.trans h.locked,
    h.extracted.trans h'.extracted⟩

theorem beside_extracting (s : Session) (files : List String) : s.Beside (s.extracting files) :=
  ⟨rfl, rfl, rfl, List.sublist_append_left _ _⟩

theorem Beside.extracting {s s' : Session} (h : s.Beside s') (files : List String) :
    (s.extracting files).Beside (s'.extracting files) :=
  ⟨h.registry, h.crashing, h.locked, h.extracted.append_right files⟩

theorem beside_of_quiet (s : Session) {q : Request} (hq : q.Quiet) :
    s.Beside (s.answer q).session := by
  cases q with
  | add path symbols imports text =>
    obtain ⟨fault, hfault⟩ := Registry.add_of_incomplete hq s.registry path symbols text
    simp only [answer, hfault]
    exact Beside.refl s
  | remove path => exact absurd hq id
  | extract path => exact s.beside_extracting _
  | read path => exact Beside.refl s
  | locate file specifier => exact Beside.refl s
  | history => exact Beside.refl s
  | resolve path f => exact s.beside_extracting _
  | resolveImports edges depth f => exact s.beside_extracting _
  | build read config root cwd scan => exact s.beside_extracting _

theorem beside_after (s : Session) {quiet : List Request} (hquiet : ∀ q ∈ quiet, q.Quiet) :
    s.Beside (s.after quiet) := by
  induction quiet generalizing s with
  | nil => exact Beside.refl s
  | cons q quiet ih =>
    obtain ⟨hq, hquiet⟩ := List.forall_mem_cons.mp hquiet
    exact (s.beside_of_quiet hq).trans (ih _ hquiet)

/-- Sessions beside each other answer alike, and are beside each other still. -/
theorem Beside.answer {s s' : Session} (h : s.Beside s') (q : Request) :
    (s.answer q).Like (s'.answer q) ∧ (s.answer q).session.Beside (s'.answer q).session := by
  obtain ⟨registry, crashing, locked, extracted⟩ := s
  obtain ⟨registry', crashing', locked', extracted'⟩ := s'
  obtain ⟨rfl, rfl, rfl, hextracted⟩ := h
  cases q with
  | add path symbols imports text =>
    unfold Session.answer
    dsimp only
    cases registry'.add path symbols imports text with
    | ok r => exact ⟨.of_eq rfl rfl, rfl, rfl, rfl, hextracted⟩
    | error fault => exact ⟨.of_eq rfl rfl, rfl, rfl, rfl, hextracted⟩
  | remove path => exact ⟨.of_eq rfl rfl, rfl, rfl, rfl, hextracted⟩
  | extract path => exact ⟨.of_eq rfl rfl, rfl, rfl, rfl, hextracted.append_right _⟩
  | read path => exact ⟨.of_eq rfl rfl, rfl, rfl, rfl, hextracted⟩
  | locate file specifier => exact ⟨.of_eq rfl rfl, rfl, rfl, rfl, hextracted⟩
  | history =>
    exact ⟨⟨rfl, Or.inr ⟨extracted, extracted', rfl, rfl, hextracted⟩⟩, rfl, rfl, rfl, hextracted⟩
  | resolve path f => exact ⟨.of_eq rfl rfl, rfl, rfl, rfl, hextracted.append_right _⟩
  | resolveImports edges depth f =>
    exact ⟨.of_eq rfl rfl, rfl, rfl, rfl, hextracted.append_right _⟩
  | build read config root cwd scan =>
    exact ⟨.of_eq rfl rfl, rfl, rfl, rfl, hextracted.append_right _⟩

theorem Beside.outcomes {s s' : Session} (h : s.Beside s') (later : List Request) :
    List.Forall₂ Outcome.Like (s.outcomes later) (s'.outcomes later) := by
  induction later generalizing s s' with
  | nil => exact .nil
  | cons q later ih =>
    obtain ⟨hlike, hbeside⟩ := h.answer q
    exact .cons hlike (ih hbeside)

theorem outcomes_append (s : Session) (requests later : List Request) :
    s.outcomes (requests ++ later) = s.outcomes requests ++ (s.after requests).outcomes later := by
  induction requests generalizing s with
  | nil => rfl
  | cons q requests ih => exact congrArg (s.answer q :: ·) (ih _)

theorem length_outcomes (s : Session) (requests : List Request) :
    (s.outcomes requests).length = requests.length := by
  induction requests generalizing s with
  | nil => rfl
  | cons q requests ih => exact congrArg (· + 1) (ih _)

/-- Quiet requests in a history change no outcome of the requests before them, and those of the
requests after them only in the files that are listed as extracted so far. -/
theorem quiet_requests_unnoticed (s : Session) (before quiet later : List Request)
    (hquiet : ∀ q ∈ quiet, q.Quiet) :
    ∃ asked os os' : List Outcome, asked.length = quiet.length ∧
      s.outcomes (before ++ later) = s.outcomes before ++ os ∧
      s.outcomes (before ++ (quiet ++ later)) = s.outcomes before ++ (asked ++ os') ∧
      List.Forall₂ Outcome.Like os os' := by
  let t := s.after before
  have hbeside : t.Beside (t.after quiet) := t.beside_after hquiet
  refine ⟨t.outcomes quiet, t.outcomes later, (t.after quiet).outcomes later,
    length_outcomes t quiet, outcomes_append s before later, ?_, hbeside.outcomes later⟩
  rw [outcomes_append, outcomes_append]

/-- A registration of `/a` with another text fails at its second import, and a walk follows.
The text is still the first one, and the file is extracted once more. -/
theorem failed_registration_unnoticed :
    let before : List Request := [.add "/a" [] [] (some "x")]
    let failing : Request := .add "/a" [] [.named "./b" [] false, .incomplete 1] (some "y")
    let quiet : List Request := [failing, .resolve "/a" {}]
    let later : List Request := [.read "/a", .history]
    (∀ q ∈ quiet, q.Quiet) ∧
    (∃ asked os os' : List Outcome, asked.length = quiet.length ∧
      outcomes {} (before ++ later) = outcomes {} before ++ os ∧
      outcomes {} (before ++ (quiet ++ later)) = outcomes {} before ++ (asked ++ os') ∧
      List.Forall₂ Outcome.Like os os') ∧
    (after {} (before ++ quiet)).registry.text? "/a" = some "x" ∧
    (after {} (before ++ quiet)).extracted = ["/a"] ∧ (after {} before).extracted = [] := by
  intro before failing quiet later
  have hquiet : ∀ q ∈ quiet, q.Quiet := by
    intro q hq
    rcases List.mem_cons.mp hq with rfl | hq
    · exact ⟨.incomplete 1, by simp, by decide⟩
    · rw [List.mem_singleton.mp hq]
      exact trivial
  exact ⟨hquiet, quiet_requests_unnoticed {} before quiet later hquiet, by decide +kernel,
    by decide +kernel, rfl⟩

end Session

end SignatureContext
