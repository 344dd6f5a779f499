import SignatureContext.Proofs.Registry
import SignatureContext.Session
import Mathlib.Data.List.Nodup

/-! Histories of registrations and removals. What is registered for a file depends on the steps on
this file alone, so that the order between files never shows in an answer. -/
namespace SignatureContext

/-- What is done to one registered file. -/
inductive Change
  | add (symbols : List Symbol) (imports : List ImportItem) (text : Option String)
  | remove

namespace Change

def request (path : String) : Change → Request
  | add symbols imports text => .add path symbols imports text
  | remove => .remove path

/-- What is registered for the file afterwards. A registration with an incomplete import fails and
leaves everything as it was. -/
def apply (file : String) (former : Option RegisteredFile) : Change → Option RegisteredFile
  | add symbols imports text =>
    match imports.mapM (ImportItem.edgeOf file) with
    | .ok edges => some ⟨symbols, edges, text.or (former.bind (·.text))⟩
    | .error _ => former
  | remove => none

end Change

/-- One step of a history. The path may have any spelling. -/
structure Step where
  path : String
  change : Change

namespace Step

def file (t : Step) : String :=
  Path.normalize t.path

def request (t : Step) : Request :=
  t.change.request t.path

end Step

/-- The changes to one file in a history, in order. -/
def changesOn (file : String) (h : List Step) : List Change :=
  (h.filter (·.file = file)).map (·.change)

section Order
variable {h h' : List Step} {u : Step}

theorem changesOn_cons (file : String) (t : Step) (h : List Step) :
    changesOn file (t :: h) = (if t.file = file then [t.change] else []) ++ changesOn file h := by
  unfold changesOn
  rw [List.filter_cons]
  by_cases ht : t.file = file <;> simp [ht]

theorem changesOn_append (file : String) (h h' : List Step) :
    changesOn file (h ++ h') = changesOn file h ++ changesOn file h' := by
  unfold changesOn
  rw [List.filter_append, List.map_append]

/-- A step may come before steps on other files. -/
theorem changesOn_middle (hne : ∀ t ∈ h, t.file ≠ u.file) (file : String) (h' : List Step) :
    changesOn file (h ++ u :: h') = changesOn file (u :: (h ++ h')) := by
  rw [changesOn_append, changesOn_cons, changesOn_cons, changesOn_append]
  by_cases hu : u.file = file
  · have hnone : changesOn file h = [] := by
      refine List.map_eq_nil_iff.mpr (List.filter_eq_nil_iff.mpr fun t ht => ?_)
      simpa [← hu] using hne t ht
    rw [hnone, List.nil_append, List.nil_append]
  · rw [if_neg hu, List.nil_append, List.nil_append]

theorem changesOn_eq_of_perm (hp : h.Perm h') (hfiles : (h.map Step.file).Nodup)
    (file : String) : changesOn file h = changesOn file h' := by
  induction hp with
  | nil => rfl
  | cons t _ ih =>
    rw [changesOn_cons, changesOn_cons, ih (List.nodup_cons.mp hfiles).2]
  | swap t u h =>
    have hmem : u.file ∉ (t :: h).map Step.file := (List.nodup_cons.mp hfiles).1
    have hne : u.file ≠ t.file := fun heq => hmem (heq ▸ List.mem_cons_self)
    exact changesOn_middle (List.forall_mem_singleton.mpr hne) file h
  | trans hp _ ih ih' =>
    exact (ih hfiles).trans (ih' ((hp.map Step.file).nodup_iff.mp hfiles))

end Order

namespace Registry

def afterStep (r : Registry) (t : Step) : Registry :=
  r.put t.file (t.change.apply t.file (r.file? t.file))

theorem file?_afterStep (r : Registry) (t : Step) (file : String) :
    (r.afterStep t).file? file =
      if t.file = file then t.change.apply file (r.file? file) else r.file? file := by
  unfold afterStep
  rw [file?_put]
  by_cases ht : t.file = file
  · rw [if_pos ht, if_pos ht.symm, ht]
  · rw [if_neg ht, if_neg (Ne.symm ht)]

/-- What is registered after a history, file by file. -/
theorem file?_foldl_afterStep (r : Registry) (h : List Step) (file : String) :
    (h.foldl afterStep r).file? file =
      (changesOn file h).foldl (Change.apply file) (r.file? file) := by
  induction h generalizing r with
  | nil => rfl
  | cons t h ih =>
    rw [List.foldl_cons, ih, changesOn_cons, file?_afterStep]
    by_cases ht : t.file = file
    · rw [if_pos ht, if_pos ht, List.singleton_append, List.foldl_cons]
    · rw [if_neg ht, if_neg ht, List.nil_append]

theorem foldl_afterStep_eq {h h' : List Step} (r : Registry)
    (hchanges : ∀ file, changesOn file h = changesOn file h') :
    h.foldl afterStep r = h'.foldl afterStep r := by
  refine eq_of_file?_eq (funext fun file => ?_)
  rw [file?_foldl_afterStep, file?_foldl_afterStep, hchanges]

end Registry

namespace Session

def after (s : Session) (requests : List Request) : Session :=
  requests.foldl (fun s q => (s.answer q).session) s

/-- The outcomes of requests that are made one after another. -/
def outcomes (s : Session) : List Request → List Outcome
  | [] => []
  | q :: requests => s.answer q :: (s.answer q).session.outcomes requests

/-- A step changes what is registered for its file, and nothing else of the session. -/
theorem session_answer_step (s : Session) (t : Step) :
    (s.answer t.request).session = { s with registry := s.registry.afterStep t } := by
  obtain ⟨path, change⟩ := t
  cases change with
  | remove => rfl
  | add symbols imports text =>
    unfold Step.request Change.request answer Registry.add Registry.afterStep Change.apply
    dsimp only [Step.file]
    cases imports.mapM (ImportItem.edgeOf (Path.normalize path)) with
    | ok edges => exact congrArg (Session.mk · _ _ _) (Registry.enter_eq_put _ _ _ _)
    -- putting back what is registered already
    | error fault =>
      rw [Registry.put_file?]
      rfl

theorem after_history (s : Session) (h : List Step) :
    s.after (h.map Step.request) =
      { s with registry := h.foldl Registry.afterStep s.registry } := by
  induction h generalizing s with
  | nil => rfl
  | cons t h ih =>
    have hafter : s.after ((t :: h).map Step.request) =
        (s.answer t.request).session.after (h.map Step.request) := rfl
    rw [hafter, session_answer_step, ih]
    rfl

/-- Two histories with the same steps on each file, failing ones included, leave sessions that no
later requests tell apart. So files that are registered once may come in any order, an import before
its target. -/
theorem order_between_files_irrelevant (s : Session) (h h' : List Step) :
    ((∀ file, changesOn file h = changesOn file h') → ∀ later : List Request,
      (s.after (h.map Step.request)).outcomes later =
        (s.after (h'.map Step.request)).outcomes later) ∧
    (h.Perm h' → (h.map Step.file).Nodup → ∀ later : List Request,
      (s.after (h.map Step.request)).outcomes later =
        (s.after (h'.map Step.request)).outcomes later) := by
  have hsame : (∀ file, changesOn file h = changesOn file h') → ∀ later : List Request,
      (s.after (h.map Step.request)).outcomes later =
        (s.after (h'.map Step.request)).outcomes later := by
    intro hchanges later
    rw [after_history, after_history, Registry.foldl_afterStep_eq s.registry hchanges]
  exact ⟨hsame, fun hp hfiles => hsame (changesOn_eq_of_perm hp hfiles)⟩

/-- A file that imports another, which is registered later, and a registration of the first that
fails and is made under another spelling of its path. -/
theorem import_before_target :
    let importer : Step := ⟨"/p/a.ts", .add [] [.named "./b" ["B"] true] none⟩
    let failing : Step := ⟨"/p//a.ts", .add [] [.named "./c" [] false, .incomplete 1] none⟩
    let target : Step :=
      ⟨"/p/b.ts", .add [{ kind := .typeAlias, name := "B", signature := "type B = {}" }] [] none⟩
    let late : Session := after {} ([importer, failing, target].map Step.request)
    let early : Session := after {} ([target, importer, failing].map Step.request)
    (∀ file, changesOn file [importer, failing, target] =
      changesOn file [target, importer, failing]) ∧
    (∀ later, late.outcomes later = early.outcomes later) ∧
    [importer, target].Perm [target, importer] ∧ ([importer, target].map Step.file).Nodup ∧
    (∀ later, (after {} ([importer, target].map Step.request)).outcomes later =
      (after {} ([target, importer].map Step.request)).outcomes later) ∧
    late.registry.resolve? "/p/a.ts" "./b" = some "/p/b.ts" ∧
    ((late.resolver {}).resolve "/p/a.ts" []).symbols.map Symbol.key =
      [(some "./p/b.ts", "B")] := by
  intro importer failing target late early
  have hothers : ∀ t ∈ [importer, failing], t.file ≠ target.file := by decide +kernel
  have hchanges : ∀ file, changesOn file [importer, failing, target] =
      changesOn file [target, importer, failing] :=
    fun file => changesOn_middle hothers file []
  have hperm : [importer, target].Perm [target, importer] := List.Perm.swap _ _ _
  have hfiles : ([importer, target].map Step.file).Nodup := by decide +kernel
  exact ⟨hchanges, (order_between_files_irrelevant {} _ _).1 hchanges, hperm, hfiles,
    (order_between_files_irrelevant {} _ _).2 hperm hfiles, by decide +kernel, by decide +kernel⟩

end Session

end SignatureContext
