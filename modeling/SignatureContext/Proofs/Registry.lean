import SignatureContext.Registry

/-! A registry seen as one map, from paths to files that have a text or none. It is determined by
this map, and every change of the registry is a change of the map at one path. -/
namespace SignatureContext

structure RegisteredFile where
  symbols : List Symbol
  edges : List ImportEdge
  text : Option String
deriving Repr, DecidableEq, Inhabited

namespace RegisteredFile

def entry (f : RegisteredFile) : Entry :=
  ⟨f.symbols, f.edges⟩

end RegisteredFile

namespace Registry
variable {r r' : Registry} {path : String}

/-- The registered file with its text. -/
def file? (r : Registry) (path : String) : Option RegisteredFile :=
  (r.entry? path).map fun e => ⟨e.symbols, e.edges, r.given? path⟩

theorem map_entry_file? (r : Registry) (path : String) :
    (r.file? path).map RegisteredFile.entry = r.entry? path := by
  unfold file?
  rw [Option.map_map]
  exact Option.map_id'

theorem bind_text_file? (r : Registry) (path : String) :
    (r.file? path).bind (·.text) = r.given? path := by
  unfold file?
  cases h : r.entry? path with
  | none => exact (r.given_eq_none path h).symm
  | some e => rfl

theorem contains_eq_isSome_file? (r : Registry) (path : String) :
    r.contains path = (r.file? path).isSome := by
  unfold contains file?
  rw [Option.isSome_map]

/-- A registry is known when its files are. -/
theorem eq_of_file?_eq (h : r.file? = r'.file?) : r = r' := by
  have hentry : r.entry? = r'.entry? := by
    funext path
    rw [← map_entry_file?, ← map_entry_file?, h]
  have hgiven : r.given? = r'.given? := by
    funext path
    rw [← bind_text_file?, ← bind_text_file?, h]
  cases r
  cases r'
  cases hentry
  cases hgiven
  rfl

/-- The registry with another file at one path. -/
def put (r : Registry) (path : String) (file : Option RegisteredFile) : Registry where
  entry? := update r.entry? path (file.map RegisteredFile.entry)
  given? := update r.given? path (file.bind (·.text))
  given_eq_none :=
    update_eq_none r.given_eq_none (fun h => by simp [Option.map_eq_none_iff.mp h]) path

@[simp] theorem file?_put (r : Registry) (path p : String) (file : Option RegisteredFile) :
    (r.put path file).file? p = if p = path then file else r.file? p := by
  unfold put file? update
  by_cases h : p = path
  · cases file <;> simp [h, RegisteredFile.entry]
  · simp [h]

theorem put_file? (r : Registry) (path : String) : r.put path (r.file? path) = r := by
  refine eq_of_file?_eq (funext fun p => ?_)
  rw [file?_put]
  exact ite_eq_right_iff.mpr fun hp => congrArg r.file? hp.symm

theorem enter_eq_put (r : Registry) (path : String) (e : Entry) (text : Option String) :
    r.enter path e text =
      r.put path (some ⟨e.symbols, e.edges, text.or ((r.file? path).bind (·.text))⟩) := by
  refine eq_of_file?_eq (funext fun p => ?_)
  rw [file?_put, bind_text_file?]
  unfold enter file? update
  by_cases h : p = path
  · cases text <;> simp [h]
  · cases text <;> simp [h]

theorem remove_eq_put (r : Registry) (path : String) :
    r.remove path = r.put (Path.normalize path) none := rfl

theorem extract_of_file? {f : RegisteredFile} (h : r.file? (Path.normalize path) = some f) :
    r.extract path =
      .ok ⟨Path.normalize path, f.symbols, f.edges.map (r.complete (Path.normalize path))⟩ := by
  have hentry : r.entry? (Path.normalize path) = some f.entry := by
    rw [← map_entry_file?, h]
    rfl
  unfold extract
  dsimp only
  rw [hentry]
  rfl

theorem extract_of_none (h : r.file? (Path.normalize path) = none) :
    r.extract path = .error (.notFound path) := by
  have hentry : r.entry? (Path.normalize path) = none := by
    rw [← map_entry_file?, h]
    rfl
  unfold extract
  dsimp only
  rw [hentry]

theorem text?_eq (r : Registry) (path : String) :
    r.text? path = (r.file? (Path.normalize path)).bind (·.text) :=
  (r.bind_text_file? (Path.normalize path)).symm

end Registry

end SignatureContext
