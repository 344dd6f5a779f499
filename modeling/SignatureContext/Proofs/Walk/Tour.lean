import SignatureContext.Walk
import Mathlib.Data.Int.Notation
import Mathlib.Data.List.Basic
import Mathlib.Tactic.SplitIfs

/-! The walk as a relation between a list of imports and the files arrived at, in order. Every walk
is such a tour. -/
namespace SignatureContext

/-- A file handed to the extractor: because of which import, and how many hops from the entry. -/
structure Arrival where
  edge : ImportEdge
  file : String
  depth : ℤ

namespace WalkEvent

def place? : WalkEvent → Option (String × ℤ)
  | reached _ target depth => some (target, depth)
  | _ => none

end WalkEvent

namespace Walk

/-- The files that were reached by imports and how many hops away. -/
def reached (w : Walk) : List (String × ℤ) :=
  w.events.filterMap WalkEvent.place?

theorem visit_of_not_mem {w : Walk} {file : String} (h : file ∉ w.visited) :
    w.visit file = { w with visited := w.visited ++ [file] } := if_neg h

end Walk

namespace Resolver

/-- The file that an import leads to, if the import is followed and has a target. -/
def target? (r : Resolver) (e : ImportEdge) : Option String :=
  if e.relative ∧ (e.typeOnly → r.typeOnly) then e.target?.map Path.normalize else none

theorem target?_eq_some {r : Resolver} {e : ImportEdge} {g : String}
    (h : r.target? e = some g) :
    (e.relative ∧ (e.typeOnly → r.typeOnly)) ∧ ∃ path, e.target? = some path ∧
      g = Path.normalize path := by
  unfold target? at h
  split_ifs at h with hfollowed
  obtain ⟨path, hpath, rfl⟩ := Option.map_eq_some_iff.mp h
  exact ⟨hfollowed, path, hpath, rfl⟩

/-- The imports of a file. One that cannot be extracted has none. -/
def edges (r : Resolver) (file : String) : List ImportEdge :=
  match r.source.extract file with
  | .ok x => x.edges
  | .error _ => []

/-- The declarations of a file. One that cannot be extracted has none. -/
def declared (r : Resolver) (file : String) : List Symbol :=
  match r.source.extract file with
  | .ok x => x.symbols
  | .error _ => []

theorem mem_edges {r : Resolver} {file : String} {e : ImportEdge} :
    e ∈ r.edges file ↔ ∃ x, r.source.extract file = .ok x ∧ e ∈ x.edges := by
  unfold edges
  cases r.source.extract file <;> simp

theorem mem_declared {r : Resolver} {file : String} {s : Symbol} :
    s ∈ r.declared file ↔ ∃ x, r.source.extract file = .ok x ∧ s ∈ x.symbols := by
  unfold declared
  cases r.source.extract file <;> simp

/-- The declarations that an arrival adds to those found so far. -/
def block (r : Resolver) (a : Arrival) : List Symbol :=
  r.brought a.edge a.file a.depth (r.declared a.file)

/-- `Tour n depth es visited as` says that following the imports `es` of a file at `depth` hops, at
most `n` hops further and past the files in `visited`, arrives at `as`. -/
inductive Tour (r : Resolver) :
    ℕ → ℤ → List ImportEdge → List String → List Arrival → Prop
  | stop (depth : ℤ) (es : List ImportEdge) (visited : List String) : Tour r 0 depth es visited []
  | done (n : ℕ) (depth : ℤ) (visited : List String) : Tour r (n + 1) depth [] visited []
  | skip {n : ℕ} {depth : ℤ} {e : ImportEdge} {es : List ImportEdge} {visited : List String}
      {as : List Arrival} (hseen : ∀ g, r.target? e = some g → g ∈ visited)
      (rest : Tour r (n + 1) depth es visited as) : Tour r (n + 1) depth (e :: es) visited as
  | arrive {n : ℕ} {depth : ℤ} {e : ImportEdge} {es : List ImportEdge} {visited : List String}
      {g : String} {below as : List Arrival} (hg : r.target? e = some g) (hnew : g ∉ visited)
      (descent : Tour r n (depth + 1) (r.edges g) (visited ++ [g]) below)
      (rest : Tour r (n + 1) depth es (visited ++ g :: below.map Arrival.file) as) :
      Tour r (n + 1) depth (e :: es) visited (⟨e, g, depth + 1⟩ :: (below ++ as))

/-- What a walk has gained when it has arrived at the files of a tour. -/
structure Gains (r : Resolver) (w w' : Walk) (as : List Arrival) : Prop where
  visited : w'.visited = w.visited ++ as.map Arrival.file
  symbols : w'.symbols = w.symbols ++ as.flatMap r.block
  reached : w'.reached = w.reached ++ as.map fun a => (a.file, a.depth)
  extracted : w'.extracted = w.extracted ++ as.map Arrival.file

theorem Gains.refl (r : Resolver) (w : Walk) : r.Gains w w [] := by
  constructor <;> simp

theorem Gains.trans {r : Resolver} {w₁ w₂ w₃ : Walk} {as bs : List Arrival}
    (h : r.Gains w₁ w₂ as) (h' : r.Gains w₂ w₃ bs) : r.Gains w₁ w₃ (as ++ bs) where
  visited := by rw [h'.visited, h.visited, List.map_append, List.append_assoc]
  symbols := by rw [h'.symbols, h.symbols, List.flatMap_append, List.append_assoc]
  reached := by rw [h'.reached, h.reached, List.map_append, List.append_assoc]
  extracted := by rw [h'.extracted, h.extracted, List.map_append, List.append_assoc]

/-- Only an arrival is a gain, whatever else is noted. -/
theorem Gains.note {r : Resolver} {w w' : Walk} {as : List Arrival} (h : r.Gains w w' as)
    {event : WalkEvent} (hevent : event.place? = none) : r.Gains w (w'.note event) as where
  visited := h.visited
  symbols := h.symbols
  reached := by
    rw [← h.reached]
    simp [Walk.reached, Walk.note, hevent]
  extracted := h.extracted

/-- A walk right after it was handed a new file, before that file's own imports are followed. -/
def arrive (r : Resolver) (w : Walk) (a : Arrival) : Walk :=
  let w := (w.visit a.file).note (.reached a.edge.specifier a.file a.depth)
  (r.extract w a.file).2.collect (r.block a)

theorem gains_arrive {r : Resolver} {w : Walk} {a : Arrival} (hnew : a.file ∉ w.visited) :
    r.Gains w (r.arrive w a) [a] := by
  unfold arrive
  rw [Walk.visit_of_not_mem hnew]
  constructor <;> simp [extract, Walk.note, Walk.collect, Walk.reached, WalkEvent.place?]

theorem follow_nil (r : Resolver) (n : ℕ) (depth : ℤ) (w : Walk) : r.follow n depth [] w = w := by
  cases n <;> rfl

section Step
variable {r : Resolver} {depth : ℤ} {descend : List ImportEdge → Walk → Walk} {w : Walk}
  {e : ImportEdge} {g : String}

/-- An import that is not followed changes nothing but what is reported. -/
theorem step_gains_nil (h : r.target? e = none) : r.Gains w (r.step depth descend w e) [] := by
  unfold target? at h
  unfold step
  split_ifs with hrelative htype
  · exact Gains.refl r w
  · exact (Gains.refl r w).note rfl
  · have hfollowed : e.relative ∧ (e.typeOnly → r.typeOnly) := by simp_all
    rw [if_pos hfollowed, Option.map_eq_none_iff] at h
    rw [h]
    exact (Gains.refl r w).note rfl

theorem step_of_seen (hg : r.target? e = some g) (hseen : g ∈ w.visited) :
    r.step depth descend w e = w := by
  obtain ⟨⟨hrelative, htype⟩, path, hpath, rfl⟩ := target?_eq_some hg
  unfold step
  rw [if_neg (by simp [hrelative]), if_neg (by simpa using htype), hpath]
  exact if_pos hseen

/-- A new file is arrived at and its imports are followed. If it cannot be extracted it has no
imports, and a note is all that is left of it. -/
theorem step_of_fresh (n : ℕ) (depth : ℤ) (hg : r.target? e = some g) (hnew : g ∉ w.visited) :
    let w' := r.follow n (depth + 1) (r.edges g) (r.arrive w ⟨e, g, depth + 1⟩)
    r.step depth (r.follow n (depth + 1)) w e = w' ∨
      r.step depth (r.follow n (depth + 1)) w e = w'.note (.failed e.specifier g) := by
  intro w'
  obtain ⟨⟨hrelative, htype⟩, path, hpath, rfl⟩ := target?_eq_some hg
  unfold step
  rw [if_neg (by simp [hrelative]), if_neg (by simpa using htype), hpath]
  dsimp only
  rw [if_neg hnew]
  cases hx : r.source.extract (Path.normalize path) with
  | ok x =>
    left
    simp [w', extract, arrive, block, edges, declared, hx]
  | error fault =>
    right
    simp [w', extract, arrive, block, edges, declared, hx, follow_nil, brought, Walk.collect]

end Step

/-- Every walk below a file is a tour of it. The induction is on the hops that remain, and below
it on the imports that remain. -/
theorem follow_tour (r : Resolver) (n : ℕ) (depth : ℤ) (es : List ImportEdge) (w : Walk) :
    ∃ as, r.Tour n depth es w.visited as ∧ r.Gains w (r.follow n depth es w) as := by
  induction n generalizing depth es w with
  | zero => exact ⟨[], .stop depth es w.visited, Gains.refl r w⟩
  | succ n ih =>
    induction es generalizing w with
    | nil => exact ⟨[], .done n depth w.visited, Gains.refl r w⟩
    | cons e es ihes =>
      have hfollow : r.follow (n + 1) depth (e :: es) w =
          r.follow (n + 1) depth es (r.step depth (r.follow n (depth + 1)) w e) := rfl
      rw [hfollow]
      cases hg : r.target? e with
      | none =>
        have hstep : r.Gains w (r.step depth (r.follow n (depth + 1)) w e) [] :=
          step_gains_nil hg
        obtain ⟨as, htour, hgains⟩ := ihes (r.step depth (r.follow n (depth + 1)) w e)
        rw [hstep.visited, List.map_nil, List.append_nil] at htour
        exact ⟨as, .skip (by simp [hg]) htour, hstep.trans hgains⟩
      | some g =>
        by_cases hseen : g ∈ w.visited
        · obtain ⟨as, htour, hgains⟩ := ihes w
          rw [step_of_seen hg hseen]
          exact ⟨as, .skip (by simp_all) htour, hgains⟩
        · have harrive : r.Gains w (r.arrive w ⟨e, g, depth + 1⟩) [⟨e, g, depth + 1⟩] :=
            gains_arrive hseen
          obtain ⟨below, hdescent, hbelow⟩ :=
            ih (depth + 1) (r.edges g) (r.arrive w ⟨e, g, depth + 1⟩)
          have hstep : r.Gains w (r.step depth (r.follow n (depth + 1)) w e)
              (⟨e, g, depth + 1⟩ :: below) := by
            rcases step_of_fresh n depth hg hseen with h | h <;> rw [h]
            · exact harrive.trans hbelow
            · exact (harrive.trans hbelow).note rfl
          obtain ⟨as, htour, hgains⟩ := ihes (r.step depth (r.follow n (depth + 1)) w e)
          rw [harrive.visited] at hdescent
          rw [hstep.visited] at htour
          exact ⟨_, .arrive hg hseen hdescent htour, hstep.trans hgains⟩

/-- The entry file, and the files that a walk from it reached by imports and how many hops away, in
order. -/
def reached (r : Resolver) (file : String) (visited : List String) : List (String × ℤ) :=
  (Path.normalize file, 0) :: (r.resolve file visited).reached

end Resolver

end SignatureContext
