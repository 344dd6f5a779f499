import SignatureContext.Proofs.Walk.Arrivals

/-! A walk depends on nothing but the imports that are followed, how far they are followed and what
the files declare. -/
namespace SignatureContext.Resolver

/-- The imports that are followed, each with the file it leads to. -/
def followed (r : Resolver) (es : List ImportEdge) : List (ImportEdge × String) :=
  es.filterMap fun e => (r.target? e).map (e, ·)

/-- The second resolver follows the same imports of each file as the first one, and as far. -/
structure Agrees (r r' : Resolver) : Prop where
  maxDepth : r'.maxDepth = r.maxDepth
  followed : ∀ file, r'.followed (r'.edges file) = r.followed (r.edges file)

section Followed
variable {r : Resolver} {e : ImportEdge} {es : List ImportEdge} {g : String}
  {rest : List (ImportEdge × String)}

theorem followed_cons_of_none (h : r.target? e = none) :
    r.followed (e :: es) = r.followed es := by
  unfold followed
  rw [List.filterMap_cons_none (by rw [h]; rfl)]

theorem followed_cons_of_some (h : r.target? e = some g) :
    r.followed (e :: es) = (e, g) :: r.followed es := by
  unfold followed
  rw [List.filterMap_cons_some (by rw [h]; rfl)]

theorem target?_of_followed_eq_nil (h : r.followed es = []) : ∀ e ∈ es, r.target? e = none := by
  intro e he
  have hnone : (r.target? e).map (e, ·) = none := List.filterMap_eq_nil_iff.mp h e he
  exact Option.map_eq_none_iff.mp hnone

/-- The first import that is followed, with those before it that are not. -/
theorem exists_of_followed_eq_cons (h : r.followed es = (e, g) :: rest) :
    ∃ passed es', es = passed ++ e :: es' ∧ (∀ e ∈ passed, r.target? e = none) ∧
      r.target? e = some g ∧ r.followed es' = rest := by
  obtain ⟨passed, e', es', rfl, hpassed, htarget, hrest⟩ := List.filterMap_eq_cons_iff.mp h
  obtain ⟨g', hg', heq⟩ := Option.map_eq_some_iff.mp htarget
  obtain ⟨rfl, rfl⟩ := Prod.mk.inj heq
  exact ⟨passed, es', rfl, fun e he => Option.map_eq_none_iff.mp (hpassed e he), hg', hrest⟩

end Followed

namespace Tour
variable {r r' : Resolver} {n : ℕ} {depth : ℤ} {es es' : List ImportEdge} {visited : List String}
  {as : List Arrival}

theorem pass {passed : List ImportEdge} (hpassed : ∀ e ∈ passed, r.target? e = none)
    (h : r.Tour (n + 1) depth es visited as) : r.Tour (n + 1) depth (passed ++ es) visited as := by
  induction passed with
  | nil => exact h
  | cons e passed ih =>
    obtain ⟨he, hpassed⟩ := List.forall_mem_cons.mp hpassed
    exact .skip (by simp [he]) (ih hpassed)

/-- The tour of a list of imports is a tour of any other list in which the same imports are
followed. The induction is on the tour, and the other list is split at each import that the tour
comes to. -/
theorem agree (hr : r.Agrees r') (h : r.Tour n depth es visited as)
    (hes : r'.followed es' = r.followed es) : r'.Tour n depth es' visited as := by
  induction h generalizing es' with
  | stop depth es visited => exact .stop depth es' visited
  | done n depth visited =>
    have hpassed : ∀ e ∈ es', r'.target? e = none := target?_of_followed_eq_nil hes
    simpa using Tour.pass hpassed (.done n depth visited)
  | @skip n depth e es visited as hseen rest ih =>
    -- an import that is not followed need not be in the other list, one to a visited file is
    cases hg : r.target? e with
    | none =>
      rw [followed_cons_of_none hg] at hes
      exact ih hes
    | some g =>
      rw [followed_cons_of_some hg] at hes
      obtain ⟨passed, later, rfl, hpassed, hg', hlater⟩ := exists_of_followed_eq_cons hes
      have hseen' : ∀ f, r'.target? e = some f → f ∈ visited := by
        intro f hf
        cases Option.some.inj (hg'.symm.trans hf)
        exact hseen g hg
      exact Tour.pass hpassed (.skip hseen' (ih hlater))
  | arrive hg hnew descent rest ihbelow ihrest =>
    rw [followed_cons_of_some hg] at hes
    obtain ⟨passed, later, rfl, hpassed, hg', hlater⟩ := exists_of_followed_eq_cons hes
    exact Tour.pass hpassed (.arrive hg' hnew (ihbelow (hr.followed _)) (ihrest hlater))

end Tour

/-- Where resolvers agree, their walks from an entry file arrive at the same files in the same
order. -/
theorem TourOf.agree {r r' : Resolver} {file : String} {visited : List String}
    {as : List Arrival} (hr : r.Agrees r') (h : r.TourOf file visited as) :
    r'.TourOf file visited as := by
  obtain ⟨bs, h'⟩ := r'.exists_tourOf file visited
  have htour := h.tour.agree hr (hr.followed (Path.normalize file))
  rw [← hr.maxDepth] at htour
  -- the second resolver's walk has a tour of its own, and no list of imports has two
  cases htour.unique h'.tour
  exact h'

end SignatureContext.Resolver
