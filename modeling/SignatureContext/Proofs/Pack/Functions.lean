import SignatureContext.Proofs.Classify.Partition
import SignatureContext.Proofs.Pack.Choice

/-! The functions in a packing of classified declarations: none is left out for the budget. -/
namespace SignatureContext

variable {α : Type} [Declares α] {scan : Scanner} {transitive : Bool} {items : List α}

theorem tierOf_wholeReach_eq_functions_iff {symbols : List Symbol} {s : Symbol} :
    (wholeReach scan transitive symbols).tierOf s = .functions ↔ s.isFunction := by
  rw [Reach.tierOf_eq_functions_iff]
  exact and_iff_left rfl

theorem functions_classify :
    (classify scan transitive items).functions = items.filter fun a => (symbol a).isFunction := by
  have hget := (wholeReach scan transitive (items.map symbol)).get_sort items .functions
  simp only [tierOf_wholeReach_eq_functions_iff, Bool.decide_eq_true] at hget
  exact hget

theorem isFunction_iff_of_mem_ranked {p : Tier × α}
    (hp : p ∈ (classify scan transitive items).ranked) :
    (symbol p.2).isFunction ↔ p.1 = .functions := by
  rw [← Reach.tierOf_of_mem_ranked_sort hp]
  exact tierOf_wholeReach_eq_functions_iff.symm

/-- Whatever the budget is, the functions in a packing are the first of each key in the list, in
order, so a function is missing only where an earlier one has its key. -/
theorem functions_of_pack (budget : ℤ) (scan : Scanner) (transitive : Bool) (items : List α) :
    ((pack budget (classify scan transitive items)).items.filter fun a => (symbol a).isFunction) =
      firsts (items.filter fun a => (symbol a).isFunction) ∧
    ∀ before a after, items = before ++ a :: after → (symbol a).isFunction →
      (∀ b ∈ before, (symbol b).isFunction → (symbol b).key ≠ (symbol a).key) →
      a ∈ (pack budget (classify scan transitive items)).items := by
  have hfunctions :
      ((pack budget (classify scan transitive items)).items.filter fun a =>
        (symbol a).isFunction) = firsts (items.filter fun a => (symbol a).isFunction) := by
    obtain ⟨taken, h, htaken⟩ := exists_taken budget (classify scan transitive items)
    have hitems : (pack budget (classify scan transitive items)).items = taken.map Prod.snd :=
      h.items_eq
    rw [hitems, List.filter_map, ← functions_classify, ← htaken]
    congr 1
    refine List.filter_congr fun p hp => Bool.eq_iff_iff.mpr ?_
    rw [decide_eq_true_iff]
    exact isFunction_iff_of_mem_ranked (h.sublist.subset hp)
  refine ⟨hfunctions, fun before a after hsplit ha hfirst => ?_⟩
  have hmem : a ∈ firsts (items.filter fun a => (symbol a).isFunction) := by
    rw [hsplit, List.filter_append, List.filter_cons, if_pos ha]
    refine mem_firsts fun b hb => ?_
    obtain ⟨hb, hfunction⟩ := List.mem_filter.mp hb
    exact hfirst b hb hfunction
  rw [← hfunctions] at hmem
  exact (List.mem_filter.mp hmem).1

/-- Two signatures of one function in one file. -/
def overloads : List Symbol :=
  [{ kind := .function, name := "f", signature := "function f(a: string): void" },
    { kind := .function, name := "f", signature := "function f(a: number): void" }]

/-- The second signature is left out, although it is that of a function and the budget has room. -/
theorem overload_left_out :
    ¬ ∀ s ∈ overloads, s.isFunction →
      s ∈ (pack 1500 (classify Scan.references true overloads)).items := by
  decide +kernel

end SignatureContext
