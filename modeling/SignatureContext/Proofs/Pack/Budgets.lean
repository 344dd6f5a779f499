import SignatureContext.Proofs.Pack.Room

/-! Packings of the same buckets under two budgets. They are alike up to the first declaration that
only the larger budget has room for, and what the smaller one takes after it weighs less. -/
namespace SignatureContext

variable {α : Type} [Declares α] {budget budget' : ℤ}

theorem Load.admits_of_le {l : Load α} {t : Tier} {a : α} (hle : budget ≤ budget')
    (h : l.Admits budget t a) : l.Admits budget' t a := by
  refine h.imp_right fun hroom => Load.room_iff.mpr ?_
  obtain ⟨hpos, hfits⟩ := Load.room_iff.mp hroom
  exact ⟨hpos.trans_le hle, hfits.trans hle⟩

/-- From a load the choices under two budgets go the same way up to a declaration that only the
larger one has room for. Without it the choice under the smaller budget ends in `m`. -/
inductive Forks (budget budget' : ℤ) (l : Load α) :
    List (Tier × α) → List (Tier × α) → Load α → Prop
  | intro {k m : Load α} {before after common left : List (Tier × α)} {t : Tier} {a : α}
      (hsmaller : Choice budget l before common k) (hlarger : Choice budget' l before common k)
      (hnew : (symbol a).key ∉ k.keys) (hrefused : ¬ k.Admits budget t a)
      (hadmits : k.Admits budget' t a) (hrest : Choice budget k.exceed after left m) :
      Forks budget budget' l (before ++ (t, a) :: after) (common ++ left) m

namespace Choice
variable {l m : Load α} {offered taken : List (Tier × α)}

theorem same_or_forks (h : Choice budget l offered taken m) (hle : budget ≤ budget') :
    Choice budget' l offered taken m ∨ Forks budget budget' l offered taken m := by
  induction h with
  | done l => exact Or.inl (.done l)
  | take hnew hadmits _ ih =>
    have hadmits' := Load.admits_of_le hle hadmits
    refine ih.imp (.take hnew hadmits') fun hforks => ?_
    obtain ⟨hsmaller, hlarger, hkey, hrefused, hlast, hrest⟩ := hforks
    exact .intro (.take hnew hadmits hsmaller) (.take hnew hadmits' hlarger) hkey hrefused hlast
      hrest
  | repeated hseen _ ih =>
    refine ih.imp (.repeated hseen) fun hforks => ?_
    obtain ⟨hsmaller, hlarger, hkey, hrefused, hlast, hrest⟩ := hforks
    exact .intro (.repeated hseen hsmaller) (.repeated hseen hlarger) hkey hrefused hlast hrest
  -- the same load decides under both budgets, so they fork only where the smaller one refuses
  | @exceed l m t a _ _ hnew hrefused hrest ih =>
    by_cases hadmits : l.Admits budget' t a
    · exact Or.inr (.intro (.done l) (.done l) hnew hrefused hadmits hrest)
    · refine ih.imp (.exceed hnew hadmits) fun hforks => ?_
      obtain ⟨hsmaller, hlarger, hkey, hrefused', hlast, hrest'⟩ := hforks
      exact .intro (.exceed hnew hrefused hsmaller) (.exceed hnew hadmits hlarger) hkey hrefused'
        hlast hrest'

/-- What is taken behind a refused declaration keeps within the budget, so it has fewer tokens than
that one. -/
theorem lighter_than_refused {a : α} (h : Choice budget l offered taken m)
    (hoffered : ∀ p ∈ offered, p.1 ≠ .functions) (hrefused : budget < l.total + (symbol a).tokens) :
    totalTokens (taken.map fun p => symbol p.2) < (symbol a).tokens := by
  have hwithin := h.total_le hoffered
  have htokens := (symbol a).tokens_pos
  rw [h.total_eq] at hwithin
  push_cast at hwithin
  omega

/-- A larger budget changes nothing where the smaller one is enough. -/
theorem of_not_exceeded (h : Choice budget l offered taken m) (hle : budget ≤ budget')
    (hm : m.exceeded = false) : Choice budget' l offered taken m := by
  refine (h.same_or_forks hle).resolve_right ?_
  rintro ⟨-, -, -, -, -, hrest⟩
  have hexceeded := hrest.exceeded_of_exceeded rfl
  rw [hm] at hexceeded
  cases hexceeded

end Choice

section Pack
variable {b : Buckets α}

theorem items_pack_of_choice {taken : List (Tier × α)} {m : Load α}
    (h : Choice budget (Load.start budget).exceed b.ranked taken m) :
    (pack budget b).items = taken.map Prod.snd := by
  have hitems : m.items = [] ++ taken.map Prod.snd := h.items_eq
  rw [← exceed_toLoad_pack h] at hitems
  exact hitems

/-- Two packings of the same buckets are alike up to `a`, which only the larger budget has room for.
From there on the smaller one takes `left`, and the larger one takes `right` after `a`. -/
structure Displacement (budget budget' : ℤ) (b : Buckets α) (common : List α) (a : α)
    (left right : List α) : Prop where
  smaller : (pack budget b).items = common ++ left
  larger : (pack budget' b).items = common ++ a :: right
  order : (a :: left).Sublist (b.lower.map Prod.snd)
  no_room : budget < totalTokens (common.map symbol) + (symbol a).tokens
  room : (totalTokens (common.map symbol) : ℤ) + (symbol a).tokens ≤ budget'
  lighter : totalTokens (left.map symbol) < (symbol a).tokens

theorem Forks.displacement {taken : List (Tier × α)} {m : Load α}
    (h : Forks budget budget' (Load.start budget).exceed b.ranked taken m) :
    ∃ common a left right, Displacement budget budget' b common a left right := by
  generalize hranked : b.ranked = offered at h
  cases h with
  | @intro k m before after common left t a hsmaller hlarger hnew hrefused hadmits hrest =>
    obtain ⟨right, hright⟩ := exists_choice budget' (k.take t a) after
    have hfirst := hsmaller.append (.exceed hnew hrefused hrest)
    have hsecond := hlarger.append (.take hnew hadmits hright)
    rw [← hranked] at hfirst hsecond
    obtain ⟨-, htier, hno⟩ : _ ∧ t ≠ .functions ∧ budget < k.total + (symbol a).tokens :=
      Load.refuses_iff.mpr ⟨hnew, hrefused⟩
    have hroom := Load.room_iff.mp (hadmits.resolve_left htier)
    have hsublist : ((t, a) :: after).Sublist b.ranked := by
      rw [hranked]
      exact List.sublist_append_right _ _
    have hafter : ∀ q ∈ after, q.1 ≠ .functions := fun q hq =>
      Buckets.ne_functions_of_sublist
        (((List.singleton_sublist.mpr hq).cons_cons (t, a)).trans hsublist) htier
    have htotal : k.total = totalTokens ((common.map Prod.snd).map symbol) :=
      hsmaller.total_eq_of_zero rfl
    refine ⟨common.map Prod.snd, a, left.map Prod.snd, right.map Prod.snd, ?_, ?_, ?_, ?_, ?_, ?_⟩
    · rw [items_pack_of_choice hfirst, List.map_append]
    · rw [items_pack_of_choice hsecond, List.map_append, List.map_cons]
    · have hleft : ((t, a) :: left).Sublist b.lower :=
        Buckets.sublist_lower ((hrest.sublist.cons_cons _).trans hsublist)
          (List.forall_mem_cons.mpr ⟨htier, fun q hq => hafter q (hrest.sublist.subset hq)⟩)
      exact hleft.map Prod.snd
    · rw [← htotal]
      exact hno
    · rw [← htotal]
      exact hroom.2
    · rw [List.map_map]
      exact hrest.lighter_than_refused hafter hno

theorem same_or_displacement (hle : budget ≤ budget') (b : Buckets α) :
    (pack budget' b).items = (pack budget b).items ∨
      ∃ common a left right, Displacement budget budget' b common a left right := by
  obtain ⟨taken, h, hitems⟩ := exists_choice_pack budget b
  refine (h.after_exceed.same_or_forks hle).imp (fun hsame => ?_) Forks.displacement
  rw [items_pack_of_choice hsame, hitems]

/-- Under a larger budget a packing has no fewer tokens, and it is the same one if the smaller
budget was not exceeded. -/
theorem tokens_grow_with_budget (hle : budget ≤ budget') (b : Buckets α) :
    (pack budget b).total ≤ (pack budget' b).total ∧
    ((pack budget b).exceeded = false → pack budget' b = pack budget b) := by
  refine ⟨?_, fun hexceeded => ?_⟩
  · rcases same_or_displacement hle b with hsame | ⟨common, a, left, right, hdisplaced⟩
    · rw [total_pack, total_pack, hsame]
    · have hlighter := hdisplaced.lighter
      rw [total_pack, total_pack, hdisplaced.smaller, hdisplaced.larger]
      simp only [List.map_append, List.map_cons, totalTokens_append, totalTokens_cons]
      omega
  · obtain ⟨taken, h, -⟩ := exists_choice_pack budget b
    -- a budget that is not positive is exceeded from the start
    have hpos : 0 < budget := not_le.mp fun hnonpos => by
      have hstart := h.exceeded_of_exceeded (decide_eq_true hnonpos)
      rw [hexceeded] at hstart
      cases hstart
    have hstart : (Load.start budget' : Load α) = Load.start budget := by
      simp [Load.start, not_le.mpr hpos, not_le.mpr (hpos.trans_le hle)]
    have hload : (pack budget' b).toLoad = (pack budget b).toLoad := by
      have hfold := (h.of_not_exceeded hle hexceeded).foldl_eq
      rw [← hstart] at hfold
      exact hfold
    rw [pack_eq budget' b, hload]
    rfl

/-- One pair and its two parts. -/
def crowded : Buckets Symbol :=
  { Buckets.empty with
    native := [
      { kind := .typeAlias, name := "Pair", signature := "type Pair = [left: L, right: R]" },
      { kind := .typeAlias, name := "L", signature := "type L = A" },
      { kind := .typeAlias, name := "R", signature := "type R = B" }] }

/-- A budget that has room for the parts and one that has room for the pair; a budget for all. -/
theorem crowded_tokens_grow :
    ((10 : ℤ) ≤ 11 ∧ (pack 10 crowded).total ≤ (pack 11 crowded).total) ∧
    ((21 : ℤ) ≤ 30 ∧ (pack 21 crowded).exceeded = false ∧ pack 30 crowded = pack 21 crowded) :=
  ⟨⟨by decide, (tokens_grow_with_budget (by decide) crowded).1⟩,
    ⟨by decide, by decide +kernel,
      (tokens_grow_with_budget (by decide) crowded).2 (by decide +kernel)⟩⟩

/-- After the functions nothing outweighs two others that come behind it with different keys. -/
def Buckets.Balanced (b : Buckets α) : Prop :=
  ∀ a x y, [a, x, y].Sublist (b.lower.map Prod.snd) → (symbol x).key ≠ (symbol y).key →
    (symbol a).tokens ≤ (symbol x).tokens + (symbol y).tokens

theorem Buckets.balanced_of_pairwise
    (h : (b.lower.map Prod.snd).Pairwise fun a x => (symbol a).tokens ≤ (symbol x).tokens) :
    b.Balanced := by
  intro a x y hsublist _
  have hle : (symbol a).tokens ≤ (symbol x).tokens :=
    List.rel_of_pairwise_cons (h.sublist hsublist) List.mem_cons_self
  exact hle.trans (Nat.le_add_right _ _)

theorem Displacement.length_left_le {common left right : List α} {a : α}
    (h : Displacement budget budget' b common a left right) (hb : b.Balanced) :
    left.length ≤ 1 := by
  rcases left with _ | ⟨x, _ | ⟨y, rest⟩⟩
  · exact Nat.zero_le 1
  · exact le_rfl
  · exfalso
    have hkeys : (symbol x).key ≠ (symbol y).key := by
      have hnodup := nodup_keys_pack budget b
      unfold Load.keys at hnodup
      rw [h.smaller, List.map_append] at hnodup
      have hleft := (List.nodup_append.mp hnodup).2.1
      simp only [List.map_cons, List.nodup_cons, List.mem_cons, not_or] at hleft
      exact hleft.1.1
    have hthree : [a, x, y].Sublist (a :: x :: y :: rest) :=
      List.Sublist.cons_cons _ (List.Sublist.cons_cons _ (List.singleton_sublist.mpr (by simp)))
    have htwo := hb a x y (hthree.trans h.order) hkeys
    have hlighter := h.lighter
    simp only [List.map_cons, totalTokens_cons] at hlighter
    omega

/-- A larger budget takes fewer declarations just where one that it has room for keeps out more
than one of those behind it. Where nothing outweighs two others it takes no fewer. -/
theorem count_falls_iff (hle : budget ≤ budget') (b : Buckets α) :
    ((pack budget' b).items.length < (pack budget b).items.length ↔
      ∃ common a left right, Displacement budget budget' b common a left right ∧
        right.length + 1 < left.length) ∧
    (b.Balanced → (pack budget b).items.length ≤ (pack budget' b).items.length) := by
  have hfalls : (pack budget' b).items.length < (pack budget b).items.length ↔
      ∃ common a left right, Displacement budget budget' b common a left right ∧
        right.length + 1 < left.length := by
    constructor
    · intro hlt
      rcases same_or_displacement hle b with hsame | ⟨common, a, left, right, h⟩
      · rw [hsame] at hlt
        exact absurd hlt (lt_irrefl _)
      · refine ⟨common, a, left, right, h, ?_⟩
        rw [h.smaller, h.larger, List.length_append, List.length_append, List.length_cons] at hlt
        omega
    · rintro ⟨common, a, left, right, h, hlonger⟩
      rw [h.smaller, h.larger, List.length_append, List.length_append, List.length_cons]
      omega
  refine ⟨hfalls, fun hb => not_lt.mp fun hlt => ?_⟩
  obtain ⟨common, a, left, right, h, hlonger⟩ := hfalls.mp hlt
  have hshort := h.length_left_le hb
  omega

end Pack

/-- Declarations of one size. -/
def uniform : Buckets Symbol :=
  { Buckets.empty with
    signatureTypes := [
      { kind := .typeAlias, name := "L", signature := "type L = A" },
      { kind := .typeAlias, name := "R", signature := "type R = B" }]
    native := [{ kind := .typeAlias, name := "S", signature := "type S = C" }] }

theorem crowded_and_uniform_counts :
    ((10 : ℤ) ≤ 11 ∧ ∃ common a left right, Displacement 10 11 crowded common a left right ∧
      right.length + 1 < left.length) ∧
    (uniform.Balanced ∧ (pack 10 uniform).items.length ≤ (pack 11 uniform).items.length) := by
  have hfewer : (pack 11 crowded).items.length < (pack 10 crowded).items.length := by
    decide +kernel
  have hbalanced : uniform.Balanced := Buckets.balanced_of_pairwise (by decide +kernel)
  exact ⟨⟨by decide, (count_falls_iff (by decide) crowded).1.mp hfewer⟩,
    ⟨hbalanced, (count_falls_iff (by decide) uniform).2 hbalanced⟩⟩

/-- One token more, and the pair is taken in the place of its two parts. -/
theorem pair_displaces_parts :
    (10 : ℤ) ≤ 11 ∧ ¬ (pack 10 crowded).items.length ≤ (pack 11 crowded).items.length := by
  decide +kernel

end SignatureContext
