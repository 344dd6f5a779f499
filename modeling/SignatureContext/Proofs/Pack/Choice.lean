import SignatureContext.Pack
import SignatureContext.Proofs.Buckets
import Mathlib.Data.List.Nodup
import Mathlib.Order.Lattice

/-! The choice under a budget as a relation between what is offered and what is taken. Every packing
makes such a choice, first among the functions and then among the rest. -/
namespace SignatureContext

variable {α : Type} [Declares α]

/-- The first declaration of each key, in order. -/
def firsts : List α → List α
  | [] => []
  | a :: as => a :: (firsts as).filter fun b => (symbol b).key ≠ (symbol a).key

theorem mem_firsts {before after : List α} {a : α}
    (h : ∀ b ∈ before, (symbol b).key ≠ (symbol a).key) : a ∈ firsts (before ++ a :: after) := by
  induction before with
  | nil => exact List.mem_cons_self
  | cons b before ih =>
    obtain ⟨hb, hbefore⟩ := List.forall_mem_cons.mp h
    exact List.mem_cons_of_mem _ (List.mem_filter.mpr ⟨ih hbefore, by simpa using hb.symm⟩)

namespace Load

/-- The load with one more declaration, from the given tier. -/
def take (l : Load α) (t : Tier) (a : α) : Load α :=
  { l with
    items := l.items ++ [a]
    total := l.total + (symbol a).tokens
    counts := l.counts.modify t (· + 1) }

def exceed (l : Load α) : Load α :=
  { l with exceeded := true }

/-- Whether a declaration with a new key is taken, when it is offered in the tier. -/
def Admits (l : Load α) (budget : ℤ) (t : Tier) (a : α) : Prop :=
  t = .functions ∨ l.room budget (symbol a).tokens

theorem keys_take (l : Load α) (t : Tier) (a : α) :
    (l.take t a).keys = l.keys ++ [(symbol a).key] := by
  simp [keys, take]

omit [Declares α] in
theorem room_iff {l : Load α} {budget : ℤ} {tokens : ℕ} :
    l.room budget tokens ↔ 0 < budget ∧ (l.total : ℤ) + tokens ≤ budget := by
  simp [room]

section Offer
variable {l : Load α} {budget : ℤ} {t : Tier} {a : α}

theorem offer_of_repeated (h : (symbol a).key ∈ l.keys) : l.offer budget (t, a) = l := by
  unfold offer
  exact if_pos (List.contains_iff_mem.mpr h)

theorem offer_of_admits (hnew : (symbol a).key ∉ l.keys) (h : l.Admits budget t a) :
    l.offer budget (t, a) = l.take t a := by
  unfold offer
  dsimp only
  rw [if_neg (by simpa using hnew)]
  exact if_pos (by simpa [Admits] using h)

theorem offer_of_not_admits (hnew : (symbol a).key ∉ l.keys) (h : ¬ l.Admits budget t a) :
    l.offer budget (t, a) = l.exceed := by
  unfold offer
  dsimp only
  rw [if_neg (by simpa using hnew)]
  exact if_neg (by simpa [Admits] using h)

end Offer

end Load

/-- `Choice budget l offered taken l'` says that a load `l` to which `offered` is offered, one after
the other, takes `taken` of it and becomes `l'`. -/
inductive Choice (budget : ℤ) :
    Load α → List (Tier × α) → List (Tier × α) → Load α → Prop
  | done (l : Load α) : Choice budget l [] [] l
  | take {l l' : Load α} {t : Tier} {a : α} {offered taken : List (Tier × α)}
      (hnew : (symbol a).key ∉ l.keys) (hadmits : l.Admits budget t a)
      (rest : Choice budget (l.take t a) offered taken l') :
      Choice budget l ((t, a) :: offered) ((t, a) :: taken) l'
  | repeated {l l' : Load α} {t : Tier} {a : α} {offered taken : List (Tier × α)}
      (hseen : (symbol a).key ∈ l.keys) (rest : Choice budget l offered taken l') :
      Choice budget l ((t, a) :: offered) taken l'
  | exceed {l l' : Load α} {t : Tier} {a : α} {offered taken : List (Tier × α)}
      (hnew : (symbol a).key ∉ l.keys) (hrefused : ¬ l.Admits budget t a)
      (rest : Choice budget l.exceed offered taken l') :
      Choice budget l ((t, a) :: offered) taken l'

theorem exists_choice (budget : ℤ) (l : Load α) (offered : List (Tier × α)) :
    ∃ taken, Choice budget l offered taken (offered.foldl (Load.offer budget) l) := by
  induction offered generalizing l with
  | nil => exact ⟨[], .done l⟩
  | cons p offered ih =>
    obtain ⟨t, a⟩ := p
    rw [List.foldl_cons]
    by_cases hseen : (symbol a).key ∈ l.keys
    · obtain ⟨taken, h⟩ := ih l
      rw [Load.offer_of_repeated hseen]
      exact ⟨taken, .repeated hseen h⟩
    · by_cases hadmits : l.Admits budget t a
      · obtain ⟨taken, h⟩ := ih (l.take t a)
        rw [Load.offer_of_admits hseen hadmits]
        exact ⟨(t, a) :: taken, .take hseen hadmits h⟩
      · obtain ⟨taken, h⟩ := ih l.exceed
        rw [Load.offer_of_not_admits hseen hadmits]
        exact ⟨taken, .exceed hseen hadmits h⟩

namespace Choice
variable {budget : ℤ} {l l' l'' : Load α} {offered offered' taken taken' : List (Tier × α)}

theorem foldl_eq (h : Choice budget l offered taken l') :
    offered.foldl (Load.offer budget) l = l' := by
  induction h with
  | done => rfl
  | take hnew hadmits _ ih => rw [List.foldl_cons, Load.offer_of_admits hnew hadmits, ih]
  | repeated hseen _ ih => rw [List.foldl_cons, Load.offer_of_repeated hseen, ih]
  | exceed hnew hrefused _ ih => rw [List.foldl_cons, Load.offer_of_not_admits hnew hrefused, ih]

/-- No decision depends on whether the budget was exceeded before. -/
theorem after_exceed (h : Choice budget l offered taken l') :
    Choice budget l.exceed offered taken l'.exceed := by
  induction h with
  | done l => exact .done l.exceed
  | take hnew hadmits _ ih => exact .take hnew hadmits ih
  | repeated hseen _ ih => exact .repeated hseen ih
  | exceed hnew hrefused _ ih => exact .exceed hnew hrefused ih

theorem append (h : Choice budget l offered taken l') (h' : Choice budget l' offered' taken' l'') :
    Choice budget l (offered ++ offered') (taken ++ taken') l'' := by
  induction h with
  | done => exact h'
  | take hnew hadmits _ ih => exact .take hnew hadmits (ih h')
  | repeated hseen _ ih => exact .repeated hseen (ih h')
  | exceed hnew hrefused _ ih => exact .exceed hnew hrefused (ih h')

theorem sublist (h : Choice budget l offered taken l') : taken.Sublist offered := by
  induction h with
  | done => exact List.Sublist.refl _
  | take _ _ _ ih => exact ih.cons_cons _
  | repeated _ _ ih => exact ih.cons _
  | exceed _ _ _ ih => exact ih.cons _

theorem items_eq (h : Choice budget l offered taken l') :
    l'.items = l.items ++ taken.map Prod.snd := by
  induction h with
  | done => simp
  | take _ _ _ ih => simp [ih, Load.take]
  | repeated _ _ ih => exact ih
  | exceed _ _ _ ih => exact ih

theorem total_eq (h : Choice budget l offered taken l') :
    l'.total = l.total + totalTokens (taken.map fun p => symbol p.2) := by
  induction h with
  | done => simp
  | take _ _ _ ih =>
    rw [ih, List.map_cons, totalTokens_cons, Load.take, Nat.add_assoc]
  | repeated _ _ ih => exact ih
  | exceed _ _ _ ih => exact ih

theorem total_eq_of_zero (h : Choice budget l offered taken l') (hl : l.total = 0) :
    l'.total = totalTokens ((taken.map Prod.snd).map symbol) := by
  rw [h.total_eq, hl, Nat.zero_add, List.map_map]
  rfl

theorem total_mono (h : Choice budget l offered taken l') : l.total ≤ l'.total := by
  rw [h.total_eq]
  exact Nat.le_add_right _ _

theorem keys_subset (h : Choice budget l offered taken l') : l.keys ⊆ l'.keys := by
  unfold Load.keys
  rw [h.items_eq, List.map_append]
  exact List.subset_append_left _ _

theorem counts_eq (h : Choice budget l offered taken l') (t : Tier) :
    l'.counts.get t = l.counts.get t + (taken.filter fun p => p.1 = t).length := by
  induction h with
  | done => simp
  | @take l l' u a _ _ _ _ _ ih =>
    rw [ih, Load.take]
    by_cases hu : u = t
    · simp [hu]; omega
    · have hne : t ≠ u := fun h => hu h.symm
      simp [hu, hne]
  | repeated _ _ ih => exact ih
  | exceed _ _ _ ih => exact ih

theorem keys_nodup (h : Choice budget l offered taken l') (hkeys : l.keys.Nodup) :
    l'.keys.Nodup := by
  induction h with
  | done => exact hkeys
  | take hnew _ _ ih =>
    refine ih ?_
    rw [Load.keys_take]
    exact List.Nodup.append hkeys (List.nodup_singleton _) (by simpa using hnew)
  | repeated _ _ ih => exact ih hkeys
  | exceed _ _ _ ih => exact ih hkeys

/-- Among functions, exactly the first declaration of each new key is taken. -/
theorem taken_of_functions (h : Choice budget l offered taken l')
    (hoffered : ∀ p ∈ offered, p.1 = .functions) :
    taken.map Prod.snd =
      (firsts (offered.map Prod.snd)).filter fun a => (symbol a).key ∉ l.keys := by
  induction h with
  | done => rfl
  | @take l l' t a offered taken hnew _ _ ih =>
    have hrest := ih fun p hp => hoffered p (List.mem_cons_of_mem _ hp)
    rw [List.map_cons, List.map_cons, firsts, List.filter_cons_of_pos (by simpa using hnew), hrest,
      List.filter_filter]
    congr 1
    refine List.filter_congr fun b _ => ?_
    simp [Load.keys_take]
  | @repeated l l' t a offered taken hseen _ ih =>
    have hrest := ih fun p hp => hoffered p (List.mem_cons_of_mem _ hp)
    rw [List.map_cons, firsts, List.filter_cons_of_neg (by simpa using hseen), hrest,
      List.filter_filter]
    -- the key of `a` is taken already, so to leave it out once more changes nothing
    refine List.filter_congr fun b _ => ?_
    by_cases hb : (symbol b).key ∈ l.keys
    · simp [hb]
    · have hne : (symbol b).key ≠ (symbol a).key := fun heq => hb (heq ▸ hseen)
      simp [hb, hne]
  | exceed _ hrefused _ _ =>
    exact absurd (Or.inl (hoffered _ List.mem_cons_self)) hrefused

/-- Apart from functions, a load grows only within the budget. -/
theorem total_le (h : Choice budget l offered taken l')
    (hoffered : ∀ p ∈ offered, p.1 ≠ .functions) : (l'.total : ℤ) ≤ max budget l.total := by
  induction h with
  | done => exact le_max_right _ _
  | @take l l' t a offered taken _ hadmits _ ih =>
    have hroom : l.room budget (symbol a).tokens :=
      hadmits.resolve_left (hoffered _ List.mem_cons_self)
    have hwithin : ((l.take t a).total : ℤ) ≤ budget := by
      simpa [Load.take] using (Load.room_iff.mp hroom).2
    have hrest := ih fun p hp => hoffered p (List.mem_cons_of_mem _ hp)
    -- what was taken fits, so the budget alone bounds the rest
    rw [max_eq_left hwithin] at hrest
    exact hrest.trans (le_max_left _ _)
  | repeated _ _ ih => exact ih fun p hp => hoffered p (List.mem_cons_of_mem _ hp)
  | exceed _ _ _ ih => exact ih fun p hp => hoffered p (List.mem_cons_of_mem _ hp)

theorem room_of_mem_taken (h : Choice budget l offered taken l') {p : Tier × α} (hp : p ∈ taken)
    (htier : p.1 ≠ .functions) : (l.total : ℤ) + (symbol p.2).tokens ≤ budget := by
  induction h with
  | done => exact absurd hp List.not_mem_nil
  | take _ hadmits _ ih =>
    rcases List.mem_cons.mp hp with rfl | hp
    · exact (Load.room_iff.mp (hadmits.resolve_left htier)).2
    · have hlater := ih hp
      simp only [Load.take] at hlater
      omega
  | repeated _ _ ih => exact ih hp
  | exceed _ _ _ ih => exact ih hp

theorem taken_of_nonpositive (h : Choice budget l offered taken l') (hbudget : budget ≤ 0) :
    ∀ p ∈ taken, p.1 = .functions := by
  induction h with
  | done => simp
  | take _ hadmits _ ih =>
    rw [List.forall_mem_cons]
    refine ⟨hadmits.resolve_right fun hroom => ?_, ih⟩
    exact absurd (Load.room_iff.mp hroom).1 (by omega)
  | repeated _ _ ih => exact ih
  | exceed _ _ _ ih => exact ih

end Choice

section Pack
variable (budget : ℤ) (b : Buckets α)

theorem exists_choice_pack :
    ∃ taken, Choice budget (Load.start budget) b.ranked taken (pack budget b).toLoad ∧
      (pack budget b).items = taken.map Prod.snd := by
  obtain ⟨taken, h⟩ := exists_choice budget (Load.start budget) b.ranked
  exact ⟨taken, h, h.items_eq⟩

/-- All budgets start alike once they count as exceeded, and a packing may be found from there. -/
theorem exceed_toLoad_pack {budget : ℤ} {b : Buckets α} {taken : List (Tier × α)} {m : Load α}
    (h : Choice budget (Load.start budget).exceed b.ranked taken m) :
    (pack budget b).toLoad.exceed = m := by
  obtain ⟨taken', h', -⟩ := exists_choice_pack budget b
  exact h'.after_exceed.foldl_eq.symm.trans h.foldl_eq

/-- A packing is known by what it has taken and how much there was. -/
theorem pack_eq :
    pack budget b =
      { (pack budget b).toLoad with excluded := b.count - (pack budget b).items.length } :=
  rfl

theorem length_items_pack_le : (pack budget b).items.length ≤ b.count := by
  obtain ⟨taken, h, hitems⟩ := exists_choice_pack budget b
  rw [hitems, List.length_map, ← b.length_ranked]
  exact h.sublist.length_le

theorem nodup_keys_pack : (pack budget b).keys.Nodup := by
  obtain ⟨taken, h, -⟩ := exists_choice_pack budget b
  exact h.keys_nodup List.nodup_nil

/-- A packing chooses among the functions first, and then among what comes after them. -/
theorem exists_choices :
    ∃ (l : Load α) (first rest : List (Tier × α)),
      Choice budget (Load.start budget) b.upper first l ∧
      Choice budget l b.lower rest (pack budget b).toLoad := by
  obtain ⟨first, hfirst⟩ := exists_choice budget (Load.start budget) b.upper
  obtain ⟨rest, hrest⟩ := exists_choice budget
    (b.upper.foldl (Load.offer budget) (Load.start budget)) b.lower
  rw [← List.foldl_append, ← Buckets.ranked_eq] at hrest
  exact ⟨_, first, rest, hfirst, hrest⟩

theorem Choice.map_snd_first {budget : ℤ} {b : Buckets α} {l : Load α} {first : List (Tier × α)}
    (h : Choice budget (Load.start budget) b.upper first l) :
    first.map Prod.snd = firsts b.functions := by
  rw [h.taken_of_functions fun p hp => Buckets.eq_functions_of_mem_upper hp, Buckets.map_snd_upper]
  simp [Load.start, Load.keys]

/-- The functions among all that a packing takes are the first of each key. -/
theorem exists_taken :
    ∃ taken, Choice budget (Load.start budget) b.ranked taken (pack budget b).toLoad ∧
      (taken.filter fun p => p.1 = .functions).map Prod.snd = firsts b.functions := by
  obtain ⟨l, first, rest, hfirst, hrest⟩ := exists_choices budget b
  have hfunctions : ∀ p ∈ first, p.1 = .functions := fun p hp =>
    Buckets.eq_functions_of_mem_upper (hfirst.sublist.subset hp)
  have hothers : ∀ p ∈ rest, p.1 ≠ .functions := fun p hp =>
    Buckets.ne_functions_of_mem_lower (hrest.sublist.subset hp)
  refine ⟨first ++ rest, hfirst.append hrest, ?_⟩
  rw [List.filter_append, List.filter_eq_self.mpr (by simpa using hfunctions),
    List.filter_eq_nil_iff.mpr (by simpa using hothers), List.append_nil, hfirst.map_snd_first]

theorem mem_ranked_of_mem_items_pack {budget : ℤ} {b : Buckets α} {a : α}
    (ha : a ∈ (pack budget b).items) : ∃ t, (t, a) ∈ b.ranked := by
  obtain ⟨taken, h, hitems⟩ := exists_choice_pack budget b
  rw [hitems] at ha
  obtain ⟨⟨t, a⟩, hp, rfl⟩ := List.mem_map.mp ha
  exact ⟨t, h.sublist.subset hp⟩

theorem total_pack : (pack budget b).total = totalTokens ((pack budget b).items.map symbol) := by
  obtain ⟨taken, h, hitems⟩ := exists_choice_pack budget b
  rw [hitems]
  exact h.total_eq_of_zero rfl

theorem counts_pack_of_empty {t : Tier} (ht : b.get t = []) : (pack budget b).counts.get t = 0 := by
  obtain ⟨taken, h, -⟩ := exists_choice_pack budget b
  have hnone : (taken.filter fun p => p.1 = t) = [] := by
    refine List.filter_eq_nil_iff.mpr fun p hp htier => ?_
    have hmem : p.2 ∈ b.get p.1 := Buckets.mem_ranked.mp (h.sublist.subset hp)
    rw [of_decide_eq_true htier, ht] at hmem
    exact absurd hmem List.not_mem_nil
  rw [h.counts_eq t, hnone]
  simp [Load.start]

/-- A packing goes beyond its budget only for functions. -/
theorem total_pack_le :
    ((pack budget b).total : ℤ) ≤ max budget (totalTokens ((firsts b.functions).map symbol)) := by
  obtain ⟨l, first, rest, hfirst, hrest⟩ := exists_choices budget b
  have htotal : l.total = totalTokens ((firsts b.functions).map symbol) := by
    rw [← hfirst.map_snd_first]
    exact hfirst.total_eq_of_zero rfl
  rw [← htotal]
  exact hrest.total_le fun p hp => Buckets.ne_functions_of_mem_lower hp

end Pack

end SignatureContext
