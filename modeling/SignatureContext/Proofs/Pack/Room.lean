import SignatureContext.Proofs.Pack.Refusal

/-! No room is wasted. Whatever is missing from a packing was refused once, and as a load only
grows, it does not fit in the end either. -/
namespace SignatureContext

variable {α : Type} [Declares α]

namespace Choice
variable {budget : ℤ} {l l' : Load α} {offered taken : List (Tier × α)}

theorem exceeded_of_exceeded (h : Choice budget l offered taken l') (hl : l.exceeded) :
    l'.exceeded :=
  h.exceeded_iff.mpr (Or.inl hl)

theorem no_room_of_key_not_mem (h : Choice budget l offered taken l') {p : Tier × α}
    (hp : p ∈ offered) (hkey : (symbol p.2).key ∉ l'.keys) :
    p.1 ≠ .functions ∧ budget < l'.total + (symbol p.2).tokens ∧ l'.exceeded := by
  induction h with
  | done => exact absurd hp List.not_mem_nil
  | take hnew hadmits hrest ih =>
    rcases List.mem_cons.mp hp with rfl | hp
    · refine absurd (hrest.keys_subset ?_) hkey
      rw [Load.keys_take]
      exact List.mem_append_right _ List.mem_cons_self
    · exact ih hp hkey
  | repeated hseen hrest ih =>
    rcases List.mem_cons.mp hp with rfl | hp
    · exact absurd (hrest.keys_subset hseen) hkey
    · exact ih hp hkey
  | @exceed l l' t a _ _ hnew hrefused hrest ih =>
    rcases List.mem_cons.mp hp with rfl | hp
    -- refused at its turn, and the load only grows from there
    · obtain ⟨-, htier, hroom⟩ := Load.refuses_iff.mpr ⟨hnew, hrefused⟩
      have hgrows : l.total ≤ l'.total := hrest.total_mono
      refine ⟨htier, ?_, hrest.exceeded_of_exceeded rfl⟩
      dsimp only at hroom ⊢
      omega
    · exact ih hp hkey

end Choice

theorem no_room_of_key_not_mem_pack {budget : ℤ} {b : Buckets α} {t : Tier} {a : α}
    (ha : a ∈ b.get t) (hkey : (symbol a).key ∉ (pack budget b).keys) :
    t ≠ .functions ∧ budget < (pack budget b).total + (symbol a).tokens ∧
      (pack budget b).exceeded := by
  obtain ⟨taken, h, -⟩ := exists_choice_pack budget b
  exact h.no_room_of_key_not_mem (Buckets.mem_ranked.mpr ha) hkey

/-- Whatever the budget is, nothing whose key is missing would fit into the finished packing, and
where the budget is not exceeded no key is missing. -/
theorem missing_never_fits (budget : ℤ) (b : Buckets α) :
    (∀ t, ∀ a ∈ b.get t, (symbol a).key ∉ (pack budget b).keys →
      t ≠ .functions ∧ budget < (pack budget b).total + (symbol a).tokens) ∧
    ((pack budget b).exceeded = false →
      ∀ t, ∀ a ∈ b.get t, (symbol a).key ∈ (pack budget b).keys) := by
  refine ⟨fun t a ha hkey => ?_, fun hexceeded t a ha => by_contra fun hkey => ?_⟩
  · obtain ⟨htier, hroom, -⟩ := no_room_of_key_not_mem_pack ha hkey
    exact ⟨htier, hroom⟩
  · obtain ⟨-, -, htold⟩ := no_room_of_key_not_mem_pack ha hkey
    rw [hexceeded] at htold
    cases htold

def longItem : Symbol :=
  { kind := .interface, name := "Item", signature := "interface Item extends Base<A, B>" }

def shortItem : Symbol :=
  { kind := .typeAlias, name := "Item", signature := "type Item = A" }

/-- A function, and two declarations of one key with different sizes. -/
def twoSizes : Buckets Symbol :=
  { Buckets.empty with
    functions := [{ kind := .function, name := "f", signature := "function f(): Item" }]
    signatureTypes := [longItem]
    native := [shortItem] }

/-- The function alone is over the first budget, and the second one has room for the longer one. -/
theorem twoSizes_missing :
    (shortItem ∈ twoSizes.get .native ∧ shortItem.key ∉ (pack 5 twoSizes).keys ∧
      (5 : ℤ) < (pack 5 twoSizes).total + shortItem.tokens) ∧
    ((pack 18 twoSizes).exceeded = false ∧ shortItem.key ∈ (pack 18 twoSizes).keys) := by
  have hshort : shortItem ∈ twoSizes.get .native := by decide
  have hmissing : shortItem.key ∉ (pack 5 twoSizes).keys := by decide +kernel
  have hkept : (pack 18 twoSizes).exceeded = false := by decide +kernel
  exact ⟨⟨hshort, hmissing,
      ((missing_never_fits 5 twoSizes).1 .native shortItem hshort hmissing).2⟩,
    ⟨hkept, (missing_never_fits 18 twoSizes).2 hkept .native shortItem hshort⟩⟩

end SignatureContext
