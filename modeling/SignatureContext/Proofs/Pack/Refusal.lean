import SignatureContext.Proofs.Pack.Choice

/-! What a packing leaves out for lack of budget. Where no key comes twice, that is all that it
leaves out. -/
namespace SignatureContext

variable {α : Type} [Declares α]

namespace Load

/-- The declaration is new, it may be left out, and with it the load would be over the budget. -/
def Refuses (l : Load α) (budget : ℤ) (p : Tier × α) : Prop :=
  (symbol p.2).key ∉ l.keys ∧ p.1 ≠ .functions ∧ budget < l.total + (symbol p.2).tokens

instance (l : Load α) (budget : ℤ) (p : Tier × α) : Decidable (l.Refuses budget p) :=
  inferInstanceAs (Decidable (_ ∧ _ ∧ _))

/-- What of `offered` the load refuses, as it grows with the rest of it. -/
def refused (budget : ℤ) (l : Load α) : List (Tier × α) → List (Tier × α)
  | [] => []
  | p :: offered =>
    let later := refused budget (l.offer budget p) offered
    if l.Refuses budget p then p :: later else later

section Cons
variable {l : Load α} {budget : ℤ} {t : Tier} {a : α} {offered : List (Tier × α)}

/-- A declaration has tokens, so no budget that is not positive has room for it. -/
theorem refuses_iff :
    l.Refuses budget (t, a) ↔ (symbol a).key ∉ l.keys ∧ ¬ l.Admits budget t a := by
  have htokens := (symbol a).tokens_pos
  unfold Refuses Admits
  rw [room_iff, not_or]
  refine and_congr_right fun _ => and_congr_right fun _ => ?_
  dsimp only
  omega

theorem refused_cons_of_repeated (h : (symbol a).key ∈ l.keys) :
    l.refused budget ((t, a) :: offered) = l.refused budget offered := by
  have haccepted : ¬ l.Refuses budget (t, a) := fun hrefused => hrefused.1 h
  rw [refused, if_neg haccepted, offer_of_repeated h]

theorem refused_cons_of_admits (hnew : (symbol a).key ∉ l.keys) (h : l.Admits budget t a) :
    l.refused budget ((t, a) :: offered) = (l.take t a).refused budget offered := by
  have haccepted : ¬ l.Refuses budget (t, a) := fun hrefused => (refuses_iff.mp hrefused).2 h
  rw [refused, if_neg haccepted, offer_of_admits hnew h]

theorem refused_cons_of_not_admits (hnew : (symbol a).key ∉ l.keys) (h : ¬ l.Admits budget t a) :
    l.refused budget ((t, a) :: offered) = (t, a) :: l.exceed.refused budget offered := by
  rw [refused, if_pos (refuses_iff.mpr ⟨hnew, h⟩), offer_of_not_admits hnew h]

end Cons

end Load

namespace Choice
variable {budget : ℤ} {l l' : Load α} {offered taken : List (Tier × α)}

/-- Of keys that are all new, each offer is taken or refused. -/
theorem perm_offered (h : Choice budget l offered taken l')
    (hnew : ∀ p ∈ offered, (symbol p.2).key ∉ l.keys)
    (hnodup : (offered.map fun p => (symbol p.2).key).Nodup) :
    (taken ++ l.refused budget offered).Perm offered := by
  induction h with
  | done => exact List.Perm.refl _
  | @take l l' t a offered taken hkey hadmits _ ih =>
    obtain ⟨hfirst, hnodup⟩ := List.nodup_cons.mp hnodup
    have hlater : ∀ p ∈ offered, (symbol p.2).key ∉ (l.take t a).keys := by
      intro p hp hmem
      rw [Load.keys_take, List.mem_append, List.mem_singleton] at hmem
      rcases hmem with hold | hsame
      · exact hnew p (List.mem_cons_of_mem _ hp) hold
      · exact hfirst (List.mem_map.mpr ⟨p, hp, hsame⟩)
    rw [Load.refused_cons_of_admits hkey hadmits, List.cons_append]
    exact (ih hlater hnodup).cons _
  | repeated hseen _ _ => exact absurd hseen (hnew _ List.mem_cons_self)
  | @exceed l l' t a offered taken hkey hrefused _ ih =>
    have hlater : ∀ p ∈ offered, (symbol p.2).key ∉ l.exceed.keys :=
      fun p hp => hnew p (List.mem_cons_of_mem _ hp)
    rw [Load.refused_cons_of_not_admits hkey hrefused]
    exact List.perm_middle.trans ((ih hlater (List.nodup_cons.mp hnodup).2).cons _)

theorem exceeded_iff (h : Choice budget l offered taken l') :
    l'.exceeded ↔ l.exceeded ∨ l.refused budget offered ≠ [] := by
  induction h with
  | done => simp [Load.refused]
  | take hkey hadmits _ ih =>
    rw [ih, Load.refused_cons_of_admits hkey hadmits]
    rfl
  | repeated hseen _ ih => rw [ih, Load.refused_cons_of_repeated hseen]
  | exceed hkey hrefused _ ih =>
    rw [ih, Load.refused_cons_of_not_admits hkey hrefused]
    simp [Load.exceed]

end Choice

section Pack
variable {budget : ℤ} {b : Buckets α}

/-- What a packing refuses for lack of budget, with the tiers. -/
def refusedBy (budget : ℤ) (b : Buckets α) : List (Tier × α) :=
  (Load.start budget).refused budget b.ranked

theorem pack_append_refusedBy_perm (budget : ℤ)
    (hnodup : (b.ranked.map fun p => (symbol p.2).key).Nodup) :
    ((pack budget b).items ++ (refusedBy budget b).map Prod.snd).Perm (b.ranked.map Prod.snd) := by
  obtain ⟨taken, h, hitems⟩ := exists_choice_pack budget b
  have hnew : ∀ p ∈ b.ranked, (symbol p.2).key ∉ (Load.start budget : Load α).keys := by
    simp [Load.start, Load.keys]
  rw [hitems, ← List.map_append]
  exact (h.perm_offered hnew hnodup).map _

theorem excluded_pack (hnodup : (b.ranked.map fun p => (symbol p.2).key).Nodup) :
    (pack budget b).excluded = (refusedBy budget b).length := by
  have hlength := (pack_append_refusedBy_perm budget hnodup).length_eq
  have hexcluded : (pack budget b).excluded = b.count - (pack budget b).items.length := rfl
  rw [List.length_append, List.length_map, List.length_map, b.length_ranked] at hlength
  omega

theorem exceeded_pack_iff :
    (pack budget b).exceeded ↔ budget ≤ 0 ∨ refusedBy budget b ≠ [] := by
  obtain ⟨taken, h, -⟩ := exists_choice_pack budget b
  rw [h.exceeded_iff]
  simp [Load.start, refusedBy]

end Pack

end SignatureContext
