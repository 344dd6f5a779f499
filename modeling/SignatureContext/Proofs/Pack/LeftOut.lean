import SignatureContext.Proofs.Pack.Places
import SignatureContext.Proofs.Pack.Room

/-! What a packing leaves out has no part in it. It may be gone from the buckets, and what is packed
makes the same packing again. -/
namespace SignatureContext

variable {α : Type}

/-- Where no two values are equal, the items with the values of a sublist are the sublist. -/
theorem filter_mem_map_of_sublist {β : Type} [DecidableEq β] {f : α → β} {items kept : List α}
    (h : kept.Sublist items) (hnodup : (items.map f).Nodup) :
    (items.filter fun a => f a ∈ kept.map f) = kept := by
  induction h with
  | slnil => rfl
  | @cons kept items a hrest ih =>
    obtain ⟨hfirst, hnodup⟩ := List.nodup_cons.mp hnodup
    have hgone : f a ∉ kept.map f := fun hmem => hfirst ((hrest.map f).subset hmem)
    rw [List.filter_cons_of_neg (by simpa using hgone), ih hnodup]
  | @cons_cons kept items a _ ih =>
    obtain ⟨hfirst, hnodup⟩ := List.nodup_cons.mp hnodup
    have hlater : ∀ b ∈ items, f b ≠ f a := fun b hb heq => hfirst (heq ▸ List.mem_map_of_mem hb)
    rw [List.filter_cons_of_pos (by simp)]
    congr 1
    refine (List.filter_congr fun b hb => ?_).trans (ih hnodup)
    rw [List.map_cons, decide_eq_decide, List.mem_cons]
    exact or_iff_right (hlater b hb)

/-- The buckets without what is at one of those places. -/
def Buckets.without (b : Buckets α) (gone : List Place) : Buckets α :=
  (b.placed.filter fun q => q.place ∉ gone).map Placed.item

theorem Load.exceed_eq_iff {l l' : Load α} :
    l.exceed = l'.exceed ↔ l.items = l'.items ∧ l.total = l'.total ∧ l.counts = l'.counts := by
  simp [exceed]

variable [Declares α]

namespace Choice
variable {budget : ℤ} {l l' : Load α} {offered taken : List (Tier × α)}

/-- What is not taken need not be offered. The loads count as exceeded here, because nothing makes
them so if it is not offered. -/
theorem filter {keep : Tier × α → Bool} (h : Choice budget l offered taken l')
    (hkeep : ∀ p ∈ taken, keep p) :
    Choice budget l.exceed (offered.filter keep) taken l'.exceed := by
  induction h with
  | done l => exact .done l.exceed
  | take hnew hadmits _ ih =>
    obtain ⟨hfirst, hlater⟩ := List.forall_mem_cons.mp hkeep
    rw [List.filter_cons_of_pos hfirst]
    exact .take hnew hadmits (ih hlater)
  | repeated hseen _ ih =>
    rw [List.filter_cons]
    split_ifs
    · exact .repeated hseen (ih hkeep)
    · exact ih hkeep
  | exceed hnew hrefused _ ih =>
    rw [List.filter_cons]
    split_ifs
    · exact .exceed hnew hrefused (ih hkeep)
    · exact ih hkeep

theorem exceeded_of_all_taken (h : Choice budget l offered taken l')
    (hall : offered.length ≤ taken.length) : l'.exceeded = l.exceeded := by
  induction h with
  | done => rfl
  | take _ _ _ ih => exact ih (by simpa using hall)
  | repeated _ hrest _ | exceed _ _ hrest _ =>
    have hlength := hrest.sublist.length_le
    rw [List.length_cons] at hall
    omega

end Choice

section Pack
variable {budget : ℤ} {b : Buckets α}

theorem exceed_toLoad_pack_filter {keep : α → Bool} (hkeep : ∀ a ∈ (pack budget b).items, keep a) :
    (pack budget (b.filter keep)).toLoad.exceed = (pack budget b).toLoad.exceed := by
  obtain ⟨taken, h, hitems⟩ := exists_choice_pack budget b
  have htaken : ∀ p ∈ taken, keep p.2 := by
    intro p hp
    refine hkeep p.2 ?_
    rw [hitems]
    exact List.mem_map_of_mem hp
  have hfilter : Choice budget (Load.start budget).exceed (b.ranked.filter fun p => keep p.2) taken
      (pack budget b).toLoad.exceed := h.filter htaken
  rw [← Buckets.ranked_filter] at hfilter
  exact exceed_toLoad_pack hfilter

theorem exceed_toLoad_pack_without {gone : List Place}
    (hgone : ∀ p ∈ gone, p ∉ packedPlaces budget b) :
    (pack budget (b.without gone)).toLoad.exceed = (pack budget b).toLoad.exceed := by
  have hkeep : ∀ q ∈ (pack budget b.placed).items, decide (q.place ∉ gone) := by
    intro q hq
    refine decide_eq_true fun hmem => hgone q.place hmem ?_
    exact List.mem_map_of_mem hq
  have hload := congrArg (Load.map Placed.item) (exceed_toLoad_pack_filter hkeep)
  rw [Buckets.without, pack_map_item, pack_eq_map_item budget b]
  exact hload

/-- The places of what is left out, for the budget or because its key is packed already. -/
def leftOut (budget : ℤ) (b : Buckets α) : List Place :=
  (b.placed.ranked.map fun p => p.2.place).filter (· ∉ packedPlaces budget b)

theorem not_mem_packedPlaces_of_mem_leftOut {p : Place} (hp : p ∈ leftOut budget b) :
    p ∉ packedPlaces budget b := by
  simpa using (List.mem_filter.mp hp).2

/-- Without what is left out, the buckets hold what is packed. -/
theorem ranked_without_leftOut (budget : ℤ) (b : Buckets α) :
    (b.without (leftOut budget b)).ranked.map Prod.snd = (pack budget b).items := by
  obtain ⟨taken, h, hitems⟩ := exists_choice_pack budget b.placed
  have hplaces : packedPlaces budget b = taken.map fun p => p.2.place := by
    rw [packedPlaces, hitems, List.map_map]
    rfl
  have htaken : (b.placed.filter fun q => q.place ∉ leftOut budget b).ranked = taken := by
    rw [Buckets.ranked_filter]
    refine Eq.trans ?_ (filter_mem_map_of_sublist h.sublist b.places_nodup)
    refine List.filter_congr fun p hp => decide_eq_decide.mpr ?_
    have hmem : p.2.place ∈ b.placed.ranked.map fun p => p.2.place := List.mem_map_of_mem hp
    simp [leftOut, hplaces, List.mem_filter, hmem]
  rw [Buckets.without, Buckets.ranked_map, htaken, pack_eq_map_item budget b]
  dsimp only [Packing.map, Load.map]
  rw [hitems, List.map_map, List.map_map]
  rfl

/-- What is packed is packed again with all that there is of it, so only a budget that is not
positive is exceeded. -/
theorem pack_without_leftOut (budget : ℤ) (b : Buckets α) :
    pack budget (b.without (leftOut budget b)) =
      { pack budget b with excluded := 0, exceeded := decide (budget ≤ 0) } := by
  have hload : (pack budget (b.without (leftOut budget b))).toLoad.exceed =
      (pack budget b).toLoad.exceed :=
    exceed_toLoad_pack_without fun p => not_mem_packedPlaces_of_mem_leftOut
  obtain ⟨hitems, htotal, hcounts⟩ := Load.exceed_eq_iff.mp hload
  have hlength : (b.without (leftOut budget b)).ranked.length = (pack budget b).items.length := by
    rw [← ranked_without_leftOut, List.length_map]
  have hexceeded : (pack budget (b.without (leftOut budget b))).exceeded = decide (budget ≤ 0) := by
    obtain ⟨taken, h, htaken⟩ := exists_choice_pack budget (b.without (leftOut budget b))
    refine h.exceeded_of_all_taken ?_
    rw [hlength, ← hitems, htaken, List.length_map]
  have hexcluded : (b.without (leftOut budget b)).count -
      (pack budget (b.without (leftOut budget b))).items.length = 0 := by
    rw [← Buckets.length_ranked, hlength, hitems, Nat.sub_self]
  have hwhole : (pack budget (b.without (leftOut budget b))).toLoad =
      ⟨(pack budget b).items, (pack budget b).total, decide (budget ≤ 0),
        (pack budget b).counts⟩ := by
    rw [← hitems, ← htotal, ← hcounts, ← hexceeded]
  rw [pack_eq budget (b.without _), hexcluded, hwhole]

/-- Whatever a packing leaves out may be gone from the buckets: it takes the same declarations, with
the same tokens and from the same tiers. Where all of that is gone, it takes all that there is. -/
theorem left_out_irrelevant {gone : List Place} (hgone : ∀ p ∈ gone, p ∉ packedPlaces budget b) :
    ((pack budget (b.without gone)).items = (pack budget b).items ∧
      (pack budget (b.without gone)).total = (pack budget b).total ∧
      (pack budget (b.without gone)).counts = (pack budget b).counts) ∧
    (b.without (leftOut budget b)).ranked.map Prod.snd = (pack budget b).items ∧
    pack budget (b.without (leftOut budget b)) =
      { pack budget b with excluded := 0, exceeded := decide (budget ≤ 0) } :=
  ⟨Load.exceed_eq_iff.mp (exceed_toLoad_pack_without hgone), ranked_without_leftOut budget b,
    pack_without_leftOut budget b⟩

/-- The longer declaration is skipped for the budget, and the last one because its key is packed. -/
def skipped : Buckets Symbol :=
  { twoSizes with imported := [shortItem] }

theorem skipped_irrelevant :
    (∀ p ∈ [Place.mk .signatureTypes 0, ⟨.imported, 0⟩], p ∉ packedPlaces 15 skipped) ∧
    (pack 15 (skipped.without [⟨.signatureTypes, 0⟩, ⟨.imported, 0⟩])).items =
      (pack 15 skipped).items ∧ shortItem ∈ (pack 15 skipped).items := by
  have hgone : ∀ p ∈ [Place.mk .signatureTypes 0, ⟨.imported, 0⟩], p ∉ packedPlaces 15 skipped := by
    decide +kernel
  exact ⟨hgone, (left_out_irrelevant hgone).1.1, by decide +kernel⟩

end Pack

end SignatureContext
