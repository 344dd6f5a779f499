import SignatureContext.Window
import Mathlib.Data.Int.Range
import Mathlib.Data.List.Basic
import Mathlib.Tactic.SplitIfs

/-! Windows of lines: one within another, and the places in the file that the lines of a window
have. -/
namespace SignatureContext.LineRange

/-- The window starts and ends inside the other one, whether or not the text has those lines. -/
structure Within (r r' : LineRange) : Prop where
  offset : r'.offset ≤ r.offset
  stop : r.stop ≤ r'.stop

theorem Within.lines_subset {r r' : LineRange} (h : r.Within r') (cs : List Char) :
    r.lines cs ⊆ r'.lines cs := by
  have hstart : r'.offset.toNat ≤ r.offset.toNat := Int.toNat_le_toNat h.offset
  have hstop : r.stop.toNat ≤ r'.stop.toNat := Int.toNat_le_toNat h.stop
  unfold lines
  calc ((Text.lines cs).take r.stop.toNat).drop r.offset.toNat
      ⊆ ((Text.lines cs).take r'.stop.toNat).drop r.offset.toNat :=
        ((List.take_sublist_take_left hstop).drop _).subset
    _ ⊆ ((Text.lines cs).take r'.stop.toNat).drop r'.offset.toNat :=
        (List.drop_sublist_drop_left _ hstart).subset

/-- The lines of the window that the text has, each with its index in the text. -/
def numbered (r : LineRange) (cs : List Char) : List (List Char × ℕ) :=
  ((Text.lines cs).zipIdx.take r.stop.toNat).drop r.offset.toNat

section Numbered
variable {r : LineRange} {cs : List Char}

theorem map_fst_numbered : (r.numbered cs).map Prod.fst = r.lines cs := by
  unfold numbered lines
  rw [List.map_drop, List.map_take, List.zipIdx_map_fst]

theorem getElem?_numbered (k : ℕ) :
    (r.numbered cs)[k]? =
      if r.offset.toNat + k < r.stop.toNat then
        (Text.lines cs)[r.offset.toNat + k]?.map (·, r.offset.toNat + k)
      else none := by
  unfold numbered
  rw [List.getElem?_drop, List.getElem?_take, List.getElem?_zipIdx, Nat.zero_add]

theorem mem_numbered_iff {p : List Char × ℕ} :
    p ∈ r.numbered cs ↔
      (Text.lines cs)[p.2]? = some p.1 ∧ r.offset.toNat ≤ p.2 ∧ p.2 < r.stop.toNat := by
  rw [List.mem_iff_getElem?]
  constructor
  · rintro ⟨k, hk⟩
    rw [getElem?_numbered] at hk
    split_ifs at hk with hstop
    obtain ⟨line, hline, rfl⟩ := Option.map_eq_some_iff.mp hk
    exact ⟨hline, Nat.le_add_right _ _, hstop⟩
  · rintro ⟨hline, hstart, hstop⟩
    refine ⟨p.2 - r.offset.toNat, ?_⟩
    rw [getElem?_numbered, Nat.add_sub_cancel' hstart, if_pos hstop, hline]
    rfl

end Numbered

/-- A line of that index is in the window. -/
def HasLine (r : LineRange) (text : String) (i : ℤ) : Prop :=
  ∃ p ∈ r.numbered text.toList, (p.2 : ℤ) = i

instance (r : LineRange) (text : String) (i : ℤ) : Decidable (r.HasLine text i) :=
  inferInstanceAs (Decidable (∃ p ∈ r.numbered text.toList, _))

/-- Behind the last line of the text there is none in the window, whatever its limit. -/
theorem hasLine_iff {r : LineRange} {text : String} {i : ℤ} (hi : 0 ≤ i) :
    r.HasLine text i ↔ r.offset ≤ i ∧ i < r.stop ∧ i < (Text.lines text.toList).length := by
  unfold HasLine
  simp only [mem_numbered_iff]
  constructor
  · rintro ⟨⟨line, n⟩, ⟨hline, hstart, hstop⟩, rfl⟩
    obtain ⟨hlength, -⟩ := List.getElem?_eq_some_iff.mp hline
    dsimp only at hstart hstop ⊢
    omega
  · rintro ⟨hstart, hstop, hlength⟩
    have hline : i.toNat < (Text.lines text.toList).length := by omega
    refine ⟨((Text.lines text.toList)[i.toNat], i.toNat), ⟨?_, ?_, ?_⟩, Int.toNat_of_nonneg hi⟩
    · exact List.getElem?_eq_getElem hline
    · exact Int.toNat_le_toNat hstart
    · dsimp only
      omega

end SignatureContext.LineRange
