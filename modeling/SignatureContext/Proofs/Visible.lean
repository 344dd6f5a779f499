import SignatureContext.Window
import SignatureContext.Proofs.Window

/-! What the reader of a window does not see there already. The window is computed twice, as a piece
of the text and as bounds for declarations, and both are the same lines. -/
namespace SignatureContext.LineRange
variable {r : LineRange} {text : String} {s : Symbol} {total : ℤ}

theorem shows_iff :
    r.shows total s ↔ s.origin = none ∧ ∃ first last, s.lineStart = some first ∧
      s.lineEnd = some last ∧ r.offset ≤ first ∧ last ≤ min r.stop total - 1 := by
  unfold shows Symbol.imported
  cases s.lineStart <;> cases s.lineEnd <;> simp [and_assoc]

/-- The declaration is one of the file, and all lines from its first to its last one are in the
window. -/
def Covers (r : LineRange) (text : String) (s : Symbol) : Prop :=
  s.origin = none ∧ ∃ first ∈ s.lineStart, ∃ last ∈ s.lineEnd,
    ∀ i, first ≤ i → i ≤ last → r.HasLine text i

instance (r : LineRange) (text : String) (s : Symbol) : Decidable (r.Covers text s) :=
  inferInstanceAs (Decidable (_ ∧ ∃ first ∈ s.lineStart, ∃ last ∈ s.lineEnd,
    ∀ i, first ≤ i → i ≤ last → _))

/-- Consecutive lines are all in the window if the first and the last of them are. -/
theorem forall_hasLine_iff {first last : ℤ} (hfirst : 0 ≤ first) (hlast : first ≤ last) :
    (∀ i, first ≤ i → i ≤ last → r.HasLine text i) ↔
      r.offset ≤ first ∧ last ≤ min r.stop (Text.lines text.toList).length - 1 := by
  constructor
  · intro h
    have hstart := (hasLine_iff hfirst).mp (h first (Int.le_refl _) hlast)
    have hstop := (hasLine_iff (Int.le_trans hfirst hlast)).mp (h last hlast (Int.le_refl _))
    omega
  · intro h i hi hi'
    rw [hasLine_iff (Int.le_trans hfirst hi)]
    omega

theorem shows_iff_covers
    (hbounds : ∀ first ∈ s.lineStart, ∀ last ∈ s.lineEnd, 0 ≤ first ∧ first ≤ last) :
    r.shows (Text.lines text.toList).length s ↔ r.Covers text s := by
  rw [shows_iff]
  unfold Covers
  refine and_congr_right fun _ => exists_congr fun first => ?_
  constructor
  · rintro ⟨last, hfirst, hlast, hwindow⟩
    obtain ⟨hpos, hle⟩ := hbounds first hfirst last hlast
    exact ⟨hfirst, last, hlast, (forall_hasLine_iff hpos hle).mpr hwindow⟩
  · rintro ⟨hfirst, last, hlast, hlines⟩
    obtain ⟨hpos, hle⟩ := hbounds first hfirst last hlast
    exact ⟨last, hfirst, hlast, (forall_hasLine_iff hpos hle).mp hlines⟩

/-- The numbered lines are what the window shows of the text, and what is left of the declarations
is, in order, all but those whose lines are all among them. -/
theorem unseen_eq_filter_covers (r : LineRange) (text : String) (symbols : List Symbol)
    (hbounds : ∀ s ∈ symbols, ∀ first ∈ s.lineStart, ∀ last ∈ s.lineEnd,
      0 ≤ first ∧ first ≤ last) :
    r.slice text = String.ofList (Text.join '\n' ((r.numbered text.toList).map Prod.fst)) ∧
    (∀ p ∈ r.numbered text.toList, (Text.lines text.toList)[p.2]? = some p.1) ∧
    r.unseen (Text.lines text.toList).length symbols =
      symbols.filter fun s => ¬ r.Covers text s := by
  refine ⟨?_, fun p hp => (mem_numbered_iff.mp hp).1, ?_⟩
  · rw [map_fst_numbered]
    rfl
  · unfold unseen
    refine List.filter_congr fun s hs => ?_
    have hshows : r.shows (Text.lines text.toList).length s ↔ r.Covers text s :=
      shows_iff_covers (hbounds s hs)
    rw [decide_not]
    exact congrArg not (Bool.eq_iff_iff.mpr (hshows.trans decide_eq_true_iff.symm))

/-- Declarations at the end of a text of four lines, of which the last one is empty. -/
def atEnd : List Symbol :=
  [{ kind := .function, name := "whole", signature := "", lineStart := some 2, lineEnd := some 3 },
    { kind := .function, name := "beyond", signature := "", lineStart := some 3,
      lineEnd := some 4 },
    { kind := .function, name := "open", signature := "", lineStart := some 0 },
    { kind := .function, name := "first", signature := "", lineStart := some 0,
      lineEnd := some 0 },
    { kind := .function, name := "elsewhere", signature := "", origin := some "./b",
      depth := some 1, lineStart := some 3, lineEnd := some 3 }]

/-- A window that ends far behind the text, and one that starts before it. -/
theorem atEnd_unseen :
    let text := "a\nb\nc\n"
    let late : LineRange := ⟨2, 90⟩
    let early : LineRange := ⟨-5, 6⟩
    (∀ s ∈ atEnd, ∀ first ∈ s.lineStart, ∀ last ∈ s.lineEnd, 0 ≤ first ∧ first ≤ last) ∧
    late.unseen 4 atEnd = atEnd.filter (fun s => ¬ late.Covers text s) ∧
    (late.unseen 4 atEnd).map (·.name) = ["beyond", "open", "first", "elsewhere"] ∧
    late.slice text = "c\n" ∧
    early.unseen 4 atEnd = atEnd.filter (fun s => ¬ early.Covers text s) ∧
    (early.unseen 4 atEnd).map (·.name) = ["whole", "beyond", "open", "elsewhere"] ∧
    early.slice text = "a" := by
  intro text late early
  have hbounds : ∀ s ∈ atEnd, ∀ first ∈ s.lineStart, ∀ last ∈ s.lineEnd,
      0 ≤ first ∧ first ≤ last := by decide
  have htotal : (Text.lines text.toList).length = 4 := by decide +kernel
  obtain ⟨-, -, hlate⟩ := unseen_eq_filter_covers late text atEnd hbounds
  obtain ⟨-, -, hearly⟩ := unseen_eq_filter_covers early text atEnd hbounds
  rw [htotal] at hlate hearly
  exact ⟨hbounds, hlate, by decide +kernel, by decide +kernel, hearly, by decide +kernel,
    by decide +kernel⟩

end SignatureContext.LineRange
