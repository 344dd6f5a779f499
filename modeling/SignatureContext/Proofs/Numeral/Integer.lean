import Mathlib.Data.List.Basic
import Mathlib.Tactic.SplitIfs
import SignatureContext.Numeral.Integer

/-! What is written is read: digits, however many there are unless they are more than are read, with
a sign before them or none, and white space around. -/
namespace SignatureContext.Numeral.Integer

variable {cs front back : List Char} {c : Char}

theorem ne_of_isDigit (h : c.isDigit) {d : Char} (hd : d.isDigit = false) : c ≠ d := by
  rintro rfl
  rw [h] at hd
  nomatch hd

theorem digit?_of_isDigit (h : c.isDigit) : digit? 10 c = some (c.toNat - 48) := by
  have hrange : 48 ≤ c.toNat ∧ c.toNat ≤ 57 := Char.isDigit_iff_toNat.mp h
  simp only [digit?, h, if_true]
  rw [if_pos (by omega)]

theorem plain_of_isDigit (h : c.isDigit) : plain c = c := by
  have hrange : 48 ≤ c.toNat ∧ c.toNat ≤ 57 := Char.isDigit_iff_toNat.mp h
  exact if_pos (by omega)

theorem isSpace_iff : isSpace c ↔ c.toNat = 32 ∨ 9 ≤ c.toNat ∧ c.toNat ≤ 13 := by
  have hspace : c = ' ' ↔ c.toNat = 32 := Char.toNat_inj.symm
  simp [isSpace, hspace]

theorem isSpace_plain (h : Text.isWhiteSpace c) : isSpace (plain c) := by
  unfold plain
  split_ifs with hascii
  · simp only [Text.isWhiteSpace, Text.isBlank, Text.Ranges.has, Text.blankRanges, List.any_cons,
      List.any_nil, Bool.and_eq_true, Bool.or_eq_true, Bool.not_eq_true', decide_eq_true_eq,
      Bool.and_eq_false_iff, decide_eq_false_iff_not, Bool.or_false] at h
    rw [isSpace_iff]
    omega
  · rfl

theorem not_isSpace_of_isDigit (h : c.isDigit) : ¬ isSpace c := by
  have hrange : 48 ≤ c.toNat ∧ c.toNat ≤ 57 := Char.isDigit_iff_toNat.mp h
  rw [isSpace_iff]
  omega

theorem digit?_of_isSpace (h : isSpace c) : digit? 10 c = none := by
  have hall : ∀ n ∈ [9, 10, 11, 12, 13, 32], digit? 10 (Char.ofNat n) = none := by decide
  rw [isSpace_iff] at h
  rw [← Char.ofNat_toNat c]
  refine hall c.toNat ?_
  simp only [List.mem_cons, List.not_mem_nil, or_false]
  omega

/-- Digits are read up to the white space behind them. -/
theorem digits?_append (h : ∀ c ∈ cs, c.isDigit) (hback : ∀ c ∈ back, isSpace c) :
    digits? 10 false (cs ++ back) = some (cs.map fun c => c.toNat - 48, back) := by
  induction cs with
  | nil =>
    cases back with
    | nil => rfl
    | cons c back =>
      have hspace := hback c List.mem_cons_self
      have hplain : c ≠ '_' := by
        rintro rfl
        nomatch hspace
      simp [digits?, hplain, digit?_of_isSpace hspace]
  | cons c cs ih =>
    have hc : c.isDigit := h c List.mem_cons_self
    have hplain : c ≠ '_' := ne_of_isDigit hc rfl
    have hrest := ih fun d hd => h d (List.mem_cons_of_mem _ hd)
    simp [digits?, hplain, digit?_of_isDigit hc, hrest]

theorem unmark_ten (cs : List Char) : unmark 10 cs = cs := by
  unfold unmark
  split
  · rw [if_neg (by omega)]
  · rfl

theorem sign_of_isDigit (hc : c.isDigit) : sign (c :: cs) = (false, c :: cs) := by
  unfold sign
  split
  · exact absurd (List.cons.inj ‹_›).1 (ne_of_isDigit hc rfl)
  · exact absurd (List.cons.inj ‹_›).1 (ne_of_isDigit hc rfl)
  · rfl

theorem read_of_written (hfront : ∀ c ∈ front, Text.isWhiteSpace c)
    (hback : ∀ c ∈ back, Text.isWhiteSpace c) (h : ∀ c ∈ cs, c.isDigit) (hne : cs ≠ [])
    (negative : Bool) :
    read 10 (String.ofList (front ++ (if negative then ['-'] else []) ++ cs ++ back)) =
      if limit < cs.length then .error (.tooLong cs.length)
      else
        let n : Int := ofDigits 10 (cs.map fun c => c.toNat - 48)
        .ok (if negative then -n else n) := by
  have hspaces {blanks : List Char} (hwhite : ∀ c ∈ blanks, Text.isWhiteSpace c) :
      ∀ c ∈ blanks.map plain, isSpace c := by
    intro c hc
    obtain ⟨d, hd, rfl⟩ := List.mem_map.mp hc
    exact isSpace_plain (hwhite d hd)
  have hascii : cs.map plain = cs :=
    (List.map_congr_left fun c hc => plain_of_isDigit (h c hc)).trans cs.map_id
  obtain ⟨c, rest, rfl⟩ := List.exists_cons_of_ne_nil hne
  have hc : c.isDigit := h c List.mem_cons_self
  have hbody : sign (((front ++ (if negative then ['-'] else []) ++ (c :: rest) ++ back).map
      plain).dropWhile isSpace) = (negative, c :: rest ++ back.map plain) := by
    simp only [List.map_append, hascii, List.append_assoc]
    rw [List.dropWhile_append_of_pos (hspaces hfront)]
    cases negative with
    | true => rfl
    | false =>
      change sign ((c :: (rest ++ back.map plain)).dropWhile isSpace) = _
      rw [List.dropWhile_cons_of_neg (not_isSpace_of_isDigit hc), sign_of_isDigit hc]
      rfl
  have hhead : (c :: rest ++ back.map plain).head? ≠ some '_' :=
    fun h => ne_of_isDigit hc rfl (Option.some.inj h)
  have hblank : (back.map plain).all isSpace := List.all_eq_true.mpr (hspaces hback)
  unfold read
  rw [String.toList_ofList, hbody]
  dsimp only
  rw [unmark_ten, if_neg hhead, digits?_append h (hspaces hback)]
  simp [hblank]

theorem ofDigits_toDigits (n : Nat) :
    ofDigits 10 ((Nat.toDigits 10 n).map fun c => c.toNat - 48) = n := by
  have hread := @Nat.ofDigitChars_toDigits 10 n (by decide) (by decide)
  simp only [Nat.ofDigitChars, Nat.mul_comm 10] at hread
  rw [ofDigits, List.foldl_map]
  exact hread

theorem toList_toString (n : Int) :
    (toString n).toList = (if n < 0 then ['-'] else []) ++ Nat.toDigits 10 n.natAbs := by
  cases n with
  | ofNat n => exact Nat.toList_repr
  | negSucc n =>
    rw [if_pos (Int.negSucc_lt_zero n)]
    change ("-" ++ (n + 1).repr).toList = _
    rw [String.toList_append, Nat.toList_repr]
    rfl

/-- An integer is read from its decimal digits, if they are no more than are read. -/
theorem read_toString (hfront : ∀ c ∈ front, Text.isWhiteSpace c)
    (hback : ∀ c ∈ back, Text.isWhiteSpace c) {n : Int}
    (hlimit : (toString n.natAbs).length ≤ limit) :
    read 10 (String.ofList (front ++ (toString n).toList ++ back)) = .ok n := by
  have hdigits : ∀ c ∈ Nat.toDigits 10 n.natAbs, c.isDigit :=
    fun c hc => Nat.isDigit_of_mem_toDigits (by decide) (by decide) hc
  have hne : Nat.toDigits 10 n.natAbs ≠ [] := Nat.toDigits_ne_nil
  have hshort : ¬ limit < (Nat.toDigits 10 n.natAbs).length := by
    rw [← Nat.toList_repr, String.length_toList]
    exact Nat.not_lt.mpr hlimit
  have hwritten := read_of_written hfront hback hdigits hne (decide (n < 0))
  rw [if_neg hshort, ofDigits_toDigits] at hwritten
  rw [toList_toString, ← List.append_assoc]
  simp only [decide_eq_true_eq] at hwritten
  rw [hwritten]
  split_ifs <;> congr 1 <;> omega

end SignatureContext.Numeral.Integer
