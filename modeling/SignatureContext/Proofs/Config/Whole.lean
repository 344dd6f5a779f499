import SignatureContext.Proofs.Config.Fallback

/-! The value of a file is used as a whole or not at all. Where it is not, there is a warning,
except for what is as empty as a file without a document. -/
namespace SignatureContext.Config

open Text (unifyNewlines)
open Text.Utf8 (decode encode)

section

variable {α ε π : Type} {load : List Char → Except (LoadFault ε) (Layer α)}
  {validate : List (α × α) → Except π Config}

variable (validate) in
/-- What is made of a document where nothing is passed over in silence: the settings of a valid
mapping, the defaults where there is nothing, and the defaults with one warning for all else. -/
inductive Settles : Layer α → Config × List (Warning π) → Prop
  | nothing : Settles .null ({}, [])
  | used {entries : List (α × α)} {c : Config} (hvalid : validate entries = .ok c) :
    Settles (.map entries) (c, [])
  | rejected {entries : List (α × α)} {problems : π} (hvalid : validate entries = .error problems) :
    Settles (.map entries) ({}, [.invalid problems])
  | unsuited {d : Layer α} (hnull : d ≠ .null) (hmap : ∀ entries, d ≠ .map entries) :
    Settles d ({}, [.notMapping])

/-- The documents that are empty or zero, other than mappings. -/
inductive Hollow : Layer α → Prop
  | bool : Hollow (.bool false)
  | int : Hollow (.int 0)
  | float {x : Float} (hzero : x == 0) : Hollow (.float x)
  | text : Hollow (.text "")
  | bytes : Hollow (.bytes [])
  | list : Hollow (.list [])
  | set : Hollow (.set [])

theorem truthy_eq_false_iff {d : Layer α} :
    d.truthy = false ↔ d = .null ∨ d = .map [] ∨ Hollow d := by
  constructor
  · intro h
    unfold Layer.truthy at h
    cases d with
    | null => exact .inl rfl
    | map entries =>
      obtain rfl : entries = [] := by simpa using h
      exact .inr (.inl rfl)
    | bool b =>
      obtain rfl : b = false := h
      exact .inr (.inr .bool)
    | int n =>
      obtain rfl : n = 0 := by simpa using h
      exact .inr (.inr .int)
    | float x => exact .inr (.inr (.float (by simpa using h)))
    | text s =>
      obtain rfl : s = "" := by simpa using h
      exact .inr (.inr .text)
    | bytes content =>
      obtain rfl : content = [] := by simpa using h
      exact .inr (.inr .bytes)
    | timestamp => nomatch h
    | list items =>
      obtain rfl : items = [] := by simpa using h
      exact .inr (.inr .list)
    | set members =>
      obtain rfl : members = [] := by simpa using h
      exact .inr (.inr .set)
  · rintro (rfl | rfl | h)
    · rfl
    · rfl
    · cases h with
      | float hzero => simp [Layer.truthy, hzero]
      | _ => rfl

/-- What counts as false is read as a mapping without entries. -/
theorem ofDocument_of_not_truthy {d : Layer α} (h : d.truthy = false) :
    ofDocument validate d = ofDocument validate (.map []) := by
  unfold ofDocument
  rw [h]
  rfl

theorem ofDocument_nil (habsent : validate [] = .ok {}) :
    ofDocument validate (.map []) = ({}, []) := by
  unfold ofDocument
  simp only [ite_self, habsent]

theorem ofDocument_of_hollow (habsent : validate [] = .ok {}) {d : Layer α} (h : Hollow d) :
    ofDocument validate d = ({}, []) := by
  rw [ofDocument_of_not_truthy (truthy_eq_false_iff.mpr (.inr (.inr h)))]
  exact ofDocument_nil habsent

theorem settles_ofDocument (habsent : validate [] = .ok {}) {d : Layer α} (h : ¬ Hollow d) :
    Settles validate d (ofDocument validate d) := by
  cases htruthy : d.truthy with
  | false =>
    rw [ofDocument_of_not_truthy htruthy, ofDocument_nil habsent]
    rcases truthy_eq_false_iff.mp htruthy with rfl | rfl | hhollow
    · exact .nothing
    · exact .used habsent
    · exact absurd hhollow h
  | true =>
    unfold ofDocument
    rw [htruthy, if_pos rfl]
    cases d with
    | map entries =>
      dsimp only
      split
      next hvalid => exact .used hvalid
      next hvalid => exact .rejected hvalid
    | null => nomatch htruthy
    | _ => exact .unsuited nofun nofun

theorem not_settles_of_hollow {d : Layer α} (h : Hollow d) : ¬ Settles validate d ({}, []) := by
  intro hsettles
  cases hsettles with
  | nothing => nomatch h
  | used => nomatch h

theorem ofFile_of_load {cs : List Char} {d : Layer α} (hload : load (unifyNewlines cs) = .ok d) :
    ofFile load validate (some (encode cs)) = .ok (ofDocument validate d) := by
  unfold ofFile
  dsimp only
  rw [Text.Utf8.decode_eq_ok_iff.mpr rfl]
  dsimp only
  rw [hload]

/-- Where a mapping without entries is valid and leaves every setting at its default, a file that is
loaded has an answer, which is that of `Settles` unless the document is empty or zero and neither
null nor a mapping. In that case it is the defaults, without a warning. Either way the settings are
all defaults, or all are what the validator makes of the mapping. -/
theorem settles_iff_not_hollow {load : List Char → Except (LoadFault ε) (Layer α)}
    {validate : List (α × α) → Except π Config} (habsent : validate [] = .ok {})
    {cs : List Char} {d : Layer α} (hload : load (unifyNewlines cs) = .ok d) :
    ∃ answer, ofFile load validate (some (encode cs)) = .ok answer ∧
      (Settles validate d answer ↔ ¬ Hollow d) ∧ (Hollow d → answer = ({}, [])) ∧
      (answer.1 = {} ∨ ∃ entries, d = .map entries ∧ validate entries = .ok answer.1) := by
  refine ⟨ofDocument validate d, ofFile_of_load hload, ?_, ofDocument_of_hollow habsent, ?_⟩
  · refine ⟨fun hsettles hhollow => ?_, settles_ofDocument habsent⟩
    rw [ofDocument_of_hollow habsent hhollow] at hsettles
    exact not_settles_of_hollow hhollow hsettles
  · by_cases hhollow : Hollow d
    · exact .inl (congrArg Prod.fst (ofDocument_of_hollow habsent hhollow))
    · have hsettles := settles_ofDocument habsent hhollow
      generalize ofDocument validate d = answer at hsettles ⊢
      cases hsettles with
      | used hvalid => exact .inr ⟨_, rfl, hvalid⟩
      | _ => exact .inl rfl

end

theorem budget_line_settles :
    ofEntries [] = .ok {} ∧
    load (unifyNewlines "budget: {max_tokens: -7}".toList) =
      .ok (.map [(.text "budget", .map [(.text "max_tokens", .int (-7))])]) ∧
    ∃ answer, ofFile load ofEntries (some (encode "budget: {max_tokens: -7}".toList)) = .ok answer ∧
      Settles ofEntries (.map [(.text "budget", .map [(.text "max_tokens", .int (-7))])])
        answer := by
  have habsent : ofEntries [] = .ok {} := by rfl
  have hload : load (unifyNewlines "budget: {max_tokens: -7}".toList) =
      .ok (.map [(.text "budget", .map [(.text "max_tokens", .int (-7))])]) := by rfl
  obtain ⟨answer, hanswer, hsettles, -⟩ := settles_iff_not_hollow habsent hload
  exact ⟨habsent, hload, answer, hanswer, hsettles.mpr nofun⟩

/-- An empty list is no mapping, and there is no warning that the defaults are used instead. -/
theorem empty_list_unreported :
    ¬ ∀ cs d, load (unifyNewlines cs) = .ok d →
      ∀ answer, ofFile load ofEntries (some (encode cs)) = .ok answer →
        Settles ofEntries d answer := by
  intro hall
  have hload : load (unifyNewlines "[]".toList) = .ok (.list []) := by rfl
  have hanswer := hall _ _ hload _ (ofFile_of_load hload)
  rw [ofDocument_of_hollow (by rfl) .list] at hanswer
  exact not_settles_of_hollow .list hanswer

end SignatureContext.Config
