import Mathlib
import SignatureContext.Config.Environment
import SignatureContext.Proofs.Numeral.Integer
import SignatureContext.Proofs.Text.Blank

/-! What an environment sets is read back, in whatever case and white space it is written. -/
namespace SignatureContext

/-- What a variable is set to. -/
inductive Setting
  | switch (on : Bool)
  | number (n : ℤ)
deriving Repr, DecidableEq

def Setting.word : Setting → String
  | switch true => "true"
  | switch false => "false"
  | number n => toString n

/-- The text is the word for the setting, in any case and with white space around it. -/
def Setting.SpelledBy (s : Setting) (text : String) : Prop :=
  ∃ front word back, text = String.ofList (front ++ word ++ back) ∧
    front.all Text.isWhiteSpace ∧ back.all Text.isWhiteSpace ∧
    word.map Char.toLower = s.word.toList

/-- The setting that a variable is for. -/
def Config.setting (c : Config) : Variable → Setting
  | .debug => .switch c.debug
  | .imports => .switch c.imports.enabled
  | .maxDepth => .number c.imports.maxDepth
  | .includeTypeOnly => .switch c.imports.typeOnly
  | .includeTransitive => .switch c.filtering.transitive
  | .hideVisible => .switch c.filtering.hideVisible
  | .onlyUsed => .switch c.filtering.onlyUsed
  | .maxTokens => .number c.budget.maxTokens
  | .skipBarrelFiles => .switch c.budget.skipBarrels

namespace Environment

theorem isOn_of_spelledBy {on : Bool} {text : String} (h : (Setting.switch on).SpelledBy text) :
    isOn text = on := by
  obtain ⟨front, word, back, rfl, hfront, hback, hword⟩ := h
  rw [List.all_eq_true] at hfront hback
  have hletters : ∀ c ∈ (Setting.switch on).word.toList, ¬ Text.isBlank c := by
    cases on <;> simp [Setting.word, Text.isBlank, Text.Ranges.has, Text.blankRanges]
  have hinner : ∀ c ∈ word, ¬ Text.isBlank c := by
    intro c hc hblank
    refine hletters c.toLower ?_ ?_
    · exact hword ▸ List.mem_map_of_mem hc
    · rwa [Char.toLower_eq_of_not_isUpper (Text.not_isUpper_of_isBlank hblank)]
  have htrim : Text.trim (front ++ word ++ back) = word :=
    Text.trimBy_append (fun c hc => Text.isBlank_of_isWhiteSpace (hfront c hc))
      (fun c hc => Text.isBlank_of_isWhiteSpace (hback c hc)) hinner
  unfold isOn
  rw [String.toList_ofList, htrim, hword, String.ofList_toList]
  cases on <;> rfl

theorem not_isLower_of_mem_toString {n : ℤ} {c : Char} (hc : c ∈ (toString n).toList) :
    ¬ c.isLower := by
  rw [Numeral.Integer.toList_toString, List.mem_append] at hc
  rcases hc with hsign | hdigit
  · split_ifs at hsign
    · obtain rfl := List.mem_singleton.mp hsign
      decide
    · exact absurd hsign List.not_mem_nil
  · have hrange : 48 ≤ c.toNat ∧ c.toNat ≤ 57 :=
      Char.isDigit_iff_toNat.mp (Nat.isDigit_of_mem_toDigits (by decide) (by decide) hdigit)
    rw [Text.isLower_iff]
    omega

theorem read_of_spelledBy {n : ℤ} {text : String} (h : (Setting.number n).SpelledBy text)
    (hlimit : (toString n.natAbs).length ≤ Numeral.Integer.limit) :
    Numeral.Integer.read 10 text = .ok n := by
  obtain ⟨front, word, back, rfl, hfront, hback, hword⟩ := h
  rw [List.all_eq_true] at hfront hback
  -- no letter is in the word, so there is only one case
  have hsame : word.map Char.toLower = word := by
    refine (List.map_congr_left fun c hc => ?_).trans word.map_id
    have hlower : ¬ c.toLower.isLower :=
      not_isLower_of_mem_toString (hword ▸ List.mem_map_of_mem hc)
    rw [Char.isLower_toLower_eq_isAlpha] at hlower
    exact Char.toLower_eq_of_not_isUpper fun hupper => hlower (by simp [Char.isAlpha, hupper])
  rw [hsame] at hword
  rw [hword]
  exact Numeral.Integer.read_toString hfront hback hlimit

end Environment

namespace Config

/-- The environment sets every variable to the setting that it is for, and the settings without a
variable are the defaults. -/
structure SpelledIn (c : Config) (entries : List (String × String)) : Prop where
  inject : c.inject = {}
  depth_digits : (toString c.imports.maxDepth).length ≤ 4300
  token_digits : (toString c.budget.maxTokens.natAbs).length ≤ 4300
  spelled : ∀ v : Variable, ∃ text, entries.lookup v.name = some text ∧ (c.setting v).SpelledBy text

theorem ofEnvironment_spelledIn {c : Config} {entries : List (String × String)}
    (h : c.SpelledIn entries) : ofEnvironment (.ofList entries) = c := by
  have hflag : ∀ v on fallback, c.setting v = .switch on →
      Environment.flag (.ofList entries) v fallback = on := by
    intro v on fallback hsetting
    obtain ⟨text, hlookup, hspelled⟩ := h.spelled v
    unfold Environment.flag Environment.ofList
    rw [hlookup]
    exact Environment.isOn_of_spelledBy (hsetting ▸ hspelled)
  have hnumber : ∀ v n fallback, c.setting v = .number n → (toString n.natAbs).length ≤ 4300 →
      Environment.number (.ofList entries) v fallback = n := by
    intro v n fallback hsetting hdigits
    obtain ⟨text, hlookup, hspelled⟩ := h.spelled v
    unfold Environment.number Environment.ofList
    rw [hlookup]
    dsimp only
    rw [Environment.read_of_spelledBy (hsetting ▸ hspelled) hdigits]
  unfold ofEnvironment
  rw [hflag .debug _ _ rfl, hflag .imports _ _ rfl, hnumber .maxDepth _ _ rfl h.depth_digits,
    hflag .includeTypeOnly _ _ rfl, hflag .includeTransitive _ _ rfl, hflag .hideVisible _ _ rfl,
    hflag .onlyUsed _ _ rfl, hnumber .maxTokens _ _ rfl h.token_digits,
    hflag .skipBarrelFiles _ _ rfl, Int.toNat_natCast, ← h.inject]

/-- Whatever the variables are set to, the depth is the one that is read, or zero if that is
negative. Where each variable spells its setting, these settings are read back. -/
theorem environment_settings (entries : List (String × String)) :
    ((ofEnvironment (.ofList entries)).imports.maxDepth : ℤ) =
      max 0 (Environment.number (.ofList entries) .maxDepth 4) ∧
    ∀ c : Config, c.SpelledIn entries → ofEnvironment (.ofList entries) = c :=
  ⟨Int.toNat_eq_max _ |>.trans (max_comm _ _), fun _ => ofEnvironment_spelledIn⟩

/-- Settings that all but one differ from the defaults. -/
def unusual : Config where
  debug := true
  imports := { enabled := false, maxDepth := 12, typeOnly := false }
  filtering := { transitive := false, hideVisible := true, onlyUsed := false }
  budget := { maxTokens := -250, skipBarrels := false }

theorem unusual_settings :
    let entries := [("TYPE_INJECT_DEBUG", " TRUE\n"), ("TYPE_INJECT_IMPORTS", "False"),
      ("TYPE_INJECT_MAX_DEPTH", "\t12 "), ("TYPE_INJECT_INCLUDE_TYPE_ONLY", "fAlSe"),
      ("TYPE_INJECT_INCLUDE_TRANSITIVE", "false"), ("TYPE_INJECT_HIDE_VISIBLE", "\r\ntrue"),
      ("TYPE_INJECT_ONLY_USED", "FALSE  "), ("TYPE_INJECT_MAX_TOKENS", " -250\r\n"),
      ("TYPE_INJECT_SKIP_BARREL_FILES", "\t\tfalse\t")]
    unusual.SpelledIn entries ∧ ofEnvironment (.ofList entries) = unusual := by
  intro entries
  have hspelled : unusual.SpelledIn entries := by
    refine ⟨rfl, by decide, by decide, fun v => ?_⟩
    cases v with
    | debug => exact ⟨_, rfl, [' '], ['T', 'R', 'U', 'E'], ['\n'], rfl, rfl, rfl, rfl⟩
    | imports => exact ⟨_, rfl, [], ['F', 'a', 'l', 's', 'e'], [], rfl, rfl, rfl, rfl⟩
    | maxDepth => exact ⟨_, rfl, ['\t'], ['1', '2'], [' '], rfl, rfl, rfl, rfl⟩
    | includeTypeOnly =>
      exact ⟨_, rfl, [], ['f', 'A', 'l', 'S', 'e'], [], rfl, rfl, rfl, rfl⟩
    | includeTransitive =>
      exact ⟨_, rfl, [], ['f', 'a', 'l', 's', 'e'], [], rfl, rfl, rfl, rfl⟩
    | hideVisible =>
      exact ⟨_, rfl, ['\r', '\n'], ['t', 'r', 'u', 'e'], [], rfl, rfl, rfl, rfl⟩
    | onlyUsed =>
      exact ⟨_, rfl, [], ['F', 'A', 'L', 'S', 'E'], [' ', ' '], rfl, rfl, rfl, rfl⟩
    | maxTokens =>
      exact ⟨_, rfl, [' '], ['-', '2', '5', '0'], ['\r', '\n'], rfl, rfl, rfl, rfl⟩
    | skipBarrelFiles =>
      exact ⟨_, rfl, ['\t', '\t'], ['f', 'a', 'l', 's', 'e'], ['\t'], rfl, rfl, rfl, rfl⟩
  exact ⟨hspelled, (environment_settings entries).2 unusual hspelled⟩

end Config

end SignatureContext
