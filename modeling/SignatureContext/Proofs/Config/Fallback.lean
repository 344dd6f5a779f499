import SignatureContext.Config.Validate
import SignatureContext.Proofs.Text.Utf8

/-! The defaults stand in for a file that is absent or malformed, whatever loads its text and
validates its settings. They do not for every file without a value: bytes that are no text have no
answer, and neither have texts whose loading fails in a way that is not provided for. -/
namespace SignatureContext.Config

open Text (unifyNewlines)
open Text.Utf8 (decode encode)

section

variable {α ε π : Type} {load : List Char → Except (LoadFault ε) (Layer α)}
  {validate : List (α × α) → Except π Config}

variable (load validate) in
/-- What becomes of a file, by what it holds. -/
inductive Reads : Option (List UInt8) → Except (FileFault ε) (Config × List (Warning π)) → Prop
  | absent : Reads none (.ok ({}, [.unreadable]))
  | document {cs : List Char} {d : Layer α} (hload : load (unifyNewlines cs) = .ok d) :
    Reads (some (encode cs)) (.ok (ofDocument validate d))
  | malformed {cs : List Char} (hload : load (unifyNewlines cs) = .error .malformed) :
    Reads (some (encode cs)) (.ok ({}, [.unreadable]))
  | undecodable {bytes : List UInt8} {fault : Text.Utf8.Fault}
    (hdecode : decode 0 bytes = .error fault) : Reads (some bytes) (.error (.encoding fault))
  | faulty {cs : List Char} {fault : ε} (hload : load (unifyNewlines cs) = .error (.other fault)) :
    Reads (some (encode cs)) (.error (.content fault))

theorem reads_ofFile (file : Option (List UInt8)) :
    Reads load validate file (ofFile load validate file) := by
  cases file with
  | none => exact .absent
  | some bytes =>
    unfold ofFile
    cases hdecode : decode 0 bytes with
    | error fault =>
      dsimp only
      rw [hdecode]
      exact .undecodable hdecode
    | ok cs =>
      obtain rfl := Text.Utf8.decode_eq_ok_iff.mp hdecode
      dsimp only
      rw [hdecode]
      dsimp only
      split
      next hload => exact .document hload
      next hload => exact .malformed hload
      next hload => exact .faulty hload

theorem ne_encode_of_decode_eq_error {bytes : List UInt8} {fault : Text.Utf8.Fault}
    (h : decode 0 bytes = .error fault) (cs : List Char) : bytes ≠ encode cs := by
  intro heq
  nomatch h.symm.trans (Text.Utf8.decode_eq_ok_iff.mpr heq)

theorem ofDocument_ne_unreadable (d : Layer α) : ofDocument validate d ≠ ({}, [.unreadable]) := by
  unfold ofDocument
  split
  · split <;> simp
  · simp

/-- A file has an answer exactly if it is absent or holds a text that has a value or is malformed.
The answer is the defaults with the warning that the file could not be read exactly if there is no
value. Any other file holds the bytes of no text, or a text whose loading fails in another way, and
then this fault is passed on. -/
theorem defaults_stand_in (load : List Char → Except (LoadFault ε) (Layer α))
    (validate : List (α × α) → Except π Config) (file : Option (List UInt8)) :
    ((∃ answer, ofFile load validate file = .ok answer) ↔
      ∀ bytes, file = some bytes → ∃ cs, bytes = encode cs ∧
        ∀ fault, load (unifyNewlines cs) ≠ .error (.other fault)) ∧
    (∀ answer, ofFile load validate file = .ok answer →
      (answer = ({}, [.unreadable]) ↔
        ∀ cs d, file = some (encode cs) → load (unifyNewlines cs) ≠ .ok d)) ∧
    ∀ fault, ofFile load validate file = .error fault →
      (∃ bytes f, file = some bytes ∧ (∀ cs, bytes ≠ encode cs) ∧ decode 0 bytes = .error f ∧
        fault = .encoding f) ∨
      ∃ cs f, file = some (encode cs) ∧ load (unifyNewlines cs) = .error (.other f) ∧
        fault = .content f := by
  have hreads : Reads load validate file (ofFile load validate file) := reads_ofFile file
  generalize ofFile load validate file = result at hreads
  refine ⟨⟨?_, ?_⟩, ?_, ?_⟩
  · rintro ⟨answer, rfl⟩ bytes rfl
    cases hreads with
    | document hload => exact ⟨_, rfl, fun f hf => nomatch hload.symm.trans hf⟩
    | malformed hload => exact ⟨_, rfl, fun f hf => nomatch hload.symm.trans hf⟩
  · intro hsound
    cases hreads with
    | absent => exact ⟨_, rfl⟩
    | document => exact ⟨_, rfl⟩
    | malformed => exact ⟨_, rfl⟩
    | undecodable hdecode =>
      obtain ⟨cs, heq, -⟩ := hsound _ rfl
      exact absurd heq (ne_encode_of_decode_eq_error hdecode cs)
    | faulty hload =>
      obtain ⟨cs, heq, hfault⟩ := hsound _ rfl
      obtain rfl := Text.Utf8.encode_injective heq
      exact absurd hload (hfault _)
  · rintro answer rfl
    cases hreads with
    | absent => exact iff_of_true rfl fun _ _ hfile => nomatch hfile
    | document hload =>
      exact iff_of_false (ofDocument_ne_unreadable _) fun hnone => hnone _ _ rfl hload
    | malformed hload =>
      refine iff_of_true rfl fun cs d hfile hd => ?_
      obtain rfl := Text.Utf8.encode_injective (Option.some.inj hfile)
      nomatch hload.symm.trans hd
  · rintro fault rfl
    cases hreads with
    | undecodable hdecode =>
      exact .inl ⟨_, _, rfl, ne_encode_of_decode_eq_error hdecode, hdecode, rfl⟩
    | faulty hload => exact .inr ⟨_, _, rfl, hload, rfl⟩

end

/-- There is no answer for a byte with which no character starts. -/
theorem undecodable_file_has_no_answer :
    ¬ ∀ file, ∃ answer, ofFile load ofEntries file = .ok answer := by
  intro hall
  obtain ⟨answer, hanswer⟩ := hall (some [0xff])
  nomatch hanswer

/-- Nor is there one for a day that no calendar shows. -/
example : ofFile load ofEntries (some (encode "x: 2020-02-30".toList)) =
    .error (.content (.moment .day)) := by
  decide +kernel

end SignatureContext.Config
