import SignatureContext.Config.Basic
import SignatureContext.Text.Split
import SignatureContext.Text.Utf8

/-! Settings from a file. How a text is loaded as a document, and which mappings are settings, are
parameters. -/
namespace SignatureContext.Config

/-- Why a text could not be loaded. Only malformed texts are provided for, and any other fault is
passed on. -/
inductive LoadFault (ε : Type)
  | malformed
  | other (fault : ε)
deriving Repr, DecidableEq

/-- Why the defaults are used instead of a file's content, with the problems of invalid settings. -/
inductive Warning (π : Type)
  | unreadable
  | notMapping
  | invalid (problems : π)
deriving Repr, DecidableEq

/-- The warning, in which the first mark stands for the file, and the second for its problems. -/
def Warning.template {π : Type} : Warning π → String
  | unreadable => "Could not read config file %s, using defaults"
  | notMapping => "Config file %s is not a mapping, using defaults"
  | invalid _ => "Invalid config file %s, using defaults: %s"

/-- What keeps a file from having an answer at all. -/
inductive FileFault (ε : Type)
  | encoding (fault : Text.Utf8.Fault)
  | content (fault : ε)
deriving Repr, DecidableEq

variable {α ε π : Type} (load : List Char → Except (LoadFault ε) (Layer α))
  (validate : List (α × α) → Except π Config)

/-- The settings that a document holds, and the warnings. A document that counts as false is read as
a mapping without entries. -/
def ofDocument (d : Layer α) : Config × List (Warning π) :=
  match if d.truthy then d else .map [] with
  | .map entries =>
    match validate entries with
    | .ok c => (c, [])
    | .error problems => ({}, [.invalid problems])
  | _ => ({}, [.notMapping])

/-- The settings that a file of these bytes holds, where there may be no file, and the warnings. -/
def ofFile (bytes : Option (List UInt8)) : Except (FileFault ε) (Config × List (Warning π)) :=
  match bytes with
  | none => .ok ({}, [.unreadable])
  | some bytes =>
    match Text.Utf8.decode 0 bytes with
    | .error fault => .error (.encoding fault)
    | .ok cs =>
      match load (Text.unifyNewlines cs) with
      | .ok d => .ok (ofDocument validate d)
      | .error .malformed => .ok ({}, [.unreadable])
      | .error (.other fault) => .error (.content fault)

end SignatureContext.Config
