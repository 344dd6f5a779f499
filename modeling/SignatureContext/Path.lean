import SignatureContext.Text.Split

/-! File paths: normal forms, joining, and paths relative to a root. -/
namespace SignatureContext.Path

/-- A name between slashes. -/
abbrev Part := List Char

def here : Part := ['.']

def up : Part := ['.', '.']

/-- The path with slashes where it has backslashes. -/
def withSlashes (p : List Char) : List Char :=
  p.map fun c => if c = '\\' then '/' else c

/-- How many leading slashes a normal form keeps: exactly two stay two, more become one. -/
def lead : List Char → Nat
  | '/' :: '/' :: '/' :: _ => 1
  | '/' :: '/' :: _ => 2
  | '/' :: _ => 1
  | _ => 0

/-- Walks one part further from the parts walked so far, last part first. Above a root there is
nothing to climb to. -/
def walk (rooted : Bool) (parts : List Part) (part : Part) : List Part :=
  if part = [] ∨ part = here then parts
  else if part = up then
    match parts with
    | [] => if rooted then [] else [up]
    | last :: rest => if last = up then up :: last :: rest else rest
  else part :: parts

/-- The parts of a path once `.`, `..` and empty parts are walked. -/
def walked (rooted : Bool) (p : List Char) : List Part :=
  ((Text.split '/' p).foldl (walk rooted) []).reverse

/-- Slashes and then parts, where nothing at all is the present directory. -/
def assemble (lead : Nat) (parts : List Part) : List Char :=
  match List.replicate lead '/' ++ Text.join '/' parts with
  | [] => here
  | p => p

theorem assemble_ne_nil (lead : Nat) (parts : List Part) : assemble lead parts ≠ [] := by
  unfold assemble
  split
  · simp [here]
  · assumption

/-- The normal form of a path that has no backslashes. -/
def collapse (p : List Char) : List Char :=
  assemble (lead p) (walked (0 < lead p) p)

/-- The identity of a file: two paths with the same normal form name the same file. -/
def normalize (path : String) : String :=
  String.ofList (collapse (withSlashes path.toList))

theorem normalize_ne_empty (path : String) : normalize path ≠ "" := by
  intro h
  have hnil : (normalize path).toList = [] := by rw [h]; rfl
  unfold normalize collapse at hnil
  rw [String.toList_ofList] at hnil
  exact assemble_ne_nil _ _ hnil

/-- The second path seen from the directory that is the first one. -/
def append (base tail : List Char) : List Char :=
  if tail.head? = some '/' then tail
  else if base = [] ∨ base.getLast? = some '/' then base ++ tail
  else base ++ '/' :: tail

def join (base tail : String) : String :=
  String.ofList (append base.toList tail.toList)

/-- Everything before the last slash, and no slash at its end unless it is all slashes. -/
def parent (p : List Char) : List Char :=
  let head := (p.reverse.dropWhile (· != '/')).reverse
  if head.all (· == '/') then head else (head.reverse.dropWhile (· == '/')).reverse

def dirname (path : String) : String :=
  String.ofList (parent path.toList)

/-- A directory that is named from the top of the file system. -/
structure Directory where
  path : String
  head?_path : path.toList.head? = some '/'
deriving Repr, DecidableEq

/-- The top of the file system. -/
def Directory.top : Directory :=
  ⟨"/", rfl⟩

/-- The parts of a path from the top of the file system. A relative path is relative to the present
directory. -/
def absoluteParts (cwd : Directory) (p : List Char) : List Part :=
  (Text.split '/' (collapse (append cwd.path.toList p))).filter (· ≠ [])

/-- How many parts two paths share from the top. -/
def shared : List Part → List Part → Nat
  | a :: as, b :: bs => if a = b then shared as bs + 1 else 0
  | _, _ => 0

/-- The steps from one directory to a path: up out of what they do not share, then down. -/
def steps (source target : List Part) : List Part :=
  let n := shared source target
  List.replicate (source.length - n) up ++ target.drop n

/-- The path seen from the root, behind `./`. An empty path names nothing. -/
def relative? (cwd : Directory) (root path : String) : Option String :=
  if path = "" then none
  else
    let parts := steps (absoluteParts cwd root.toList) (absoluteParts cwd path.toList)
    some (String.ofList ('.' :: '/' :: assemble 0 parts))

/-- The origin shown for a file whose path is not empty, as no normal form is. -/
def relative (cwd : Directory) (root path : String) : String :=
  (relative? cwd root path).getD ""

theorem relative?_normalize (cwd : Directory) (root path : String) :
    relative? cwd root (normalize path) = some (relative cwd root (normalize path)) := by
  unfold relative relative?
  rw [if_neg (normalize_ne_empty path)]
  rfl

end SignatureContext.Path
