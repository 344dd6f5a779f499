import SignatureContext.Text.Quoted

/-! Decoding UTF-8, with the place and the reason where it fails. -/
namespace SignatureContext.Text.Utf8

inductive Reason
  /-- No character starts with the byte. -/
  | start
  /-- A character starts, and the byte behind the valid ones does not continue it. -/
  | continuation
  /-- A character starts, and the bytes end before it does. -/
  | truncated
deriving Repr, DecidableEq

/-- The bytes that form no character, from their position on. -/
structure Fault where
  position : Nat
  bytes : List UInt8
  reason : Reason
deriving Repr, DecidableEq

def Reason.message : Reason → String
  | start => "invalid start byte"
  | continuation => "invalid continuation byte"
  | truncated => "unexpected end of data"

def Fault.message (f : Fault) : String :=
  let what := match f.bytes with
    | [b] => "byte 0x" ++ String.ofList (hex 2 b.toNat) ++ " in position " ++ toString f.position
    | bs => "bytes in position " ++ toString f.position ++ "-"
      ++ toString (f.position + bs.length - 1)
  "'utf-8' codec can't decode " ++ what ++ ": " ++ f.reason.message

def continues (b : UInt8) : Bool :=
  0x80 ≤ b && b ≤ 0xbf

/-- Whether the second byte may follow the first one of a character of three or four bytes: a
character has no longer form than it needs, and is no surrogate nor beyond `U+10FFFF`. -/
def follows (a b : UInt8) : Bool :=
  continues b &&
    (if a = 0xe0 then 0xa0 ≤ b
    else if a = 0xed then b < 0xa0
    else if a = 0xf0 then 0x90 ≤ b
    else if a = 0xf4 then b < 0x90
    else true)

/-- The character whose bits are the low bits of the bytes. -/
def assemble (a : UInt8) (mask : Nat) (rest : List UInt8) : Char :=
  Char.ofNat (rest.foldl (fun n b => n * 64 + b.toNat % 64) (a.toNat % mask))

/-- The characters of the bytes, the first of which is at the given position. -/
def decode (position : Nat) : List UInt8 → Except Fault (List Char)
  | [] => .ok []
  | a :: rest =>
    if a < 0x80 then
      (decode (position + 1) rest).map (Char.ofNat a.toNat :: ·)
    else if a < 0xc2 ∨ 0xf4 < a then .error ⟨position, [a], .start⟩
    else if a < 0xe0 then
      match rest with
      | [] => .error ⟨position, [a], .truncated⟩
      | b :: rest =>
        if continues b then (decode (position + 2) rest).map (assemble a 32 [b] :: ·)
        else .error ⟨position, [a], .continuation⟩
    else
      match rest with
      | [] => .error ⟨position, [a], .truncated⟩
      | b :: rest =>
        if !follows a b then .error ⟨position, [a], .continuation⟩
        else match rest with
        | [] => .error ⟨position, [a, b], .truncated⟩
        | c :: rest =>
          if !continues c then .error ⟨position, [a, b], .continuation⟩
          else if a < 0xf0 then (decode (position + 3) rest).map (assemble a 16 [b, c] :: ·)
          else match rest with
          | [] => .error ⟨position, [a, b, c], .truncated⟩
          | d :: rest =>
            if continues d then (decode (position + 4) rest).map (assemble a 8 [b, c, d] :: ·)
            else .error ⟨position, [a, b, c], .continuation⟩

end SignatureContext.Text.Utf8
