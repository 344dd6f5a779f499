import Mathlib.Data.List.Basic
import Mathlib.Tactic.SplitIfs
import SignatureContext.Text.Utf8

/-! Decoding takes the bytes that texts have, and gives these texts. -/
namespace SignatureContext.Text.Utf8

/-- The bytes of a text. -/
def encode (cs : List Char) : List UInt8 :=
  cs.flatMap String.utf8EncodeChar

/-- Bytes that form one character, which is decoded from them. -/
inductive Forms : List UInt8 → Char → Prop
  | one {a : UInt8} (hfirst : a.toNat < 128) : Forms [a] (Char.ofNat a.toNat)
  | two {a b : UInt8} (hleast : 194 ≤ a.toNat) (hfirst : a.toNat < 224) (hsecond : continues b) :
    Forms [a, b] (assemble a 32 [b])
  | three {a b c : UInt8} (hleast : 224 ≤ a.toNat) (hfirst : a.toNat < 240) (hsecond : follows a b)
    (hthird : continues c) : Forms [a, b, c] (assemble a 16 [b, c])
  | four {a b c d : UInt8} (hleast : 240 ≤ a.toNat) (hfirst : a.toNat < 245) (hsecond : follows a b)
    (hthird : continues c) (hfourth : continues d) : Forms [a, b, c, d] (assemble a 8 [b, c, d])

variable {a b : UInt8} {bs : List UInt8} {cs : List Char} {ch : Char} {n position : Nat}

theorem continues_iff : continues b ↔ 128 ≤ b.toNat ∧ b.toNat < 192 := by
  simp [continues, UInt8.le_iff_toNat_le]
  omega

theorem follows_iff : follows a b ↔ (128 ≤ b.toNat ∧ b.toNat < 192) ∧
    (a.toNat = 224 → 160 ≤ b.toNat) ∧ (a.toNat = 237 → b.toNat < 160) ∧
    (a.toNat = 240 → 144 ≤ b.toNat) ∧ (a.toNat = 244 → b.toNat < 144) := by
  simp only [follows, Bool.and_eq_true, continues_iff, ← UInt8.toNat_inj]
  split_ifs <;> simp_all [UInt8.le_iff_toNat_le, UInt8.lt_iff_toNat_lt]

theorem utf8EncodeChar_ofNat (h : n < 55296 ∨ 57343 < n ∧ n < 1114112) :
    String.utf8EncodeChar (Char.ofNat n) =
      if n < 128 then [.ofNat n]
      else if n < 2048 then [.ofNat (n / 64 % 32 + 192), .ofNat (n % 64 + 128)]
      else if n < 65536 then
        [.ofNat (n / 4096 % 16 + 224), .ofNat (n / 64 % 64 + 128), .ofNat (n % 64 + 128)]
      else
        [.ofNat (n / 262144 % 8 + 240), .ofNat (n / 4096 % 64 + 128), .ofNat (n / 64 % 64 + 128),
          .ofNat (n % 64 + 128)] := by
  have hvalid : Char.ofNat n = Char.ofNatAux n h := dif_pos h
  have hnumber : (Char.ofNat n).val.toNat = n := by
    rw [hvalid]
    rfl
  simp only [String.utf8EncodeChar, hnumber, Nat.lt_succ_iff]

theorem ofNat_eq (h : n = a.toNat) : UInt8.ofNat n = a := by
  rw [h, UInt8.ofNat_toNat]

theorem Forms.encode_eq (h : Forms bs ch) : String.utf8EncodeChar ch = bs := by
  cases h with
  | @one a hfirst =>
    rw [utf8EncodeChar_ofNat (by omega), if_pos hfirst, UInt8.ofNat_toNat]
  | @two a b hleast hfirst hsecond =>
    rw [continues_iff] at hsecond
    simp only [assemble, List.foldl_cons, List.foldl_nil]
    rw [utf8EncodeChar_ofNat (by omega), if_neg (by omega), if_pos (by omega),
      ofNat_eq (a := a) (by omega), ofNat_eq (a := b) (by omega)]
  | @three a b c hleast hfirst hsecond hthird =>
    obtain ⟨hsecond, hshortest, hsurrogate, _, _⟩ := follows_iff.mp hsecond
    rw [continues_iff] at hthird
    simp only [assemble, List.foldl_cons, List.foldl_nil]
    rw [utf8EncodeChar_ofNat (by omega), if_neg (by omega), if_neg (by omega), if_pos (by omega),
      ofNat_eq (a := a) (by omega), ofNat_eq (a := b) (by omega), ofNat_eq (a := c) (by omega)]
  | @four a b c d hleast hfirst hsecond hthird hfourth =>
    obtain ⟨hsecond, _, _, hshortest, hlast⟩ := follows_iff.mp hsecond
    rw [continues_iff] at hthird hfourth
    simp only [assemble, List.foldl_cons, List.foldl_nil]
    rw [utf8EncodeChar_ofNat (by omega), if_neg (by omega), if_neg (by omega), if_neg (by omega),
      ofNat_eq (a := a) (by omega), ofNat_eq (a := b) (by omega), ofNat_eq (a := c) (by omega),
      ofNat_eq (a := d) (by omega)]

theorem forms_two (h : 128 ≤ n) (h' : n < 2048) :
    Forms [.ofNat (n / 64 % 32 + 192), .ofNat (n % 64 + 128)] (Char.ofNat n) := by
  have hcharacter : assemble (.ofNat (n / 64 % 32 + 192)) 32 [.ofNat (n % 64 + 128)] =
      Char.ofNat n := by
    refine congrArg Char.ofNat ?_
    simp only [List.foldl_cons, List.foldl_nil, UInt8.toNat_ofNat']
    omega
  rw [← hcharacter]
  apply Forms.two <;> simp only [continues_iff, UInt8.toNat_ofNat'] <;> omega

theorem forms_three (h : 2048 ≤ n) (h' : n < 65536) (hvalid : n < 55296 ∨ 57343 < n) :
    Forms [.ofNat (n / 4096 % 16 + 224), .ofNat (n / 64 % 64 + 128), .ofNat (n % 64 + 128)]
      (Char.ofNat n) := by
  have hcharacter : assemble (.ofNat (n / 4096 % 16 + 224)) 16
      [.ofNat (n / 64 % 64 + 128), .ofNat (n % 64 + 128)] = Char.ofNat n := by
    refine congrArg Char.ofNat ?_
    simp only [List.foldl_cons, List.foldl_nil, UInt8.toNat_ofNat']
    omega
  rw [← hcharacter]
  apply Forms.three <;> simp only [continues_iff, follows_iff, UInt8.toNat_ofNat'] <;> omega

theorem forms_four (h : 65536 ≤ n) (h' : n < 1114112) :
    Forms [.ofNat (n / 262144 % 8 + 240), .ofNat (n / 4096 % 64 + 128), .ofNat (n / 64 % 64 + 128),
      .ofNat (n % 64 + 128)] (Char.ofNat n) := by
  have hcharacter : assemble (.ofNat (n / 262144 % 8 + 240)) 8
      [.ofNat (n / 4096 % 64 + 128), .ofNat (n / 64 % 64 + 128), .ofNat (n % 64 + 128)] =
        Char.ofNat n := by
    refine congrArg Char.ofNat ?_
    simp only [List.foldl_cons, List.foldl_nil, UInt8.toNat_ofNat']
    omega
  rw [← hcharacter]
  apply Forms.four <;> simp only [continues_iff, follows_iff, UInt8.toNat_ofNat'] <;> omega

/-- The bytes of a character form it. -/
theorem forms_encode (ch : Char) : Forms (String.utf8EncodeChar ch) ch := by
  obtain ⟨n, hvalid, rfl⟩ :
      ∃ n, (n < 55296 ∨ 57343 < n ∧ n < 1114112) ∧ Char.ofNat n = ch :=
    ⟨ch.toNat, ch.valid, Char.ofNat_toNat ch⟩
  rw [utf8EncodeChar_ofNat hvalid]
  split_ifs with hone htwo hthree
  · have hform := Forms.one (a := .ofNat n) (by rw [UInt8.toNat_ofNat']; omega)
    rwa [UInt8.toNat_ofNat', Nat.mod_eq_of_lt (by omega)] at hform
  · exact forms_two (by omega) htwo
  · exact forms_three (by omega) hthree (by omega)
  · exact forms_four (by omega) (by omega)

/-- A byte with which a longer character starts is neither a character nor refused. -/
theorem starts_of_lead (hleast : 194 ≤ a.toNat) (hlast : a.toNat < 245) :
    ¬ a.toNat < 128 ∧ ¬ (a.toNat < 194 ∨ 244 < a.toNat) := by
  omega

theorem Forms.decode_append (h : Forms bs ch) (rest : List UInt8) :
    decode position (bs ++ rest) = (decode (position + bs.length) rest).map (ch :: ·) := by
  cases h with
  | @one a hfirst =>
    rw [List.singleton_append, decode.eq_def]
    simp [UInt8.lt_iff_toNat_lt, hfirst]
  | @two a b hleast hfirst hsecond =>
    have hstarts := starts_of_lead hleast (by omega)
    rw [List.cons_append, List.singleton_append, decode.eq_def]
    simp [UInt8.lt_iff_toNat_lt, hstarts, hfirst, hsecond]
  | @three a b c hleast hfirst hsecond hthird =>
    have hstarts := starts_of_lead (a := a) (by omega) (by omega)
    have hlong : ¬ a.toNat < 224 := by omega
    rw [List.cons_append, List.cons_append, List.singleton_append, decode.eq_def]
    simp [UInt8.lt_iff_toNat_lt, hstarts, hlong, hfirst, hsecond, hthird]
  | @four a b c d hleast hfirst hsecond hthird hfourth =>
    have hstarts := starts_of_lead (a := a) (by omega) hfirst
    have hlong : ¬ a.toNat < 224 := by omega
    have hlonger : ¬ a.toNat < 240 := by omega
    rw [List.cons_append, List.cons_append, List.cons_append, List.singleton_append, decode.eq_def]
    simp [UInt8.lt_iff_toNat_lt, hstarts, hlong, hlonger, hsecond, hthird, hfourth]

theorem Forms.encode_cons {rest : List UInt8} (hform : Forms bs ch)
    (ih : ∀ {cs}, decode position rest = .ok cs → rest = encode cs)
    (h : (decode position rest).map (ch :: ·) = .ok cs) : bs ++ rest = encode cs := by
  cases htail : decode position rest with
  | error fault =>
    rw [htail] at h
    nomatch h
  | ok cs' =>
    rw [htail] at h
    obtain rfl : ch :: cs' = cs := Except.ok.inj h
    rw [ih htail, encode, encode, List.flatMap_cons, hform.encode_eq]

/-- Decoding gives the text whose bytes these are. -/
theorem eq_encode_of_decode (h : decode position bs = .ok cs) : bs = encode cs := by
  fun_induction decode position bs generalizing cs
  case case1 =>
    obtain rfl : [] = cs := Except.ok.inj h
    rfl
  case case2 hlow ih => exact (Forms.one (UInt8.lt_iff_toNat_lt.mp hlow)).encode_cons ih h
  case case5 hstarts hfirst _ _ hsecond ih =>
    simp only [UInt8.lt_iff_toNat_lt, UInt8.reduceToNat] at hstarts hfirst
    exact (Forms.two (by omega) hfirst hsecond).encode_cons ih h
  case case11 hstarts hlong _ hsecond _ _ hthird hfirst ih =>
    simp only [UInt8.lt_iff_toNat_lt, UInt8.reduceToNat] at hstarts hlong hfirst
    exact (Forms.three (by omega) hfirst (by simpa using hsecond)
      (by simpa using hthird)).encode_cons ih h
  case case13 hstarts _ _ hsecond _ hthird hlonger _ _ hfourth ih =>
    simp only [UInt8.lt_iff_toNat_lt, UInt8.reduceToNat] at hstarts hlonger
    exact (Forms.four (by omega) (by omega) (by simpa using hsecond) (by simpa using hthird)
      hfourth).encode_cons ih h
  -- in all other cases the bytes are refused
  all_goals nomatch h

theorem decode_encode (position : Nat) (cs : List Char) : decode position (encode cs) = .ok cs := by
  induction cs generalizing position with
  | nil => rfl
  | cons ch cs ih =>
    have hsplit : encode (ch :: cs) = String.utf8EncodeChar ch ++ encode cs := rfl
    rw [hsplit, (forms_encode ch).decode_append, ih]
    rfl

/-- Decoding fails on the bytes that are no text's. -/
theorem decode_eq_ok_iff : decode position bs = .ok cs ↔ bs = encode cs :=
  ⟨eq_encode_of_decode, fun h => h ▸ decode_encode position cs⟩

theorem encode_injective : Function.Injective encode := fun cs cs' h => by
  have hsame := decode_encode 0 cs
  rw [h, decode_encode] at hsame
  exact (Except.ok.inj hsame).symm

end SignatureContext.Text.Utf8
