import CoffeeOrder.Python.Json

/-!
# Bytes and UTF-8

Git speaks bytes. `surrogateescape` keeps an undecodable byte `b` as the code point
`U+DC00 + b`, so that the bytes can be restored.
-/

namespace CoffeeOrder.Python

/-- A Python `bytes`. -/
abbrev Bytes := List UInt8

namespace Bytes

/-- The bytes of an ASCII literal. -/
def ofString (s : String) : Bytes := s.toList.map fun c => UInt8.ofNat c.toNat

/-- A continuation byte within the given bounds. -/
def isTail (b : UInt8) (low : UInt8 := 0x80) (high : UInt8 := 0xbf) : Bool := low ≤ b && b ≤ high

/-- The lead byte of a two-byte sequence. -/
def isLead2 (a : UInt8) : Bool := 0xc2 ≤ a && a ≤ 0xdf

/-- The first two bytes of a three-byte sequence, without overlong forms and surrogates. -/
def isLead3 (a b : UInt8) : Bool :=
  (a == 0xe0 && isTail b 0xa0) || (a == 0xed && isTail b 0x80 0x9f) ||
    (0xe1 ≤ a && a ≤ 0xef && a != 0xed && isTail b)

/-- The first two bytes of a four-byte sequence, without overlong forms. -/
def isLead4 (a b : UInt8) : Bool :=
  (a == 0xf0 && isTail b 0x90) || (a == 0xf4 && isTail b 0x80 0x8f) ||
    (0xf1 ≤ a && a ≤ 0xf3 && isTail b)

/-- The code point with the given bits. -/
def codePoint (bits : ℕ) : CodePoint := Fin.ofNat _ bits

/-- The payload of a continuation byte. -/
def tailBits (b : UInt8) : ℕ := b.toNat - 0x80

/-- `raw.decode("utf-8", errors="surrogateescape")`. -/
def decodeSurrogateescape : Bytes → Str
  | [] => []
  | [a] => [codePoint (if a < 0x80 then a.toNat else 0xdc00 + a.toNat)]
  | a :: b :: rest =>
    if a < 0x80 then codePoint a.toNat :: decodeSurrogateescape (b :: rest)
    else if isLead2 a && isTail b then
      codePoint ((a.toNat - 0xc0) * 64 + tailBits b) :: decodeSurrogateescape rest
    else
      match rest with
      | c :: rest' =>
        if isLead3 a b && isTail c then
          codePoint (((a.toNat - 0xe0) * 64 + tailBits b) * 64 + tailBits c) ::
            decodeSurrogateescape rest'
        else
          match rest' with
          | d :: rest'' =>
            if isLead4 a b && isTail c && isTail d then
              codePoint ((((a.toNat - 0xf0) * 64 + tailBits b) * 64 + tailBits c) * 64 + tailBits d)
                :: decodeSurrogateescape rest''
            else codePoint (0xdc00 + a.toNat) :: decodeSurrogateescape (b :: c :: d :: rest'')
          | [] => codePoint (0xdc00 + a.toNat) :: decodeSurrogateescape [b, c]
      | [] => codePoint (0xdc00 + a.toNat) :: decodeSurrogateescape [b]

/-- The UTF-8 bytes of a code point. -/
def encodePoint (c : CodePoint) : Bytes :=
  let n := c.val
  if n < 0x80 then [.ofNat n]
  else if n < 0x800 then [.ofNat (0xc0 + n / 64), .ofNat (0x80 + n % 64)]
  else if n < 0x10000 then
    [.ofNat (0xe0 + n / 4096), .ofNat (0x80 + n / 64 % 64), .ofNat (0x80 + n % 64)]
  else
    [.ofNat (0xf0 + n / 262144), .ofNat (0x80 + n / 4096 % 64), .ofNat (0x80 + n / 64 % 64),
      .ofNat (0x80 + n % 64)]

/-- `s.encode("utf-8")`, with the escaped bytes restored if asked to. Of the text of a
`UnicodeEncodeError` only the reason is kept, not the codec, the character and its position. -/
def encode (surrogateescape : Bool) : Str → Except Exc Bytes
  | [] => .ok []
  | c :: rest => do
    let first ←
      if 0xd800 ≤ c.val ∧ c.val ≤ 0xdfff then
        if surrogateescape ∧ 0xdc80 ≤ c.val ∧ c.val ≤ 0xdcff then
          .ok [UInt8.ofNat (c.val - 0xdc00)]
        else .error ⟨.UnicodeEncodeError, "surrogates not allowed"⟩
      else .ok (encodePoint c)
    return first ++ (← encode surrogateescape rest)

/-- `raw.split(sep)` for a one-byte separator. -/
def split (raw : Bytes) (sep : UInt8) : List Bytes := raw.splitOn sep

section Decoding

/-- The lead bytes of two-byte sequences. -/
theorem isLead2_iff {a : UInt8} : isLead2 a = true ↔ 0xc2 ≤ a.toNat ∧ a.toNat ≤ 0xdf := by
  simp [isLead2, UInt8.le_iff_toNat_le]

/-- The range of a continuation byte. -/
theorem isTail_iff {b low high : UInt8} :
    isTail b low high = true ↔ low.toNat ≤ b.toNat ∧ b.toNat ≤ high.toNat := by
  simp [isTail, UInt8.le_iff_toNat_le]

/-- The first two bytes of a three-byte sequence, neither overlong nor a surrogate. -/
theorem isLead3_iff {a b : UInt8} : isLead3 a b = true ↔
    (a.toNat = 0xe0 ∧ 0xa0 ≤ b.toNat ∧ b.toNat ≤ 0xbf) ∨
      (a.toNat = 0xed ∧ 0x80 ≤ b.toNat ∧ b.toNat ≤ 0x9f) ∨
      (0xe1 ≤ a.toNat ∧ a.toNat ≤ 0xef ∧ a.toNat ≠ 0xed ∧ 0x80 ≤ b.toNat ∧ b.toNat ≤ 0xbf) := by
  simp only [isLead3, isTail_iff, Bool.or_eq_true, Bool.and_eq_true, decide_eq_true_eq, beq_iff_eq,
    bne_iff_ne, UInt8.le_iff_toNat_le, ← UInt8.toNat_inj, ne_eq]
  simp
  omega

/-- The first two bytes of a three-byte sequence spell no overlong form and no surrogate. -/
theorem isLead3_spec {a b : UInt8} (h : isLead3 a b = true) :
    0xe0 ≤ a.toNat ∧ a.toNat ≤ 0xef ∧ 0x80 ≤ b.toNat ∧ b.toNat ≤ 0xbf ∧
      (a.toNat = 0xe0 → 0xa0 ≤ b.toNat) ∧ (a.toNat = 0xed → b.toNat ≤ 0x9f) := by
  have hcases := isLead3_iff.1 h
  omega

/-- The first two bytes of a four-byte sequence, neither overlong nor beyond Unicode. -/
theorem isLead4_iff {a b : UInt8} : isLead4 a b = true ↔
    (a.toNat = 0xf0 ∧ 0x90 ≤ b.toNat ∧ b.toNat ≤ 0xbf) ∨
      (a.toNat = 0xf4 ∧ 0x80 ≤ b.toNat ∧ b.toNat ≤ 0x8f) ∨
      (0xf1 ≤ a.toNat ∧ a.toNat ≤ 0xf3 ∧ 0x80 ≤ b.toNat ∧ b.toNat ≤ 0xbf) := by
  simp only [isLead4, isTail_iff, Bool.or_eq_true, Bool.and_eq_true, decide_eq_true_eq, beq_iff_eq,
    UInt8.le_iff_toNat_le, ← UInt8.toNat_inj]
  simp
  omega

/-- The ranges of the first two bytes of a four-byte sequence. -/
theorem isLead4_spec {a b : UInt8} (h : isLead4 a b = true) :
    0xf0 ≤ a.toNat ∧ a.toNat ≤ 0xf4 ∧ 0x80 ≤ b.toNat ∧ b.toNat ≤ 0xbf ∧
      (a.toNat = 0xf0 → 0x90 ≤ b.toNat) ∧ (a.toNat = 0xf4 → b.toNat ≤ 0x8f) := by
  have hcases := isLead4_iff.1 h
  omega

/-- A number below the end of Unicode is its own code point. -/
theorem codePoint_val {n : ℕ} (h : n < 0x110000) : (codePoint n).val = n := Nat.mod_eq_of_lt h

/-- A scalar value is encoded as its UTF-8 bytes. -/
theorem encode_scalar {escape : Bool} {c : CodePoint} {rest : Str} {raw : Bytes}
    (hc : ¬(0xd800 ≤ c.val ∧ c.val ≤ 0xdfff)) (h : encode escape rest = .ok raw) :
    encode escape (c :: rest) = .ok (encodePoint c ++ raw) := by
  rw [encode, if_neg hc, h]
  rfl

/-- An escaped byte is restored. -/
theorem encode_escaped {b : UInt8} {rest : Str} {raw : Bytes} (hb : 0x80 ≤ b.toNat)
    (h : encode true rest = .ok raw) :
    encode true (codePoint (0xdc00 + b.toNat) :: rest) = .ok (b :: raw) := by
  have hlt := b.toNat_lt
  have hval : (codePoint (0xdc00 + b.toNat)).val = 0xdc00 + b.toNat := codePoint_val (by omega)
  have hsurrogate : 0xd800 ≤ 0xdc00 + b.toNat ∧ 0xdc00 + b.toNat ≤ 0xdfff := by omega
  have hescaped : true = true ∧ 0xdc80 ≤ 0xdc00 + b.toNat ∧ 0xdc00 + b.toNat ≤ 0xdcff :=
    ⟨rfl, by omega, by omega⟩
  rw [encode, hval, if_pos hsurrogate, if_pos hescaped, h, Nat.add_sub_cancel_left,
    UInt8.ofNat_toNat]
  rfl

/-- A byte is given back by its value. -/
theorem ofNat_eq {a : UInt8} {n : ℕ} (h : n = a.toNat) : UInt8.ofNat n = a := by
  rw [h, UInt8.ofNat_toNat]

/-- A one-byte sequence is encoded as it was decoded. -/
theorem encodePoint_one {a : UInt8} (h : a.toNat < 0x80) :
    encodePoint (codePoint a.toNat) = [a] := by
  rw [encodePoint, codePoint_val (by omega), if_pos h, UInt8.ofNat_toNat]

/-- A two-byte sequence is encoded as it was decoded. -/
theorem encodePoint_two {a b : UInt8} (ha : isLead2 a = true) (hb : isTail b = true) :
    let n := (a.toNat - 0xc0) * 64 + tailBits b
    encodePoint (codePoint n) = [a, b] ∧
      ¬(0xd800 ≤ (codePoint n).val ∧ (codePoint n).val ≤ 0xdfff) := by
  have ha := isLead2_iff.1 ha
  have hb : 0x80 ≤ b.toNat ∧ b.toNat ≤ 0xbf := isTail_iff.1 hb
  intro n
  have hn : n = (a.toNat - 0xc0) * 64 + (b.toNat - 0x80) := rfl
  have hval : (codePoint n).val = n := codePoint_val (by omega)
  refine ⟨?_, by omega⟩
  rw [encodePoint, hval, if_neg (by omega), if_pos (by omega),
    ofNat_eq (show _ = a.toNat by omega), ofNat_eq (show _ = b.toNat by omega)]

/-- A three-byte sequence is encoded as it was decoded. -/
theorem encodePoint_three {a b c : UInt8} (ha : isLead3 a b = true) (hc : isTail c = true) :
    let n := ((a.toNat - 0xe0) * 64 + tailBits b) * 64 + tailBits c
    encodePoint (codePoint n) = [a, b, c] ∧
      ¬(0xd800 ≤ (codePoint n).val ∧ (codePoint n).val ≤ 0xdfff) := by
  have ha := isLead3_spec ha
  have hc : 0x80 ≤ c.toNat ∧ c.toNat ≤ 0xbf := isTail_iff.1 hc
  intro n
  have hn : n = ((a.toNat - 0xe0) * 64 + (b.toNat - 0x80)) * 64 + (c.toNat - 0x80) := rfl
  have hval : (codePoint n).val = n := codePoint_val (by omega)
  refine ⟨?_, by omega⟩
  rw [encodePoint, hval, if_neg (by omega), if_neg (by omega), if_pos (by omega),
    ofNat_eq (show _ = a.toNat by omega), ofNat_eq (show _ = b.toNat by omega),
    ofNat_eq (show _ = c.toNat by omega)]

/-- A four-byte sequence is encoded as it was decoded. -/
theorem encodePoint_four {a b c d : UInt8} (ha : isLead4 a b = true) (hc : isTail c = true)
    (hd : isTail d = true) :
    let n := (((a.toNat - 0xf0) * 64 + tailBits b) * 64 + tailBits c) * 64 + tailBits d
    encodePoint (codePoint n) = [a, b, c, d] ∧
      ¬(0xd800 ≤ (codePoint n).val ∧ (codePoint n).val ≤ 0xdfff) := by
  have ha := isLead4_spec ha
  have hc : 0x80 ≤ c.toNat ∧ c.toNat ≤ 0xbf := isTail_iff.1 hc
  have hd : 0x80 ≤ d.toNat ∧ d.toNat ≤ 0xbf := isTail_iff.1 hd
  intro n
  have hn : n = (((a.toNat - 0xf0) * 64 + (b.toNat - 0x80)) * 64 + (c.toNat - 0x80)) * 64 +
    (d.toNat - 0x80) := rfl
  have hval : (codePoint n).val = n := codePoint_val (by omega)
  refine ⟨?_, by omega⟩
  rw [encodePoint, hval, if_neg (by omega), if_neg (by omega), if_neg (by omega),
    ofNat_eq (show _ = a.toNat by omega), ofNat_eq (show _ = b.toNat by omega),
    ofNat_eq (show _ = c.toNat by omega), ofNat_eq (show _ = d.toNat by omega)]

/-- The value of an ASCII byte. -/
theorem toNat_of_lt {a : UInt8} (h : a < 0x80) : a.toNat < 0x80 := UInt8.lt_iff_toNat_lt.mp h

/-- **Every byte string is restored**, valid UTF-8 or not. -/
theorem encode_decodeSurrogateescape (raw : Bytes) :
    encode true (decodeSurrogateescape raw) = .ok raw := by
  fun_induction decodeSurrogateescape raw with
  | case1 => rfl
  | case2 a =>
    split
    · next h =>
      have h := toNat_of_lt h
      exact (encode_scalar (by rw [codePoint_val (by omega)]; omega) rfl).trans
        (congrArg _ (by rw [encodePoint_one h]; rfl))
    · next h => exact encode_escaped (by simpa [UInt8.lt_iff_toNat_lt] using h) rfl
  | case3 a b rest h ih =>
    have h := toNat_of_lt h
    rw [encode_scalar (by rw [codePoint_val (by omega)]; omega) ih, encodePoint_one h]
    rfl
  | case4 a b rest h hlead ih =>
    obtain ⟨ha, hb⟩ := Bool.and_eq_true_iff.mp hlead
    obtain ⟨hbytes, hscalar⟩ := encodePoint_two ha hb
    rw [encode_scalar hscalar ih, hbytes]
    rfl
  | case5 a b h hlead2 c rest hlead ih =>
    obtain ⟨ha, hc⟩ := Bool.and_eq_true_iff.mp hlead
    obtain ⟨hbytes, hscalar⟩ := encodePoint_three ha hc
    rw [encode_scalar hscalar ih, hbytes]
    rfl
  | case6 a b h hlead2 c hlead3 d rest hlead ih =>
    simp only [Bool.and_eq_true] at hlead
    obtain ⟨hbytes, hscalar⟩ := encodePoint_four hlead.1.1 hlead.1.2 hlead.2
    rw [encode_scalar hscalar ih, hbytes]
    rfl
  | case7 a b h _ c _ d rest _ ih =>
    exact encode_escaped (by simpa [UInt8.lt_iff_toNat_lt] using h) ih
  | case8 a b h _ c _ ih => exact encode_escaped (by simpa [UInt8.lt_iff_toNat_lt] using h) ih
  | case9 a b h _ ih => exact encode_escaped (by simpa [UInt8.lt_iff_toNat_lt] using h) ih

/-- Distinct byte strings are decoded as distinct strings. -/
theorem decodeSurrogateescape_injective : Function.Injective decodeSurrogateescape := by
  intro raw raw' h
  have heq := encode_decodeSurrogateescape raw
  rw [h, encode_decodeSurrogateescape] at heq
  exact (Except.ok.inj heq).symm

end Decoding

section Encoding

/-- A byte with the high bit is not ASCII. -/
theorem not_lt_of_toNat {a : UInt8} (h : 0x80 ≤ a.toNat) : ¬a < 0x80 := by
  rw [UInt8.lt_iff_toNat_lt]
  exact not_lt.mpr h

section Sequences

variable {a b c d : UInt8} (rest : Bytes)

/-- Decoding takes an ASCII byte by itself. -/
theorem decode_one (ha : a.toNat < 0x80) :
    decodeSurrogateescape (a :: rest) = codePoint a.toNat :: decodeSurrogateescape rest := by
  have hlt : a < 0x80 := UInt8.lt_iff_toNat_lt.mpr ha
  rw [decodeSurrogateescape.eq_def]
  cases rest with
  | nil => simp only [if_pos hlt, decodeSurrogateescape]
  | cons b rest => simp only [if_pos hlt]

/-- Decoding takes a two-byte sequence as one character. -/
theorem decode_two (ha : isLead2 a = true) (hb : isTail b = true) :
    decodeSurrogateescape (a :: b :: rest) =
      codePoint ((a.toNat - 0xc0) * 64 + tailBits b) :: decodeSurrogateescape rest := by
  have hlead := isLead2_iff.1 ha
  have hlt : ¬a < 0x80 := not_lt_of_toNat (by omega)
  rw [decodeSurrogateescape.eq_def]
  simp only [if_neg hlt, ha, hb, Bool.and_self, if_true]

/-- Decoding takes a three-byte sequence as one character. -/
theorem decode_three (ha : isLead3 a b = true) (hc : isTail c = true) :
    decodeSurrogateescape (a :: b :: c :: rest) =
      codePoint (((a.toNat - 0xe0) * 64 + tailBits b) * 64 + tailBits c) ::
        decodeSurrogateescape rest := by
  have hlead := isLead3_spec ha
  have hlead2 : ¬(isLead2 a && isTail b) = true := by
    rw [Bool.and_eq_true, isLead2_iff]
    omega
  have hlt : ¬a < 0x80 := not_lt_of_toNat (by omega)
  rw [decodeSurrogateescape.eq_def]
  simp only [if_neg hlt, if_neg hlead2, ha, hc, Bool.and_self, if_true]

/-- Decoding takes a four-byte sequence as one character. -/
theorem decode_four (ha : isLead4 a b = true) (hc : isTail c = true) (hd : isTail d = true) :
    decodeSurrogateescape (a :: b :: c :: d :: rest) =
      codePoint ((((a.toNat - 0xf0) * 64 + tailBits b) * 64 + tailBits c) * 64 + tailBits d) ::
        decodeSurrogateescape rest := by
  have hlead := isLead4_spec ha
  have hlead2 : ¬(isLead2 a && isTail b) = true := by
    rw [Bool.and_eq_true, isLead2_iff]
    omega
  have hlead3 : ¬(isLead3 a b && isTail c) = true := by
    rw [Bool.and_eq_true, isLead3_iff]
    omega
  have hlt : ¬a < 0x80 := not_lt_of_toNat (by omega)
  rw [decodeSurrogateescape.eq_def]
  simp only [if_neg hlt, if_neg hlead2, if_neg hlead3]
  simp only [ha, hc, hd, Bool.and_self, if_true]

end Sequences

/-- The UTF-8 bytes of a scalar value are decoded as that value. -/
theorem decode_encodePoint {c : CodePoint} (hc : ¬(0xd800 ≤ c.val ∧ c.val ≤ 0xdfff))
    (rest : Bytes) :
    decodeSurrogateescape (encodePoint c ++ rest) = c :: decodeSurrogateescape rest := by
  have hlt : c.val < 0x110000 := c.isLt
  have hpoint {n : ℕ} (h : n = c.val) : codePoint n = c := by
    rw [h]
    exact Fin.ext (codePoint_val hlt)
  have hbyte (n : ℕ) (h : n < 0x100) : (UInt8.ofNat n).toNat = n := by
    rw [UInt8.toNat_ofNat']
    exact Nat.mod_eq_of_lt h
  have tail {b : UInt8} {n : ℕ} (hb : b.toNat = 0x80 + n) (h : n < 64) : isTail b = true := by
    have hbounds : 0x80 ≤ b.toNat ∧ b.toNat ≤ 0xbf := by omega
    exact isTail_iff.2 hbounds
  have htwo (a b : UInt8) (ha : a.toNat = 0xc0 + c.val / 64) (hb : b.toNat = 0x80 + c.val % 64)
      (h : 0x80 ≤ c.val ∧ c.val < 0x800) :
      decodeSurrogateescape (a :: b :: rest) = c :: decodeSurrogateescape rest := by
    have hlead : isLead2 a = true := isLead2_iff.2 (by omega)
    rw [decode_two rest hlead (tail hb (by omega)),
      hpoint (by unfold tailBits; omega)]
  have hthree (a b d : UInt8) (ha : a.toNat = 0xe0 + c.val / 4096)
      (hb : b.toNat = 0x80 + c.val / 64 % 64) (hd : d.toNat = 0x80 + c.val % 64)
      (h : 0x800 ≤ c.val ∧ c.val < 0x10000) :
      decodeSurrogateescape (a :: b :: d :: rest) = c :: decodeSurrogateescape rest := by
    have hlead : isLead3 a b = true := isLead3_iff.2 (by omega)
    rw [decode_three rest hlead (tail hd (by omega)),
      hpoint (by unfold tailBits; omega)]
  have hfour (a b d e : UInt8) (ha : a.toNat = 0xf0 + c.val / 262144)
      (hb : b.toNat = 0x80 + c.val / 4096 % 64) (hd : d.toNat = 0x80 + c.val / 64 % 64)
      (he : e.toNat = 0x80 + c.val % 64) (h : 0x10000 ≤ c.val) :
      decodeSurrogateescape (a :: b :: d :: e :: rest) = c :: decodeSurrogateescape rest := by
    have hlead : isLead4 a b = true := isLead4_iff.2 (by omega)
    rw [decode_four rest hlead (tail hd (by omega)) (tail he (by omega)),
      hpoint (by unfold tailBits; omega)]
  rw [encodePoint]
  split_ifs with h1 h2 h3
  · have ha := hbyte c.val (by omega)
    exact (decode_one rest (by omega)).trans (by rw [hpoint ha])
  · exact htwo _ _ (hbyte _ (by omega)) (hbyte _ (by omega)) (by omega)
  · exact hthree _ _ _ (hbyte _ (by omega)) (hbyte _ (by omega)) (hbyte _ (by omega)) (by omega)
  · exact hfour _ _ _ _ (hbyte _ (by omega)) (hbyte _ (by omega)) (hbyte _ (by omega))
      (hbyte _ (by omega)) (by omega)

/-- A text is encoded character by character. -/
theorem encode_cons_eq_ok {escape : Bool} {c : CodePoint} {rest : Str} {raw : Bytes} :
    encode escape (c :: rest) = .ok raw ↔ ∃ first last, encode escape [c] = .ok first ∧
      encode escape rest = .ok last ∧ raw = first ++ last := by
  rw [encode, encode, encode]
  split_ifs
  · cases encode escape rest <;> simp [bind, Except.bind, pure, Except.pure, eq_comm]
  · simp [bind, Except.bind]
  · cases encode escape rest <;> simp [bind, Except.bind, pure, Except.pure, eq_comm]

/-- Texts are encoded one after another. -/
theorem encode_append {escape : Bool} {text text' : Str} {raw raw' : Bytes}
    (h : encode escape text = .ok raw) (h' : encode escape text' = .ok raw') :
    encode escape (text ++ text') = .ok (raw ++ raw') := by
  induction text generalizing raw with
  | nil =>
    obtain rfl := Except.ok.inj h
    exact h'
  | cons c text ih =>
    obtain ⟨first, last, hfirst, hlast, rfl⟩ := encode_cons_eq_ok.1 h
    exact encode_cons_eq_ok.2 ⟨first, last ++ raw', hfirst, ih hlast, List.append_assoc _ _ _⟩

/-- Only scalar values can be encoded. -/
theorem scalar_of_encode {text : Str} {raw : Bytes} (h : encode false text = .ok raw) :
    ∀ c ∈ text, ¬(0xd800 ≤ c.val ∧ c.val ≤ 0xdfff) := by
  induction text generalizing raw with
  | nil => exact fun _ hc => nomatch hc
  | cons c text ih =>
    obtain ⟨first, last, hfirst, hlast, -⟩ := encode_cons_eq_ok.1 h
    refine List.forall_mem_cons.mpr ⟨fun hsurrogate => ?_, ih hlast⟩
    rw [encode, if_pos hsurrogate] at hfirst
    exact nomatch hfirst

/-- A text without surrogates can be encoded. -/
theorem exists_encode_of_scalar {text : Str}
    (h : ∀ c ∈ text, ¬(0xd800 ≤ c.val ∧ c.val ≤ 0xdfff)) : ∃ raw, encode false text = .ok raw := by
  induction text with
  | nil => exact ⟨[], rfl⟩
  | cons c text ih =>
    obtain ⟨hc, htext⟩ := List.forall_mem_cons.mp h
    obtain ⟨raw, hraw⟩ := ih htext
    exact ⟨_, encode_scalar hc hraw⟩

/-- **Every encoded text is read back.** -/
theorem decodeSurrogateescape_encode {text : Str} {raw : Bytes} (h : encode false text = .ok raw) :
    decodeSurrogateescape raw = text := by
  have hscalar := scalar_of_encode h
  induction text generalizing raw with
  | nil =>
    obtain rfl := Except.ok.inj h
    rfl
  | cons c text ih =>
    obtain ⟨hc, hscalar⟩ := List.forall_mem_cons.mp hscalar
    obtain ⟨first, last, hfirst, hlast, rfl⟩ := encode_cons_eq_ok.1 h
    rw [encode_scalar hc rfl, List.append_nil] at hfirst
    obtain rfl := Except.ok.inj hfirst
    rw [decode_encodePoint hc, ih hlast hscalar]

end Encoding

end Bytes

/-- What the harness takes from its Python runtime besides. -/
class ByteRuntime extends Runtime where
  /-- `json.loads(raw, object_pairs_hook=hook)`. -/
  loadsPairs : (hook : List (Str × Json) → Except Exc Json) → Bytes → Except Exc Json
  /-- `hashlib.sha256(raw).hexdigest()`. -/
  sha256 : Bytes → Str
  /-- `raw.decode("utf-8", errors="replace")`. -/
  decodeReplace : Bytes → Str
  /-- Whether `\w` of a regular expression matches a character beyond ASCII. -/
  isWordChar : CodePoint → Bool

/-- `\w`. -/
def isWordChar [ByteRuntime] (c : CodePoint) : Bool :=
  if c < 0x80 then c.isDigit || (0x41 ≤ c && c ≤ 0x5a) || (0x61 ≤ c && c ≤ 0x7a) || c == 0x5f
  else ByteRuntime.isWordChar c

/-- `f"{names}"` of a list of strings. -/
def listRepr [Runtime] (names : List Str) : Str :=
  "[" ++ Str.join ", " (names.map Runtime.repr) ++ "]"

end CoffeeOrder.Python
