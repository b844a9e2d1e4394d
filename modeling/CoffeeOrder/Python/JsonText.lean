import CoffeeOrder.Python.Bytes
import CoffeeOrder.Kit.Checked
import Mathlib.Data.Nat.Digits.Defs

/-!
# The text of JSON values

`json.dumps(.., sort_keys=True, indent=2)`, and the part of `json.loads` that reads
integers, strings, lists and dictionaries. What is dumped is read back, with
`ensure_ascii` as long as no string holds a high surrogate.
-/

namespace CoffeeOrder.Python

open Kit

namespace Json

/-- The value with the keys of each dictionary sorted. -/
def sortKeys : Json → Json
  | .arr items => .arr (sortItems items)
  | .obj entries => .obj ((sortEntries entries).insertionSort fun a b => a.1 ≤ b.1)
  | value => value
where
  /-- The elements of a list. -/
  sortItems : List Json → List Json
    | [] => []
    | item :: items => sortKeys item :: sortItems items
  /-- The values of a dictionary. -/
  sortEntries : List (Str × Json) → List (Str × Json)
    | [] => []
    | (key, value) :: entries => (key, sortKeys value) :: sortEntries entries

end Json

namespace JsonText

/-- `repr` of an `int`, which refuses more than 4300 digits. -/
def intRepr (n : ℤ) : Except Exc Str :=
  if 4300 < (Str.ofInt n.natAbs).length then
    .error ⟨.ValueError, "Exceeds the limit (4300 digits) for integer string conversion; " ++
      ("use sys.set_int_max_str_digits() to increase the limit" : Str)⟩
  else .ok (Str.ofInt n)

/-- A hexadecimal digit. -/
def hexDigit (n : ℕ) : CodePoint := Fin.ofNat _ (if n < 10 then 0x30 + n else 0x57 + n)

/-- `\uXXXX`. -/
def unicodeEscape (n : ℕ) : Str :=
  [0x5c, 0x75, hexDigit (n / 4096 % 16), hexDigit (n / 256 % 16), hexDigit (n / 16 % 16),
    hexDigit (n % 16)]

/-- The characters with a short escape, and the letter behind its backslash. -/
def shortEscapes : List (CodePoint × CodePoint) :=
  [(0x22, 0x22), (0x5c, 0x5c), (0xa, 0x6e), (0xd, 0x72), (0x9, 0x74), (0xc, 0x66), (0x8, 0x62)]

/-- A character of a string. -/
def escape (ensure_ascii : Bool) (c : CodePoint) : Str :=
  match shortEscapes.lookup c with
  | some letter => [0x5c, letter]
  | none =>
    if c < 0x20 || (ensure_ascii && 0x7f ≤ c && c < 0x10000) then unicodeEscape c.val
    else if ensure_ascii && 0x10000 ≤ c then
      let bits := c.val - 0x10000
      unicodeEscape (0xd800 + bits / 1024) ++ unicodeEscape (0xdc00 + bits % 1024)
    else [c]

/-- A string. -/
def quote (ensure_ascii : Bool) (s : Str) : Str :=
  0x22 :: s.flatMap (escape ensure_ascii) ++ [0x22]

/-- A key and what separates it from its value. -/
def dumpKey (ensure_ascii : Bool) (key : Str) : Str := quote ensure_ascii key ++ ": "

mutual

/-- A value, given the line end and the indentation of its line. -/
def dump (ensure_ascii : Bool) (newline_indent : Str) : Json → Except Exc Str
  | .null => return "null"
  | .bool b => return if b then "true" else "false"
  | .int n => intRepr n
  | .float text _ => return text
  | .str s => return quote ensure_ascii s
  | .arr [] => return "[]"
  | .arr (item :: items) => do
    let inner := newline_indent ++ ("  " : Str)
    let first ← dump ensure_ascii inner item
    let rest ← dumpItems ensure_ascii inner items
    return 0x5b :: (inner ++ first ++ rest ++ newline_indent ++ [0x5d])
  | .obj [] => return "\x7b\x7d"
  | .obj ((key, value) :: entries) => do
    let inner := newline_indent ++ ("  " : Str)
    let first ← dump ensure_ascii inner value
    let rest ← dumpEntries ensure_ascii inner entries
    return 0x7b :: (inner ++ dumpKey ensure_ascii key ++ first ++ rest ++ newline_indent ++ [0x7d])

/-- The further elements of a list. -/
def dumpItems (ensure_ascii : Bool) (inner : Str) : List Json → Except Exc Str
  | [] => return []
  | item :: items => do
    let first ← dump ensure_ascii inner item
    let rest ← dumpItems ensure_ascii inner items
    return 0x2c :: (inner ++ first ++ rest)

/-- The further entries of a dictionary. -/
def dumpEntries (ensure_ascii : Bool) (inner : Str) : List (Str × Json) → Except Exc Str
  | [] => return []
  | (key, value) :: entries => do
    let first ← dump ensure_ascii inner value
    let rest ← dumpEntries ensure_ascii inner entries
    return 0x2c :: (inner ++ dumpKey ensure_ascii key ++ first ++ rest)

end

/-- `json.dumps(value, ensure_ascii=.., sort_keys=True, indent=2)`. -/
def dumps (ensure_ascii : Bool) (value : Json) : Except Exc Str :=
  dump ensure_ascii "\n" value.sortKeys

/-- The white space of JSON. -/
def isSpace (c : CodePoint) : Bool := c == 0x20 || c == 0x9 || c == 0xa || c == 0xd

/-- The text from the next character on that is no white space. -/
def skip (text : Str) : Str := text.dropWhile isSpace

/-- The value of a hexadecimal digit. -/
def hexValue (c : CodePoint) : Option ℕ :=
  if 0x30 ≤ c && c ≤ 0x39 then some (c.val - 0x30)
  else if 0x61 ≤ c && c ≤ 0x66 then some (c.val - 0x57)
  else if 0x41 ≤ c && c ≤ 0x46 then some (c.val - 0x37)
  else none

/-- The number of an escape `\uXXXX`. -/
def escaped (a b c d : CodePoint) : Option ℕ := do
  return (((← hexValue a) * 16 + (← hexValue b)) * 16 + (← hexValue c)) * 16 + (← hexValue d)

/-- The character of two escapes that are a surrogate pair. -/
def joinSurrogates (high low : ℕ) : Option CodePoint :=
  if 0xd800 ≤ high ∧ high ≤ 0xdbff ∧ 0xdc00 ≤ low ∧ low ≤ 0xdfff then
    some (Fin.ofNat _ (0x10000 + (high - 0xd800) * 1024 + (low - 0xdc00)))
  else none

/-- The character of a short escape. -/
def shortEscaped (letter : CodePoint) : Option CodePoint :=
  ([(0x22, 0x22), (0x5c, 0x5c), (0x2f, 0x2f), (0x6e, 0xa), (0x72, 0xd), (0x74, 0x9), (0x66, 0xc),
    (0x62, 0x8)] : List (CodePoint × CodePoint)).lookup letter

/-- The string up to its closing quote, and what follows. -/
def scanString : Str → Option (Str × Str)
  | [] => none
  | 0x22 :: rest => some ([], rest)
  | 0x5c :: 0x75 :: a :: b :: c :: d :: rest => do
    let high ← escaped a b c d
    let lone := (scanString rest).map fun (s, rest) => (Fin.ofNat _ high :: s, rest)
    match rest with
    | 0x5c :: 0x75 :: e :: f :: g :: h :: rest' =>
      match joinSurrogates high (← escaped e f g h) with
      | some first => (scanString rest').map fun (s, rest) => (first :: s, rest)
      | none => lone
    | _ => lone
  | 0x5c :: letter :: rest => do
    let first ← shortEscaped letter
    let (s, rest) ← scanString rest
    return (first :: s, rest)
  | c :: rest => do
    if c < 0x20 then none
    let (s, rest) ← scanString rest
    return (c :: s, rest)

/-- What may follow the digits of a number without being an integer. -/
def isNumberPart (c : CodePoint) : Bool := c.isDigit || c == 0x2e || c == 0x65 || c == 0x45

/-- A natural number without leading zeros. -/
def scanNat (text : Str) : Option (ℤ × Str) := do
  let digits : Str := text.takeWhile CodePoint.isDigit
  let rest : Str := text.dropWhile CodePoint.isDigit
  if digits = [] || (digits.head? = some 0x30 && digits ≠ [0x30]) ||
      rest.head?.any isNumberPart then
    none
  let n ← (intOfDigits digits).toOption
  return (n, rest)

/-- An integer. -/
def scanInt : Str → Option (ℤ × Str)
  | 0x2d :: rest => do
    let (n, rest) ← scanNat rest
    return (-n, rest)
  | text => scanNat text

section Scan

variable (hook : List (Str × Json) → Except Exc Json)

mutual

/-- `scan_once`: the value at the start of the text, and what follows. -/
def scan : ℕ → Str → Option (Json × Str)
  | 0, _ => none
  | fuel + 1, text =>
    match text with
    | 0x22 :: rest => (scanString rest).map fun (s, rest) => (.str s, rest)
    | 0x5b :: rest =>
      match skip rest with
      | 0x5d :: rest => some (.arr [], rest)
      | rest => do
        let (item, rest) ← scan fuel rest
        let (items, rest) ← scanItems fuel rest
        return (.arr (item :: items), rest)
    | 0x7b :: rest =>
      match skip rest with
      | 0x7d :: rest => do return (← (hook []).toOption, rest)
      | rest => do
        let (entry, rest) ← scanEntry fuel rest
        let (entries, rest) ← scanEntries fuel rest
        return (← (hook (entry :: entries)).toOption, rest)
    | 0x6e :: 0x75 :: 0x6c :: 0x6c :: rest => some (.null, rest)
    | 0x74 :: 0x72 :: 0x75 :: 0x65 :: rest => some (.bool true, rest)
    | 0x66 :: 0x61 :: 0x6c :: 0x73 :: 0x65 :: rest => some (.bool false, rest)
    | text => (scanInt text).map fun (n, rest) => (.int n, rest)

/-- The further elements of a list, up to its end. -/
def scanItems : ℕ → Str → Option (List Json × Str)
  | 0, _ => none
  | fuel + 1, text =>
    match skip text with
    | 0x5d :: rest => some ([], rest)
    | 0x2c :: rest => do
      let (item, rest) ← scan fuel (skip rest)
      let (items, rest) ← scanItems fuel rest
      return (item :: items, rest)
    | _ => none

/-- A key and its value. -/
def scanEntry : ℕ → Str → Option ((Str × Json) × Str)
  | 0, _ => none
  | fuel + 1, text =>
    match text with
    | 0x22 :: rest => do
      let (key, rest) ← scanString rest
      match skip rest with
      | 0x3a :: rest => do
        let (value, rest) ← scan fuel (skip rest)
        return ((key, value), rest)
      | _ => none
    | _ => none

/-- The further entries of a dictionary, up to its end. -/
def scanEntries : ℕ → Str → Option (List (Str × Json) × Str)
  | 0, _ => none
  | fuel + 1, text =>
    match skip text with
    | 0x7d :: rest => some ([], rest)
    | 0x2c :: rest => do
      let (entry, rest) ← scanEntry fuel (skip rest)
      let (entries, rest) ← scanEntries fuel rest
      return (entry :: entries, rest)
    | _ => none

end

/-- `json.loads(text, object_pairs_hook=hook)`, as far as it is modelled. -/
def loads (text : Str) : Option Json := do
  let (value, rest) ← scan hook (text.length + 1) (skip text)
  if skip rest = [] then some value else none

end Scan

section Numbers

/-- A character of a Lean string is a code point. -/
theorem toNat_mod (c : Char) : c.toNat % 0x110000 = c.toNat := by
  refine Nat.mod_eq_of_lt ?_
  obtain h | h := c.valid
  · exact lt_trans h (by decide)
  · exact h.2

/-- A natural number is written with its decimal digits. -/
theorem ofInt_natCast (n : ℕ) :
    Str.ofInt n = (Nat.toDigits 10 n).map fun c => Fin.ofNat _ c.toNat := by
  rw [Str.ofInt, Str.ofString]
  show (Nat.repr n).toList.map _ = _
  rw [Nat.toList_repr]

/-- A natural number is written with at least one digit. -/
theorem ofInt_ne_nil (n : ℕ) : Str.ofInt n ≠ [] := by
  rw [ofInt_natCast]
  exact List.map_eq_nil_iff.not.mpr Nat.toDigits_ne_nil

/-- A natural number is written with nothing but digits. -/
theorem isDigit_of_mem_ofInt (n : ℕ) : ∀ c ∈ Str.ofInt n, c.isDigit = true := by
  intro c hc
  rw [ofInt_natCast] at hc
  obtain ⟨d, hd, rfl⟩ := List.mem_map.mp hc
  have hdigit := Nat.isDigit_of_mem_toDigits (by decide) (by decide) hd
  simp only [Char.isDigit, Bool.and_eq_true, decide_eq_true_eq, ge_iff_le,
    UInt32.le_iff_toNat_le] at hdigit
  simp only [CodePoint.isDigit, Bool.and_eq_true, decide_eq_true_eq, Fin.le_def, Fin.ofNat,
    toNat_mod]
  exact hdigit

/-- What is printed is what is read. -/
theorem natOfDigits_ofInt (n : ℕ) : Str.natOfDigits (Str.ofInt n) = n := by
  rw [ofInt_natCast, Str.natOfDigits, List.foldl_map]
  have hpoint : (fun (m : ℕ) (c : Char) => 10 * m + ((Fin.ofNat 0x110000 c.toNat).val - 0x30)) =
      fun (m : ℕ) (c : Char) => 10 * m + (c.toNat - '0'.toNat) := by
    funext m c
    exact congrArg (fun k => 10 * m + (k - 0x30)) (toNat_mod c)
  rw [hpoint, ← Nat.ofDigitChars_eq_foldl, Nat.ofDigitChars_ten_toDigits]

/-- No other digit looks like zero. -/
theorem digitChar_ne_zero : ∀ n < 10, n ≠ 0 → n.digitChar ≠ '0' := by decide

/-- A positive number is written without a leading zero. -/
theorem head_toDigits {n : ℕ} (h : n ≠ 0) : (Nat.toDigits 10 n).head? ≠ some '0' := by
  induction n using Nat.strong_induction_on with
  | _ n ih =>
    by_cases hlt : n < 10
    · rw [Nat.toDigits_of_lt_base hlt, List.head?_cons]
      exact fun heq => digitChar_ne_zero n hlt h (Option.some.inj heq)
    · rw [Nat.toDigits_of_base_le (by decide) (not_lt.mp hlt),
        List.head?_append_of_ne_nil _ Nat.toDigits_ne_nil]
      exact ih (n / 10) (by omega) (by omega)

/-- No leading zeros are printed. -/
theorem head_ofInt {n : ℕ} (h : n ≠ 0) : (Str.ofInt n).head? ≠ some 0x30 := by
  rw [ofInt_natCast, List.head?_map]
  intro hhead
  obtain ⟨c, hc, hpoint⟩ := Option.map_eq_some_iff.mp hhead
  have hval : c.toNat % 0x110000 = 0x30 := congrArg Fin.val hpoint
  rw [toNat_mod] at hval
  exact head_toDigits h (hc.trans (congrArg some (Char.ext (UInt32.toNat_inj.mp hval))))

/-- A negative number is written with a minus. -/
theorem ofInt_negSucc (n : ℕ) :
    Str.ofInt (Int.negSucc n) = 0x2d :: Str.ofInt ((n + 1 : ℕ) : ℤ) := by
  show Str.ofString ("-" ++ Nat.repr (n + 1)) = _
  rw [Str.ofString, String.toList_append, List.map_append]
  rfl

/-- Integers are written with digits and a minus sign. -/
theorem mem_ofInt {n : ℤ} {c : CodePoint} (hc : c ∈ Str.ofInt n) : c = 0x2d ∨ c.isDigit = true := by
  cases n with
  | ofNat n => exact .inr (isDigit_of_mem_ofInt n c hc)
  | negSucc n =>
    rw [ofInt_negSucc] at hc
    exact (List.mem_cons.mp hc).imp_right (isDigit_of_mem_ofInt _ c)

/-- Some digits have a value below that power of ten. -/
theorem natOfDigits_lt {digits : Str} (h : ∀ c ∈ digits, c.isDigit = true) :
    Str.natOfDigits digits < 10 ^ digits.length := by
  have hfold : ∀ (digits : Str) (a : ℕ), (∀ c ∈ digits, c.isDigit = true) →
      digits.foldl (fun n c => 10 * n + (c.val - 0x30)) a < (a + 1) * 10 ^ digits.length := by
    intro digits
    induction digits with
    | nil => exact fun a _ => by simp
    | cons c digits ih =>
      intro a h
      obtain ⟨hc, hdigits⟩ := List.forall_mem_cons.mp h
      simp only [CodePoint.isDigit, Bool.and_eq_true, decide_eq_true_eq, Fin.le_def] at hc
      have hhigh : c.val ≤ 0x39 := hc.2
      refine (ih _ hdigits).trans_le ?_
      have hstep : 10 * a + (c.val - 0x30) + 1 ≤ (a + 1) * 10 := by omega
      rw [List.length_cons, pow_succ', ← mul_assoc]
      exact Nat.mul_le_mul_right _ hstep
  simpa [Str.natOfDigits] using hfold digits 0 h

/-- No digits are added. -/
theorem length_ofInt_natOfDigits {digits : Str} (h : ∀ c ∈ digits, c.isDigit = true) {limit : ℕ}
    (hpos : 0 < limit) (hlength : digits.length ≤ limit) :
    (Str.ofInt (Str.natOfDigits digits)).length ≤ limit := by
  rw [ofInt_natCast, List.length_map]
  refine (Nat.length_toDigits_le_iff (by decide) hpos).mpr ?_
  exact (natOfDigits_lt h).trans_le (Nat.pow_le_pow_right (by decide) hlength)

/-- What `int` reads, `str` prints. -/
theorem intRepr_of_intOfDigits {digits : Str} (h : ∀ c ∈ digits, c.isDigit = true) {n : ℤ}
    (hn : intOfDigits digits = .ok n) : intRepr n = .ok (Str.ofInt n) := by
  unfold intOfDigits at hn
  split at hn
  · exact nomatch hn
  · rename_i hlength
    obtain rfl := Except.ok.inj hn
    refine if_neg (not_lt.mpr ?_)
    rw [Int.natAbs_natCast]
    exact length_ofInt_natOfDigits h (by decide) (not_lt.mp hlength)

/-- What follows does not go on with a number. -/
def EndsNumber (rest : Str) : Prop := rest.head?.any isNumberPart = false

/-- A written natural number is scanned back, up to what follows. -/
theorem scanNat_ofInt {n : ℕ} (hlength : (Str.ofInt n).length ≤ 4300) {rest : Str}
    (hrest : EndsNumber rest) : scanNat (Str.ofInt n ++ rest) = some ((n : ℤ), rest) := by
  have hdigits := isDigit_of_mem_ofInt n
  have hends : ∀ c ∈ rest.head?, c.isDigit = false := by
    intro c hc
    rw [EndsNumber, Option.mem_def.mp hc, Option.any_some, isNumberPart] at hrest
    simp only [Bool.or_eq_false_iff] at hrest
    exact hrest.1.1.1
  have htake : (Str.ofInt n ++ rest).takeWhile CodePoint.isDigit = Str.ofInt n := by
    rw [List.takeWhile_append_of_pos hdigits]
    cases rest with
    | nil => exact List.append_nil _
    | cons c rest =>
      rw [List.takeWhile_cons_of_neg (by simp [hends c rfl]), List.append_nil]
  have hdrop : (Str.ofInt n ++ rest).dropWhile CodePoint.isDigit = rest := by
    rw [List.dropWhile_append_of_pos hdigits]
    cases rest with
    | nil => rfl
    | cons c rest => exact List.dropWhile_cons_of_neg (by simp [hends c rfl])
  have hcanonical : ¬((Str.ofInt n).head? = some 0x30 ∧ Str.ofInt n ≠ [0x30]) := by
    rintro ⟨hhead, hne⟩
    by_cases hzero : n = 0
    · subst hzero
      exact hne rfl
    · exact head_ofInt hzero hhead
  have hread : intOfDigits (Str.ofInt n) = .ok (n : ℤ) := by
    rw [intOfDigits, if_neg (not_lt.mpr hlength), natOfDigits_ofInt]
  rw [scanNat, htake, hdrop, hrest, hread]
  simp only [ofInt_ne_nil, Bool.or_false, decide_false, Bool.false_or, Bool.and_eq_true,
    decide_eq_true_eq, hcanonical, if_false]
  rfl

/-- A written integer is scanned back, up to what follows. -/
theorem scanInt_ofInt {n : ℤ} (hlength : (Str.ofInt n.natAbs).length ≤ 4300) {rest : Str}
    (hrest : EndsNumber rest) : scanInt (Str.ofInt n ++ rest) = some (n, rest) := by
  have hscan := scanNat_ofInt hlength hrest
  cases n with
  | ofNat m =>
    obtain ⟨c, digits, hdigits⟩ := List.exists_cons_of_ne_nil (ofInt_ne_nil m)
    have hc : c.isDigit = true := isDigit_of_mem_ofInt m c (hdigits ▸ List.mem_cons_self)
    have hne : c ≠ 0x2d := by
      rintro rfl
      exact nomatch hc
    refine Eq.trans ?_ hscan
    show scanInt (Str.ofInt m ++ rest) = scanNat (Str.ofInt m ++ rest)
    rw [hdigits, List.cons_append, scanInt]
    exact fun _ heq => hne (List.cons.inj heq).1
  | negSucc m =>
    rw [ofInt_negSucc, List.cons_append, scanInt]
    show (scanNat (Str.ofInt ((m + 1 : ℕ) : ℤ) ++ rest) >>= fun p => pure (-p.1, p.2)) = _
    rw [show scanNat (Str.ofInt ((m + 1 : ℕ) : ℤ) ++ rest) = _ from hscan]
    rfl

end Numbers

section Strings

/-- A written hexadecimal digit is read back. -/
theorem hexValue_hexDigit : ∀ n < 16, hexValue (hexDigit n) = some n := by decide

/-- The number of an escape is read back. -/
theorem escaped_unicodeEscape {n : ℕ} (h : n < 0x10000) :
    escaped (hexDigit (n / 4096 % 16)) (hexDigit (n / 256 % 16)) (hexDigit (n / 16 % 16))
      (hexDigit (n % 16)) = some n := by
  have hdigit (m : ℕ) : hexValue (hexDigit (m % 16)) = some (m % 16) :=
    hexValue_hexDigit _ (Nat.mod_lt m (by decide))
  have hvalue : ((n / 4096 % 16 * 16 + n / 256 % 16) * 16 + n / 16 % 16) * 16 + n % 16 = n := by
    omega
  rw [escaped, hdigit, hdigit, hdigit, hdigit]
  exact congrArg some hvalue

/-- The short escapes are read back; their letters are not that of `\u`. -/
theorem shortEscaped_of_mem : ∀ entry ∈ shortEscapes,
    shortEscaped entry.2 = some entry.1 ∧ entry.2 ≠ 0x75 := by
  have hall : shortEscapes.all (fun entry =>
      shortEscaped entry.2 = some entry.1 && entry.2 ≠ 0x75) = true := by decide
  simpa using hall

/-- An escape of one letter is scanned as its character. -/
theorem scanString_letter {letter c : CodePoint} (hletter : letter ≠ 0x75)
    (h : shortEscaped letter = some c) (text : Str) :
    scanString (0x5c :: letter :: text) = (scanString text).map fun p => (c :: p.1, p.2) := by
  rw [scanString]
  · rw [h]
    cases scanString text <;> rfl
  · exact fun _ _ _ _ _ heq _ => hletter heq

/-- A character that needs no escape is scanned as itself. -/
theorem scanString_plain {c : CodePoint} (hquote : c ≠ 0x22) (hslash : c ≠ 0x5c) (hc : ¬c < 0x20)
    (text : Str) : scanString (c :: text) = (scanString text).map fun p => (c :: p.1, p.2) := by
  rw [scanString, if_neg hc]
  · cases scanString text <;> rfl
  · exact hquote
  · exact fun _ _ _ _ _ h _ => hslash h
  · exact fun _ _ h _ => hslash h

/-- An escape that is no high surrogate is read back, whatever follows. -/
theorem scanString_unicodeEscape {n : ℕ} (hn : n < 0x10000) (hhigh : ¬(0xd800 ≤ n ∧ n ≤ 0xdbff))
    (text : Str) : scanString (unicodeEscape n ++ text) =
      (scanString text).map fun p => (Fin.ofNat _ n :: p.1, p.2) := by
  simp only [unicodeEscape, List.cons_append, List.nil_append]
  rw [scanString, escaped_unicodeEscape hn]
  dsimp only
  split
  · rename_i e f g h rest'
    cases hlow : escaped e f g h with
    | none =>
      have hrest : scanString (0x5c :: 0x75 :: e :: f :: g :: h :: rest') = none := by
        rw [scanString, hlow]
        rfl
      rw [hrest]
      rfl
    | some low =>
      have hjoin : joinSurrogates n low = none := if_neg fun hpair => hhigh ⟨hpair.1, hpair.2.1⟩
      simp only [Option.bind_eq_bind, Option.bind_some, hjoin]
  · rfl

/-- A surrogate pair is read back as one character. -/
theorem scanString_pair {high low : ℕ} (hhigh : 0xd800 ≤ high ∧ high ≤ 0xdbff)
    (hlow : 0xdc00 ≤ low ∧ low ≤ 0xdfff) (text : Str) :
    scanString (unicodeEscape high ++ (unicodeEscape low ++ text)) = (scanString text).map fun p =>
      (Fin.ofNat _ (0x10000 + (high - 0xd800) * 1024 + (low - 0xdc00)) :: p.1, p.2) := by
  have hjoin : joinSurrogates high low =
      some (Fin.ofNat _ (0x10000 + (high - 0xd800) * 1024 + (low - 0xdc00))) :=
    if_pos ⟨hhigh.1, hhigh.2, hlow.1, hlow.2⟩
  simp only [unicodeEscape, List.cons_append, List.nil_append]
  rw [scanString, escaped_unicodeEscape (by omega)]
  show (escaped _ _ _ _ >>= fun m => match joinSurrogates high m with
    | some first => _
    | none => _) = _
  rw [escaped_unicodeEscape (by omega)]
  show (match joinSurrogates high low with
    | some first => _
    | none => _) = _
  rw [hjoin]

/-- With `ensure_ascii`, a high surrogate may be taken for the first half of a pair. -/
def Readable (ensure_ascii : Bool) (s : Str) : Prop :=
  ensure_ascii = true → ∀ c ∈ s, ¬(0xd800 ≤ c.val ∧ c.val ≤ 0xdbff)

/-- A character is read back. -/
theorem scanString_escape {ensure_ascii : Bool} {c : CodePoint}
    (hc : ensure_ascii = true → ¬(0xd800 ≤ c.val ∧ c.val ≤ 0xdbff)) (text : Str) :
    scanString (escape ensure_ascii c ++ text) =
      (scanString text).map fun p => (c :: p.1, p.2) := by
  rw [escape]
  cases hshort : shortEscapes.lookup c with
  | some letter =>
    obtain ⟨earlier, later, hsplit, -⟩ := List.lookup_eq_some_iff.mp hshort
    have hmem : (c, letter) ∈ shortEscapes := hsplit ▸ List.mem_append_right _ List.mem_cons_self
    obtain ⟨hread, hne⟩ := shortEscaped_of_mem _ hmem
    exact scanString_letter hne hread text
  | none =>
    have hnone := List.lookup_eq_none_iff.mp hshort
    have hquote : c ≠ 0x22 := by simpa using hnone (0x22, 0x22) (by decide)
    have hslash : c ≠ 0x5c := by simpa using hnone (0x5c, 0x5c) (by decide)
    have hlt : c.val < 0x110000 := c.isLt
    by_cases hescape : (c < 0x20 || (ensure_ascii && 0x7f ≤ c && c < 0x10000)) = true
    · simp only [hescape, if_true]
      simp only [Bool.or_eq_true, Bool.and_eq_true, decide_eq_true_eq, Fin.lt_def, Fin.le_def]
        at hescape
      have hcontrol : (0x20 : CodePoint).val = 0x20 := rfl
      have hplane : (0x10000 : CodePoint).val = 0x10000 := rfl
      have hread := scanString_unicodeEscape (n := c.val) (by omega) (by
        obtain hlow | ⟨⟨hascii, -⟩, -⟩ := hescape
        · omega
        · exact hc hascii) text
      rwa [Fin.ofNat_val_eq_self] at hread
    · by_cases hpair : (ensure_ascii && 0x10000 ≤ c) = true
      · simp only [hescape, hpair, if_true]
        simp only [Bool.and_eq_true, decide_eq_true_eq, Fin.le_def] at hpair
        have hplane : 0x10000 ≤ c.val := hpair.2
        have hread := @scanString_pair (0xd800 + (c.val - 0x10000) / 1024)
          (0xdc00 + (c.val - 0x10000) % 1024) (by omega) (by omega) text
        have hvalue : 0x10000 + (0xd800 + (c.val - 0x10000) / 1024 - 0xd800) * 1024 +
            (0xdc00 + (c.val - 0x10000) % 1024 - 0xdc00) = c.val := by omega
        rw [hvalue, Fin.ofNat_val_eq_self, ← List.append_assoc] at hread
        exact hread
      · simp only [hescape, hpair]
        refine scanString_plain hquote hslash (fun hcontrol => ?_) text
        simp [hcontrol] at hescape

/-- A string is read back. -/
theorem scanString_quote {ensure_ascii : Bool} {s : Str} (hs : Readable ensure_ascii s)
    (text : Str) :
    scanString (s.flatMap (escape ensure_ascii) ++ 0x22 :: text) = some (s, text) := by
  induction s with
  | nil => rfl
  | cons c s ih =>
    have hc (hascii : ensure_ascii = true) := hs hascii c List.mem_cons_self
    have hrest : Readable ensure_ascii s := fun hascii d hd =>
      hs hascii d (List.mem_cons_of_mem c hd)
    rw [List.flatMap_cons, List.append_assoc, scanString_escape hc, ih hrest]
    rfl

end Strings

section Values

/-- A line end and an indentation. -/
def IsIndent (newline_indent : Str) : Prop :=
  newline_indent.head? = some 0xa ∧ ∀ c ∈ newline_indent, isSpace c = true

/-- The next level of indentation. -/
theorem IsIndent.inner {newline_indent : Str} (h : IsIndent newline_indent) :
    IsIndent (newline_indent ++ ("  " : Str)) := by
  obtain ⟨hhead, hspace⟩ := h
  obtain ⟨tail, rfl⟩ := List.head?_eq_some_iff.mp hhead
  refine ⟨rfl, fun c hc => ?_⟩
  obtain hc | hc := List.mem_append.mp hc
  · exact hspace c hc
  · have hspaces : ("  " : Str).all isSpace = true := rfl
    exact List.all_eq_true.mp hspaces c hc

/-- A line end does not go on with a number. -/
theorem IsIndent.endsNumber {newline_indent : Str} (h : IsIndent newline_indent) (rest : Str) :
    EndsNumber (newline_indent ++ rest) := by
  obtain ⟨tail, rfl⟩ := List.head?_eq_some_iff.mp h.1
  rfl

/-- An indentation is skipped up to a character that is no white space. -/
theorem skip_append {spaces : Str} (h : ∀ c ∈ spaces, isSpace c = true) {c : CodePoint}
    (hc : isSpace c = false) (text : Str) : skip (spaces ++ c :: text) = c :: text := by
  rw [skip, List.dropWhile_append_of_pos h]
  exact List.dropWhile_cons_of_neg (by simp [hc])

variable (ensure_ascii : Bool) (hook : List (Str × Json) → Except Exc Json)

/-- A value without floats whose strings are readable and whose dictionaries the hook keeps. -/
inductive Rereads : Json → Prop
  | null : Rereads .null
  | bool (b : Bool) : Rereads (.bool b)
  | int (n : ℤ) : Rereads (.int n)
  | str {s : Str} (hs : Readable ensure_ascii s) : Rereads (.str s)
  | arr {items : List Json} (h : ∀ item ∈ items, Rereads item) : Rereads (.arr items)
  | obj {entries : List (Str × Json)} (hhook : hook entries = .ok (.obj entries))
    (hkeys : ∀ entry ∈ entries, Readable ensure_ascii entry.1)
    (h : ∀ entry ∈ entries, Rereads entry.2) : Rereads (.obj entries)

/-- Whatever is dumped for the value is read back, in any line and with any fuel that exceeds
its length. -/
structure Reads (value : Json) : Prop where
  head : ∀ newline_indent text, dump ensure_ascii newline_indent value = .ok text →
    ∃ c tail, text = c :: tail ∧ isSpace c = false ∧ c ≠ 0x5d
  scan_eq : ∀ fuel newline_indent text rest, dump ensure_ascii newline_indent value = .ok text →
    IsIndent newline_indent → text.length < fuel → EndsNumber rest →
    scan hook fuel (text ++ rest) = some (value, rest)

variable {ensure_ascii hook}

/-- What follows a number is a comma or the end of the list. -/
theorem dumpItems_ends {items : List Json} {inner newline_indent text : Str}
    (hdump : dumpItems ensure_ascii inner items = .ok text) (hindent : IsIndent newline_indent)
    (rest : Str) : EndsNumber (text ++ (newline_indent ++ rest)) := by
  cases items with
  | nil =>
    obtain rfl := Checked.pure_eq_ok.mp hdump
    exact hindent.endsNumber rest
  | cons item items =>
    obtain ⟨_, -, hdump⟩ := Checked.bind_eq_ok.mp hdump
    obtain ⟨_, -, hdump⟩ := Checked.bind_eq_ok.mp hdump
    obtain rfl := Checked.pure_eq_ok.mp hdump
    rfl

/-- A value behind an indentation is read back. -/
theorem Reads.scan_skip {value : Json} (h : Reads ensure_ascii hook value) (fuel : ℕ)
    {inner text rest : Str} (hdump : dump ensure_ascii inner value = .ok text)
    (hinner : IsIndent inner) (hfuel : text.length < fuel) (hrest : EndsNumber rest)
    {spaces : Str} (hspaces : ∀ c ∈ spaces, isSpace c = true) :
    scan hook fuel (skip (spaces ++ (text ++ rest))) = some (value, rest) := by
  obtain ⟨c, tail, htext, hc, -⟩ := h.head inner text hdump
  have hskip : skip (spaces ++ (text ++ rest)) = text ++ rest := by
    rw [htext]
    exact skip_append hspaces hc _
  rw [hskip]
  exact h.scan_eq fuel inner text rest hdump hinner hfuel hrest

/-- The items of a list are scanned back, one after the other. -/
theorem scanItems_dumpItems {items : List Json}
    (h : ∀ item ∈ items, Reads ensure_ascii hook item) (fuel : ℕ)
    {inner newline_indent text : Str} (hdump : dumpItems ensure_ascii inner items = .ok text)
    (hinner : IsIndent inner) (hindent : IsIndent newline_indent) (hfuel : text.length < fuel)
    (rest : Str) :
    scanItems hook fuel (text ++ (newline_indent ++ 0x5d :: rest)) = some (items, rest) := by
  induction items generalizing fuel text with
  | nil =>
    obtain rfl := Checked.pure_eq_ok.mp hdump
    obtain ⟨fuel, rfl⟩ := Nat.exists_eq_add_of_lt hfuel
    rw [scanItems, List.nil_append, skip_append hindent.2 rfl]
    rfl
  | cons item items ih =>
    obtain ⟨first, hfirst, hdump⟩ := Checked.bind_eq_ok.mp hdump
    obtain ⟨others, hothers, hdump⟩ := Checked.bind_eq_ok.mp hdump
    obtain rfl := Checked.pure_eq_ok.mp hdump
    obtain ⟨hitem, hitems⟩ := List.forall_mem_cons.mp h
    cases fuel with
    | zero => exact absurd hfuel (Nat.not_lt_zero _)
    | succ fuel =>
      simp only [List.length_cons, List.length_append] at hfuel
      have hread := hitem.scan_skip fuel hfirst hinner (by omega)
        (dumpItems_ends hothers hindent (0x5d :: rest)) hinner.2
      have hmore := ih hitems fuel hothers (by omega)
      rw [scanItems, List.cons_append, skip, List.dropWhile_cons_of_neg (by decide)]
      simp only [List.append_assoc]
      rw [hread]
      show (scanItems hook fuel (others ++ (newline_indent ++ 0x5d :: rest)) >>=
        fun p => pure (item :: p.1, p.2)) = _
      rw [hmore]
      rfl

/-- What follows a number is a comma or the end of the dictionary. -/
theorem dumpEntries_ends {entries : List (Str × Json)} {inner newline_indent text : Str}
    (hdump : dumpEntries ensure_ascii inner entries = .ok text) (hindent : IsIndent newline_indent)
    (rest : Str) : EndsNumber (text ++ (newline_indent ++ rest)) := by
  cases entries with
  | nil =>
    obtain rfl := Checked.pure_eq_ok.mp hdump
    exact hindent.endsNumber rest
  | cons entry entries =>
    obtain ⟨_, -, hdump⟩ := Checked.bind_eq_ok.mp hdump
    obtain ⟨_, -, hdump⟩ := Checked.bind_eq_ok.mp hdump
    obtain rfl := Checked.pure_eq_ok.mp hdump
    rfl

/-- An entry is read back. -/
theorem scanEntry_dump {key : Str} (hs : Readable ensure_ascii key) {value : Json}
    (h : Reads ensure_ascii hook value) (fuel : ℕ)
    {inner text rest : Str} (hdump : dump ensure_ascii inner value = .ok text)
    (hinner : IsIndent inner) (hfuel : text.length + 1 < fuel) (hrest : EndsNumber rest) :
    scanEntry hook fuel (dumpKey ensure_ascii key ++ (text ++ rest)) =
      some ((key, value), rest) := by
  cases fuel with
  | zero => exact absurd hfuel (Nat.not_lt_zero _)
  | succ fuel =>
    have hspace : ([0x20] : Str).all isSpace = true := rfl
    have hread := h.scan_skip fuel hdump hinner (by omega) hrest (List.all_eq_true.mp hspace)
    have hkey : dumpKey ensure_ascii key ++ (text ++ rest) =
        0x22 :: (key.flatMap (escape ensure_ascii) ++ 0x22 :: 0x3a ::
          ([0x20] ++ (text ++ rest))) := by
      simp only [dumpKey, quote, List.cons_append, List.append_assoc, List.nil_append]
      rfl
    rw [hkey, scanEntry, scanString_quote hs]
    show (scan hook fuel (skip ([0x20] ++ (text ++ rest))) >>= fun p => pure ((key, p.1), p.2)) = _
    rw [hread]
    rfl

/-- The entries of a dictionary are scanned back, one after the other. -/
theorem scanEntries_dumpEntries {entries : List (Str × Json)}
    (hkeys : ∀ entry ∈ entries, Readable ensure_ascii entry.1)
    (h : ∀ entry ∈ entries, Reads ensure_ascii hook entry.2) (fuel : ℕ)
    {inner newline_indent text : Str}
    (hdump : dumpEntries ensure_ascii inner entries = .ok text) (hinner : IsIndent inner)
    (hindent : IsIndent newline_indent) (hfuel : text.length < fuel) (rest : Str) :
    scanEntries hook fuel (text ++ (newline_indent ++ 0x7d :: rest)) = some (entries, rest) := by
  induction entries generalizing fuel text with
  | nil =>
    obtain rfl := Checked.pure_eq_ok.mp hdump
    obtain ⟨fuel, rfl⟩ := Nat.exists_eq_add_of_lt hfuel
    rw [scanEntries, List.nil_append, skip_append hindent.2 rfl]
    rfl
  | cons entry entries ih =>
    obtain ⟨first, hfirst, hdump⟩ := Checked.bind_eq_ok.mp hdump
    obtain ⟨others, hothers, hdump⟩ := Checked.bind_eq_ok.mp hdump
    obtain rfl := Checked.pure_eq_ok.mp hdump
    obtain ⟨hkey, hkeys⟩ := List.forall_mem_cons.mp hkeys
    obtain ⟨hentry, hentries⟩ := List.forall_mem_cons.mp h
    cases fuel with
    | zero => exact absurd hfuel (Nat.not_lt_zero _)
    | succ fuel =>
      simp only [List.length_cons, List.length_append, dumpKey, quote] at hfuel
      have hread := scanEntry_dump hkey hentry fuel hfirst hinner (by omega)
        (dumpEntries_ends hothers hindent (0x7d :: rest))
      have hmore := ih hkeys hentries fuel hothers (by omega)
      have hskip : skip (inner ++ (dumpKey ensure_ascii entry.1 ++
          (first ++ (others ++ (newline_indent ++ 0x7d :: rest))))) =
          dumpKey ensure_ascii entry.1 ++ (first ++ (others ++ (newline_indent ++ 0x7d :: rest))) :=
        skip_append hinner.2 rfl _
      rw [scanEntries, List.cons_append, skip, List.dropWhile_cons_of_neg (by decide)]
      simp only [List.append_assoc]
      rw [hskip, hread]
      show (scanEntries hook fuel (others ++ (newline_indent ++ 0x7d :: rest)) >>=
        fun p => pure (entry :: p.1, p.2)) = _
      rw [hmore]
      rfl

/-- A value that is no list or dictionary is read back if its text is scanned back. -/
theorem reads_scalar {value : Json} {text : Str} {c : CodePoint} {tail : Str}
    (hdump : ∀ newline_indent, dump ensure_ascii newline_indent value = .ok text)
    (htext : text = c :: tail) (hspace : isSpace c = false) (hend : c ≠ 0x5d)
    (hscan : ∀ fuel rest, EndsNumber rest →
      scan hook (fuel + 1) (text ++ rest) = some (value, rest)) :
      Reads ensure_ascii hook value where
  head newline_indent text' h := by
    obtain rfl := Except.ok.inj ((hdump newline_indent).symm.trans h)
    exact ⟨c, tail, htext, hspace, hend⟩
  scan_eq fuel newline_indent text' rest h _ hfuel hrest := by
    obtain rfl := Except.ok.inj ((hdump newline_indent).symm.trans h)
    obtain ⟨fuel, rfl⟩ := Nat.exists_eq_add_of_lt hfuel
    exact hscan _ rest hrest

/-- What starts with a digit or a sign is scanned as a number. -/
theorem scan_number {c : CodePoint} (hc : c = 0x2d ∨ c.isDigit = true) (fuel : ℕ) (text : Str) :
    scan hook (fuel + 1) (c :: text) =
      (scanInt (c :: text)).map fun p => (.int p.1, p.2) := by
  have hne : ∀ d : CodePoint, d ≠ 0x2d → d.isDigit = false → c ≠ d := by
    rintro d hminus hdigit rfl
    obtain rfl | hdigit' := hc
    · exact hminus rfl
    · rw [hdigit] at hdigit'
      exact nomatch hdigit'
  rw [scan]
  · exact fun _ heq => hne 0x22 (by decide) rfl (List.cons.inj heq).1
  · exact fun _ heq => hne 0x5b (by decide) rfl (List.cons.inj heq).1
  · exact fun _ heq => hne 0x7b (by decide) rfl (List.cons.inj heq).1
  · exact fun _ heq => hne 0x6e (by decide) rfl (List.cons.inj heq).1
  · exact fun _ heq => hne 0x74 (by decide) rfl (List.cons.inj heq).1
  · exact fun _ heq => hne 0x66 (by decide) rfl (List.cons.inj heq).1

/-- An integer is read back. -/
theorem reads_int (n : ℤ) : Reads ensure_ascii hook (.int n) := by
  have htext : ∀ newline_indent text, dump ensure_ascii newline_indent (.int n) = .ok text →
      (Str.ofInt n.natAbs).length ≤ 4300 ∧ text = Str.ofInt n := by
    intro newline_indent text hdump
    rw [dump, intRepr] at hdump
    split at hdump
    · exact nomatch hdump
    · rename_i hlength
      exact ⟨not_lt.mp hlength, (Except.ok.inj hdump).symm⟩
  obtain ⟨c, tail, hcons, hc⟩ : ∃ c tail, Str.ofInt n = c :: tail ∧
      (c = 0x2d ∨ c.isDigit = true) := by
    cases n with
    | ofNat m =>
      obtain ⟨c, tail, hcons⟩ := List.exists_cons_of_ne_nil (ofInt_ne_nil m)
      exact ⟨c, tail, hcons, .inr (isDigit_of_mem_ofInt m c (hcons ▸ List.mem_cons_self))⟩
    | negSucc m => exact ⟨_, _, ofInt_negSucc m, .inl rfl⟩
  constructor
  · intro newline_indent text hdump
    obtain ⟨-, rfl⟩ := htext newline_indent text hdump
    refine ⟨c, tail, hcons, ?_, ?_⟩
    · obtain rfl | hdigit := hc
      · rfl
      · refine Bool.eq_false_iff.mpr fun hspace => ?_
        simp only [isSpace, Bool.or_eq_true, beq_iff_eq] at hspace
        obtain ((rfl | rfl) | rfl) | rfl := hspace <;> exact nomatch hdigit
    · rintro rfl
      obtain hc | hc := hc
      · exact absurd hc (by decide)
      · exact nomatch hc
  · intro fuel newline_indent text rest hdump _ hfuel hrest
    obtain ⟨hlength, rfl⟩ := htext newline_indent text hdump
    obtain ⟨fuel, rfl⟩ := Nat.exists_eq_add_of_lt hfuel
    have hscan := scanInt_ofInt hlength hrest
    rw [hcons, List.cons_append] at hscan ⊢
    rw [scan_number hc, hscan]
    rfl

/-- A list is read back if its items are. -/
theorem reads_arr {items : List Json} (h : ∀ item ∈ items, Reads ensure_ascii hook item) :
    Reads ensure_ascii hook (.arr items) := by
  cases items with
  | nil => exact reads_scalar (fun _ => rfl) rfl rfl (by decide) fun _ _ _ => rfl
  | cons item items =>
    obtain ⟨hitem, hitems⟩ := List.forall_mem_cons.mp h
    constructor
    · intro newline_indent text hdump
      obtain ⟨first, -, hdump⟩ := Checked.bind_eq_ok.mp hdump
      obtain ⟨others, -, hdump⟩ := Checked.bind_eq_ok.mp hdump
      obtain rfl := Checked.pure_eq_ok.mp hdump
      exact ⟨_, _, rfl, rfl, by decide⟩
    · intro fuel newline_indent text rest hdump hindent hfuel hrest
      obtain ⟨first, hfirst, hdump⟩ := Checked.bind_eq_ok.mp hdump
      obtain ⟨others, hothers, hdump⟩ := Checked.bind_eq_ok.mp hdump
      obtain rfl := Checked.pure_eq_ok.mp hdump
      cases fuel with
      | zero => exact absurd hfuel (Nat.not_lt_zero _)
      | succ fuel =>
        simp only [List.length_cons, List.length_append] at hfuel
        obtain ⟨c, tail, htext, hspace, hend⟩ := hitem.head _ _ hfirst
        have hread := hitem.scan_eq fuel _ _ _ hfirst hindent.inner (by omega)
          (dumpItems_ends hothers hindent (0x5d :: rest))
        have hmore := scanItems_dumpItems hitems fuel hothers hindent.inner hindent (by omega) rest
        rw [htext, List.cons_append] at hread
        have hskip := skip_append hindent.inner.2 hspace
          (tail ++ (others ++ (newline_indent ++ 0x5d :: rest)))
        rw [List.cons_append, scan]
        simp only [htext, List.append_assoc, List.cons_append, List.nil_append] at hskip ⊢
        rw [hskip]
        split
        · rename_i heq
          exact absurd (List.cons.inj heq).1 hend
        · rw [hread]
          show (scanItems hook fuel (others ++ (newline_indent ++ 0x5d :: rest)) >>=
            fun q => pure (Json.arr (item :: q.1), q.2)) = _
          rw [hmore]
          rfl

/-- A dictionary is read back if its values are and the hook accepts it. -/
theorem reads_obj {entries : List (Str × Json)} (hhook : hook entries = .ok (.obj entries))
    (hkeys : ∀ entry ∈ entries, Readable ensure_ascii entry.1)
    (h : ∀ entry ∈ entries, Reads ensure_ascii hook entry.2) :
    Reads ensure_ascii hook (.obj entries) := by
  cases entries with
  | nil =>
    refine reads_scalar (fun _ => rfl) rfl rfl (by decide) fun fuel rest _ => ?_
    show ((hook []).toOption >>= fun v => pure (v, rest)) = some (Json.obj [], rest)
    rw [hhook]
    rfl
  | cons entry entries =>
    obtain ⟨hkey, hkeys⟩ := List.forall_mem_cons.mp hkeys
    obtain ⟨hentry, hentries⟩ := List.forall_mem_cons.mp h
    constructor
    · intro newline_indent text hdump
      obtain ⟨first, -, hdump⟩ := Checked.bind_eq_ok.mp hdump
      obtain ⟨others, -, hdump⟩ := Checked.bind_eq_ok.mp hdump
      obtain rfl := Checked.pure_eq_ok.mp hdump
      exact ⟨_, _, rfl, rfl, by decide⟩
    · intro fuel newline_indent text rest hdump hindent hfuel hrest
      obtain ⟨first, hfirst, hdump⟩ := Checked.bind_eq_ok.mp hdump
      obtain ⟨others, hothers, hdump⟩ := Checked.bind_eq_ok.mp hdump
      obtain rfl := Checked.pure_eq_ok.mp hdump
      cases fuel with
      | zero => exact absurd hfuel (Nat.not_lt_zero _)
      | succ fuel =>
        simp only [List.length_cons, List.length_append, dumpKey, quote] at hfuel
        have hread := scanEntry_dump hkey hentry fuel hfirst hindent.inner (by omega)
          (dumpEntries_ends hothers hindent (0x7d :: rest))
        have hmore := scanEntries_dumpEntries hkeys hentries fuel hothers hindent.inner hindent
          (by omega) rest
        have hskip : skip (newline_indent ++ (("  " : Str) ++ (dumpKey ensure_ascii entry.1 ++
            (first ++ (others ++ (newline_indent ++ 0x7d :: rest)))))) =
            dumpKey ensure_ascii entry.1 ++
              (first ++ (others ++ (newline_indent ++ 0x7d :: rest))) := by
          rw [← List.append_assoc]
          exact skip_append hindent.inner.2 rfl _
        rw [List.cons_append, scan]
        simp only [List.append_assoc, List.cons_append, List.nil_append]
        rw [hskip]
        split
        · rename_i heq
          exact nomatch (List.cons.inj heq).1
        · rw [hread]
          show (scanEntries hook fuel (others ++ (newline_indent ++ 0x7d :: rest)) >>=
            fun q => (hook (entry :: q.1)).toOption >>= fun v => pure (v, q.2)) = _
          rw [hmore]
          show ((hook (entry :: entries)).toOption >>= fun v => pure (v, rest)) = _
          rw [hhook]
          rfl

/-- **The round trip** of values. -/
theorem Rereads.reads {value : Json} (h : Rereads ensure_ascii hook value) :
    Reads ensure_ascii hook value := by
  induction h with
  | null => exact reads_scalar (fun _ => rfl) rfl rfl (by decide) fun _ _ _ => rfl
  | bool b =>
    cases b
    · exact reads_scalar (fun _ => rfl) rfl rfl (by decide) fun _ _ _ => rfl
    · exact reads_scalar (fun _ => rfl) rfl rfl (by decide) fun _ _ _ => rfl
  | int n => exact reads_int n
  | str hs =>
    rename_i s
    refine reads_scalar (fun _ => rfl) rfl rfl (by decide) fun fuel rest _ => ?_
    have htext : quote ensure_ascii s ++ rest =
      0x22 :: (s.flatMap (escape ensure_ascii) ++ 0x22 :: rest) := by
      rw [quote, List.cons_append, List.cons_append, List.append_assoc]
      rfl
    rw [htext, scan, scanString_quote hs]
    rfl
  | arr _ ih => exact reads_arr ih
  | obj hhook hkeys _ ih => exact reads_obj hhook hkeys ih

/-- **The round trip.** What is dumped is read back with sorted keys. -/
theorem loads_dumps {value : Json} (h : Rereads ensure_ascii hook value.sortKeys) {text : Str}
    (hdump : dumps ensure_ascii value = .ok text) :
    loads hook (text ++ "\n") = some value.sortKeys := by
  have hreads := h.reads
  obtain ⟨c, tail, htext, hspace, -⟩ := hreads.head _ _ hdump
  have hskip : skip (text ++ "\n") = text ++ "\n" := by
    rw [htext]
    exact List.dropWhile_cons_of_neg (by simp [hspace])
  have hscan := hreads.scan_eq ((text ++ ("\n" : Str)).length + 1) _ text "\n" hdump
    ⟨rfl, List.all_eq_true.mp rfl⟩ (by simp only [List.length_append]; omega) rfl
  rw [loads, hskip, hscan]
  rfl

end Values

section Ascii

/-- ASCII characters other than NUL. -/
def IsAscii (text : Str) : Prop := ∀ c ∈ text, 0 < c.val ∧ c.val < 0x80

/-- Two parts of ASCII. -/
theorem IsAscii.append {text text' : Str} (h : IsAscii text) (h' : IsAscii text') :
    IsAscii (text ++ text') := by
  intro c hc
  obtain hc | hc := List.mem_append.mp hc
  · exact h c hc
  · exact h' c hc

/-- One more ASCII character. -/
theorem IsAscii.cons {c : CodePoint} (hc : 0 < c.val ∧ c.val < 0x80) {text : Str}
    (h : IsAscii text) : IsAscii (c :: text) :=
  List.forall_mem_cons.mpr ⟨hc, h⟩

variable (ensure_ascii : Bool)

/-- A value without floats that is written as ASCII: its strings and keys are ASCII, or
`ensure_ascii` escapes them. -/
inductive AsciiValue : Json → Prop
  | null : AsciiValue .null
  | bool (b : Bool) : AsciiValue (.bool b)
  | int (n : ℤ) : AsciiValue (.int n)
  | str {s : Str} (h : ensure_ascii = false → IsAscii s) : AsciiValue (.str s)
  | arr {items : List Json} (h : ∀ item ∈ items, AsciiValue item) : AsciiValue (.arr items)
  | obj {entries : List (Str × Json)}
    (hkeys : ∀ entry ∈ entries, ensure_ascii = false → IsAscii entry.1)
    (h : ∀ entry ∈ entries, AsciiValue entry.2) : AsciiValue (.obj entries)

variable {ensure_ascii}

/-- The letters of short escapes are ASCII. -/
theorem isAscii_shortEscape : ∀ entry ∈ shortEscapes, 0 < entry.2.val ∧ entry.2.val < 0x80 := by
  have hall : shortEscapes.all (fun entry => 0 < entry.2.val && entry.2.val < 0x80) = true := by
    decide
  simpa only [List.all_eq_true, Bool.and_eq_true, decide_eq_true_eq] using hall

/-- Hexadecimal digits are ASCII. -/
theorem isAscii_hexDigit : ∀ n < 16, 0 < (hexDigit n).val ∧ (hexDigit n).val < 0x80 := by decide

/-- A Unicode escape is ASCII. -/
theorem isAscii_unicodeEscape (n : ℕ) : IsAscii (unicodeEscape n) := by
  have digit (m : ℕ) := isAscii_hexDigit (m % 16) (Nat.mod_lt m (by decide))
  exact .cons (by decide) (.cons (by decide) (.cons (digit _) (.cons (digit _) (.cons (digit _)
    (.cons (digit _) (fun _ h => nomatch h))))))

/-- What is written for a string is ASCII if the string is, and always with `ensure_ascii`. -/
theorem isAscii_quote {s : Str} (h : ensure_ascii = false → IsAscii s) :
    IsAscii (quote ensure_ascii s) := by
  have hescape : ∀ c ∈ s, IsAscii (escape ensure_ascii c) := by
    intro c hc
    rw [escape]
    cases hshort : shortEscapes.lookup c with
    | some letter =>
      obtain ⟨earlier, later, hsplit, -⟩ := List.lookup_eq_some_iff.mp hshort
      have hmem : (c, letter) ∈ shortEscapes := hsplit ▸ List.mem_append_right _ List.mem_cons_self
      exact .cons (by decide) (.cons (isAscii_shortEscape _ hmem) (fun _ h => nomatch h))
    | none =>
      show IsAscii (if _ then _ else if _ then _ else _)
      split_ifs with hcontrol hpair
      · exact isAscii_unicodeEscape c.val
      · exact (isAscii_unicodeEscape _).append (isAscii_unicodeEscape _)
      · refine .cons ?_ (fun _ h => nomatch h)
        cases hascii : ensure_ascii with
        | false => exact h hascii c hc
        | true =>
          simp only [hascii, Bool.true_and, Bool.or_eq_true, Bool.and_eq_true, decide_eq_true_eq,
            Fin.lt_def, Fin.le_def] at hcontrol hpair
          have hspace : (0x20 : CodePoint).val = 0x20 := rfl
          have hdelete : (0x7f : CodePoint).val = 0x7f := rfl
          have hplane : (0x10000 : CodePoint).val = 0x10000 := rfl
          omega
  refine .cons (by decide) (.append (fun c hc => ?_) (.cons (by decide) (fun _ h => nomatch h)))
  obtain ⟨d, hd, hc⟩ := List.mem_flatMap.mp hc
  exact hescape d hd c hc

/-- An integer is written in ASCII. -/
theorem isAscii_ofInt (n : ℤ) : IsAscii (Str.ofInt n) := by
  intro c hc
  obtain rfl | hdigit := mem_ofInt hc
  · decide
  · simp only [CodePoint.isDigit, Bool.and_eq_true, decide_eq_true_eq, Fin.le_def] at hdigit
    have hlow : 0x30 ≤ c.val := hdigit.1
    have hhigh : c.val ≤ 0x39 := hdigit.2
    omega

/-- What is dumped in any line is ASCII. -/
def DumpsAscii (ensure_ascii : Bool) (value : Json) : Prop :=
  ∀ newline_indent text, IsAscii newline_indent →
    dump ensure_ascii newline_indent value = .ok text →
    IsAscii text

/-- A test for ASCII. -/
theorem IsAscii.of_all {text : Str} (h : text.all (fun c => 0 < c.val ∧ c.val < 0x80) = true) :
    IsAscii text := by
  simpa [IsAscii] using h

/-- A key is dumped in ASCII if it is ASCII or escaped. -/
theorem isAscii_dumpKey {key : Str} (h : ensure_ascii = false → IsAscii key) :
    IsAscii (dumpKey ensure_ascii key) :=
  (isAscii_quote h).append (.of_all rfl)

/-- A list is dumped in ASCII if its items are. -/
theorem isAscii_dumpItems {items : List Json} (h : ∀ item ∈ items, DumpsAscii ensure_ascii item)
    {inner text : Str} (hinner : IsAscii inner)
    (hdump : dumpItems ensure_ascii inner items = .ok text) :
    IsAscii text := by
  induction items generalizing text with
  | nil =>
    obtain rfl := Checked.pure_eq_ok.mp hdump
    exact fun _ h => nomatch h
  | cons item items ih =>
    obtain ⟨first, hfirst, hdump⟩ := Checked.bind_eq_ok.mp hdump
    obtain ⟨others, hothers, hdump⟩ := Checked.bind_eq_ok.mp hdump
    obtain rfl := Checked.pure_eq_ok.mp hdump
    obtain ⟨hitem, hitems⟩ := List.forall_mem_cons.mp h
    exact .cons (by decide) ((hinner.append (hitem _ _ hinner hfirst)).append (ih hitems hothers))

/-- A dictionary is dumped in ASCII if its keys and values are. -/
theorem isAscii_dumpEntries {entries : List (Str × Json)}
    (hkeys : ∀ entry ∈ entries, ensure_ascii = false → IsAscii entry.1)
    (h : ∀ entry ∈ entries, DumpsAscii ensure_ascii entry.2)
    {inner text : Str} (hinner : IsAscii inner)
    (hdump : dumpEntries ensure_ascii inner entries = .ok text) : IsAscii text := by
  induction entries generalizing text with
  | nil =>
    obtain rfl := Checked.pure_eq_ok.mp hdump
    exact fun _ h => nomatch h
  | cons entry entries ih =>
    obtain ⟨first, hfirst, hdump⟩ := Checked.bind_eq_ok.mp hdump
    obtain ⟨others, hothers, hdump⟩ := Checked.bind_eq_ok.mp hdump
    obtain rfl := Checked.pure_eq_ok.mp hdump
    obtain ⟨hkey, hkeys⟩ := List.forall_mem_cons.mp hkeys
    obtain ⟨hentry, hentries⟩ := List.forall_mem_cons.mp h
    exact .cons (by decide) (((hinner.append (isAscii_dumpKey hkey)).append
      (hentry _ _ hinner hfirst)).append (ih hkeys hentries hothers))

/-- Such a value is dumped in ASCII. -/
theorem AsciiValue.dumpsAscii {value : Json} (h : AsciiValue ensure_ascii value) :
    DumpsAscii ensure_ascii value := by
  induction h with
  | null =>
    intro _ text _ hdump
    obtain rfl := Checked.pure_eq_ok.mp hdump
    exact .of_all rfl
  | bool b =>
    intro _ text _ hdump
    obtain rfl := Checked.pure_eq_ok.mp hdump
    cases b
    · exact .of_all rfl
    · exact .of_all rfl
  | int n =>
    intro _ text _ hdump
    rw [dump, intRepr] at hdump
    split at hdump
    · exact nomatch hdump
    · obtain rfl := Except.ok.inj hdump
      exact isAscii_ofInt n
  | str hs =>
    intro _ text _ hdump
    obtain rfl := Checked.pure_eq_ok.mp hdump
    exact isAscii_quote hs
  | @arr items _ ih =>
    intro newline_indent text hindent hdump
    cases items with
    | nil =>
      obtain rfl := Checked.pure_eq_ok.mp hdump
      exact .of_all rfl
    | cons item items =>
      obtain ⟨first, hfirst, hdump⟩ := Checked.bind_eq_ok.mp hdump
      obtain ⟨others, hothers, hdump⟩ := Checked.bind_eq_ok.mp hdump
      obtain rfl := Checked.pure_eq_ok.mp hdump
      obtain ⟨hitem, hitems⟩ := List.forall_mem_cons.mp ih
      have hspaces : IsAscii "  " := .of_all rfl
      have hinner := hindent.append hspaces
      exact .cons (by decide) ((((hinner.append (hitem _ _ hinner hfirst)).append
        (isAscii_dumpItems hitems hinner hothers)).append hindent).append (.of_all rfl))
  | @obj entries hkeys _ ih =>
    intro newline_indent text hindent hdump
    cases entries with
    | nil =>
      obtain rfl := Checked.pure_eq_ok.mp hdump
      exact .of_all rfl
    | cons entry entries =>
      obtain ⟨first, hfirst, hdump⟩ := Checked.bind_eq_ok.mp hdump
      obtain ⟨others, hothers, hdump⟩ := Checked.bind_eq_ok.mp hdump
      obtain rfl := Checked.pure_eq_ok.mp hdump
      obtain ⟨hentry, hentries⟩ := List.forall_mem_cons.mp ih
      obtain ⟨hkey, hkeys⟩ := List.forall_mem_cons.mp hkeys
      have hspaces : IsAscii "  " := .of_all rfl
      have hinner := hindent.append hspaces
      exact .cons (by decide) (((((hinner.append (isAscii_dumpKey hkey)).append
        (hentry _ _ hinner hfirst)).append (isAscii_dumpEntries hkeys hentries hinner
        hothers)).append hindent).append (.of_all rfl))

/-- The bytes of ASCII text. -/
def asciiBytes (text : Str) : Bytes := text.map fun c => UInt8.ofNat c.val

/-- ASCII text is encoded byte by byte. -/
theorem encode_ascii {text : Str} (h : IsAscii text) :
    Bytes.encode false text = .ok (asciiBytes text) := by
  induction text with
  | nil => rfl
  | cons c text ih =>
    obtain ⟨hc, htext⟩ := List.forall_mem_cons.mp h
    have hsurrogate : ¬(0xd800 ≤ c.val ∧ c.val ≤ 0xdfff) := by omega
    rw [Bytes.encode, if_neg hsurrogate, ih htext, Bytes.encodePoint]
    simp only [hc.2, if_true]
    rfl

end Ascii

/-- What the harness relies on in the standard library: `json.loads` reads ASCII bytes as the
text that they spell, if this is one dictionary of scalars that the hook keeps (it gives up on deep
nesting), and `hexdigest` of SHA-256 is made of 64 hexadecimal digits. -/
class StandardLibrary [ByteRuntime] : Prop where
  loadsPairs_ascii : ∀ (hook : List (Str × Json) → Except Exc Json) (text : Str)
    (entries : List (Str × Json)), (∀ pairs value, hook pairs = .ok value → value = .obj pairs) →
    IsAscii text → loads hook text = some (.obj entries) →
    (∀ entry ∈ entries, entry.2.isScalar = true) →
    ByteRuntime.loadsPairs hook (asciiBytes text) = .ok (.obj entries)
  sha256_hex : ∀ raw, (ByteRuntime.sha256 raw).length = 64 ∧
    (ByteRuntime.sha256 raw).all CodePoint.isHexDigit = true

end JsonText

end CoffeeOrder.Python
