import Mathlib

/-!
# Python strings

A Python `str` is a list of code points; unlike a Lean `String` it may hold lone
surrogates, which JSON escapes and undecodable file names can produce.
-/

namespace CoffeeOrder.Python

/-- A Unicode code point, surrogates included. -/
abbrev CodePoint := Fin 0x110000

/-- There are code points, so that they can be written as numerals. -/
instance CodePoint.instNeZero : NeZero 0x110000 := ⟨by decide⟩

/-- A Python `str`. -/
abbrev Str := List CodePoint

instance CodePoint.instLawfulBEq : LawfulBEq CodePoint := inferInstance

instance Str.instLawfulBEq : LawfulBEq Str := inferInstance

/-- A string literal of the source. -/
def Str.ofString (s : String) : Str := s.toList.map fun c => Fin.ofNat _ c.toNat

instance : Coe String Str := ⟨Str.ofString⟩

/-- `str(n)` of an `int`. -/
def Str.ofInt (n : ℤ) : Str := toString n

namespace CodePoint

/-- The character `/`. -/
def slash : CodePoint := 0x2f

/-- What `str.strip` removes. -/
def isSpace (c : CodePoint) : Bool :=
  (0x9 ≤ c && c ≤ 0xd) || (0x1c ≤ c && c ≤ 0x20) || c == 0x85 || c == 0xa0 || c == 0x1680 ||
    (0x2000 ≤ c && c ≤ 0x200a) || c == 0x2028 || c == 0x2029 || c == 0x202f || c == 0x205f ||
    c == 0x3000

/-- `[0-9]`. -/
def isDigit (c : CodePoint) : Bool := 0x30 ≤ c && c ≤ 0x39

/-- The zeros of the decimal digits in Unicode. -/
def decimalZeros : List CodePoint :=
  [0x30, 0x660, 0x6f0, 0x7c0, 0x966, 0x9e6, 0xa66, 0xae6, 0xb66, 0xbe6, 0xc66, 0xce6, 0xd66, 0xde6,
    0xe50, 0xed0, 0xf20, 0x1040, 0x1090, 0x17e0, 0x1810, 0x1946, 0x19d0, 0x1a80, 0x1a90, 0x1b50,
    0x1bb0, 0x1c40, 0x1c50, 0xa620, 0xa8d0, 0xa900, 0xa9d0, 0xa9f0, 0xaa50, 0xabf0, 0xff10, 0x104a0,
    0x10d30, 0x11066, 0x110f0, 0x11136, 0x111d0, 0x112f0, 0x11450, 0x114d0, 0x11650, 0x116c0,
    0x11730, 0x118e0, 0x11950, 0x11c50, 0x11d50, 0x11da0, 0x11f50, 0x16a60, 0x16ac0, 0x16b50,
    0x1d7ce, 0x1d7d8, 0x1d7e2, 0x1d7ec, 0x1d7f6, 0x1e140, 0x1e2f0, 0x1e4f0, 0x1e950, 0x1fbf0]

/-- `\d`, which matches the decimal digits of all scripts. -/
def isDecimal (c : CodePoint) : Bool :=
  decimalZeros.any fun zero => zero ≤ c && c.val ≤ zero.val + 9

/-- `unicodedata.category(c) == "Cc"`. -/
def isControl (c : CodePoint) : Bool := c ≤ 0x1f || (0x7f ≤ c && c ≤ 0x9f)

/-- `[a-z0-9]`. -/
def isSlugChar (c : CodePoint) : Bool := isDigit c || (0x61 ≤ c && c ≤ 0x7a)

/-- `[1-9]`. -/
def isNonzeroDigit (c : CodePoint) : Bool := 0x31 ≤ c && c ≤ 0x39

/-- `[0-9a-f]`. -/
def isHexDigit (c : CodePoint) : Bool := isDigit c || (0x61 ≤ c && c ≤ 0x66)

/-- Where `str.splitlines` ends a line. -/
def isLineBreak (c : CodePoint) : Bool :=
  (0xa ≤ c && c ≤ 0xd) || (0x1c ≤ c && c ≤ 0x1e) || c == 0x85 || c == 0x2028 || c == 0x2029

end CodePoint

namespace Str

/-- `s.rstrip()`. -/
def rstrip (s : Str) : Str := (s.reverse.dropWhile CodePoint.isSpace).reverse

/-- `s.strip()`. -/
def strip (s : Str) : Str := rstrip (s.dropWhile CodePoint.isSpace)

/-- `s.rstrip(c)` for a single character. -/
def rstripOf (s : Str) (c : CodePoint) : Str := s.rdropWhile (· = c)

/-- `a or b` of two strings. -/
def orElse (a b : Str) : Str := if a = [] then b else a

/-- `part in s`. -/
def contains (s part : Str) : Bool := part <:+: s

/-- `sep.join(parts)`. -/
def join (sep : Str) (parts : List Str) : Str := List.intercalate sep parts

/-- `s.startswith(part)`. -/
def startsWith (s part : Str) : Bool := part.isPrefixOf s

/-- `s.endswith(part)`. -/
def endsWith (s part : Str) : Bool := part.isSuffixOf s

/-- `s[:-n]` for a positive `n`. -/
def dropEnd (s : Str) (n : ℕ) : Str := s.rdrop n

/-- What stands between the two ends of a string, if it has them. -/
def between (s first last : Str) : Option Str :=
  let rest : Str := s.drop first.length
  if s.startsWith first && rest.endsWith last then some (rest.dropEnd last.length) else none

/-- `s.split(sep)` for a one-character separator. -/
def split (s : Str) (sep : CodePoint) : List Str := s.splitOn sep

/-- `s.rpartition(sep)` for a one-character separator: what comes before and after its
last occurrence, if there is one. -/
def rpartition (s : Str) (sep : CodePoint) : Option (Str × Str) :=
  if sep ∈ s then
    some ((s.rdropWhile fun c => c ≠ sep).dropLast, s.rtakeWhile fun c => c ≠ sep)
  else none

/-- `sorted(set(xs))`. -/
def sortedSet (xs : List Str) : List Str := xs.dedup.insertionSort fun a b => a ≤ b

/-- `s.splitlines()`, with the line read so far. -/
def splitlinesFrom : Str → Str → List Str
  | [], line => if line = [] then [] else [line]
  | 0xd :: 0xa :: rest, line => line :: splitlinesFrom rest []
  | c :: rest, line =>
    if CodePoint.isLineBreak c then line :: splitlinesFrom rest []
    else splitlinesFrom rest (line ++ [c])

/-- `s.splitlines()`. -/
def splitlines (s : Str) : List Str := splitlinesFrom s []

/-- The value of a string of decimal digits. -/
def natOfDigits (digits : Str) : ℕ := digits.foldl (fun n c => 10 * n + (c.val - 0x30)) 0

/-- Sorting a set keeps its elements. -/
@[simp] theorem mem_sortedSet {xs : List Str} {x : Str} : x ∈ sortedSet xs ↔ x ∈ xs := by
  rw [sortedSet, List.mem_insertionSort, List.mem_dedup]

/-- A sorted set holds everything once. -/
theorem nodup_sortedSet (xs : List Str) : (sortedSet xs).Nodup :=
  (List.perm_insertionSort _ _).nodup_iff.mpr (List.nodup_dedup xs)

/-- The members determine the sorted list. -/
theorem sortedSet_congr {xs ys : List Str} (h : ∀ x, x ∈ xs ↔ x ∈ ys) :
    sortedSet xs = sortedSet ys := by
  have hperm : (sortedSet xs).Perm (sortedSet ys) := by
    refine (List.perm_ext_iff_of_nodup (nodup_sortedSet xs) (nodup_sortedSet ys)).mpr fun x => ?_
    rw [mem_sortedSet, mem_sortedSet, h]
  exact hperm.eq_of_pairwise' (List.pairwise_insertionSort _ _) (List.pairwise_insertionSort _ _)

/-- Only the empty set is sorted to nothing. -/
@[simp] theorem sortedSet_eq_nil {xs : List Str} : sortedSet xs = [] ↔ xs = [] := by
  simp only [List.eq_nil_iff_forall_not_mem, mem_sortedSet]

end Str

end CoffeeOrder.Python
