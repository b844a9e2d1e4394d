import Mathlib.Data.List.Infix

/-!
# Searching a text

`searchFrom` is the search for the first match of a pattern, which may look at the character
before it, and `allMatches` the search for all matches from left to right without overlap.
-/

namespace CoffeeOrder.Kit

variable {α β : Type}

/-- The first match, given the character before the text. -/
def searchFrom (matchAt : Option α → List α → Option β) : Option α → List α → Option β
  | before, [] => matchAt before []
  | before, c :: rest =>
    match matchAt before (c :: rest) with
    | some found => some found
    | none => searchFrom matchAt (some c) rest

/-- The matches in the text, from one to the text behind it. -/
def matchesFrom (matchAt : List α → Option (β × List α)) : ℕ → List α → List β
  | 0, _ => []
  | fuel + 1, text =>
    match matchAt text with
    | some (found, rest) => found :: matchesFrom matchAt fuel rest
    | none =>
      match text with
      | [] => []
      | _ :: rest => matchesFrom matchAt fuel rest

/-- All matches of a pattern that does not match the empty text. -/
def allMatches (matchAt : List α → Option (β × List α)) (text : List α) : List β :=
  matchesFrom matchAt (text.length + 1) text

section First

variable {matchAt : Option α → List α → Option β}

end First

section All

variable {matchAt : List α → Option (β × List α)}

end All

end CoffeeOrder.Kit
