/-!
# ProviderTypes.CommandLine.Suggestion

Names close to one that a user mistyped. Closeness is the share of characters in common blocks:
the longest block that both texts hold, and then the longest ones on either side of it.
-/

namespace ProviderTypes.Suggestion

/-- The length of the longest common start of two texts. -/
def commonStart : List Char → List Char → Nat
  | c :: cs, d :: ds => if c = d then commonStart cs ds + 1 else 0
  | _, _ => 0

/-- A block that two texts hold, by its starts and its length. -/
structure Block where
  left : Nat
  right : Nat
  length : Nat

/-- The longest common block; of several the first in the left text, then in the right one. -/
def longestBlock (a b : List Char) : Block :=
  (List.range a.length).foldl (fun best i =>
    (List.range b.length).foldl (fun best j =>
      let n := commonStart (a.drop i) (b.drop j)
      if best.length < n then ⟨i, j, n⟩ else best) best) ⟨0, 0, 0⟩

/-- The number of characters in common blocks; the fuel bounds the number of blocks. -/
def commonCount (a b : List Char) : (fuel : Nat) → Nat
  | 0 => 0
  | fuel + 1 =>
    let block := longestBlock a b
    if block.length = 0 then 0
    else
      block.length + commonCount (a.take block.left) (b.take block.right) fuel +
        commonCount (a.drop (block.left + block.length)) (b.drop (block.right + block.length)) fuel

/-- A name with its closeness, as a fraction. -/
structure Candidate where
  name : String
  common : Nat
  total : Nat

/-- The closeness of a name to a word. -/
def candidate (word name : String) : Candidate :=
  let a := name.toList
  let b := word.toList
  ⟨name, 2 * commonCount a b (a.length + 1), a.length + b.length⟩

/-- Whether one name is closer than another; of two equally close, the greater name. -/
def Candidate.isBefore (x y : Candidate) : Bool :=
  y.common * x.total < x.common * y.total ||
    (y.common * x.total = x.common * y.total && y.name ≤ x.name)

/-- Put a candidate in order among others. -/
def Candidate.insert (x : Candidate) : List Candidate → List Candidate
  | [] => [x]
  | y :: rest => if x.isBefore y then x :: y :: rest else y :: x.insert rest

/-- The names that share at least three fifths of their characters with a word, at most three,
    the closest first. -/
def closest (word : String) (names : List String) : List String :=
  let candidates := (names.map (candidate word)).filter fun c => 3 * c.total ≤ 5 * c.common
  ((candidates.foldr Candidate.insert []).take 3).map Candidate.name

end ProviderTypes.Suggestion
