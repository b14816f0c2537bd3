import Frcmob.Lib.Js
import Mathlib.Order.WithBot

/-!
Tokens within a few typing errors of each other: `editDistance` and `minEditDistanceWithin` of
`src/utils/eventSearch.ts`. An array of arrays is a function of the two indices.
-/

namespace Frcmob.Search

open Js

abbrev Matrix := Nat → Nat → Nat

def Matrix.set (dp : Matrix) (i j value : Nat) : Matrix :=
  Function.update dp i (Function.update (dp i) j value)

/-- All zeros but the first column and the first row. -/
def firstDp : Matrix := fun i j =>
  if i = 0 then j else if j = 0 then i else 0

/-- The body of the two loops. -/
def fillCell (a b : Str) (i : Nat) (dp : Matrix) (j : Nat) : Matrix :=
  let cost := if a[i - 1]? = b[j - 1]? then 0 else 1
  dp.set i j (min (min (dp (i - 1) j + 1) (dp i (j - 1) + 1)) (dp (i - 1) (j - 1) + cost))

def fillRow (a b : Str) (dp : Matrix) (i : Nat) : Matrix :=
  (List.range' 1 b.length).foldl (fillCell a b i) dp

def editDistance (a b : Str) : Nat :=
  if a = b then 0
  else if a = [] then b.length
  else if b = [] then a.length
  else (List.range' 1 a.length).foldl (fillRow a b) firstDp a.length b.length

/-- The loop over the candidates. `⊤` stands for infinity. -/
def scanCandidates (token : Str) : WithTop Nat → List Str → WithTop Nat
  | best, [] => best
  | best, candidate :: rest =>
      let delta := ((candidate.length : Int) - token.length).natAbs
      if 2 < delta then scanCandidates token best rest
      else
        let distance : WithTop Nat := editDistance token candidate
        let best := if distance < best then distance else best
        if best ≤ 1 then best else scanCandidates token best rest

def minEditDistanceWithin (token : Str) (candidates : List Str) : WithTop Nat :=
  scanCandidates token ⊤ candidates

end Frcmob.Search
