/-!
How alike two words are. Letters match when they are equal and stand close enough to each other; the
likeness counts the matches and, against them, the matches that are out of order.
-/
namespace Patchbay.CommandLine.Similarity

/-- The first place from some place on, within a window, at which a letter stands unmatched. -/
def place? (window : Nat → Bool) (c : Char) : Nat → List (Char × Bool) → Option Nat
  | _, [] => none
  | i, (d, taken) :: rest =>
    if window i && c == d && !taken then some i else place? window c (i + 1) rest

/-- The letters of the first word that match, and the second word with its matches marked. -/
def matchLetters (range : Nat) : Nat → List Char → List (Char × Bool) → List Char × List (Char × Bool)
  | _, [], other => ([], other)
  | i, c :: rest, other =>
    match place? (fun j => i ≤ j + range && j ≤ i + range) c 0 other with
    | some j =>
      let (matched, other) := matchLetters range (i + 1) rest (other.modify j fun (d, _) => (d, true))
      (c :: matched, other)
    | none => matchLetters range (i + 1) rest other

def likeness (a b : List Char) : Float :=
  if a.isEmpty && b.isEmpty then 1
  else
    let range := max a.length b.length / 2 - 1
    let (matched, marked) := matchLetters range 0 a (b.map fun c => (c, false))
    let others := (marked.filter Prod.snd).map Prod.fst
    let crossed := (matched.zip others).countP (fun (c, d) => c != d) / 2
    if matched.isEmpty then 0
    else
      let m := matched.length.toFloat
      (m / a.length.toFloat + m / b.length.toFloat + (matched.length - crossed).toFloat / m) / 3

/-- The word most like a given one, if one is like it at all; of equally good ones the last. -/
def nearest? (word : String) (all : List String) : Option String :=
  (all.foldl (fun best other =>
    let l := likeness word.toList other.toList
    if 0.7 < l && best.all (fun (_, found) => found ≤ l) then some (other, l) else best)
    (none : Option (String × Float))).map Prod.fst

end Patchbay.CommandLine.Similarity
