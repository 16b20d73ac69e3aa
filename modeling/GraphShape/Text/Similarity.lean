import GraphShape.Double.Rounding

/-!
# Similar words

The similarity of two words is the mean of three shares: the characters of each word that match
the other one, and the matches that stand in the same order. It is what finds the flag that a
mistyped one stands for.
-/

namespace GraphShape.Text

/-- How far apart two matching characters may stand, with words of these lengths. -/
def matchReach (a b : Nat) : Nat := max a b / 2 - 1

/-- Takes the first free character that is the wanted one among those from a place on, and before
another place. The list goes on from a given place. -/
def takeMatch (wanted : Char) (start stop : Nat) : Nat → List (Char × Bool) →
    Option (List (Char × Bool))
  | _, [] => none
  | place, (ch, taken) :: rest =>
    if stop ≤ place then none
    else if start ≤ place && ch = wanted && !taken then some ((ch, true) :: rest)
    else (takeMatch wanted start stop (place + 1) rest).map (fun others => (ch, taken) :: others)

/-- The matching characters of a word, and the other word with its matches marked. The word goes
on from a given place. -/
def matchFrom (reach : Nat) : Nat → List Char → List (Char × Bool) →
    List Char × List (Char × Bool)
  | _, [], other => ([], other)
  | place, ch :: rest, other =>
    match takeMatch ch (place - reach) (place + reach + 1) 0 other with
    | some marked =>
      let (matched, final) := matchFrom reach (place + 1) rest marked
      (ch :: matched, final)
    | none => matchFrom reach (place + 1) rest other

/-- The matching characters of both words, each in their own order. -/
def matched (a b : List Char) : List Char × List Char :=
  let (inA, marked) := matchFrom (matchReach a.length b.length) 0 a (b.map (fun ch => (ch, false)))
  (inA, (marked.filter (fun m => m.2)).map Prod.fst)

/-- The similarity of two words, from zero to one. -/
def similarity (a b : String) : Option Double :=
  let (inA, inB) := matched a.toList b.toList
  let count := inA.length
  if count = 0 then some (Double.zero false)
  else do
    let strays := ((inA.zip inB).countP (fun (x, y) => x ≠ y)) / 2
    let share (part whole : Nat) := Double.ofRatio? false part whole
    let both ← (← share count a.length).add? (← share count b.length)
    let total ← both.add? (← share (count - strays) count)
    total.div? (← Double.ofNat? 3)

/-- Words are similar above this. -/
def similarityLimit : Option Double := Double.ofRatio? false 7 10

/-- Whether a number that is not negative is less than another one. -/
def isBelow (a b : Double) : Bool :=
  let (an, ad) := a.ratio
  let (bn, bd) := b.ratio
  an * bd < bn * ad

/-- The candidate that is most similar to a word, if any is similar. The last of several such
candidates wins. -/
def mostSimilar? (word : String) (candidates : List String) : Option String := do
  let limit ← similarityLimit
  let rated := candidates.filterMap (fun c => do
    let s ← similarity word c
    if isBelow limit s then some (s, c) else none)
  let best := rated.foldl (fun best next =>
    match best with
    | some (s, c) => if isBelow next.1 s then some (s, c) else some next
    | none => some next) none
  best.map Prod.snd

end GraphShape.Text
