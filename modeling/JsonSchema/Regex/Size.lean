import JsonSchema.Regex.Meaning
import JsonSchema.Unicode.Utf8

/-!
The size of a pattern: the bytes that an automaton for it takes, which reads the UTF-8 form of a text.
There is one automaton that reads forward and one that reads backward, and a pattern is too large if
either takes more than the limit. The sizes follow the construction of the automata part by part, but no
automaton is built: where a part is repeated, its size is multiplied.
-/

namespace JsonSchema.Regex

open Unicode

/-! ## Costs -/

/-- The bytes of a state. -/
def stateCost : Nat := 32

/-- The bytes of a range of bytes with the state that it leads to. -/
def rangeCost : Nat := 8

/-- The bytes of a link to a state that is reached without reading. -/
def linkCost : Nat := 4

/-- The largest automaton. -/
def sizeLimit : Nat := 10 * Nat.pow 2 20

/-- What all parts cost. -/
def total (costs : List Nat) : Nat := costs.foldl (· + ·) 0

/-! ## Automata of words and sets -/

/-- Byte ranges with what may follow each, from pieces in ascending order. -/
def branchOff : List Utf8.Piece → List ((Nat × Nat) × List Utf8.Piece)
  | [] => []
  | [] :: rest => branchOff rest
  | (range :: piece) :: rest =>
    match branchOff rest with
    | [] => [(range, [piece])]
    | (next, pieces) :: others =>
      if range = next then (next, piece :: pieces) :: others
      else (range, [piece]) :: (next, pieces) :: others

/-- The states that read pieces forward, each given by the pieces that lead from it to the end. Pieces
have at most `depth` bytes. -/
def forwardStates (pieces : List Utf8.Piece) : Nat → List (List Utf8.Piece)
  | 0 => []
  | depth + 1 =>
    if pieces.all List.isEmpty then []
    else pieces :: ((branchOff pieces).map Prod.snd).eraseDups.flatMap (forwardStates · depth)

/-- The number of states that read pieces backward: one for each front part of a piece. -/
def backwardStates (pieces : List Utf8.Piece) : Nat → Nat
  | 0 => 0
  | depth + 1 => total ((branchOff pieces).map fun branch => 1 + backwardStates branch.2 depth)

/-- The bytes of the automaton that reads a character of a set forward; states that lead to the end by
the same pieces are one. -/
def forwardSetCost (pieces : List Utf8.Piece) : Nat :=
  let states := (forwardStates pieces 4).eraseDups
  stateCost + total (states.map fun state => stateCost + rangeCost * (branchOff state).length)

/-- The bytes of the automaton that reads a character of a set backward. -/
def backwardSetCost (pieces : List Utf8.Piece) : Nat :=
  2 * stateCost + linkCost * pieces.length + stateCost * backwardStates pieces 4

/-- The parts of a list between its empty words. -/
def chunks (words : List (List Nat)) : List (List (List Nat)) :=
  words.foldr (fun word parts =>
    match word, parts with
    | [], parts => [] :: parts
    | word, part :: parts => (word :: part) :: parts
    | word, [] => [[word]]) [[]]

/-- The bytes of the automaton that reads one of several words, without its end. Words with the same
front share the states that read it, unless a shorter word stands between them, as the earlier word
counts first. Words have at most `depth` bytes. -/
def wordsCost (words : List (List Nat)) : Nat → Nat
  | 0 => 0
  | depth + 1 =>
    if words.all List.isEmpty then 0
    else
      let parts := chunks words
      let reading := parts.filter fun part => !part.isEmpty
      let branches (part : List (List Nat)) := (part.filterMap List.head?).eraseDups
      let costs := reading.map fun part =>
        let heads := branches part
        let below := heads.map fun head =>
          wordsCost (part.filterMap fun word => if word.head? = some head then word.tail? else none) depth
        stateCost + (if heads.length = 1 then 0 else rangeCost * heads.length) + total below
      stateCost + linkCost * (reading.length + parts.length - 1) + total costs

/-! ## Sizes of patterns -/

/-- What a pattern is, as far as its size depends on it. -/
inductive Form where
  | empty
  | text (codes : List Nat)
  | set (codes : CodeSet)
  | other

/-- The size of a pattern in both directions, and how many bytes its matches have. There is no shortest
match where there is none at all, and no longest one where there is none or no bound. -/
structure Size where
  forward : Nat
  backward : Nat
  shortest : Option Nat
  longest : Option Nat
  form : Form

namespace Size

/-- The size of the empty pattern. -/
def empty : Size := ⟨stateCost, stateCost, some 0, some 0, .empty⟩

/-- The size of a condition on a position. -/
def look : Size := { empty with form := .other }

/-- The size of a text. -/
def ofText (codes : List Nat) : Size :=
  let bytes := (codes.flatMap Utf8.encode).length
  ⟨stateCost * bytes, stateCost * bytes, some bytes, some bytes, .text codes⟩

/-- The size of a set of characters; one of ASCII takes two states. -/
def ofSet (set : CodeSet) : Size :=
  let ranges := set.normal
  let bytes (range : Option (Nat × Nat)) := range.map fun range => (Utf8.encode range.2).length
  match ranges with
  | [(low, high)] => if low = high then ofText [low] else sized ranges bytes
  | ranges => sized ranges bytes
where
  /-- The size of a set that is no single character. -/
  sized (ranges : CodeSet) (bytes : Option (Nat × Nat) → Option Nat) : Size :=
    let shortest := bytes (ranges.head?.map fun range => (range.1, range.1))
    let longest := bytes ranges.getLast?
    if longest.all (· = 1) then
      let cost := 2 * stateCost + rangeCost * ranges.length
      ⟨cost, cost, shortest, longest, .set ranges⟩
    else
      let pieces := Utf8.pieces ranges
      ⟨forwardSetCost pieces, backwardSetCost pieces, shortest, longest, .set ranges⟩

/-- The size of two patterns one after the other. -/
def seq (first second : Size) : Size :=
  match first.form, second.form with
  | .empty, _ => second
  | _, .empty => first
  | a, b =>
    { forward := first.forward + second.forward
      backward := first.backward + second.backward
      shortest := do return (← first.shortest) + (← second.shortest)
      longest := do return (← first.longest) + (← second.longest)
      form := match a, b with
        | .text a, .text b => .text (a ++ b)
        | _, _ => .other }

/-- The size of a group that captures; backward nothing is captured. -/
def capture (body : Size) : Size := { body with forward := body.forward + 2 * stateCost, form := .other }

/-- The bytes of a repetition of a part that takes `body` bytes. -/
def repeatedCost (body : Nat) (consumes : Bool) (least : Nat) : Option Nat → Nat
  | none =>
    if 0 < least then least * body + stateCost + 2 * linkCost
    else if consumes then body + stateCost + 2 * linkCost
    else body + 3 * stateCost + 4 * linkCost
  | some most =>
    if least = most then least * body
    else if least = 0 ∧ most = 1 then body + 2 * stateCost + 2 * linkCost
    else (if least = 0 then stateCost else least * body) + stateCost +
      (most - least) * (body + stateCost + 2 * linkCost)

/-- The size of a repetition. A pattern that reads nothing is repeated once at most. -/
def repeated (least : Nat) (most : Option Nat) (body : Size) : Size :=
  let idle := body.longest = some 0
  let least := if idle then min least 1 else least
  let most := if idle then some (min (most.getD 1) 1) else most
  if most = some 0 then empty
  else if least = 1 ∧ most = some 1 then body
  else
    let consumes := body.shortest.any (0 < ·)
    { forward := repeatedCost body.forward consumes least most
      backward := repeatedCost body.backward consumes least most
      shortest := body.shortest.map (least * ·)
      longest := do return (← body.longest) * (← most)
      form := .other }

/-- The characters of a pattern that reads exactly one. -/
def codes? (size : Size) : Option CodeSet :=
  match size.form with
  | .text [code] => some [(code, code)]
  | .set codes => some codes
  | _ => none

/-- The characters of a text. -/
def text? (size : Size) : Option (List Nat) :=
  match size.form with
  | .text codes => some codes
  | _ => none

/-- The least or greatest of numbers all of which are there. -/
def bestOf (better : Nat → Nat → Nat) : List (Option Nat) → Option Nat
  | [] => none
  | [n] => n
  | n :: rest => do return better (← n) (← bestOf better rest)

/-- The size of a choice. One character out of several is one out of a set, and several texts share
their fronts. -/
def choice (branches : List Size) : Size :=
  match branches with
  | [branch] => branch
  | branches =>
    match branches.mapM codes? with
    | some sets => ofSet sets.flatten
    | none =>
      let shortest := bestOf min (branches.map Size.shortest)
      let longest := bestOf max (branches.map Size.longest)
      match branches.mapM text? with
      | some texts =>
        let words := texts.map (·.flatMap Utf8.encode)
        let depth := total (words.map List.length)
        ⟨stateCost + wordsCost words depth, stateCost + wordsCost (words.map List.reverse) depth,
          shortest, longest, .other⟩
      | none =>
        let joints := 2 * stateCost + linkCost * branches.length
        ⟨joints + total (branches.map Size.forward), joints + total (branches.map Size.backward),
          shortest, longest, .other⟩

end Size

/-- The sizes of the branches of a pattern, of which there is one if it is no choice. -/
def Pattern.branchSizes : Pattern → List Size
  | .empty => [.empty]
  | .chars set => [.ofSet set]
  | .look _ => [.look]
  | .seq first second => [.seq (.choice first.branchSizes) (.choice second.branchSizes)]
  | .alt left right => left.branchSizes ++ right.branchSizes
  | .repeated least most body => [.repeated least most (.choice body.branchSizes)]
  | .capture body => [.capture (.choice body.branchSizes)]

/-- The size of a pattern. -/
def Pattern.size (pattern : Pattern) : Size := .choice pattern.branchSizes

/-- Both automata stay within the limit, with what each takes to begin anywhere in a text, to capture the
match and to end. -/
def Pattern.fits (pattern : Pattern) : Bool :=
  let start := 3 * stateCost + rangeCost + 2 * linkCost
  let size := pattern.size
  start + 3 * stateCost + size.forward ≤ sizeLimit && start + stateCost + size.backward ≤ sizeLimit

end JsonSchema.Regex
