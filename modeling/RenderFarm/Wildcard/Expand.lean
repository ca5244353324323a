import RenderFarm.Random
import RenderFarm.Wildcard.Table

/-!
Wildcard expansion. Draws from a pool are made without replacement, and the k-th occurrence of a name gets
the same draw in every field that is expanded together; a pool that is used up gives empty texts. Tokens
that bring in placeholders of their own are expanded again, up to sixteen times.
-/

namespace RenderFarm.Wildcard

/-- The tokens of a pool that are left, and those drawn, in the order drawn. -/
structure Deck where
  remaining : List String
  drawn : List String := []
deriving DecidableEq, Repr

/-- Takes out the token at a position; the last one moves into its place. -/
def swapRemove (xs : List String) (i : Nat) : List String :=
  match xs.getLast? with
  | some last => (xs.set i last).dropLast
  | none => []

variable {γ : Type} [Generator γ]

/-- Draws once more. -/
def Deck.drawOne (d : Deck) (g : γ) : Deck × γ :=
  if d.remaining.isEmpty then ({ d with drawn := d.drawn ++ [""] }, g)
  else
    let (i, g) := Random.position d.remaining.length g
    (⟨swapRemove d.remaining i, d.drawn ++ [d.remaining.getD i ""]⟩, g)

/-- Draws a number of times. -/
def Deck.drawMore (d : Deck) : Nat → γ → Deck × γ
  | 0, g => (d, g)
  | n + 1, g =>
    let (d, g) := d.drawOne g
    d.drawMore n g

/-- The decks of the names drawn from so far. -/
abbrev Decks := List (String × Deck)

/-- Puts a value under a key; one that was there before is replaced. -/
def put {α : Type} (key : String) (a : α) : List (String × α) → List (String × α)
  | [] => [(key, a)]
  | (k, b) :: rest => if k = key then (key, a) :: rest else (k, b) :: put key a rest

/-- The deck of a name; it starts out as the whole pool. -/
def deckOf (t : WildcardTable) (decks : Decks) (key : String) : Deck :=
  (decks.lookup key).getD ⟨t.pool key, []⟩

/-- The draw for the occurrence of a name with this number, made now unless it was made before. -/
def draw (t : WildcardTable) (key : String) (occurrence : Nat) (decks : Decks) (g : γ) :
    String × Decks × γ :=
  let deck := deckOf t decks key
  let (deck, g) := deck.drawMore (occurrence + 1 - deck.drawn.length) g
  (deck.drawn.getD occurrence "", put key deck decks, g)

/-- How often each name has occurred in a field. -/
abbrev Occurrences := List (String × Nat)

/-- Whether a piece is a placeholder that names a list. -/
def isKnown (t : WildcardTable) : Piece → Bool
  | .char _ => false
  | .reference name => t.hasKey (String.ofList (Chars.lower name))

/-- Replaces the placeholders of one pass from left to right. -/
def expandPieces (t : WildcardTable) :
    List Piece → Occurrences → Decks → γ → List Char × Occurrences × Decks × γ
  | [], seen, decks, g => ([], seen, decks, g)
  | p :: ps, seen, decks, g =>
    match p with
    | .char c =>
      let (rest, seen, decks, g) := expandPieces t ps seen decks g
      (c :: rest, seen, decks, g)
    | .reference name =>
      let key := String.ofList (Chars.lower name)
      if t.hasKey key then
        let k := (seen.lookup key).getD 0
        let (token, decks, g) := draw t key k decks g
        let (rest, seen, decks, g) := expandPieces t ps (put key (k + 1) seen) decks g
        (token.toList ++ rest, seen, decks, g)
      else
        let (rest, seen, decks, g) := expandPieces t ps seen decks g
        (Piece.chars (.reference name) ++ rest, seen, decks, g)

/-- Makes up to a number of passes, as long as there is a placeholder that names a list. -/
def expandPasses (t : WildcardTable) :
    Nat → List Char → Occurrences → Decks → γ → List Char × Decks × γ
  | 0, s, _, decks, g => (s, decks, g)
  | passes + 1, s, seen, decks, g =>
    let ps := pieces s
    if ps.any (isKnown t) then
      let (s, seen, decks, g) := expandPieces t ps seen decks g
      expandPasses t passes s seen decks g
    else (s, decks, g)

/-- The greatest number of passes over a field. -/
def maxPasses : Nat := 16

/-- Expands a field with the draws made so far. -/
def expandField (t : WildcardTable) (s : String) (decks : Decks) (g : γ) : String × Decks × γ :=
  let (cs, decks, g) := expandPasses t maxPasses s.toList [] decks g
  (String.ofList cs, decks, g)

/-- Expands a single text. -/
def expand (t : WildcardTable) (s : String) (g : γ) : String × γ :=
  let (s, _, g) := expandField t s [] g
  (s, g)

/-- Expands fields in order with the same draws. -/
def expandAll (t : WildcardTable) : List String → Decks → γ → List String × Decks × γ
  | [], decks, g => ([], decks, g)
  | s :: fields, decks, g =>
    let (s, decks, g) := expandField t s decks g
    let (fields, decks, g) := expandAll t fields decks g
    (s :: fields, decks, g)

/-- Expands fields in lock-step. -/
def expandFields (t : WildcardTable) (fields : List String) (g : γ) : List String × γ :=
  if t.isEmpty then (fields, g)
  else
    let (fields, _, g) := expandAll t fields [] g
    (fields, g)

end RenderFarm.Wildcard
