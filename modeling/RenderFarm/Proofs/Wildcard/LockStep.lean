import Mathlib.Data.List.Forall2
import Mathlib.Data.List.Perm.Basic
import RenderFarm.Proofs.Random
import RenderFarm.Wildcard.Expand

/-!
Fields that are expanded together read their placeholders off one table of draws, although the draws are made
only when a field first asks for them. Two things carry this: a draw that was made never changes, and the
draws of a name, together with what is left of its pool, always make up the pool.
-/

namespace RenderFarm.Wildcard

theorem nameEnd?_eq {s name : List Char} (found : nameEnd? s = some name) :
    ∃ rest, s = name ++ '_' :: '_' :: rest := by
  induction s using nameEnd?.induct generalizing name with
  | case1 rest =>
    rw [nameEnd?] at found
    cases found
    exact ⟨rest, rfl⟩
  | case2 c s more isName ih =>
    rw [nameEnd?.eq_2 _ _ more, if_pos isName] at found
    obtain ⟨_, further, rfl⟩ := Option.map_eq_some_iff.mp found
    obtain ⟨rest, rfl⟩ := ih further
    exact ⟨rest, rfl⟩
  | case3 c s more isName =>
    rw [nameEnd?.eq_2 _ _ more, if_neg isName] at found
    cases found
  | case4 => cases found

theorem nameAt?_eq {s name : List Char} (found : nameAt? s = some name) :
    ∃ rest, s = Piece.chars (.reference name) ++ rest := by
  unfold nameAt? at found
  split at found
  · split at found
    · obtain ⟨_, further, rfl⟩ := Option.map_eq_some_iff.mp found
      obtain ⟨rest, rfl⟩ := nameEnd?_eq further
      exact ⟨rest, by simp [Piece.chars]⟩
    · cases found
  · cases found

theorem flatMap_chars_piecesFrom (skip : Nat) (s : List Char) :
    (piecesFrom skip s).flatMap Piece.chars = s.drop skip := by
  induction s generalizing skip with
  | nil => simp [piecesFrom]
  | cons c s ih =>
    cases skip with
    | succ skip => exact ih skip
    | zero =>
      unfold piecesFrom
      split
      · rename_i name found
        obtain ⟨rest, split⟩ := nameAt?_eq found
        rw [List.flatMap_cons, ih, List.drop_zero, split]
        simp only [Piece.chars, List.cons_append, List.cons.injEq] at split
        simp [split.2, List.drop_append, Piece.chars]
      · rw [List.flatMap_cons, ih]
        rfl

/-- The pieces of a text, one after another, are the text. -/
theorem flatMap_chars_pieces (s : List Char) : (pieces s).flatMap Piece.chars = s :=
  flatMap_chars_piecesFrom 0 s

/-- The name that a piece refers to, in lower case. -/
def Piece.name? : Piece → Option String
  | .char _ => none
  | .reference name => some (String.ofList (Chars.lower name))

/-- What a piece stands for after the names met so far: the draw with the number of times that its name was
met, if the name has a list, and else the piece as it is written. -/
def readPiece? (t : WildcardTable) (D : String → List String) (met : List String) (p : Piece) :
    Option (List Char) :=
  match p.name? with
  | none => some p.chars
  | some name => if t.hasKey name then (D name)[met.count name]?.map String.toList else some p.chars

/-- What pieces stand for, read from left to right. -/
def readPieces? (t : WildcardTable) (D : String → List String) :
    List String → List Piece → Option (List Char)
  | _, [] => some []
  | met, p :: ps =>
    (readPiece? t D met p).bind fun here =>
      (readPieces? t D (met ++ p.name?.toList) ps).map (here ++ ·)

/-- Reads a text again and again as long as a name in it has a list, at most a number of times. The names met
in one reading count in the next. -/
def readPasses? (t : WildcardTable) (D : String → List String) :
    Nat → List String → List Char → Option (List Char)
  | 0, _, s => some s
  | passes + 1, met, s =>
    if (pieces s).any (isKnown t) then
      (readPieces? t D met (pieces s)).bind
        (readPasses? t D passes (met ++ (pieces s).filterMap Piece.name?))
    else some s

/-- What a field stands for; it is read at most sixteen times. -/
def readField? (t : WildcardTable) (D : String → List String) (field : String) : Option String :=
  (readPasses? t D 16 [] field.toList).map String.ofList

section Reading

variable {t : WildcardTable} {D : String → List String} {met : List String} {p : Piece} {ps : List Piece}
variable {out : List Char}

/-- A placeholder that names a list stands for its draw. -/
theorem readPieces?_known {name token : String} {k : Nat} (named : p.name? = some name)
    (known : t.hasKey name) (times : k = met.count name) (drawn : (D name)[k]? = some token)
    (rest : readPieces? t D (met ++ [name]) ps = some out) :
    readPieces? t D met (p :: ps) = some (token.toList ++ out) := by
  subst times
  simp only [readPieces?, readPiece?, named, known, drawn, if_true, Option.map_some, Option.bind_some,
    Option.toList_some, rest]

/-- All else stands for itself. -/
theorem readPieces?_other (other : ∀ name ∈ p.name?, ¬ t.hasKey name)
    (rest : readPieces? t D (met ++ p.name?.toList) ps = some out) :
    readPieces? t D met (p :: ps) = some (p.chars ++ out) := by
  have here : readPiece? t D met p = some p.chars := by
    unfold readPiece?
    split
    · rfl
    · rename_i name named
      rw [if_neg (other name named)]
  rw [readPieces?, here, rest]
  rfl

end Reading

/-! ## Decks -/

/-- The item that is taken out and what is left are the items that there were. -/
theorem perm_swapRemove {xs : List String} {i : Nat} (inside : i < xs.length) :
    (xs[i] :: swapRemove xs i).Perm xs := by
  unfold swapRemove
  cases ends : xs.getLast? with
  | none =>
    rw [List.getLast?_eq_none_iff.mp ends] at inside
    exact absurd inside (Nat.not_lt_zero i)
  | some last =>
    have lastSet : last ∈ (xs.set i last).getLast? := by
      rw [List.getLast?_eq_getElem?] at ends ⊢
      rw [List.length_set, List.getElem?_set]
      split
      · simp
      · exact ends
    have removed : (xs.set i last).dropLast.Perm (xs.eraseIdx i) := by
      refine List.Perm.cons_inv (a := last) ?_
      refine (List.perm_append_singleton last _).symm.trans ?_
      rw [List.dropLast_append_getLast? last lastSet]
      exact List.set_perm_cons_eraseIdx inside last
    exact (removed.cons xs[i]).trans (List.getElem_cons_eraseIdx_perm inside)

namespace Deck

/-- A deck over a pool: the tokens drawn and those left are the pool, and only when none is left do empty
texts follow. -/
def Fair (pool : List String) (d : Deck) : Prop :=
  ∃ taken n, d.drawn = taken ++ List.replicate n "" ∧ (taken ++ d.remaining).Perm pool ∧
    (n = 0 ∨ d.remaining = [])

variable {pool : List String} {d : Deck}

variable {γ : Type} [Generator γ]

/-- One more draw keeps a deck fair, and those made before. -/
theorem drawOne_spec (fair : d.Fair pool) (g : γ) :
    (d.drawOne g).1.Fair pool ∧ ∃ token, (d.drawOne g).1.drawn = d.drawn ++ [token] := by
  obtain ⟨taken, n, drawn, perm, exhausted⟩ := fair
  unfold drawOne
  by_cases spent : d.remaining = []
  · rw [if_pos (by simp [spent])]
    refine ⟨⟨taken, n + 1, ?_, perm, .inr spent⟩, _, rfl⟩
    rw [drawn, List.append_assoc, ← List.replicate_succ']
  · rw [if_neg (by simpa using spent)]
    have none : n = 0 := exhausted.resolve_right spent
    have inside := Random.position_lt (List.length_pos_iff.mpr spent) g
    refine ⟨⟨taken ++ [d.remaining.getD (Random.position d.remaining.length g).1 ""], 0, ?_, ?_, .inl rfl⟩,
      _, rfl⟩
    · simp [drawn, none]
    · refine List.Perm.trans ?_ perm
      rw [List.append_assoc, List.singleton_append, List.getD_eq_getElem?_getD,
        List.getElem?_eq_getElem inside, Option.getD_some]
      exact (perm_swapRemove inside).append_left taken

/-- Every draw adds one to those that were made. -/
theorem length_drawMore (d : Deck) (n : Nat) (g : γ) :
    (d.drawMore n g).1.drawn.length = d.drawn.length + n := by
  induction n generalizing d g with
  | zero => rfl
  | succ n ih =>
    have one : (d.drawOne g).1.drawn.length = d.drawn.length + 1 := by
      unfold drawOne
      split <;> simp
    have more := ih (d.drawOne g).1 (d.drawOne g).2
    rw [one] at more
    exact more.trans (by omega)

/-- A number of draws keeps a deck fair, and those made before. -/
theorem drawMore_spec (fair : d.Fair pool) (n : Nat) (g : γ) :
    (d.drawMore n g).1.Fair pool ∧ d.drawn <+: (d.drawMore n g).1.drawn ∧
      (d.drawMore n g).1.drawn.length = d.drawn.length + n := by
  induction n generalizing d g with
  | zero => exact ⟨fair, List.prefix_refl _, rfl⟩
  | succ n ih =>
    obtain ⟨fairOne, token, one⟩ := drawOne_spec fair g
    obtain ⟨fairMore, kept, -⟩ := ih fairOne (d.drawOne g).2
    rw [one] at kept
    exact ⟨fairMore, (List.prefix_append _ _).trans kept, d.length_drawMore (n + 1) g⟩

end Deck

/-! ## Draws -/

theorem lookup_cons_eq {α : Type} (key name : String) (a : α) (entries : List (String × α)) :
    ((key, a) :: entries).lookup name = if name = key then some a else entries.lookup name := by
  rw [List.lookup_cons]
  by_cases same : name = key
  · simp [same]
  · rw [beq_false_of_ne same, if_neg same]

theorem lookup_put {α : Type} (key name : String) (a : α) (entries : List (String × α)) :
    (put key a entries).lookup name = if name = key then some a else entries.lookup name := by
  induction entries with
  | nil => exact lookup_cons_eq key name a []
  | cons e rest ih =>
    obtain ⟨other, b⟩ := e
    unfold put
    by_cases here : other = key
    · subst here
      rw [if_pos rfl, lookup_cons_eq, lookup_cons_eq]
      split <;> rfl
    · rw [if_neg here, lookup_cons_eq, lookup_cons_eq, ih]
      by_cases met : name = other
      · rw [if_pos met, if_neg (met ▸ here), if_pos met]
      · rw [if_neg met, if_neg met]

/-- The draws made so far. -/
def drawsOf (t : WildcardTable) (decks : Decks) (name : String) : List String :=
  (deckOf t decks name).drawn

/-- Every deck is fair. -/
def Fair (t : WildcardTable) (decks : Decks) : Prop :=
  ∀ name, (deckOf t decks name).Fair (t.pool name)

/-- A table that has all draws of another one, in the same places. -/
def Within (D D' : String → List String) : Prop :=
  ∀ name, D name <+: D' name

theorem Within.refl (D : String → List String) : Within D D :=
  fun _ => List.prefix_refl _

theorem Within.trans {D D' D'' : String → List String} (h : Within D D') (h' : Within D' D'') :
    Within D D'' :=
  fun name => (h name).trans (h' name)

/-- A draw of the smaller table is one of the larger. -/
theorem Within.getElem? {D D' : String → List String} (h : Within D D') {name token : String} {k : Nat}
    (drawn : (D name)[k]? = some token) : (D' name)[k]? = some token := by
  obtain ⟨rest, same⟩ := h name
  rw [← same, List.getElem?_append_left (List.getElem?_eq_some_iff.mp drawn).1]
  exact drawn

section Expand

variable {t : WildcardTable} {decks : Decks}

theorem deckOf_put (key name : String) (d : Deck) :
    deckOf t (put key d decks) name = if name = key then d else deckOf t decks name := by
  unfold deckOf
  rw [lookup_put]
  split <;> rfl

theorem fair_nil : Fair t [] :=
  fun name => ⟨[], 0, rfl, List.Perm.refl (t.pool name), .inl rfl⟩

variable {γ : Type} [Generator γ]

/-- A draw that is looked up is there afterwards, and those made before stay as they were. -/
theorem draw_spec (fair : Fair t decks) (key : String) (k : Nat) (g : γ) :
    Fair t (draw t key k decks g).2.1 ∧ Within (drawsOf t decks) (drawsOf t (draw t key k decks g).2.1) ∧
      (drawsOf t (draw t key k decks g).2.1 key)[k]? = some (draw t key k decks g).1 := by
  obtain ⟨fairDeck, kept, length⟩ :=
    Deck.drawMore_spec (fair key) (k + 1 - (deckOf t decks key).drawn.length) g
  unfold draw
  dsimp only
  refine ⟨fun name => ?_, fun name => ?_, ?_⟩
  · rw [deckOf_put]
    split
    · rename_i same
      exact same ▸ fairDeck
    · exact fair name
  · unfold drawsOf
    rw [deckOf_put]
    split
    · rename_i same
      exact same ▸ kept
    · exact List.prefix_refl _
  · unfold drawsOf
    rw [deckOf_put, if_pos rfl, List.getD_eq_getElem?_getD, List.getElem?_eq_getElem (by omega),
      Option.getD_some]

/-! ## Expanding -/

/-- The counts of the names that have lists say how often each was met. -/
def Counts (t : WildcardTable) (seen : Occurrences) (met : List String) : Prop :=
  ∀ name, t.hasKey name → (seen.lookup name).getD 0 = met.count name

variable {seen : Occurrences} {met : List String}

theorem Counts.other (counts : Counts t seen met) {name : String} (unknown : ¬ t.hasKey name) :
    Counts t seen (met ++ [name]) := by
  intro key known
  have apart : name ≠ key := by
    rintro rfl
    exact unknown known
  rw [counts key known, List.count_append, List.count_singleton, if_neg (by simpa using apart), Nat.add_zero]

theorem Counts.known (counts : Counts t seen met) {name : String} (known : t.hasKey name) :
    Counts t (put name ((seen.lookup name).getD 0 + 1) seen) (met ++ [name]) := by
  intro key hasKey
  rw [lookup_put, List.count_append, List.count_singleton]
  by_cases same : key = name
  · rw [if_pos same, Option.getD_some, counts name known, if_pos (by simp [same]), same]
  · rw [if_neg same, counts key hasKey, if_neg (by simpa using Ne.symm same), Nat.add_zero]

/-- Pieces are expanded to what they stand for by every table that has the draws made up to then. -/
theorem expandPieces_spec (fair : Fair t decks) (counts : Counts t seen met) (ps : List Piece) (g : γ) :
    Fair t (expandPieces t ps seen decks g).2.2.1 ∧
      Within (drawsOf t decks) (drawsOf t (expandPieces t ps seen decks g).2.2.1) ∧
      Counts t (expandPieces t ps seen decks g).2.1 (met ++ ps.filterMap Piece.name?) ∧
      ∀ D, Within (drawsOf t (expandPieces t ps seen decks g).2.2.1) D →
        readPieces? t D met ps = some (expandPieces t ps seen decks g).1 := by
  induction ps generalizing decks seen met g with
  | nil =>
    refine ⟨fair, .refl _, ?_, fun _ _ => rfl⟩
    rw [List.filterMap_nil, List.append_nil]
    exact counts
  | cons p ps ih =>
    cases p with
    | char c =>
      obtain ⟨fair', kept, counts', reads⟩ := ih fair counts g
      refine ⟨fair', kept, counts', fun D covers => ?_⟩
      exact readPieces?_other (p := .char c) (by simp [Piece.name?]) (by simpa [Piece.name?] using reads D covers)
    | reference name =>
      unfold expandPieces
      dsimp only
      generalize lowered : String.ofList (Chars.lower name) = key
      have named : (Piece.reference name).name? = some key := congrArg some lowered
      rw [List.filterMap_cons_some named, ← List.singleton_append, ← List.append_assoc]
      by_cases known : t.hasKey key
      · rw [if_pos known]
        obtain ⟨fairDraw, keptDraw, drawn⟩ := draw_spec fair key ((seen.lookup key).getD 0) g
        obtain ⟨fair', kept, counts', reads⟩ := ih fairDraw (counts.known known) _
        refine ⟨fair', keptDraw.trans kept, counts', fun D covers => ?_⟩
        -- The draw is still in the table when all is expanded, so it can be read off there.
        have later := (kept.trans covers).getElem? drawn
        exact readPieces?_known named known (counts key known) later (reads D covers)
      · rw [if_neg known]
        obtain ⟨fair', kept, counts', reads⟩ := ih fair (counts.other known) g
        refine ⟨fair', kept, counts', fun D covers => ?_⟩
        refine readPieces?_other ?_ (by simpa [named] using reads D covers)
        simpa [named] using known

/-- A text is expanded to what every table that has the draws made up to then reads it as. -/
theorem expandPasses_spec (fair : Fair t decks) (counts : Counts t seen met) (passes : Nat) (s : List Char)
    (g : γ) :
    Fair t (expandPasses t passes s seen decks g).2.1 ∧
      Within (drawsOf t decks) (drawsOf t (expandPasses t passes s seen decks g).2.1) ∧
      ∀ D, Within (drawsOf t (expandPasses t passes s seen decks g).2.1) D →
        readPasses? t D passes met s = some (expandPasses t passes s seen decks g).1 := by
  induction passes generalizing s seen met decks g with
  | zero => exact ⟨fair, .refl _, fun _ _ => rfl⟩
  | succ passes ih =>
    unfold expandPasses readPasses?
    dsimp only
    split
    · obtain ⟨fair', kept, counts', reads⟩ := expandPieces_spec fair counts (pieces s) g
      obtain ⟨fair'', kept', reads'⟩ := ih fair' counts' _ _
      refine ⟨fair'', kept.trans kept', fun D covers => ?_⟩
      rw [reads D (kept'.trans covers), Option.bind_some]
      exact reads' D covers
    · exact ⟨fair, .refl _, fun _ _ => rfl⟩

theorem expandField_spec (fair : Fair t decks) (field : String) (g : γ) :
    Fair t (expandField t field decks g).2.1 ∧
      Within (drawsOf t decks) (drawsOf t (expandField t field decks g).2.1) ∧
      ∀ D, Within (drawsOf t (expandField t field decks g).2.1) D →
        readField? t D field = some (expandField t field decks g).1 := by
  have counts : Counts t [] [] := fun _ _ => rfl
  obtain ⟨fair', kept, reads⟩ := expandPasses_spec fair counts maxPasses field.toList g
  refine ⟨fair', kept, fun D covers => ?_⟩
  exact congrArg (Option.map String.ofList) (reads D covers)

/-- All fields are read off the draws that were made in the end. -/
theorem expandAll_spec (fair : Fair t decks) (fields : List String) (g : γ) :
    Fair t (expandAll t fields decks g).2.1 ∧
      Within (drawsOf t decks) (drawsOf t (expandAll t fields decks g).2.1) ∧
      ∀ D, Within (drawsOf t (expandAll t fields decks g).2.1) D →
        List.Forall₂ (fun field out => readField? t D field = some out) fields
          (expandAll t fields decks g).1 := by
  induction fields generalizing decks g with
  | nil => exact ⟨fair, .refl _, fun _ _ => .nil⟩
  | cons field fields ih =>
    obtain ⟨fair', kept, reads⟩ := expandField_spec fair field g
    obtain ⟨fair'', kept', reads'⟩ := ih fair' (expandField t field decks g).2.2
    exact ⟨fair'', kept.trans kept', fun D covers => .cons (reads D (kept'.trans covers)) (reads' D covers)⟩

end Expand

variable {γ : Type} [Generator γ]

end RenderFarm.Wildcard
