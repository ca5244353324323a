import RenderFarm.Proofs.Wildcard.LockStep

/-!
When a placeholder that is a field of its own comes to the same text as the placeholder within another field. Blanks
keep that text apart from what stands beside it, so the other field can be read in three parts. The part in the middle
reads on like the field of its own as long as no name that comes up in it has been met beside it. Where one has, the
placeholder has another number in that field, and stands for another draw.
-/

namespace RenderFarm.Wildcard

/-! ## Blanks between texts -/

/-- No name goes on over a blank. -/
theorem nameEnd?_blank (s rest : List Char) : nameEnd? (s ++ ' ' :: rest) = nameEnd? s := by
  induction s with
  | nil => simp [nameEnd?, isNameChar]
  | cons c s ih =>
    by_cases ends : ∃ tail, c = '_' ∧ s = '_' :: tail
    · obtain ⟨tail, rfl, rfl⟩ := ends
      rfl
    · have here : ∀ tail, c = '_' → s = '_' :: tail → False :=
        fun tail first second => ends ⟨tail, first, second⟩
      have there : ∀ tail, c = '_' → s ++ ' ' :: rest = '_' :: tail → False := by
        intro tail first second
        cases s with
        | nil => simp at second
        | cons d s => exact here s first (by simp_all)
      rw [List.cons_append, nameEnd?.eq_2 _ _ here, nameEnd?.eq_2 _ _ there, ih]

theorem nameAt?_blank (s rest : List Char) : nameAt? (s ++ ' ' :: rest) = nameAt? s := by
  by_cases marked : ∃ c tail, s = '_' :: '_' :: c :: tail
  · obtain ⟨c, tail, rfl⟩ := marked
    simp only [List.cons_append, nameAt?, nameEnd?_blank]
  · have here : ∀ c tail, s = '_' :: '_' :: c :: tail → False := fun c tail same => marked ⟨c, tail, same⟩
    rw [nameAt?.eq_2 _ here]
    -- The text may still end with two marks; what comes after them is the blank then.
    unfold nameAt?
    split
    · rename_i c tail same
      match s with
      | [] => simp at same
      | [_] => simp at same
      | [_, _] =>
        obtain ⟨-, -, rfl, -⟩ : _ ∧ _ ∧ ' ' = c ∧ _ := by simpa using same
        rfl
      | _ :: _ :: d :: tail => exact absurd (by simp_all) (here d tail)
    · rfl

theorem piecesFrom_blank {skip : Nat} {s : List Char} (inside : skip ≤ s.length) (rest : List Char) :
    piecesFrom skip (s ++ ' ' :: rest) = piecesFrom skip s ++ .char ' ' :: pieces rest := by
  induction s generalizing skip with
  | nil =>
    obtain rfl : skip = 0 := Nat.le_zero.mp inside
    rfl
  | cons c s ih =>
    cases skip with
    | succ skip => exact ih (Nat.le_of_succ_le_succ inside)
    | zero =>
      have same : nameAt? (c :: (s ++ ' ' :: rest)) = nameAt? (c :: s) := nameAt?_blank (c :: s) rest
      rw [List.cons_append, piecesFrom, piecesFrom, same]
      cases found : nameAt? (c :: s) with
      | none => exact congrArg (Piece.char c :: ·) (ih (Nat.zero_le _))
      | some name =>
        obtain ⟨tail, split⟩ := nameAt?_eq found
        have length := congrArg List.length split
        simp only [Piece.chars, List.length_cons, List.length_append, List.length_nil] at length
        exact congrArg (Piece.reference name :: ·) (ih (by omega))

/-- What stands on both sides of a blank is read by itself. -/
theorem pieces_blank (s rest : List Char) : pieces (s ++ ' ' :: rest) = pieces s ++ .char ' ' :: pieces rest :=
  piecesFrom_blank (Nat.zero_le _) rest

/-- A text after which nothing joins on: it is empty or ends with a blank. -/
def EndsBlank (s : List Char) : Prop :=
  s = [] ∨ ∃ front, s = front ++ [' ']

/-- A text that joins on to nothing: it is empty or starts with a blank. -/
def StartsBlank (s : List Char) : Prop :=
  s = [] ∨ ∃ rest, s = ' ' :: rest

theorem EndsBlank.pieces_append {s : List Char} (ends : EndsBlank s) (rest : List Char) :
    pieces (s ++ rest) = pieces s ++ pieces rest := by
  obtain rfl | ⟨front, rfl⟩ := ends
  · rfl
  · rw [List.append_assoc, List.singleton_append, pieces_blank, pieces_blank, List.append_assoc]
    rfl

theorem StartsBlank.pieces_append {rest : List Char} (starts : StartsBlank rest) (s : List Char) :
    pieces (s ++ rest) = pieces s ++ pieces rest := by
  obtain rfl | ⟨rest, rfl⟩ := starts
  · rw [List.append_nil]
    exact (List.append_nil _).symm
  · rw [pieces_blank]
    exact congrArg (pieces s ++ ·) (pieces_blank [] rest).symm

/-! ## Reading texts one after another -/

/-- The names that a text refers to, in lower case. -/
def names (s : List Char) : List String :=
  (pieces s).filterMap Piece.name?

section Reading

variable {t : WildcardTable} {D : String → List String} {met met' : List String} {ps qs : List Piece}
variable {s out : List Char}

theorem readPieces?_append (met : List String) (ps qs : List Piece) :
    readPieces? t D met (ps ++ qs) = (readPieces? t D met ps).bind fun first =>
      (readPieces? t D (met ++ ps.filterMap Piece.name?) qs).map (first ++ ·) := by
  induction ps generalizing met with
  | nil => simp [readPieces?]
  | cons p ps ih =>
    have split : met ++ (p :: ps).filterMap Piece.name? = met ++ p.name?.toList ++ ps.filterMap Piece.name? := by
      cases named : p.name? <;> simp [named]
    rw [split, List.cons_append, readPieces?, readPieces?, ih, Option.bind_assoc]
    simp only [Option.bind_map, Option.map_bind, Option.map_map, Function.comp_def, List.append_assoc]

/-- Pieces that are read one after another are read to two texts, the names of the first counting in the second. -/
theorem exists_of_readPieces?_append (read : readPieces? t D met (ps ++ qs) = some out) :
    ∃ first second, readPieces? t D met ps = some first ∧
      readPieces? t D (met ++ ps.filterMap Piece.name?) qs = some second ∧ out = first ++ second := by
  rw [readPieces?_append, Option.bind_eq_some_iff] at read
  obtain ⟨first, here, later⟩ := read
  obtain ⟨second, there, rfl⟩ := Option.map_eq_some_iff.mp later
  exact ⟨first, second, here, there, rfl⟩

/-- Only how often the names of lists were met counts. -/
theorem readPieces?_congr
    (same : ∀ name ∈ ps.filterMap Piece.name?, t.hasKey name → met.count name = met'.count name) :
    readPieces? t D met ps = readPieces? t D met' ps := by
  induction ps generalizing met met' with
  | nil => rfl
  | cons p ps ih =>
    have here : readPiece? t D met p = readPiece? t D met' p := by
      unfold readPiece?
      cases named : p.name? with
      | none => rfl
      | some name =>
        dsimp only
        split
        · rename_i known
          rw [same name (by simp [named]) known]
        · rfl
    have later : readPieces? t D (met ++ p.name?.toList) ps = readPieces? t D (met' ++ p.name?.toList) ps := by
      refine ih fun name mem known => ?_
      have among : name ∈ (p :: ps).filterMap Piece.name? := by
        rw [List.filterMap_cons]
        split
        · exact mem
        · exact List.mem_cons_of_mem _ mem
      rw [List.count_append, List.count_append, same name among known]
    rw [readPieces?, readPieces?, here, later]

theorem readPieces?_of_unknown (unknown : ∀ p ∈ ps, ∀ name ∈ p.name?, ¬ t.hasKey name) :
    readPieces? t D met ps = some (ps.flatMap Piece.chars) := by
  induction ps generalizing met with
  | nil => rfl
  | cons p ps ih =>
    obtain ⟨first, later⟩ := List.forall_mem_cons.mp unknown
    exact readPieces?_other first (ih later)

theorem any_isKnown_iff : (pieces s).any (isKnown t) ↔ ∃ name ∈ names s, t.hasKey name := by
  rw [List.any_eq_true]
  constructor
  · rintro ⟨p, mem, known⟩
    cases p with
    | char c => cases known
    | reference name => exact ⟨_, List.mem_filterMap.mpr ⟨_, mem, rfl⟩, known⟩
  · rintro ⟨name, met, known⟩
    obtain ⟨p, mem, named⟩ := List.mem_filterMap.mp met
    cases p with
    | char c => cases named
    | reference written =>
      obtain rfl := Option.some.inj named
      exact ⟨_, mem, known⟩

/-- A text without placeholders of lists stands for itself. -/
theorem readPieces?_of_bare (bare : ∀ name ∈ names s, ¬ t.hasKey name) :
    readPieces? t D met (pieces s) = some s := by
  have unknown : ∀ p ∈ pieces s, ∀ name ∈ p.name?, ¬ t.hasKey name := fun p mem name named =>
    bare name (List.mem_filterMap.mpr ⟨p, mem, named⟩)
  rw [readPieces?_of_unknown unknown, flatMap_chars_pieces]

/-- What ends with a blank does so after a reading. -/
theorem EndsBlank.read (ends : EndsBlank s) (read : readPieces? t D met (pieces s) = some out) : EndsBlank out := by
  obtain rfl | ⟨front, rfl⟩ := ends
  · obtain rfl : [] = out := Option.some.inj read
    exact .inl rfl
  · rw [pieces_blank] at read
    obtain ⟨first, second, -, blank, rfl⟩ := exists_of_readPieces?_append read
    obtain rfl : [' '] = second := Option.some.inj blank
    exact .inr ⟨first, rfl⟩

/-- What starts with a blank does so after a reading. -/
theorem StartsBlank.read (starts : StartsBlank s) (read : readPieces? t D met (pieces s) = some out) :
    StartsBlank out := by
  obtain rfl | ⟨rest, rfl⟩ := starts
  · obtain rfl : [] = out := Option.some.inj read
    exact .inl rfl
  · have split : pieces (' ' :: rest) = [.char ' '] ++ pieces rest := pieces_blank [] rest
    rw [split] at read
    obtain ⟨first, second, blank, -, rfl⟩ := exists_of_readPieces?_append read
    obtain rfl : [' '] = first := Option.some.inj blank
    exact .inr ⟨second, rfl⟩

theorem readPasses?_of_bare (bare : ∀ name ∈ names s, ¬ t.hasKey name) (passes : Nat) :
    readPasses? t D passes met s = some s := by
  have unknown : ¬ (pieces s).any (isKnown t) := fun known =>
    have ⟨name, mem, hasKey⟩ := any_isKnown_iff.mp known
    bare name mem hasKey
  cases passes with
  | zero => rfl
  | succ passes => rw [readPasses?, if_neg unknown]

/-- A reading is followed by the others, also where it changes nothing. -/
theorem readPasses?_succ (passes : Nat) :
    readPasses? t D (passes + 1) met s =
      (readPieces? t D met (pieces s)).bind (readPasses? t D passes (met ++ names s)) := by
  rw [readPasses?]
  split
  · rfl
  · rename_i unknown
    have bare : ∀ name ∈ names s, ¬ t.hasKey name := fun name mem hasKey =>
      unknown (any_isKnown_iff.mpr ⟨name, mem, hasKey⟩)
    rw [readPieces?_of_bare bare, Option.bind_some, readPasses?_of_bare bare]

/-- The names of lists were met equally often. -/
def SameCounts (t : WildcardTable) (met met' : List String) : Prop :=
  ∀ name, t.hasKey name → met.count name = met'.count name

theorem SameCounts.append (same : SameCounts t met met') (more : List String) :
    SameCounts t (met ++ more) (met' ++ more) := by
  intro name known
  rw [List.count_append, List.count_append, same name known]

theorem SameCounts.read (same : SameCounts t met met') (ps : List Piece) :
    readPieces? t D met ps = readPieces? t D met' ps :=
  readPieces?_congr fun name _ known => same name known

end Reading

/-! ## A text in three parts -/

/-- A text in three parts, with the names met so far, those in the part in the middle and those beside it. -/
structure Parts where
  before : List Char
  middle : List Char
  after : List Char
  within : List String := []
  beside : List String := []

namespace Parts

variable (t : WildcardTable) (D : String → List String)

/-- The whole text. -/
def text (p : Parts) : List Char :=
  p.before ++ p.middle ++ p.after

/-- All names met so far. -/
def met (p : Parts) : List String :=
  p.within ++ p.beside

/-- Reads all parts once, from left to right. -/
def next? (p : Parts) : Option Parts := do
  let before ← readPieces? t D p.met (pieces p.before)
  let middle ← readPieces? t D (p.met ++ names p.before) (pieces p.middle)
  let after ← readPieces? t D (p.met ++ names p.before ++ names p.middle) (pieces p.after)
  return { before, middle, after
           within := p.within ++ names p.middle, beside := p.beside ++ (names p.before ++ names p.after) }

/-- No list that the part in the middle names has been met beside it: neither in readings before this one nor, in
this one, to its left. -/
def Apart (p : Parts) : Prop :=
  ∀ name ∈ names p.middle, t.hasKey name → name ∉ p.beside ++ names p.before

/-- This is so in each of a number of readings. -/
def KeptApart : Nat → Parts → Prop
  | 0, _ => True
  | passes + 1, p => p.Apart t ∧ ∀ q ∈ p.next? t D, q.KeptApart passes

/-- Blanks keep the part in the middle apart from the others. -/
structure Separate (p : Parts) : Prop where
  before : EndsBlank p.before
  after : StartsBlank p.after

instance (p : Parts) : Decidable (p.Apart t) :=
  inferInstanceAs (Decidable (∀ name ∈ names p.middle, _))

instance decidableKeptApart : (passes : Nat) → (p : Parts) → Decidable (p.KeptApart t D passes)
  | 0, _ => .isTrue trivial
  | passes + 1, p =>
    have (q : Parts) : Decidable (q.KeptApart t D passes) := decidableKeptApart passes q
    inferInstanceAs (Decidable (p.Apart t ∧ ∀ q ∈ p.next? t D, q.KeptApart t D passes))

variable {t D} {p : Parts} {seen : List String} {out : List Char}

theorem Separate.pieces (separate : p.Separate) :
    pieces p.text = pieces p.before ++ pieces p.middle ++ pieces p.after := by
  rw [text, separate.after.pieces_append, separate.before.pieces_append]

theorem Separate.names (separate : p.Separate) :
    names p.text = names p.before ++ names p.middle ++ names p.after := by
  unfold Wildcard.names
  rw [separate.pieces, List.filterMap_append, List.filterMap_append]

/-- What a reading of all parts is made of. -/
theorem read_of_next? {q : Parts} (next : p.next? t D = some q) :
    (readPieces? t D p.met (pieces p.before) = some q.before ∧
      readPieces? t D (p.met ++ names p.before) (pieces p.middle) = some q.middle ∧
      readPieces? t D (p.met ++ names p.before ++ names p.middle) (pieces p.after) = some q.after) ∧
    q.within = p.within ++ names p.middle ∧ q.beside = p.beside ++ (names p.before ++ names p.after) := by
  obtain ⟨before, first, later⟩ := Option.bind_eq_some_iff.mp next
  obtain ⟨middle, second, later⟩ := Option.bind_eq_some_iff.mp later
  obtain ⟨after, third, made⟩ := Option.bind_eq_some_iff.mp later
  obtain rfl := Option.some.inj made
  exact ⟨⟨first, second, third⟩, rfl, rfl⟩

/-- A text in parts that blanks keep apart is read part by part, and blanks keep them apart afterwards. -/
theorem exists_next?_of_read (separate : p.Separate) (same : SameCounts t seen p.met)
    (read : readPieces? t D seen (pieces p.text) = some out) :
    ∃ q, p.next? t D = some q ∧ q.text = out ∧ q.Separate ∧ SameCounts t (seen ++ names p.text) q.met := by
  rw [separate.pieces, same.read] at read
  obtain ⟨_, after, both, last, rfl⟩ := exists_of_readPieces?_append read
  obtain ⟨before, middle, first, second, rfl⟩ := exists_of_readPieces?_append both
  rw [List.filterMap_append, ← List.append_assoc] at last
  have next : p.next? t D = some {
      before, middle, after
      within := p.within ++ names p.middle
      beside := p.beside ++ (names p.before ++ names p.after) } := by
    unfold next?
    simp only [names, first, second, last, Option.bind_eq_bind, Option.bind_some]
    rfl
  refine ⟨_, next, rfl, ⟨separate.before.read first, separate.after.read last⟩, fun name known => ?_⟩
  rw [separate.names]
  have counts := same name known
  simp only [met, List.count_append] at counts ⊢
  omega

/-- A list has not been met beside the part in the middle exactly if its placeholders have the same numbers there as
they would have in a text of their own. -/
theorem apart_iff_count :
    p.Apart t ↔ ∀ name ∈ names p.middle, t.hasKey name →
      (p.met ++ names p.before).count name = p.within.count name := by
  refine forall₃_congr fun name _ _ => ?_
  rw [met, List.append_assoc, List.count_append, Nat.add_eq_left, List.count_eq_zero]

/-- The part in the middle is read like a text of its own, as long as what it names has not been met beside it. -/
theorem readPieces?_middle {alone : List String} (apart : p.Apart t) (same : SameCounts t alone p.within) :
    readPieces? t D alone (pieces p.middle) = readPieces? t D (p.met ++ names p.before) (pieces p.middle) :=
  readPieces?_congr fun name mem known =>
    (same name known).trans (apart_iff_count.mp apart name mem known).symm

/-- What the part in the middle comes to by itself occurs in what the whole text comes to. -/
theorem infix_of_keptApart {passes : Nat} {alone : List String} {one : List Char} (separate : p.Separate)
    (same : SameCounts t seen p.met) (sameAlone : SameCounts t alone p.within) (kept : p.KeptApart t D passes)
    (readOne : readPasses? t D passes alone p.middle = some one)
    (readAll : readPasses? t D passes seen p.text = some out) : one <:+: out := by
  -- The names of lists were met equally often in the middle and in the text of its own before each reading.
  induction passes generalizing p seen alone with
  | zero =>
    obtain rfl := Option.some.inj readOne
    obtain rfl := Option.some.inj readAll
    exact ⟨p.before, p.after, rfl⟩
  | succ passes ih =>
    obtain ⟨apart, later⟩ := kept
    rw [readPasses?_succ] at readOne readAll
    obtain ⟨middle, read, readOne⟩ := Option.bind_eq_some_iff.mp readOne
    obtain ⟨whole, readWhole, readAll⟩ := Option.bind_eq_some_iff.mp readAll
    obtain ⟨q, next, rfl, separate', same'⟩ := exists_next?_of_read separate same readWhole
    obtain ⟨⟨-, readMiddle, -⟩, within, -⟩ := read_of_next? next
    rw [readPieces?_middle apart sameAlone, readMiddle] at read
    obtain rfl := Option.some.inj read
    exact ih separate' same' (within ▸ sameAlone.append _) (later q next) readOne readAll

/-- Where nothing beside names a list, nothing that comes up in the middle can be met there. -/
theorem keptApart_of_bare (before : ∀ name ∈ names p.before, ¬ t.hasKey name)
    (after : ∀ name ∈ names p.after, ¬ t.hasKey name) (beside : ∀ name ∈ p.beside, ¬ t.hasKey name)
    (passes : Nat) : p.KeptApart t D passes := by
  induction passes generalizing p with
  | zero => trivial
  | succ passes ih =>
    refine ⟨fun name _ known met => ?_, fun q next => ?_⟩
    · exact (List.mem_append.mp met).elim (beside name · known) (before name · known)
    · obtain ⟨⟨first, -, last⟩, -, new⟩ := read_of_next? next
      have before' : p.before = q.before := Option.some.inj ((readPieces?_of_bare before).symm.trans first)
      have after' : p.after = q.after := Option.some.inj ((readPieces?_of_bare after).symm.trans last)
      refine ih (before' ▸ before) (after' ▸ after) fun name mem => ?_
      rw [new, List.mem_append, List.mem_append] at mem
      exact mem.elim (beside name) (·.elim (before name) (after name))

/-- A placeholder with the texts on its left and on its right. -/
def around (n u v : String) : Parts where
  before := u.toList
  middle := ("__" ++ n ++ "__").toList
  after := v.toList

/-- The name of the placeholder itself is not met before it. -/
theorem apart_around {n u v : String} (placeholder : pieces ("__" ++ n ++ "__").toList = [.reference n.toList])
    (first : Text.lower n ∉ names u.toList) : (around n u v).Apart t := by
  intro name mem _ met
  have only : names ("__" ++ n ++ "__").toList = [Text.lower n] := congrArg (List.filterMap Piece.name?) placeholder
  obtain rfl := List.mem_singleton.mp (only ▸ mem)
  exact first met

end Parts

/-! ## Fields of one run -/

theorem exists_getElem?_of_forall₂ {α β : Type} {R : α → β → Prop} {xs : List α} {ys : List β} {i : Nat} {a : α}
    (related : List.Forall₂ R xs ys) (there : xs[i]? = some a) : ∃ b, ys[i]? = some b ∧ R a b := by
  obtain ⟨length, each⟩ := List.forall₂_iff_get.mp related
  obtain ⟨inside, rfl⟩ := List.getElem?_eq_some_iff.mp there
  exact ⟨_, List.getElem?_eq_getElem (length ▸ inside), each i inside _⟩

/-- A placeholder in a field of its own, and the same one in another field where its name is met for the first time,
come to the same text: it is always so where nothing beside the placeholder names a list; and otherwise as long as no
list that comes up in what it stands for has been met beside it. -/
theorem placeholder_agrees {γ : Type} [Generator γ] (t : WildcardTable) (fields : List String) (g : γ) {i j : Nat}
    {n u v : String} (known : t.contains n)
    (placeholder : pieces ("__" ++ n ++ "__").toList = [.reference n.toList])
    (alone : fields[i]? = some ("__" ++ n ++ "__")) (among : fields[j]? = some (u ++ ("__" ++ n ++ "__") ++ v))
    (first : Text.lower n ∉ names u.toList) (left : EndsBlank u.toList) (right : StartsBlank v.toList)
    (kept : (∀ name ∈ names u.toList ++ names v.toList, ¬ t.hasKey name) ∨
      ∀ p ∈ (Parts.around n u v).next? t (drawsOf t (expandAll t fields [] g).2.1),
        p.KeptApart t (drawsOf t (expandAll t fields [] g).2.1) (maxPasses - 1)) :
    ∃ one all, (expandFields t fields g).1[i]? = some one ∧ (expandFields t fields g).1[j]? = some all ∧
      one.toList <:+: all.toList := by
  have filled : ¬ t.isEmpty := by
    intro empty
    simp_all [WildcardTable.contains, WildcardTable.hasKey, WildcardTable.find?, WildcardTable.isEmpty]
  have reads := (expandAll_spec (fair_nil (t := t)) fields g).2.2 _ (.refl _)
  unfold expandFields
  rw [if_neg filled]
  dsimp only
  generalize drawsOf t (expandAll t fields [] g).2.1 = D at reads kept
  obtain ⟨one, thereOne, readOne⟩ := exists_getElem?_of_forall₂ reads alone
  obtain ⟨all, thereAll, readAll⟩ := exists_getElem?_of_forall₂ reads among
  obtain ⟨_, passesOne, rfl⟩ := Option.map_eq_some_iff.mp readOne
  obtain ⟨_, passesAll, rfl⟩ := Option.map_eq_some_iff.mp readAll
  refine ⟨_, _, thereOne, thereAll, ?_⟩
  have text : (Parts.around n u v).text = (u ++ ("__" ++ n ++ "__") ++ v).toList := by
    simp only [Parts.text, Parts.around, String.toList_append]
  rw [← text] at passesAll
  have keptApart : (Parts.around n u v).KeptApart t D maxPasses := by
    cases kept with
    | inl bare =>
      obtain ⟨before, after⟩ := List.forall_mem_append.mp bare
      exact Parts.keptApart_of_bare before after (List.forall_mem_nil _) maxPasses
    | inr later => exact ⟨Parts.apart_around placeholder first, later⟩
  rw [String.toList_ofList, String.toList_ofList]
  exact Parts.infix_of_keptApart ⟨left, right⟩ (fun _ _ => rfl) (fun _ _ => rfl) keptApart passesOne passesAll

/-- Animals whose hats have a colour, and lights that have a tone. -/
def hats : WildcardTable where
  entries := [("animal", ["cat with a __color__ hat"]), ("color", ["red", "blue"]), ("light", ["soft __tone__"]),
    ("tone", ["dawn", "dusk"])]

/-- A title, and a prompt in which tones are met beside the animal but no colours. -/
def litHat : List String :=
  ["__animal__", "__light__ __tone__ __animal__ at noon"]

/-- The hat has one colour. -/
theorem hat_agrees :
    (expandFields hats litHat (⟨0⟩ : SplitMix)).1 =
      ["cat with a red hat", "soft dawn dusk cat with a red hat at noon"] ∧
    ∃ one all, (expandFields hats litHat (⟨0⟩ : SplitMix)).1[0]? = some one ∧
      (expandFields hats litHat (⟨0⟩ : SplitMix)).1[1]? = some all ∧ one.toList <:+: all.toList := by
  have left : EndsBlank "__light__ __tone__ ".toList := .inr ⟨"__light__ __tone__".toList, by decide +kernel⟩
  have right : StartsBlank " at noon".toList := .inr ⟨"at noon".toList, by decide +kernel⟩
  have among : litHat[1]? = some ("__light__ __tone__ " ++ ("__" ++ "animal" ++ "__") ++ " at noon") := by
    decide +kernel
  exact ⟨by decide +kernel, placeholder_agrees hats litHat (⟨0⟩ : SplitMix) (by decide +kernel) (by decide +kernel)
    rfl among (by decide +kernel) left right (.inr (by decide +kernel))⟩

/-- A colour is met on the left of the animal, so the hat has the second colour there, and the first one in the field
of its own. -/
theorem hat_disagrees :
    hats.contains "animal" ∧ pieces "__animal__".toList = [.reference "animal".toList] ∧
    Text.lower "animal" ∉ names "__color__ ".toList ∧ EndsBlank "__color__ ".toList ∧
    (expandFields hats ["__animal__", "__color__ __animal__"] (⟨0⟩ : SplitMix)).1 =
      ["cat with a red hat", "red cat with a blue hat"] ∧
    ¬ "cat with a red hat".toList <:+: "red cat with a blue hat".toList := by
  have left : EndsBlank "__color__ ".toList := .inr ⟨"__color__".toList, by decide +kernel⟩
  exact ⟨by decide +kernel, by decide +kernel, by decide +kernel, left, by decide +kernel, by decide +kernel⟩

end RenderFarm.Wildcard
