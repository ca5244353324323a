import Mathlib.Data.List.Forall2
import Mathlib.Data.List.Perm.Subperm
import Mathlib.Logic.Relation
import RenderFarm.Proofs.Wildcard.LockStep
import RenderFarm.Wildcard.Table

/-!
Pools of wildcard tables, cyclic or not. References between the lists make a graph; the pool of a name has one token
for every way without repetition through it and every token at the end of that way which is no reference itself.
-/

namespace RenderFarm

namespace Wildcard

/-- Names between two pairs of underscores: there are no two underscores in a row before the ones that end it. -/
def IsReferenceName (name : List Char) : Prop :=
  ∃ first rest, name = first :: rest ∧ first.isAlphanum ∧ (∀ c ∈ rest, isNameChar c) ∧
    ¬ ['_', '_'] <:+: rest ++ ['_']

theorem nameEnd?_eq_some_iff {s name : List Char} :
    nameEnd? s = some name ↔
      (∃ rest, s = name ++ '_' :: '_' :: rest) ∧ (∀ c ∈ name, isNameChar c) ∧ ¬ ['_', '_'] <:+: name ++ ['_'] := by
  induction s using nameEnd?.induct generalizing name with
  | case1 rest =>
    rw [nameEnd?, Option.some.injEq]
    constructor
    · rintro rfl
      exact ⟨⟨rest, rfl⟩, by simp, by decide⟩
    · rintro ⟨⟨after, split⟩, -, unbroken⟩
      rcases name with _ | ⟨c, _ | ⟨d, name⟩⟩
      · rfl
      · obtain ⟨rfl, -⟩ := List.cons.inj split
        exact absurd (List.infix_refl _) unbroken
      · obtain ⟨rfl, behind⟩ := List.cons.inj split
        obtain ⟨rfl, -⟩ := List.cons.inj behind
        exact absurd ⟨[], name ++ ['_'], rfl⟩ unbroken
  | case2 c s more isName ih =>
    rw [nameEnd?.eq_2 _ _ more, if_pos isName, Option.map_eq_some_iff]
    constructor
    · rintro ⟨later, found, rfl⟩
      obtain ⟨⟨rest, rfl⟩, valid, unbroken⟩ := ih.mp found
      refine ⟨⟨rest, rfl⟩, List.forall_mem_cons.mpr ⟨isName, valid⟩, fun broken => ?_⟩
      rcases List.infix_cons_iff.mp broken with front | behind
      · obtain ⟨rfl, second⟩ := List.cons_prefix_cons.mp front
        cases later with
        | nil => exact more _ rfl rfl
        | cons d later =>
          obtain ⟨rfl, -⟩ := List.cons_prefix_cons.mp second
          exact more _ rfl rfl
      · exact unbroken behind
    · rintro ⟨⟨rest, split⟩, valid, unbroken⟩
      cases name with
      | nil =>
        obtain ⟨rfl, rfl⟩ := List.cons.inj split
        exact absurd rfl (more rest rfl)
      | cons d later =>
        obtain ⟨rfl, rfl⟩ := List.cons.inj split
        refine ⟨later, ih.mpr ⟨⟨rest, rfl⟩, fun e mem => valid e (.tail _ mem), fun broken => ?_⟩, rfl⟩
        exact unbroken (List.infix_cons broken)
  | case3 c s more notName =>
    rw [nameEnd?.eq_2 _ _ more, if_neg notName]
    refine ⟨fun found => absurd found (Option.some_ne_none name).symm, ?_⟩
    rintro ⟨⟨rest, split⟩, valid, -⟩
    cases name with
    | nil =>
      obtain ⟨rfl, -⟩ := List.cons.inj split
      exact absurd (by decide) notName
    | cons d later =>
      obtain ⟨rfl, -⟩ := List.cons.inj split
      exact absurd (valid _ List.mem_cons_self) notName
  | case4 =>
    refine ⟨fun found => absurd found (Option.some_ne_none name).symm, ?_⟩
    rintro ⟨⟨rest, split⟩, -⟩
    cases name <;> cases split

theorem nameAt?_eq_some_iff {s name : List Char} :
    nameAt? s = some name ↔ (∃ rest, s = Piece.chars (.reference name) ++ rest) ∧ IsReferenceName name := by
  constructor
  · intro found
    refine ⟨nameAt?_eq found, ?_⟩
    unfold nameAt? at found
    split at found
    · rename_i c s
      split at found
      · rename_i alnum
        obtain ⟨rest, further, rfl⟩ := Option.map_eq_some_iff.mp found
        obtain ⟨-, valid, unbroken⟩ := nameEnd?_eq_some_iff.mp further
        exact ⟨c, rest, rfl, alnum, valid, unbroken⟩
      · cases found
    · cases found
  · rintro ⟨⟨after, rfl⟩, first, rest, rfl, alnum, valid, unbroken⟩
    have further : nameEnd? (rest ++ ['_', '_'] ++ after) = some rest :=
      nameEnd?_eq_some_iff.mpr ⟨⟨after, by simp⟩, valid, unbroken⟩
    simp only [Piece.chars, List.cons_append, nameAt?, if_pos alnum]
    rw [further]
    rfl

theorem piecesFrom_length (s : List Char) : piecesFrom s.length s = [] := by
  induction s with
  | nil => rfl
  | cons c s ih => exact ih

theorem pieces_eq_reference_iff {s name : List Char} :
    pieces s = [.reference name] ↔ s = Piece.chars (.reference name) ∧ IsReferenceName name := by
  constructor
  · intro cut
    have whole : s = Piece.chars (.reference name) := by
      rw [← flatMap_chars_pieces s, cut]
      simp
    refine ⟨whole, ?_⟩
    cases s with
    | nil => cases whole
    | cons c s =>
      unfold pieces piecesFrom at cut
      split at cut
      · rename_i name' found
        obtain ⟨_, isName⟩ := nameAt?_eq_some_iff.mp found
        obtain ⟨same, -⟩ := List.cons.inj cut
        cases same
        exact isName
      · cases cut
  · rintro ⟨rfl, isName⟩
    have found := nameAt?_eq_some_iff.mpr ⟨⟨[], (List.append_nil _).symm⟩, isName⟩
    have rest : name.length + 3 = ('_' :: name ++ ['_', '_']).length := by simp
    simp only [pieces, Piece.chars, List.cons_append] at found ⊢
    rw [piecesFrom, found]
    simp only [List.cons.injEq, true_and]
    rw [rest]
    exact piecesFrom_length _

theorem wholeReference?_eq_some_iff {token key : String} :
    wholeReference? token = some key ↔
      ∃ name, Chars.trim token.toList = Piece.chars (.reference name) ∧ IsReferenceName name ∧
        key = String.ofList (Chars.lower name) := by
  unfold wholeReference?
  constructor
  · intro found
    split at found
    · rename_i name cut
      cases found
      obtain ⟨whole, isName⟩ := pieces_eq_reference_iff.mp cut
      exact ⟨name, whole, isName, rfl⟩
    · cases found
  · rintro ⟨name, whole, isName, rfl⟩
    rw [pieces_eq_reference_iff.mpr ⟨whole, isName⟩]

end Wildcard

namespace WildcardTable

variable {t : WildcardTable}

/-! ## References between lists -/

/-- The tokens under a lower-case name; a name that is not in the table has none. -/
def listOf (t : WildcardTable) (key : String) : List String :=
  (t.find? key).getD []

/-- Whether a token is, blanks aside, exactly one placeholder of a name that is in the table. -/
def Refers (t : WildcardTable) (token key : String) : Prop :=
  t.hasKey key ∧ ∃ name, Chars.trim token.toList = Wildcard.Piece.chars (.reference name) ∧
    Wildcard.IsReferenceName name ∧ key = String.ofList (Chars.lower name)

/-- Whether the token at a position of a list refers to another list. -/
def RefersAt (t : WildcardTable) (list : String) (i : Nat) (other : String) : Prop :=
  ∃ token, (t.listOf list)[i]? = some token ∧ t.Refers token other

/-- Whether a list has a token at a position that refers to no list. -/
def HoldsAt (t : WildcardTable) (list : String) (i : Nat) (token : String) : Prop :=
  (t.listOf list)[i]? = some token ∧ ∀ other, ¬ t.Refers token other

/-- `t.Way list steps last`: the references at the positions given by the steps lead from one list to another, where
every step also says to which list it leads. -/
inductive Way (t : WildcardTable) : String → List (Nat × String) → String → Prop
  | here (list : String) : Way t list [] list
  | step {list next last : String} {i : Nat} {steps : List (Nat × String)} (go : t.RefersAt list i next)
      (onwards : Way t next steps last) : Way t list ((i, next) :: steps) last

/-- The lists that a way goes through. -/
def stations (list : String) (steps : List (Nat × String)) : List String :=
  list :: steps.map Prod.snd

/-- The end of a way from a list, and a position in the list there. -/
structure Place where
  steps : List (Nat × String)
  position : Nat

/-- Whether a token that refers to no list stands at a place. -/
def TokenAt (t : WildcardTable) (list : String) (p : Place) (token : String) : Prop :=
  ∃ last, t.Way list p.steps last ∧ t.HoldsAt last p.position token

/-- `t.Flattens chain tokens out`: below a chain of lists that are open already, the tokens come to `out` when every
reference is replaced by the list that it leads to, or by nothing when that list is open. Nothing bounds the depth. -/
inductive Flattens (t : WildcardTable) : List String → List String → List String → Prop
  | nil (chain : List String) : Flattens t chain [] []
  | own {chain rest out : List String} {token : String} (plain : ∀ other, ¬ t.Refers token other)
      (later : Flattens t chain rest out) : Flattens t chain (token :: rest) (token :: out)
  | closed {chain rest out : List String} {token other : String} (refers : t.Refers token other)
      (opened : other ∈ chain) (later : Flattens t chain rest out) : Flattens t chain (token :: rest) out
  | entered {chain rest inside out : List String} {token other : String} (refers : t.Refers token other)
      (fresh : other ∉ chain) (within : Flattens t (other :: chain) (t.listOf other) inside)
      (later : Flattens t chain rest out) : Flattens t chain (token :: rest) (inside ++ out)

/-- The list that a token refers to. -/
def reference? (t : WildcardTable) (token : String) : Option String :=
  (Wildcard.wholeReference? token).filter t.hasKey

theorem reference?_eq_some_iff {token key : String} : t.reference? token = some key ↔ t.Refers token key := by
  rw [reference?, Option.filter_eq_some_iff, Wildcard.wholeReference?_eq_some_iff]
  exact and_comm

theorem reference?_eq_none_iff {token : String} : t.reference? token = none ↔ ∀ other, ¬ t.Refers token other := by
  rw [Option.eq_none_iff_forall_ne_some]
  exact forall_congr' fun _ => not_congr reference?_eq_some_iff

/-! ## The search -/

/-- What the search finds at one token of a list, with what it finds in the list that the token refers to. -/
def tokensAt (t : WildcardTable) (chain : List String) (inside : String → List String) (token : String) :
    List String :=
  match t.reference? token with
  | none => [token]
  | some inner => if inner ∈ chain then [] else inside inner

theorem flatten_succ (depth : Nat) (chain : List String) (key : String) :
    t.flatten (depth + 1) chain key =
      (t.listOf key).flatMap (t.tokensAt chain fun inner => t.flatten depth (inner :: chain) inner) := by
  rw [flatten, listOf]
  cases t.find? key with
  | none => rfl
  | some tokens =>
    refine congrArg (tokens.flatMap ·) (funext fun token => ?_)
    rw [tokensAt, reference?]
    cases Wildcard.wholeReference? token with
    | none => rfl
    | some inner =>
      by_cases known : t.hasKey inner
      · simp only [Option.filter_some, if_pos known]
      · simp only [Option.filter_some, if_neg known]

theorem flatten_eq_nil {key : String} (empty : t.listOf key = []) (depth : Nat) (chain : List String) :
    t.flatten depth chain key = [] := by
  cases depth with
  | zero => rfl
  | succ depth =>
    rw [flatten_succ, empty]
    rfl

theorem mem_names_of_hasKey {key : String} (known : t.hasKey key) : key ∈ t.entries.map Prod.fst := by
  obtain ⟨tokens, found⟩ := Option.isSome_iff_exists.mp known
  obtain ⟨entry, found, -⟩ := Option.map_eq_some_iff.mp found
  have here := List.find?_some found
  rw [beq_iff_eq] at here
  exact here ▸ List.mem_map_of_mem (List.mem_of_find?_eq_some found)

theorem hasKey_of_mem_listOf {key token : String} (mem : token ∈ t.listOf key) : t.hasKey key := by
  unfold listOf at mem
  unfold hasKey
  cases found : t.find? key with
  | none => simp [found] at mem
  | some _ => rfl

/-- There are no more lists without repetition than the table has names. -/
theorem length_le_size {keys : List String} (distinct : keys.Nodup) (known : ∀ key ∈ keys, t.hasKey key) :
    keys.length ≤ t.size := by
  have among : keys.Subperm (t.entries.map Prod.fst) :=
    List.subperm_of_subset distinct fun key mem => mem_names_of_hasKey (known key mem)
  simpa [size] using among.length_le

/-- The number of names bounds the depth, so the bound never cuts the search off. -/
theorem flattens_flatten {depth : Nat} {chain : List String} (distinct : chain.Nodup)
    (known : ∀ key ∈ chain, t.hasKey key) (enough : t.size < depth + chain.length) (key : String) :
    t.Flattens chain (t.listOf key) (t.flatten depth chain key) := by
  induction depth generalizing chain key with
  | zero =>
    have few := length_le_size distinct known
    omega
  | succ depth ih =>
    rw [flatten_succ]
    induction t.listOf key with
    | nil => exact .nil chain
    | cons token rest later =>
      rw [List.flatMap_cons, tokensAt]
      cases found : t.reference? token with
      | none => exact .own (reference?_eq_none_iff.mp found) later
      | some inner =>
        have refers := reference?_eq_some_iff.mp found
        by_cases opened : inner ∈ chain
        · simp only [if_pos opened, List.nil_append]
          exact .closed refers opened later
        · simp only [if_neg opened]
          have deeper : t.size < depth + (inner :: chain).length := by
            rw [List.length_cons]
            omega
          exact .entered refers opened (ih (List.nodup_cons.mpr ⟨opened, distinct⟩)
            (List.forall_mem_cons.mpr ⟨refers.1, known⟩) deeper inner) later

/-- A place seen from a list from which a step leads to where it was seen from. -/
def Place.behind (i : Nat) (next : String) (p : Place) : Place :=
  ⟨(i, next) :: p.steps, p.position⟩

/-- What is found at one token of a list, with the places that are found in the list it refers to. -/
def placesAt (t : WildcardTable) (chain : List String) (inside : String → List Place) (token : String) (i : Nat) :
    List Place :=
  match t.reference? token with
  | none => [⟨[], i⟩]
  | some inner => if inner ∈ chain then [] else (inside inner).map (.behind i inner)

/-- Where the search finds its tokens, in the same order. -/
def places (t : WildcardTable) : Nat → List String → String → List Place
  | 0, _, _ => []
  | depth + 1, chain, key =>
    (t.listOf key).zipIdx.flatMap fun (token, i) =>
      t.placesAt chain (fun inner => t.places depth (inner :: chain) inner) token i

theorem mem_placesAt {chain : List String} {inside : String → List Place} {token : String} {i : Nat} {p : Place} :
    p ∈ t.placesAt chain inside token i ↔
      ((∀ other, ¬ t.Refers token other) ∧ p = ⟨[], i⟩) ∨
      ∃ next, t.Refers token next ∧ next ∉ chain ∧ ∃ q ∈ inside next, p = .behind i next q := by
  unfold placesAt
  cases found : t.reference? token with
  | none =>
    have plain := reference?_eq_none_iff.mp found
    simp [plain]
  | some inner =>
    have refers := reference?_eq_some_iff.mp found
    have only (next : String) : t.Refers token next ↔ next = inner := by
      rw [← reference?_eq_some_iff, found, Option.some.injEq, eq_comm]
    by_cases opened : inner ∈ chain <;> simp [only, opened, eq_comm]

theorem mem_places {depth : Nat} {chain : List String} {key : String} {p : Place} :
    p ∈ t.places depth chain key ↔
      p.steps.length < depth ∧ (p.steps.map Prod.snd).Nodup ∧ (∀ s ∈ p.steps, s.2 ∉ chain) ∧
        ∃ token, t.TokenAt key p token := by
  induction depth generalizing chain key p with
  | zero => simp [places]
  | succ depth ih =>
    rw [places, List.mem_flatMap]
    constructor
    · rintro ⟨⟨token, i⟩, mem, here⟩
      have at_i := List.mk_mem_zipIdx_iff_getElem?.mp mem
      rcases mem_placesAt.mp here with ⟨plain, rfl⟩ | ⟨next, refers, fresh, q, mem, rfl⟩
      · exact ⟨Nat.succ_pos _, .nil, nofun, token, key, .here key, at_i, plain⟩
      · obtain ⟨short, distinct, apart, token', last, onwards, holds⟩ := ih.mp mem
        refine ⟨Nat.succ_lt_succ short, ?_, ?_, token', last, .step ⟨token, at_i, refers⟩ onwards, holds⟩
        · refine List.nodup_cons.mpr ⟨fun again => ?_, distinct⟩
          obtain ⟨s, mem, same⟩ := List.mem_map.mp again
          exact apart s mem (same ▸ List.mem_cons_self)
        · exact List.forall_mem_cons.mpr ⟨fresh, fun s mem opened => apart s mem (.tail _ opened)⟩
    · rintro ⟨short, distinct, apart, token, last, way, holds⟩
      obtain ⟨steps, position⟩ := p
      cases way with
      | here => exact ⟨(token, position), List.mk_mem_zipIdx_iff_getElem?.mpr holds.1,
          mem_placesAt.mpr (.inl ⟨holds.2, rfl⟩)⟩
      | @step _ next _ i steps go onwards =>
        obtain ⟨reference, there, refers⟩ := go
        obtain ⟨fresh, apart⟩ := List.forall_mem_cons.mp apart
        obtain ⟨new, distinct⟩ := List.nodup_cons.mp distinct
        have inside : (⟨steps, position⟩ : Place) ∈ t.places depth (next :: chain) next := by
          refine ih.mpr ⟨Nat.lt_of_succ_lt_succ short, distinct, fun s mem opened => ?_, token, last, onwards, holds⟩
          rcases List.mem_cons.mp opened with same | opened
          · exact new (List.mem_map.mpr ⟨s, mem, same⟩)
          · exact apart s mem opened
        exact ⟨(reference, i), List.mk_mem_zipIdx_iff_getElem?.mpr there,
          mem_placesAt.mpr (.inr ⟨next, refers, fresh, _, inside, rfl⟩)⟩

/-- The position in the list itself that leads to a place. -/
def Place.first (p : Place) : Nat :=
  (p.steps.head?.map Prod.fst).getD p.position

theorem first_of_mem_placesAt {chain : List String} {inside : String → List Place} {token : String} {i : Nat}
    {p : Place} (mem : p ∈ t.placesAt chain inside token i) : p.first = i := by
  rcases mem_placesAt.mp mem with ⟨-, rfl⟩ | ⟨next, -, -, q, -, rfl⟩ <;> rfl

theorem placesAt_nodup {chain : List String} {inside : String → List Place} {token : String} {i : Nat}
    (distinct : ∀ inner, (inside inner).Nodup) : (t.placesAt chain inside token i).Nodup := by
  unfold placesAt
  split
  · exact List.nodup_singleton _
  · rename_i inner _
    split
    · exact .nil
    · refine (distinct inner).map fun p q same => ?_
      obtain ⟨steps, position⟩ := p
      obtain ⟨steps', position'⟩ := q
      simpa [Place.behind] using same

theorem places_nodup (t : WildcardTable) (depth : Nat) (chain : List String) (key : String) :
    (t.places depth chain key).Nodup := by
  induction depth generalizing chain key with
  | zero => exact .nil
  | succ depth ih =>
    rw [places, List.nodup_flatMap]
    refine ⟨fun (token, i) _ => placesAt_nodup fun inner => ih (inner :: chain) inner, ?_⟩
    · -- Places behind different positions differ, since they start with them.
      have positions : ((t.listOf key).zipIdx.map Prod.snd).Nodup := by
        rw [List.zipIdx_map_snd]
        exact List.nodup_range'
      refine (List.pairwise_map.mp positions).imp fun {a b} different p inA inB => ?_
      exact different ((first_of_mem_placesAt inA).symm.trans (first_of_mem_placesAt inB))

/-- What is found at one token is what stands at the places found there. -/
theorem placesAt_tokensAt {chain : List String} {places : String → List Place} {tokens : String → List String}
    {key token : String} {i : Nat} (there : (t.listOf key)[i]? = some token)
    (inside : ∀ inner, List.Forall₂ (t.TokenAt inner) (places inner) (tokens inner)) :
    List.Forall₂ (t.TokenAt key) (t.placesAt chain places token i) (t.tokensAt chain tokens token) := by
  unfold placesAt tokensAt
  cases found : t.reference? token with
  | none => exact .cons ⟨key, .here key, there, reference?_eq_none_iff.mp found⟩ .nil
  | some inner =>
    dsimp only
    split
    · exact .nil
    · refine List.forall₂_map_left_iff.mpr ((inside inner).imp fun p token' => ?_)
      rintro ⟨last, onwards, holds⟩
      exact ⟨last, .step ⟨token, there, reference?_eq_some_iff.mp found⟩ onwards, holds⟩

theorem places_flatten (depth : Nat) (chain : List String) (key : String) :
    List.Forall₂ (t.TokenAt key) (t.places depth chain key) (t.flatten depth chain key) := by
  induction depth generalizing chain key with
  | zero => exact .nil
  | succ depth ih =>
    have tokens : List.Forall₂ (fun entry token => entry.1 = token ∧ (t.listOf key)[entry.2]? = some token)
        (t.listOf key).zipIdx (t.listOf key) := by
      conv => arg 3; rw [← List.zipIdx_map_fst 0 (t.listOf key)]
      refine List.forall₂_map_right_iff.mpr (List.forall₂_same.mpr fun (token, i) mem => ?_)
      exact ⟨rfl, List.mk_mem_zipIdx_iff_getElem?.mp mem⟩
    rw [flatten_succ, places]
    refine List.rel_flatMap tokens fun entry token found => ?_
    obtain ⟨rfl, there⟩ := found
    exact placesAt_tokensAt there fun inner => ih (inner :: chain) inner

/-! ## Reachable lists -/

theorem Way.last_unique {list last last' : String} {steps : List (Nat × String)} (way : t.Way list steps last)
    (way' : t.Way list steps last') : last = last' := by
  induction way with
  | here list =>
    cases way'
    rfl
  | step _ _ ih =>
    cases way' with
    | step _ onwards => exact ih onwards

theorem TokenAt.unique {list token token' : String} {p : Place} (here : t.TokenAt list p token)
    (here' : t.TokenAt list p token') : token = token' := by
  obtain ⟨last, way, holds⟩ := here
  obtain ⟨last', way', holds'⟩ := here'
  obtain rfl := way.last_unique way'
  exact Option.some.inj (holds.1.symm.trans holds'.1)

/-- Whether some token of a list refers to another one. -/
def Leads (t : WildcardTable) (list other : String) : Prop :=
  ∃ i, t.RefersAt list i other

/-- From every list on a way, the rest of the way leads on. -/
theorem Way.onwards_from {list last other : String} {steps : List (Nat × String)} (way : t.Way list steps last)
    (mem : other ∈ stations list steps) :
    ∃ rest, t.Way other rest last ∧ (stations other rest).Sublist (stations list steps) := by
  induction way with
  | here list =>
    obtain rfl := List.mem_singleton.mp mem
    exact ⟨[], .here _, .refl _⟩
  | @step list next last i steps go onwards ih =>
    rcases List.mem_cons.mp mem with rfl | mem
    · exact ⟨(i, next) :: steps, .step go onwards, .refl _⟩
    · obtain ⟨rest, way, sub⟩ := ih mem
      exact ⟨rest, way, sub.cons list⟩

/-- Where there is a way, there is one without repetition. -/
theorem exists_simple_way {list last : String} (reach : Relation.ReflTransGen t.Leads list last) :
    ∃ steps, t.Way list steps last ∧ (stations list steps).Nodup := by
  induction reach using Relation.ReflTransGen.head_induction_on with
  | refl => exact ⟨[], .here last, List.nodup_singleton _⟩
  | @head list next go _ ih =>
    obtain ⟨i, go⟩ := go
    obtain ⟨steps, way, simple⟩ := ih
    by_cases met : list ∈ stations next steps
    · obtain ⟨rest, way, sub⟩ := way.onwards_from met
      exact ⟨rest, way, simple.sublist sub⟩
    · exact ⟨(i, next) :: steps, .step go way, List.nodup_cons.mpr ⟨met, simple⟩⟩

theorem Way.reaches {list last : String} {steps : List (Nat × String)} (way : t.Way list steps last) :
    Relation.ReflTransGen t.Leads list last := by
  induction way with
  | here list => exact .refl
  | step go _ ih => exact .head ⟨_, go⟩ ih

theorem Way.hasKey {list last token : String} {steps : List (Nat × String)} {i : Nat}
    (way : t.Way list steps last) (holds : t.HoldsAt last i token) : ∀ key ∈ stations list steps, t.hasKey key := by
  induction way with
  | here list =>
    intro key mem
    obtain rfl := List.mem_singleton.mp mem
    exact hasKey_of_mem_listOf (List.mem_of_getElem? holds.1)
  | step go _ ih =>
    obtain ⟨token, there, -⟩ := go
    exact List.forall_mem_cons.mpr ⟨hasKey_of_mem_listOf (List.mem_of_getElem? there), ih holds⟩

theorem mem_places_size {key : String} {p : Place} :
    p ∈ t.places t.size [key] key ↔ (stations key p.steps).Nodup ∧ ∃ token, t.TokenAt key p token := by
  rw [mem_places, stations, List.nodup_cons]
  constructor
  · rintro ⟨-, distinct, apart, found⟩
    refine ⟨⟨fun again => ?_, distinct⟩, found⟩
    obtain ⟨s, mem, same⟩ := List.mem_map.mp again
    exact apart s mem (List.mem_singleton.mpr same)
  · rintro ⟨⟨new, distinct⟩, token, last, way, holds⟩
    have few := length_le_size (List.nodup_cons.mpr ⟨new, distinct⟩) (way.hasKey holds)
    rw [List.length_cons, List.length_map] at few
    refine ⟨few, distinct, fun s mem same => ?_, token, last, way, holds⟩
    exact new (List.mem_map.mpr ⟨s, mem, List.mem_singleton.mp same⟩)

theorem listOf_eq_nil {key : String} (unknown : ¬ t.hasKey key) : t.listOf key = [] :=
  List.eq_nil_iff_forall_not_mem.mpr fun _ mem => unknown (hasKey_of_mem_listOf mem)

theorem pool_eq_nil {name : String} (unknown : ¬ t.contains name) : t.pool name = [] :=
  flatten_eq_nil (listOf_eq_nil unknown) _ _

theorem flattens_pool (t : WildcardTable) (name : String) :
    t.Flattens [Text.lower name] (t.listOf (Text.lower name)) (t.pool name) := by
  by_cases known : t.contains name
  · exact flattens_flatten (List.nodup_singleton _) (List.forall_mem_singleton.mpr known) (Nat.lt_succ_self _) _
  · rw [pool_eq_nil known, listOf_eq_nil known]
    exact .nil _

theorem mem_pool_iff {name token : String} :
    token ∈ t.pool name ↔
      ∃ last i, Relation.ReflTransGen t.Leads (Text.lower name) last ∧ t.HoldsAt last i token := by
  have found := places_flatten (t := t) t.size [Text.lower name] (Text.lower name)
  constructor
  · intro mem
    obtain ⟨k, inside, rfl⟩ := List.mem_iff_getElem.mp mem
    obtain ⟨last, way, holds⟩ := found.get (found.length_eq ▸ inside) inside
    exact ⟨last, _, way.reaches, holds⟩
  · rintro ⟨last, i, reach, holds⟩
    obtain ⟨steps, way, simple⟩ := exists_simple_way reach
    have stands : t.TokenAt (Text.lower name) ⟨steps, i⟩ token := ⟨last, way, holds⟩
    obtain ⟨k, inside, here⟩ := List.mem_iff_getElem.mp (mem_places_size.mpr ⟨simple, token, stands⟩)
    have there := found.get inside (found.length_eq ▸ inside)
    rw [List.get_eq_getElem, here] at there
    rw [stands.unique there]
    exact List.get_mem _ _

/-- The pool of a name: the search through the lists comes to its end, however they refer to each other. It has one
token for every way without repetition from the list of that name and every token at the end of the way that refers
to no list. So its tokens are those of all lists that can be reached, and a name that is not in the table has none. -/
theorem pool_reaches (t : WildcardTable) (name : String) :
    t.Flattens [Text.lower name] (t.listOf (Text.lower name)) (t.pool name) ∧
    (∃ found : List Place, found.Nodup ∧
      (∀ p, p ∈ found ↔
        (stations (Text.lower name) p.steps).Nodup ∧ ∃ token, t.TokenAt (Text.lower name) p token) ∧
      List.Forall₂ (t.TokenAt (Text.lower name)) found (t.pool name)) ∧
    (∀ token, token ∈ t.pool name ↔
      ∃ last i, Relation.ReflTransGen t.Leads (Text.lower name) last ∧ t.HoldsAt last i token) ∧
    (t.contains name = false → t.pool name = []) := by
  refine ⟨flattens_pool t name, ?_, fun token => mem_pool_iff, fun unknown => pool_eq_nil (by simp [unknown])⟩
  refine ⟨t.places t.size [Text.lower name] (Text.lower name), places_nodup t _ _ _, fun p => mem_places_size, ?_⟩
  exact places_flatten _ _ _

end WildcardTable

end RenderFarm
