import Mathlib.Data.List.Infix
import RenderFarm.Proofs.Case
import RenderFarm.Proofs.Text
import RenderFarm.Trigger.Placement

/-!
Where a trigger phrase is put, and that it is put there once. All placements leave the prompt around the phrase as it is,
and only a keyword is replaced. A phrase that has been inserted is found again, so that it is not inserted once more,
unless it takes the place of a keyword next to a letter: there a capital sigma may be lowered otherwise than in the
phrase.
-/

namespace RenderFarm

namespace Chars

theorem isPrefixOf_lowerAscii {pat hit : List Char} (same : eqIgnoringCase hit pat) (after : List Char) :
    (lowerAscii pat).isPrefixOf (lowerAscii (hit ++ after)) := by
  have lowered : lowerAscii hit = lowerAscii pat := by simpa [eqIgnoringCase] using same
  rw [List.isPrefixOf_iff_prefix, ← lowered, lowerAscii, lowerAscii, List.map_append]
  exact List.prefix_append _ _

theorem eqIgnoringCase_take {pat s : List Char} (start : (lowerAscii pat).isPrefixOf (lowerAscii s)) :
    eqIgnoringCase (s.take pat.length) pat := by
  have lowered : lowerAscii pat = (lowerAscii s).take (lowerAscii pat).length :=
    List.prefix_iff_eq_take.mp (List.isPrefixOf_iff_prefix.mp start)
  rw [eqIgnoringCase, beq_iff_eq, lowered]
  simp [lowerAscii, List.map_take]

/-- The occurrence that is found is one, and none comes before it. -/
theorem of_cutIgnoringCase? {pat s before hit after : List Char}
    (found : cutIgnoringCase? pat s = some (before, hit, after)) :
    s = before ++ hit ++ after ∧ eqIgnoringCase hit pat ∧
      ∀ before' hit' after', s = before' ++ hit' ++ after' → eqIgnoringCase hit' pat →
        before.length ≤ before'.length := by
  induction s generalizing before with
  | nil => cases found
  | cons c s ih =>
    unfold cutIgnoringCase? at found
    split at found
    · rename_i here
      obtain ⟨rfl, rfl, rfl⟩ : [] = before ∧ (c :: s).take pat.length = hit ∧ (c :: s).drop pat.length = after := by
        simpa using found
      exact ⟨by simp, eqIgnoringCase_take here, fun _ _ _ _ _ => Nat.zero_le _⟩
    · rename_i other
      obtain ⟨⟨front, _, _⟩, later, whole⟩ := Option.map_eq_some_iff.mp found
      obtain ⟨rfl, rfl, rfl⟩ : c :: front = before ∧ _ = hit ∧ _ = after := by simpa using whole
      obtain ⟨rfl, same, first⟩ := ih later
      refine ⟨rfl, same, fun before' hit' after' whole' same' => ?_⟩
      cases before' with
      | nil =>
        rw [whole', List.nil_append] at other
        exact absurd (isPrefixOf_lowerAscii same' after') other
      | cons d before' =>
        have rest := (List.cons.inj whole').2
        exact Nat.succ_le_succ (first before' hit' after' rest same')

theorem cutIgnoringCase?_eq_none {pat s : List Char} (some : pat ≠ []) (missing : cutIgnoringCase? pat s = none) :
    ∀ before hit after, s = before ++ hit ++ after → ¬ eqIgnoringCase hit pat := by
  induction s with
  | nil =>
    intro before hit after whole same
    obtain ⟨rfl, rfl, rfl⟩ : before = [] ∧ hit = [] ∧ after = [] := by simpa using whole.symm
    cases pat with
    | nil => exact some rfl
    | cons c pat => cases same
  | cons c s ih =>
    unfold cutIgnoringCase? at missing
    split at missing
    · cases missing
    · rename_i other
      intro before hit after whole same
      cases before with
      | nil =>
        rw [whole, List.nil_append] at other
        exact other (isPrefixOf_lowerAscii same after)
      | cons d before => exact ih (Option.map_eq_none_iff.mp missing) before hit after (List.cons.inj whole).2 same

end Chars

/-- Texts that differ in the case of ASCII letters only take as many bytes. -/
theorem Text.utf8ByteSize_congr {s t : String} (same : eqIgnoringCase s t) : s.utf8ByteSize = t.utf8ByteSize := by
  have size : ∀ c : Char, c.toLower.utf8Size = c.utf8Size := Chars.apply_toLower (by decide)
  have lowered (s : List Char) : (String.ofList (Chars.lowerAscii s)).utf8ByteSize = (String.ofList s).utf8ByteSize := by
    induction s with
    | nil => rfl
    | cons c s ih =>
      rw [Chars.lowerAscii] at ih ⊢
      rw [List.map_cons, String.ofList_cons, String.ofList_cons, String.utf8ByteSize_append, String.utf8ByteSize_append,
        String.utf8ByteSize_singleton, String.utf8ByteSize_singleton, size, ih]
  rw [← String.ofList_toList (s := s), ← lowered, eqIgnoringCase_iff.mp same, lowered, String.ofList_toList]

namespace Placement

/-! ## Occurrences -/

/-- A part of a text is the first occurrence of a word that is not empty, with the case of ASCII letters ignored. -/
structure FirstOccurrence (word s before hit after : String) : Prop where
  nonempty : word ≠ ""
  whole : s = before ++ hit ++ after
  same : Text.eqIgnoringCase hit word
  first : ∀ before' hit' after', s = before' ++ hit' ++ after' → Text.eqIgnoringCase hit' word →
    before.length ≤ before'.length

/-- A text contains a phrase, with letter case ignored. -/
def Shows (text phrase : String) : Prop :=
  (Text.lower phrase).toList <:+: (Text.lower text).toList

variable {prompt phrase word s before hit old added after : String} {placement : Placement}

/-- The bytes of a text can be cut before its first occurrence of a word, and after as many as the word has. -/
theorem FirstOccurrence.isValid (occurs : FirstOccurrence word s before hit after) :
    String.Pos.Raw.IsValid s ⟨before.utf8ByteSize⟩ ∧
      String.Pos.Raw.IsValid s ⟨before.utf8ByteSize + word.utf8ByteSize⟩ := by
  have size := Text.utf8ByteSize_congr occurs.same
  rw [String.Pos.Raw.isValid_iff_exists_append, String.Pos.Raw.isValid_iff_exists_append]
  refine ⟨⟨before, hit ++ after, ?_, rfl⟩, ⟨before ++ hit, after, occurs.whole, ?_⟩⟩
  · rw [occurs.whole, String.append_assoc]
  · rw [← size, ← String.utf8ByteSize_append]
    rfl

/-- There is one first occurrence at most. -/
theorem FirstOccurrence.unique {before' hit' after' : String} (occurs : FirstOccurrence word s before hit after)
    (occurs' : FirstOccurrence word s before' hit' after') : before = before' ∧ hit = hit' ∧ after = after' := by
  have wordLength {hit : String} (same : Text.eqIgnoringCase hit word) : hit.toList.length = word.toList.length := by
    simpa [Chars.lowerAscii] using congrArg List.length (Text.eqIgnoringCase_iff.mp same)
  have whole : before.toList ++ (hit.toList ++ after.toList) = before'.toList ++ (hit'.toList ++ after'.toList) := by
    simpa using congrArg String.toList (occurs.whole.symm.trans occurs'.whole)
  have start : before.toList.length = before'.toList.length :=
    Nat.le_antisymm (occurs.first _ _ _ occurs'.whole occurs'.same) (occurs'.first _ _ _ occurs.whole occurs.same)
  obtain ⟨front, rest⟩ := List.append_inj whole start
  obtain ⟨middle, back⟩ := List.append_inj rest ((wordLength occurs.same).trans (wordLength occurs'.same).symm)
  exact ⟨String.toList_inj.mp front, String.toList_inj.mp middle, String.toList_inj.mp back⟩

theorem firstOccurrence_of_cut {before hit after : List Char} (nonempty : word ≠ "")
    (found : Chars.cutIgnoringCase? word.toList s.toList = some (before, hit, after)) :
    FirstOccurrence word s (String.ofList before) (String.ofList hit) (String.ofList after) := by
  obtain ⟨whole, same, first⟩ := Chars.of_cutIgnoringCase? found
  refine ⟨nonempty, String.toList_inj.mp (by simp [whole]), by simpa [Text.eqIgnoringCase] using same, ?_⟩
  intro before' hit' after' whole' same'
  rw [String.length_ofList, ← String.length_toList]
  exact first before'.toList hit'.toList after'.toList (by simp [whole']) same'

theorem holds_iff : holds prompt phrase ↔ Shows prompt phrase :=
  Chars.contains_iff

/-! ## Insertion -/

/-- How a placement puts a phrase between two parts of a prompt, in the place of an old text that is empty but for a
keyword. A blank prompt makes room for the phrase alone. -/
inductive Inserts (phrase : String) : Placement → (before old added after : String) → Prop
  | alone (placement : Placement) : Inserts phrase placement "" "" phrase ""
  | front (after : String) : Inserts phrase .start "" "" (phrase ++ ", ") after
  | back (before : String) : Inserts phrase .finish before "" (", " ++ phrase) ""
  | comma {head : String} (first : ',' ∉ head.toList) (tail : String) :
      Inserts phrase .firstComma (head ++ ",") "" (" " ++ phrase ++ ",") tail
  | noComma {before : String} (missing : ',' ∉ before.toList) : Inserts phrase .firstComma before "" (", " ++ phrase) ""
  | keyword {word before old after : String} (occurs : FirstOccurrence word (before ++ old ++ after) before old after) :
      Inserts phrase (.keyword word) before old phrase after
  | noKeyword {word after : String}
      (missing : ∀ before hit rest, after = before ++ hit ++ rest → Text.eqIgnoringCase hit word → word = "") :
      Inserts phrase (.keyword word) "" "" (phrase ++ ", ") after

theorem insert_of_left (left : Text.trim phrase = "" ∨ placement = .off ∨ Shows prompt (Text.trim phrase)) :
    insert prompt phrase placement = prompt := by
  rw [← holds_iff] at left
  unfold insert
  rw [if_pos]
  simpa [or_assoc] using left

/-- What is put into a prompt that is not blank. -/
theorem inserts_insertChars (prompt phrase : String) (on : placement ≠ .off) :
    ∃ before old added after, Inserts phrase placement before old added after ∧ prompt = before ++ old ++ after ∧
      String.ofList (insertChars prompt.toList phrase.toList placement) = before ++ added ++ after := by
  cases placement with
  | off => exact absurd rfl on
  | start => exact ⟨_, _, _, prompt, .front prompt, by simp, String.toList_inj.mp (by simp [insertChars])⟩
  | finish => exact ⟨prompt, _, _, _, .back prompt, by simp, String.toList_inj.mp (by simp [insertChars])⟩
  | firstComma =>
    by_cases comma : ',' ∈ prompt.toList
    · obtain ⟨head, tail, whole, first⟩ := List.eq_append_cons_of_mem comma
      refine ⟨String.ofList head ++ ",", _, _, String.ofList tail, .comma (by simpa using first) _, ?_, ?_⟩
      · exact String.toList_inj.mp (by simp [whole])
      · exact String.toList_inj.mp (by simp [insertChars, whole, Chars.cut?_append first])
    · refine ⟨prompt, _, _, _, .noComma comma, by simp, String.toList_inj.mp ?_⟩
      simp [insertChars, Chars.cut?_eq_none comma]
  | keyword word =>
    by_cases empty : word = ""
    · refine ⟨_, _, _, prompt, .noKeyword fun _ _ _ _ _ => empty, by simp, String.toList_inj.mp ?_⟩
      simp [insertChars, empty]
    · have some : word.toList ≠ [] := by simpa using empty
      cases cut : Chars.cutIgnoringCase? word.toList prompt.toList with
      | some parts =>
        obtain ⟨before, hit, after⟩ := parts
        have occurs := firstOccurrence_of_cut empty cut
        have whole := occurs.whole
        rw [whole] at occurs
        refine ⟨_, _, _, _, .keyword occurs, whole, String.toList_inj.mp ?_⟩
        simp [insertChars, empty, cut]
      | none =>
        have missing := Chars.cutIgnoringCase?_eq_none some cut
        refine ⟨_, _, _, prompt, .noKeyword fun before hit rest whole same => ?_, by simp, String.toList_inj.mp ?_⟩
        · exact absurd same (missing before.toList hit.toList rest.toList (by simp [whole]))
        · simp [insertChars, empty, cut]

theorem insert_inserts (on : placement ≠ .off) (some : Text.trim phrase ≠ "")
    (fresh : ¬ Shows prompt (Text.trim phrase)) :
    ∃ before old added after, Inserts (Text.trim phrase) placement before old added after ∧
      Text.trim prompt = before ++ old ++ after ∧ insert prompt phrase placement = before ++ added ++ after := by
  rw [← holds_iff] at fresh
  unfold insert
  rw [if_neg (by simp [on, some, fresh])]
  dsimp only
  split
  · rename_i blank
    exact ⟨_, _, _, _, .alone placement, by simpa using blank, by simp⟩
  · exact inserts_insertChars (Text.trim prompt) (Text.trim phrase) on

/-! ## Inserting once -/

/-- No letter comes to stand next to a phrase with a capital sigma where a keyword is replaced by it. -/
def Detached (prompt phrase : String) : Placement → Prop
  | .keyword word => ∀ before hit after, FirstOccurrence word prompt before hit after →
      Chars.LowersAlone before.toList phrase.toList after.toList
  | _ => True

/-- Wherever a phrase has been put, it is found again. -/
theorem Inserts.shows (inserts : Inserts phrase placement before old added after)
    (detached : Detached (before ++ old ++ after) phrase placement) : Shows (before ++ added ++ after) phrase := by
  have seen {text : String} {left right : List Char} (whole : text.toList = left ++ phrase.toList ++ right)
      (alone : Chars.LowersAlone left phrase.toList right) : Shows text phrase := by
    have within := Chars.lower_infix alone
    rw [← whole] at within
    simpa [Shows, Text.lower] using within
  -- All but a keyword leave a space or nothing before the phrase, and a comma or nothing behind it.
  have free {text : String} (left right : List Char) (whole : text.toList = left ++ phrase.toList ++ right)
      (space : ∀ c ∈ left.getLast?, c = ' ') (comma : ∀ c ∈ right.head?, c = ',') : Shows text phrase := by
    refine seen whole (Chars.lowersAlone_of_separators (fun c last => ?_) (fun c next => ?_) _)
    · rw [space c last]
      decide +kernel
    · rw [comma c next]
      decide +kernel
  cases inserts with
  | alone => exact free [] [] (by simp) (by simp) (by simp)
  | front => exact free [] (',' :: ' ' :: after.toList) (by simp) (by simp) (by simp)
  | back => exact free (before.toList ++ [',', ' ']) [] (by simp) (by simp) (by simp)
  | @comma head => exact free (head.toList ++ [',', ' ']) (',' :: after.toList) (by simp) (by simp) (by simp)
  | noComma => exact free (before.toList ++ [',', ' ']) [] (by simp) (by simp) (by simp)
  | keyword occurs => exact seen (by simp) (detached _ _ _ occurs)
  | noKeyword => exact free [] (',' :: ' ' :: after.toList) (by simp) (by simp) (by simp)

theorem shows_insert (on : placement ≠ .off) (some : Text.trim phrase ≠ "")
    (clear : Shows prompt (Text.trim phrase) ∨ Detached (Text.trim prompt) (Text.trim phrase) placement) :
    Shows (insert prompt phrase placement) (Text.trim phrase) := by
  by_cases there : Shows prompt (Text.trim phrase)
  · rwa [insert_of_left (.inr (.inr there))]
  · obtain ⟨before, old, added, after, inserts, whole, result⟩ := insert_inserts on some there
    have detached := clear.resolve_left there
    rw [whole] at detached
    rw [result]
    exact inserts.shows detached

/-- A trigger phrase in a prompt. Where nothing is to be inserted, the prompt stays as it is. Else the phrase stands
where its placement puts it, with its separator, and without them the trimmed prompt is left, except for a keyword,
which is replaced at its first occurrence. The bytes of the prompt can be cut where this is done. The phrase is then
found in the prompt and not inserted again, unless it takes the place of a keyword next to a letter and has a capital
sigma. -/
theorem inserts_once (prompt phrase : String) (placement : Placement) :
    (placement = .off ∨ Text.trim phrase = "" ∨ Shows prompt (Text.trim phrase) →
      insert prompt phrase placement = prompt) ∧
    (placement ≠ .off → Text.trim phrase ≠ "" → ¬ Shows prompt (Text.trim phrase) →
      ∃ before old added after, Inserts (Text.trim phrase) placement before old added after ∧
        Text.trim prompt = before ++ old ++ after ∧ insert prompt phrase placement = before ++ added ++ after) ∧
    (∀ word before hit after, FirstOccurrence word (Text.trim prompt) before hit after →
      String.Pos.Raw.IsValid (Text.trim prompt) ⟨before.utf8ByteSize⟩ ∧
        String.Pos.Raw.IsValid (Text.trim prompt) ⟨before.utf8ByteSize + word.utf8ByteSize⟩) ∧
    (∀ head tail, Text.trim prompt = head ++ "," ++ tail →
      String.Pos.Raw.IsValid (Text.trim prompt) ⟨head.utf8ByteSize + 1⟩) ∧
    (Shows prompt (Text.trim phrase) ∨ Detached (Text.trim prompt) (Text.trim phrase) placement →
      insert (insert prompt phrase placement) phrase placement = insert prompt phrase placement ∧
        (placement ≠ .off → Text.trim phrase ≠ "" → Shows (insert prompt phrase placement) (Text.trim phrase))) := by
  refine ⟨fun left => insert_of_left (or_left_comm.mp left), insert_inserts, fun _ _ _ _ => FirstOccurrence.isValid, ?_,
    fun clear => ⟨?_, fun on some => shows_insert on some clear⟩⟩
  · intro head tail whole
    exact String.Pos.Raw.isValid_iff_exists_append.mpr
      ⟨head ++ ",", tail, whole, by rw [String.rawEndPos, String.utf8ByteSize_append]; rfl⟩
  · by_cases idle : Text.trim phrase = "" ∨ placement = .off
    · exact insert_of_left (idle.elim .inl fun off => .inr (.inl off))
    · obtain ⟨some, on⟩ := not_or.mp idle
      exact insert_of_left (.inr (.inr (shows_insert on some clear)))

/-- A keyword in a possessive is next to a letter, since the apostrophe does not count. The phrase is not found in its
place and goes in again. -/
theorem possessive_inserted_twice :
    let placement := Placement.keyword "woman"
    let once := insert "a woman's portrait" "ΘΕΟΣ" placement
    once = "a ΘΕΟΣ's portrait" ∧ ¬ Shows once (Text.trim "ΘΕΟΣ") ∧
      insert once "ΘΕΟΣ" placement = "ΘΕΟΣ, a ΘΕΟΣ's portrait" := by
  intro placement once
  rw [← holds_iff]
  decide +kernel

theorem woman_replaced_once :
    let placement := Placement.keyword "woman"
    let once := insert " portrait of a Woman, oil" "ΘΕΟΣ " placement
    placement ≠ .off ∧ Text.trim "ΘΕΟΣ " ≠ "" ∧ ¬ Shows " portrait of a Woman, oil" (Text.trim "ΘΕΟΣ ") ∧
      Detached (Text.trim " portrait of a Woman, oil") (Text.trim "ΘΕΟΣ ") placement ∧
      once = "portrait of a ΘΕΟΣ, oil" ∧ insert once "ΘΕΟΣ " placement = once ∧ Shows once (Text.trim "ΘΕΟΣ ") := by
  intro placement once
  have on : placement ≠ .off := by decide
  have some : Text.trim "ΘΕΟΣ " ≠ "" := by decide +kernel
  have fresh : ¬ Shows " portrait of a Woman, oil" (Text.trim "ΘΕΟΣ ") := by
    rw [← holds_iff]
    decide +kernel
  have detached : Detached (Text.trim " portrait of a Woman, oil") (Text.trim "ΘΕΟΣ ") placement := by
    intro before hit after occurs
    have found : FirstOccurrence "woman" (Text.trim " portrait of a Woman, oil") (String.ofList "portrait of a ".toList)
        (String.ofList "Woman".toList) (String.ofList ", oil".toList) :=
      firstOccurrence_of_cut (by decide) (by decide +kernel)
    obtain ⟨rfl, -, rfl⟩ := occurs.unique found
    intro _
    decide +kernel
  obtain ⟨-, -, -, -, clear⟩ := inserts_once " portrait of a Woman, oil" "ΘΕΟΣ " placement
  obtain ⟨twice, shown⟩ := clear (.inr detached)
  exact ⟨on, some, fresh, detached, by decide +kernel, twice, shown on some⟩

end Placement

end RenderFarm
