import RenderFarm.Proofs.Case
import RenderFarm.Proofs.Lines
import RenderFarm.Proofs.Trigger.Registry

/-!
Phrases that are looked up before and after the registry is synced. A sync keeps phrases by names without hashes, while
a phrase is also looked up by the full title. After a sync the name answers first, since it sorts before the title, and
so the phrase that was kept for the name is found. It is the one found before, unless the registry had an entry under
the full title and none under the name by then.
-/

namespace RenderFarm

namespace Chars

theorem isBlank_toLower (c : Char) : isBlank c.toLower = isBlank c :=
  apply_toLower (by decide) c

/-- The case of ASCII letters does not matter to the blanks at the ends. -/
theorem Trimmed.congr {s t : List Char} (trimmed : Trimmed s) (same : eqIgnoringCase s t) : Trimmed t := by
  have equal : s.map Char.toLower = t.map Char.toLower := by simpa [eqIgnoringCase, lowerAscii] using same
  have each (end' end'' : Option Char) (lowered : end'.map Char.toLower = end''.map Char.toLower)
      (visible : ∀ c ∈ end', isBlank c = false) : ∀ c ∈ end'', isBlank c = false := by
    rintro c rfl
    obtain ⟨d, rfl, low⟩ := Option.map_eq_some_iff.mp lowered
    rw [← isBlank_toLower, ← low, isBlank_toLower]
    exact visible d rfl
  exact ⟨each _ _ (by rw [← List.head?_map, equal, List.head?_map]) trimmed.front,
    each _ _ (by rw [← List.getLast?_map, equal, List.getLast?_map]) trimmed.back⟩

theorem isSeparator_of_isBlank {c : Char} (blank : isBlank c) : isSeparator c := by
  have each : ∀ n ∈ blankCodes, isSeparator (Char.ofNat n) := by decide +kernel
  simpa using each _ (mem_blankCodes blank)

end Chars

namespace Title

open Chars

theorem stripHashChars_cases (title : List Char) :
    stripHashChars title = trim title ∨
      ∃ name rest, title = name ++ ' ' :: '[' :: rest ∧ stripHashChars title = trim name := by
  unfold stripHashChars
  cases cut : cutLast? [' ', '['] title with
  | none => exact .inl rfl
  | some parts =>
    obtain ⟨name, rest⟩ := parts
    dsimp only
    split
    · exact .inr ⟨name, rest, by simpa using whole_of_cutLast? cut, rfl⟩
    · exact .inl rfl

theorem trimmed_stripHashChars (title : List Char) : Trimmed (stripHashChars title) := by
  obtain whole | ⟨name, _, _, short⟩ := stripHashChars_cases title
  · rw [whole]
    exact trimmed_trim title
  · rw [short]
    exact trimmed_trim name

/-- A title that has a hash goes on with a blank after its name. -/
theorem exists_blank_of_stripHashChars {title : List Char} (trimmed : Trimmed title) :
    stripHashChars title = title ∨ ∃ c rest, isBlank c ∧ title = stripHashChars title ++ c :: rest := by
  obtain short | ⟨name, rest, whole, short⟩ := stripHashChars_cases title
  · exact .inl (short.trans trimmed.trim_eq)
  · right
    have visible : ∀ c ∈ name.head?, isBlank c = false := by
      intro c first
      refine trimmed.front c ?_
      rw [whole, List.head?_append, first]
      rfl
    obtain ⟨gap, blank, shown⟩ := exists_trimEnd isBlank (name.dropWhile isBlank)
    have kept : trimEnd isBlank (name.dropWhile isBlank) = stripHashChars title := short.symm
    rw [kept, dropWhile_of_head visible] at shown
    cases gap with
    | nil =>
      rw [List.append_nil] at shown
      exact ⟨' ', '[' :: rest, rfl, by rwa [← shown]⟩
    | cons c gap =>
      refine ⟨c, gap ++ ' ' :: '[' :: rest, blank c List.mem_cons_self, ?_⟩
      rw [shown, List.append_assoc, List.cons_append] at whole
      exact whole

/-- A name without its hash comes before the full title. -/
theorem lower_stripHashChars_lt {title : List Char} (trimmed : Trimmed title) :
    stripHashChars title = title ∨ lower (stripHashChars title) < lower title := by
  refine (exists_blank_of_stripHashChars trimmed).imp_right fun ⟨c, rest, blank, whole⟩ => ?_
  conv_rhs => rw [whole]
  exact lower_lt_append (isSeparator_of_isBlank blank) _ _

/-- A name that is equal to a title but for case, and not to the title without its hash, comes after the latter. -/
theorem lower_stripHash_lt {title title' : String} (full : Text.eqIgnoringCase (stripHash title') title)
    (other : Text.eqIgnoringCase (stripHash title') (stripHash title) = false) :
    Text.lower (stripHash title) < Text.lower (stripHash title') := by
  have same : eqIgnoringCase (stripHashChars title'.toList) title.toList := by
    simpa [Text.eqIgnoringCase, stripHash] using full
  obtain short | before := lower_stripHashChars_lt ((trimmed_stripHashChars _).congr same)
  · have whole : stripHash title = title := by rw [stripHash, short, String.ofList_toList]
    rw [whole, full] at other
    cases other
  · rw [← lower_congr same] at before
    rw [String.lt_iff_toList_lt]
    simpa [Text.lower, stripHash] using before

end Title

namespace TriggerRegistry

variable {r : TriggerRegistry} {models : List Model} {entries : List TriggerEntry} {title : String}

/-- A phrase is in use unless it is empty. -/
def inUse (phrase : String) : Option String :=
  if phrase.isEmpty then none else some phrase

/-- No entry under the full title comes before all those under the name without the hash. -/
def NameFirst (entries : List TriggerEntry) (title : String) : Prop :=
  ∀ before e after, entries = before ++ e :: after → Text.eqIgnoringCase e.model title →
    ∃ e' ∈ before ++ [e], Text.eqIgnoringCase e'.model (Title.stripHash title)

theorem NameFirst.find?_eq (first : NameFirst entries title) :
    entries.find? (fun e => Text.eqIgnoringCase e.model title || Text.eqIgnoringCase e.model (Title.stripHash title)) =
      entries.find? fun e => Text.eqIgnoringCase e.model (Title.stripHash title) := by
  cases found : entries.find? fun e =>
      Text.eqIgnoringCase e.model title || Text.eqIgnoringCase e.model (Title.stripHash title) with
  | none =>
    symm
    rw [List.find?_eq_none] at found ⊢
    exact fun e mem same => found e mem (by rw [same, Bool.or_true])
  | some e =>
    obtain ⟨answers, before, after, split, others⟩ := List.find?_eq_some_iff_append.mp found
    have none : ∀ e' ∈ before, Text.eqIgnoringCase e'.model (Title.stripHash title) = false := by
      intro e' mem
      have other := others e' mem
      rw [Bool.not_eq_true', Bool.or_eq_false_iff] at other
      exact other.2
    have named : Text.eqIgnoringCase e.model (Title.stripHash title) := by
      cases full : Text.eqIgnoringCase e.model title with
      | false => simpa [full] using answers
      | true =>
        obtain ⟨e', mem, same⟩ := first before e after split full
        rcases List.mem_append.mp mem with mem | mem
        · rw [none e' mem] at same
          cases same
        · rwa [List.mem_singleton.mp mem] at same
    symm
    exact List.find?_eq_some_iff_append.mpr ⟨named, before, after, split, by simpa using none⟩

/-- When the name comes first, the phrase that is kept for the name is looked up. -/
theorem NameFirst.lookup?_eq (first : NameFirst r.entries title) :
    r.lookup? title = inUse (entryFor r.entries (Title.stripHash title)).phrase := by
  unfold lookup? entryFor
  dsimp only
  rw [first.find?_eq]
  split <;> rfl

/-- After a sync the name of a checkpoint comes first. -/
theorem nameFirst_sync {m : Model} (listed : m ∈ models) : NameFirst (r.sync models).1.entries m.title := by
  intro before e after split full
  have sorted := entries_sync_sorted r models
  have there : entryFor r.entries (Title.stripHash m.title) ∈ (r.sync models).1.entries :=
    mem_entries_sync.mpr ⟨m, listed, rfl⟩
  have mem : e ∈ (r.sync models).1.entries := by
    rw [split]
    exact List.mem_append_right _ List.mem_cons_self
  have own : Text.eqIgnoringCase (entryFor r.entries (Title.stripHash m.title)).model (Title.stripHash m.title) := by
    rw [entryFor_model, Text.eqIgnoringCase_iff]
  rw [split] at sorted there
  rcases List.mem_append.mp there with early | late
  · exact ⟨_, List.mem_append_left _ early, own⟩
  · refine ⟨e, List.mem_append_right _ (List.mem_singleton_self e), ?_⟩
    by_contra other
    rw [Bool.not_eq_true] at other
    -- An entry that is named by the title sorts after the name, so that the name's own entry is not behind it.
    rcases List.mem_cons.mp late with equal | late
    · rw [equal, other] at own
      cases own
    · have le := List.rel_of_pairwise_cons (List.pairwise_append.mp sorted).2.1 late
      obtain ⟨m', -, rfl⟩ := mem_entries_sync.mp mem
      simp only [entryFor_model] at le full other
      exact absurd le (not_le.mpr (Title.lower_stripHash_lt full other))

/-- What is looked up by a checkpoint's title after a sync: the phrase that the registry had for the name without the
hash, if it is in use. This is what was looked up before the sync too, as long as no entry under the full title came
first. -/
theorem phrase_after_sync {m : Model} (listed : m ∈ models) :
    (∃ phrase, Remembers r.entries (Title.stripHash m.title) phrase ∧
      (r.sync models).1.lookup? m.title = inUse phrase) ∧
    (NameFirst r.entries m.title → (r.sync models).1.lookup? m.title = r.lookup? m.title) := by
  have found := (nameFirst_sync (r := r) listed).lookup?_eq
  rw [entryFor_sync listed] at found
  refine ⟨⟨_, remembers_entryFor _ _, found⟩, fun first => ?_⟩
  rw [found, first.lookup?_eq]

/-- A registry with an entry for a full title below one for the name. -/
def spelledTwice : TriggerRegistry :=
  ⟨⟨"triggers.txt"⟩, parse "ALPHA.ckpt, alpha style\nalpha.ckpt [abcd], other style\n"⟩

theorem spelledTwice_remembers :
    let m : Model := ⟨"alpha.ckpt [abcd]", none⟩
    m ∈ [m] ∧ NameFirst spelledTwice.entries m.title ∧
      (spelledTwice.sync [m]).1.lookup? m.title = spelledTwice.lookup? m.title ∧
      spelledTwice.lookup? m.title = some "alpha style" := by
  intro m
  have first : NameFirst spelledTwice.entries m.title := by
    have named : Text.eqIgnoringCase "ALPHA.ckpt" (Title.stripHash m.title) := by decide +kernel
    have read : spelledTwice.entries = [⟨"ALPHA.ckpt", "alpha style"⟩, ⟨"alpha.ckpt [abcd]", "other style"⟩] := by
      decide +kernel
    intro before e after split _
    rw [read] at split
    cases before with
    | nil =>
      obtain ⟨rfl, -⟩ := List.cons.inj split
      exact ⟨_, List.mem_singleton_self _, named⟩
    | cons e' before =>
      obtain ⟨rfl, -⟩ := List.cons.inj split
      exact ⟨_, List.mem_cons_self, named⟩
  have listed : m ∈ [m] := List.mem_singleton_self m
  exact ⟨listed, first, (phrase_after_sync listed).2 first, by decide +kernel⟩

/-- A phrase that is stored under the full title only is looked up before a sync and lost by it. -/
theorem hashed_entry_forgotten :
    let r : TriggerRegistry := ⟨⟨"triggers.txt"⟩, parse "alpha.ckpt [abcd], alpha style\n"⟩
    let m : Model := ⟨"alpha.ckpt [abcd]", none⟩
    r.lookup? m.title = some "alpha style" ∧ (r.sync [m]).1.lookup? m.title = none := by
  intro r m
  refine ⟨by decide +kernel, ?_⟩
  have unnamed : entryFor r.entries (Title.stripHash m.title) = ⟨"alpha.ckpt", ""⟩ := by decide +kernel
  have after : (r.sync [m]).1.entries = [⟨"alpha.ckpt", ""⟩] := by
    rw [entries_sync, List.map_singleton, List.mergeSort_singleton, unnamed]
  unfold lookup?
  rw [after]
  decide +kernel

end TriggerRegistry

end RenderFarm
