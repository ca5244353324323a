import Mathlib.Data.List.Basic
import RenderFarm.Launch.Script
import RenderFarm.Proofs.Launch.Arguments
import RenderFarm.Proofs.Lines

/-!
The text of a device's launch script. One line of it assigns arguments, the others are those of the user's script, where
a line that would assign others is a comment. The user's script is read in the same way before and after its own
assignments are turned into comments.
-/

namespace RenderFarm.Launch

variable {p : Platform} {port : UInt16} {device line : List Char}

/-! ## Assignments -/

namespace Platform

/-- Whether a line assigns arguments when the script runs. -/
def activates (p : Platform) (line : List Char) : Bool :=
  p.assignment.isPrefixOf line

/-- What a line starts with that is a comment. -/
def mark : Platform → List Char
  | .unix => ['#']
  | .windows => "rem ".toList

/-- The lines after all those of the user's script. -/
def closing : Platform → List (List Char)
  | .unix => ["source webui.sh".toList]
  | .windows => []

end Platform

/-- A line, as a comment if it assigns arguments. -/
def quiet (p : Platform) (line : List Char) : List Char :=
  if p.activates line then p.mark ++ line else line

theorem activates_iff : p.activates line ↔ ∃ rest, line = p.assignment ++ rest := by
  rw [Platform.activates, List.isPrefixOf_iff_prefix]
  exact ⟨fun ⟨rest, whole⟩ => ⟨rest, whole.symm⟩, fun ⟨rest, whole⟩ => ⟨rest, whole.symm⟩⟩

/-- A comment assigns nothing. -/
theorem not_activates_mark (p : Platform) (line : List Char) : p.activates (p.mark ++ line) = false := by
  cases p <;> rfl

theorem not_activates_quiet (p : Platform) (line : List Char) : p.activates (quiet p line) = false := by
  unfold quiet
  split
  · exact not_activates_mark p line
  · simpa using ‹¬ p.activates line›

theorem activates_assignmentLine (p : Platform) (args : List Char) : p.activates (assignmentLine p args) := by
  rw [activates_iff]
  cases p with
  | unix => exact ⟨['"'] ++ args ++ ['"'], by simp [assignmentLine]⟩
  | windows => exact ⟨args, rfl⟩

/-- A line that assigns arguments has arguments. -/
theorem isSome_assigned? (active : p.activates line) : (assigned? p line).isSome := by
  obtain ⟨rest, rfl⟩ := activates_iff.mp active
  have read : Chars.stripPrefix? p.assignment (p.assignment ++ rest) = some rest :=
    Chars.stripPrefix?_eq_some_iff.mpr rfl
  cases p with
  | windows => simp [assigned?, read]
  | unix =>
    have uncommented : Chars.stripPrefix? ['#'] (Platform.unix.assignment ++ rest) = none := rfl
    simp [assigned?, uncommented, read]

theorem quiet_of_unassigned (none : assigned? p line = none) : quiet p line = line := by
  refine if_neg fun active => ?_
  have some := isSome_assigned? active
  rw [none] at some
  cases some

/-- A line that may assign arguments is turned into a comment, if it is none yet. -/
theorem commentOut_of_assigned (assigns : (assigned? p line).isSome) : commentOut p line = quiet p line := by
  cases p with
  | windows =>
    have active : Platform.windows.activates line := by
      rwa [Platform.activates, ← Chars.isSome_stripPrefix?]
    rw [quiet, if_pos active]
    rfl
  | unix =>
    unfold commentOut quiet
    by_cases active : Platform.unix.activates line
    · obtain ⟨rest, rfl⟩ := activates_iff.mp active
      rw [if_pos active]
      rfl
    · -- What is left is a comment with arguments.
      have commented : line.head? = some '#' := by
        cases cut : Chars.stripPrefix? ['#'] line with
        | some rest => rw [Chars.stripPrefix?_eq_some_iff.mp cut]; rfl
        | none =>
          simp only [assigned?, cut, Option.getD_none, Option.isSome_map, Chars.isSome_stripPrefix?] at assigns
          exact absurd assigns active
      rw [if_pos commented, if_neg active]

theorem laterLines_eq (p : Platform) (ls : List (List Char)) : laterLines p ls = ls.map (quiet p) := by
  refine List.map_congr_left fun line _ => ?_
  split
  · exact commentOut_of_assigned ‹_›
  · exact (quiet_of_unassigned (by simpa using ‹¬ (assigned? p line).isSome›)).symm

/-! ## Binding -/

/-- The lines of a script with those of a device's script before the closing ones, and the line that binds the device.
It takes the place of the first line with arguments, after which others are comments. Without any it is added: before
the first line that calls a script on Windows, else at the end. -/
inductive Binds (p : Platform) (port : UInt16) (device : List Char) :
    List Char → List (List Char) → List (List Char) → Prop
  | first {before after : List (List Char)} {line args : List Char} (none : ∀ l ∈ before, assigned? p l = none)
      (assigns : assigned? p line = some args) :
      Binds p port device (assignmentLine p (deviceArgs args port device)) (before ++ line :: after)
        (before ++ assignmentLine p (deviceArgs args port device) :: after.map (quiet p))
  | added {before after : List (List Char)} (none : ∀ l ∈ before ++ after, assigned? p l = none)
      (place : match p with
        | .windows => (∀ l ∈ before, isCall l = false) ∧ ∀ l ∈ after.head?, isCall l
        | .unix => after = []) :
      Binds p port device (assignmentLine p (deviceArgs [] port device)) (before ++ after)
        (before ++ assignmentLine p (deviceArgs [] port device) :: after)

theorem insertBefore_spec (q : List Char → Bool) (new : List Char) (ls : List (List Char)) :
    ∃ before after, ls = before ++ after ∧ insertBefore q new ls = before ++ new :: after ∧
      (∀ l ∈ before, q l = false) ∧ ∀ l ∈ after.head?, q l := by
  induction ls with
  | nil => exact ⟨[], [], rfl, rfl, List.forall_mem_nil _, fun l mem => nomatch mem⟩
  | cons line ls ih =>
    rw [insertBefore]
    by_cases here : q line
    · rw [if_pos here]
      exact ⟨[], line :: ls, rfl, rfl, List.forall_mem_nil _, by simpa using here⟩
    · obtain ⟨before, after, rfl, inserted, others, place⟩ := ih
      rw [if_neg here, inserted]
      exact ⟨line :: before, after, rfl, rfl, List.forall_mem_cons.mpr ⟨by simpa using here, others⟩, place⟩

theorem assignFirst?_eq_none {ls : List (List Char)} (unassigned : assignFirst? p port device ls = none) :
    ∀ l ∈ ls, assigned? p l = none := by
  induction ls with
  | nil => exact List.forall_mem_nil _
  | cons line ls ih =>
    unfold assignFirst? at unassigned
    split at unassigned
    · cases unassigned
    · exact List.forall_mem_cons.mpr ⟨‹_›, ih (Option.map_eq_none_iff.mp unassigned)⟩

theorem assignFirst?_eq_some {ls ls' : List (List Char)} (assigned : assignFirst? p port device ls = some ls') :
    ∃ before line after args, ls = before ++ line :: after ∧ (∀ l ∈ before, assigned? p l = none) ∧
      assigned? p line = some args ∧
      ls' = before ++ assignmentLine p (deviceArgs args port device) :: after.map (quiet p) := by
  induction ls generalizing ls' with
  | nil => cases assigned
  | cons line ls ih =>
    unfold assignFirst? at assigned
    split at assigned
    · rename_i args assigns
      cases assigned
      rw [laterLines_eq]
      exact ⟨[], line, ls, args, rfl, List.forall_mem_nil _, assigns, rfl⟩
    · rename_i none
      obtain ⟨rest, later, rfl⟩ := Option.map_eq_some_iff.mp assigned
      obtain ⟨before, line', after, args, rfl, others, assigns, rfl⟩ := ih later
      exact ⟨line :: before, line', after, args, rfl, List.forall_mem_cons.mpr ⟨none, others⟩, assigns, rfl⟩

/-- The lines of a device's script bind the device. -/
theorem binds_deviceLines (p : Platform) (port : UInt16) (device : List Char) (ls : List (List Char)) :
    ∃ bound ls', Binds p port device bound ls ls' ∧ deviceLines p port device ls = ls' ++ p.closing := by
  unfold deviceLines
  cases assigned : assignFirst? p port device ls with
  | some ls' =>
    obtain ⟨before, line, after, args, rfl, none, assigns, rfl⟩ := assignFirst?_eq_some assigned
    refine ⟨_, _, .first none assigns, ?_⟩
    cases p with
    | unix => rfl
    | windows => exact (List.append_nil _).symm
  | none =>
    have none := assignFirst?_eq_none assigned
    cases p with
    | unix =>
      have binds : Binds .unix port device _ (ls ++ []) (ls ++ [assignmentLine .unix (deviceArgs [] port device)]) :=
        .added (by rwa [List.append_nil]) rfl
      rw [List.append_nil] at binds
      exact ⟨_, _, binds, rfl⟩
    | windows =>
      obtain ⟨before, after, rfl, inserted, place⟩ :=
        insertBefore_spec isCall (assignmentLine .windows (deviceArgs [] port device)) ls
      refine ⟨_, _, .added none place, ?_⟩
      dsimp only
      rw [inserted]
      exact (List.append_nil _).symm

/-- Of the lines that bind a device, one assigns arguments. -/
theorem Binds.filter {bound : List Char} {ls ls' : List (List Char)} (h : Binds p port device bound ls ls') :
    ls'.filter p.activates = [bound] := by
  have passive : ∀ l, assigned? p l = none → p.activates l = false := by
    intro l none
    rw [← quiet_of_unassigned none]
    exact not_activates_quiet p l
  have dropped : ∀ {part : List (List Char)}, (∀ l ∈ part, p.activates l = false) → part.filter p.activates = [] :=
    fun others => List.filter_eq_nil_iff.mpr fun l mem => by simp [others l mem]
  cases h with
  | first none assigns =>
    rw [List.filter_append, dropped fun l mem => passive l (none l mem),
      List.filter_cons_of_pos (activates_assignmentLine p _), dropped, List.nil_append]
    intro l mem
    obtain ⟨line, -, rfl⟩ := List.mem_map.mp mem
    exact not_activates_quiet p line
  | added none =>
    rw [List.filter_append, dropped fun l mem => passive l (none l (List.mem_append_left _ mem)),
      List.filter_cons_of_pos (activates_assignmentLine p _),
      dropped fun l mem => passive l (none l (List.mem_append_right _ mem)), List.nil_append]

/-! ## Lines -/

theorem not_mem_assignmentLine {args : List Char} (unbroken : '\n' ∉ args) (p : Platform) :
    '\n' ∉ assignmentLine p args := by
  have prefixed : '\n' ∉ p.assignment := by cases p <;> decide
  cases p <;> simp [assignmentLine, unbroken, prefixed]

theorem not_mem_quiet (unbroken : '\n' ∉ line) (p : Platform) : '\n' ∉ quiet p line := by
  have marked : '\n' ∉ p.mark := by cases p <;> decide
  unfold quiet
  split
  · simp [marked, unbroken]
  · exact unbroken

/-- No line of a device's script holds a line feed. -/
theorem Binds.unbroken {bound : List Char} {ls ls' : List (List Char)} (h : Binds p port device bound ls ls')
    (single : ∀ c ∈ device, Chars.isBlank c = false) (unbroken : ∀ l ∈ ls, '\n' ∉ l) : ∀ l ∈ ls', '\n' ∉ l := by
  cases h with
  | @first before after line args =>
    obtain ⟨others, _, later⟩ := List.forall_mem_append.mp unbroken |>.imp_right List.forall_mem_cons.mp
    refine List.forall_mem_append.mpr ⟨others, List.forall_mem_cons.mpr ⟨?_, ?_⟩⟩
    · exact not_mem_assignmentLine (not_mem_deviceArgs single args port) p
    · exact List.forall_mem_map.mpr fun l mem => not_mem_quiet (later l mem) p
  | @added before after =>
    obtain ⟨others, later⟩ := List.forall_mem_append.mp unbroken
    refine List.forall_mem_append.mpr ⟨others, List.forall_mem_cons.mpr ⟨?_, later⟩⟩
    exact not_mem_assignmentLine (not_mem_deviceArgs single [] port) p

/-- The text of a device's script is its lines, each with its end. -/
theorem deviceScriptChars_eq (contents : List Char) (p : Platform) (port : UInt16) (device : List Char) :
    deviceScriptChars contents p port device =
      (deviceLines p port device (Chars.lines contents)).flatMap (· ++ p.lineEnd) := by
  have ended : ∀ {sep : List Char} {ls : List (List Char)}, ls ≠ [] →
      sep.intercalate ls ++ sep = ls.flatMap (· ++ sep) := by
    intro sep ls some
    induction ls with
    | nil => exact absurd rfl some
    | cons line ls ih =>
      cases ls with
      | nil => simp
      | cons next ls =>
        rw [List.intercalate_cons_cons, List.flatMap_cons, ← ih (List.cons_ne_nil _ _)]
        simp
  refine ended fun none => ?_
  obtain ⟨bound, ls', binds, lines⟩ := binds_deviceLines p port device (Chars.lines contents)
  have one := binds.filter
  rw [(List.append_eq_nil_iff.mp (lines.symm.trans none)).1] at one
  cases one

/-- A carriage return at the end of a line does not matter to what it assigns. -/
theorem activates_chop (p : Platform) (line : List Char) : p.activates (Chars.chop line) = p.activates line := by
  have plain : '\r' ∉ p.assignment := by cases p <;> decide
  obtain same | same := Chars.chop_cases line
  · rw [← same]
  · have longer : p.assignment ≠ Chars.chop line ++ ['\r'] := fun whole => plain (whole ▸ by simp)
    rw [Bool.eq_iff_iff, Platform.activates, Platform.activates, List.isPrefixOf_iff_prefix, List.isPrefixOf_iff_prefix]
    conv_rhs => rw [same, List.prefix_concat_iff]
    exact ⟨.inr, fun either => either.resolve_left longer⟩

theorem chop_assignmentLine (args : List Char) :
    Chars.chop (assignmentLine .unix args) = assignmentLine .unix args := by
  unfold assignmentLine
  exact if_neg (by rw [List.getLast?_concat]; decide)

/-- Read line by line, the text of a device's script has one line that assigns arguments. -/
theorem Binds.filter_lines {bound : List Char} {ls ls' : List (List Char)} (h : Binds p port device bound ls ls')
    (single : ∀ c ∈ device, Chars.isBlank c = false) (unbroken : ∀ l ∈ ls, '\n' ∉ l) :
    (Chars.lines ((ls' ++ p.closing).flatMap (· ++ p.lineEnd))).filter p.activates = [bound] := by
  have one : (ls' ++ p.closing).filter p.activates = [bound] := by
    have closing : p.closing.filter p.activates = [] := by cases p <;> rfl
    rw [List.filter_append, h.filter, closing]
    rfl
  have whole : ∀ l ∈ ls' ++ p.closing, '\n' ∉ l :=
    List.forall_mem_append.mpr ⟨h.unbroken single unbroken, by cases p <;> decide⟩
  cases p with
  | windows =>
    have ends : (ls' ++ Platform.windows.closing).flatMap (· ++ Platform.windows.lineEnd) =
        ((ls' ++ Platform.windows.closing).map (· ++ ['\r'])).flatMap (· ++ ['\n']) := by
      rw [List.flatMap_map]
      simp [Platform.lineEnd]
    have whole' : ∀ l ∈ (ls' ++ Platform.windows.closing).map (· ++ ['\r']), '\n' ∉ l :=
      List.forall_mem_map.mpr fun l mem => by simpa using whole l mem
    rw [ends, Chars.lines_flatMap whole', List.map_map]
    simpa [Function.comp_def, Chars.chop_append_return] using one
  | unix =>
    have bounds : Chars.chop bound = bound := by cases h <;> exact chop_assignmentLine _
    have passed : Platform.unix.activates ∘ Chars.chop = Platform.unix.activates := funext (activates_chop .unix)
    change (Chars.lines ((ls' ++ Platform.unix.closing).flatMap (· ++ ['\n']))).filter _ = _
    rw [Chars.lines_flatMap whole, List.filter_map, passed, one, List.map_singleton, bounds]

/-! ## The user's script -/

/-- The text of a user's script with its assignments turned into comments. -/
def quietText (contents : List Char) : List Char :=
  let text := ['\n'].intercalate ((Chars.lines contents).map (quiet .unix))
  if contents.getLast? = some '\n' then text ++ ['\n'] else text

theorem silenced?_eq (contents : List Char) :
    silenced? contents =
      if (Chars.lines contents).any Platform.unix.activates then some (quietText contents) else none := rfl

theorem quietText_unbroken {line : List Char} (unbroken : '\n' ∉ line) : quietText line = quiet .unix line := by
  have open' : line.getLast? ≠ some '\n' := fun last => unbroken (List.mem_of_getLast? last)
  unfold quietText
  rw [if_neg open', Chars.lines_unbroken unbroken]
  split
  · rename_i empty
    rw [empty]
    rfl
  · simp

theorem quietText_ended {line : List Char} (unbroken : '\n' ∉ line) (rest : List Char) :
    quietText (line ++ '\n' :: rest) = quiet .unix (Chars.chop line) ++ '\n' :: quietText rest := by
  unfold quietText
  rw [Chars.lines_ended unbroken, List.map_cons]
  cases rest with
  | nil => simp [Chars.lines]
  | cons c rest =>
    have ends : (line ++ '\n' :: c :: rest).getLast? = (c :: rest).getLast? := by
      rw [List.getLast?_append_cons, List.getLast?_cons_cons]
    obtain ⟨first, others, lines⟩ := List.exists_cons_of_ne_nil (Chars.lines_ne_nil (List.cons_ne_nil c rest))
    rw [ends, lines, List.map_cons, List.intercalate_cons_cons]
    split <;> simp

/-- No line assigns arguments any more. -/
theorem not_activates_of_mem_quietText (contents : List Char) :
    ∀ l ∈ Chars.lines (quietText contents), Platform.unix.activates l = false := by
  induction contents using Chars.line_induction with
  | last line unbroken =>
    rw [quietText_unbroken unbroken, Chars.lines_unbroken (not_mem_quiet unbroken .unix)]
    split
    · exact List.forall_mem_nil _
    · exact List.forall_mem_singleton.mpr (not_activates_quiet .unix line)
  | ended line rest unbroken ih =>
    have unbroken' : '\n' ∉ quiet .unix (Chars.chop line) :=
      not_mem_quiet (fun broken => unbroken (Chars.mem_of_mem_chop broken)) .unix
    rw [quietText_ended unbroken, Chars.lines_ended unbroken']
    refine List.forall_mem_cons.mpr ⟨?_, ih⟩
    rw [activates_chop]
    exact not_activates_quiet .unix _

/-- Turning assignments into comments leaves none to be turned into comments. -/
theorem silenced?_quietText (contents : List Char) : silenced? (quietText contents) = none := by
  rw [silenced?_eq, if_neg]
  rw [List.any_eq_true]
  rintro ⟨line, mem, active⟩
  rw [not_activates_of_mem_quietText contents line mem] at active
  cases active

/-- Without carriage returns, the lines are the same ones, each turned into a comment where it is to be. -/
theorem lines_quietText {contents : List Char} (plain : '\r' ∉ contents) :
    Chars.lines (quietText contents) = (Chars.lines contents).map (quiet .unix) := by
  have still : ∀ {line : List Char}, '\r' ∉ line → '\r' ∉ quiet .unix line := by
    intro line plain
    unfold quiet
    split
    · simp [Platform.mark, plain]
    · exact plain
  induction contents using Chars.line_induction with
  | last line unbroken =>
    rw [quietText_unbroken unbroken, Chars.lines_unbroken (not_mem_quiet unbroken .unix), Chars.lines_unbroken unbroken]
    by_cases empty : line = []
    · rw [empty]
      rfl
    · have some : quiet .unix line ≠ [] := by
        unfold quiet
        split <;> simp [Platform.mark, empty]
      rw [if_neg empty, if_neg some, List.map_singleton]
  | ended line rest unbroken ih =>
    rw [List.mem_append, List.mem_cons, not_or, not_or] at plain
    have unbroken' : '\n' ∉ quiet .unix line := not_mem_quiet unbroken .unix
    rw [quietText_ended unbroken, Chars.chop_of_not_mem plain.1, Chars.lines_ended unbroken',
      Chars.chop_of_not_mem (still plain.1), ih plain.2.2, Chars.lines_ended unbroken, Chars.chop_of_not_mem plain.1,
      List.map_cons]

/-- A comment has the arguments that it had as an assignment. -/
theorem assigned?_quiet (line : List Char) : assigned? .unix (quiet .unix line) = assigned? .unix line := by
  unfold quiet
  split
  · rename_i active
    obtain ⟨rest, rfl⟩ := activates_iff.mp active
    rfl
  · rfl

theorem quiet_quiet (p : Platform) (line : List Char) : quiet p (quiet p line) = quiet p line :=
  if_neg (by rw [not_activates_quiet]; exact Bool.false_ne_true)

theorem assignFirst?_quiet (port : UInt16) (device : List Char) (ls : List (List Char)) :
    assignFirst? .unix port device (ls.map (quiet .unix)) = assignFirst? .unix port device ls := by
  induction ls with
  | nil => rfl
  | cons line ls ih =>
    rw [List.map_cons, assignFirst?, assignFirst?, assigned?_quiet, ih]
    cases assigns : assigned? .unix line with
    | some args =>
      rw [laterLines_eq, laterLines_eq, List.map_map]
      have same : quiet .unix ∘ quiet .unix = quiet .unix := funext (quiet_quiet .unix)
      rw [same]
    | none => rw [quiet_of_unassigned assigns]

/-- Assignments and comments with the same arguments make the same script. -/
theorem deviceLines_quiet (port : UInt16) (device : List Char) (ls : List (List Char)) :
    deviceLines .unix port device (ls.map (quiet .unix)) = deviceLines .unix port device ls := by
  unfold deviceLines
  rw [assignFirst?_quiet]
  cases assigned : assignFirst? .unix port device ls with
  | some ls' => rfl
  | none =>
    have none := assignFirst?_eq_none assigned
    have same : ls.map (quiet .unix) = ls := by
      rw [List.map_congr_left fun line mem => quiet_of_unassigned (none line mem), List.map_id']
    rw [same]

/-- The script of a device is the same before and after the assignments of the user's script are turned into
comments. -/
theorem deviceScriptChars_quietText {contents : List Char} (plain : '\r' ∉ contents) (port : UInt16)
    (device : List Char) :
    deviceScriptChars (quietText contents) .unix port device = deviceScriptChars contents .unix port device := by
  rw [deviceScriptChars, lines_quietText plain, deviceLines_quiet]
  rfl

end RenderFarm.Launch
