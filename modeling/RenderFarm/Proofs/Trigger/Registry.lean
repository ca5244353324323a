import Mathlib.Data.List.Forall2
import Mathlib.Data.List.Sort
import Mathlib.Data.String.Basic
import RenderFarm.Proofs.Text
import RenderFarm.Trigger.Registry

/-!
Bringing the trigger registry in line with the backend's checkpoints. Every checkpoint gets an entry under its name
without the hash, with the phrase that the registry has kept for that name, and the entries are sorted by name. Doing so
once more changes nothing, and as long as no two names are equal in lower case the order of the checkpoints does not
matter.
-/

namespace RenderFarm.TriggerRegistry

variable {r : TriggerRegistry} {models : List Model} {entries : List TriggerEntry} {name phrase : String}

/-- The phrase that entries keep for a name: that of the first entry of the name, with the case of ASCII letters
ignored, and none without an entry. -/
inductive Remembers (entries : List TriggerEntry) (name : String) : String → Prop
  | stored {before after : List TriggerEntry} {old : TriggerEntry} (split : entries = before ++ old :: after)
      (first : ∀ e ∈ before, Text.eqIgnoringCase e.model name = false) (same : Text.eqIgnoringCase old.model name) :
      Remembers entries name old.phrase
  | missing (none : ∀ e ∈ entries, Text.eqIgnoringCase e.model name = false) : Remembers entries name ""

/-- An entry is the one that a checkpoint gets: under its name without the hash, with the phrase kept for it. -/
structure EntryOf (entries : List TriggerEntry) (m : Model) (e : TriggerEntry) : Prop where
  named : e.model = Title.stripHash m.title
  kept : Remembers entries e.model e.phrase

/-! ## The entry for a name -/

theorem entryFor_eq (entries : List TriggerEntry) (name : String) :
    entryFor entries name = ⟨name, (entryFor entries name).phrase⟩ := by
  unfold entryFor
  split <;> rfl

theorem entryFor_model (entries : List TriggerEntry) (name : String) : (entryFor entries name).model = name := by
  rw [entryFor_eq]

theorem remembers_entryFor (entries : List TriggerEntry) (name : String) :
    Remembers entries name (entryFor entries name).phrase := by
  unfold entryFor
  split
  · rename_i old found
    obtain ⟨same, before, after, split, first⟩ := List.find?_eq_some_iff_append.mp found
    have kept : Remembers entries name old.phrase := .stored split (by simpa using first) same
    exact kept
  · rename_i missing
    exact .missing (by simpa using missing)

/-- The case of ASCII letters does not matter to the phrase that is kept. -/
theorem entryFor_congr {name' : String} (same : Text.eqIgnoringCase name name') :
    (entryFor entries name).phrase = (entryFor entries name').phrase := by
  unfold entryFor
  simp only [Text.eqIgnoringCase_congr same]
  split <;> rfl

/-- Entries of a name that agree on their phrase. -/
theorem entryFor_of_agree {e : TriggerEntry} (mem : e ∈ entries) (same : Text.eqIgnoringCase e.model name)
    (agree : ∀ e ∈ entries, Text.eqIgnoringCase e.model name → e.phrase = phrase) :
    (entryFor entries name).phrase = phrase := by
  unfold entryFor
  split
  · rename_i old found
    exact agree old (List.mem_of_find?_eq_some found) (by simpa using List.find?_some found)
  · rename_i missing
    exact absurd same (List.find?_eq_none.mp missing e mem)

/-! ## The entries after a sync -/

theorem entries_sync (r : TriggerRegistry) (models : List Model) :
    (r.sync models).1.entries = (models.map fun m => entryFor r.entries (Title.stripHash m.title)).mergeSort entryLe :=
  rfl

theorem entries_sync_perm (r : TriggerRegistry) (models : List Model) :
    (r.sync models).1.entries.Perm (models.map fun m => entryFor r.entries (Title.stripHash m.title)) :=
  List.mergeSort_perm _ _

theorem mem_entries_sync {e : TriggerEntry} :
    e ∈ (r.sync models).1.entries ↔ ∃ m ∈ models, entryFor r.entries (Title.stripHash m.title) = e := by
  rw [(entries_sync_perm r models).mem_iff, List.mem_map]

theorem entryLe_iff {a b : TriggerEntry} : entryLe a b ↔ Text.lower a.model ≤ Text.lower b.model := by
  rw [entryLe, Bool.not_eq_true', decide_eq_false_iff_not, not_lt]

theorem entries_sync_sorted (r : TriggerRegistry) (models : List Model) :
    (r.sync models).1.entries.Pairwise fun a b => Text.lower a.model ≤ Text.lower b.model := by
  have sorted : (r.sync models).1.entries.Pairwise fun a b => entryLe a b = true := by
    apply List.pairwise_mergeSort
    · intro a b c first second
      exact entryLe_iff.mpr ((entryLe_iff.mp first).trans (entryLe_iff.mp second))
    · intro a b
      rw [Bool.or_eq_true, entryLe_iff, entryLe_iff]
      exact le_total _ _
  exact sorted.imp entryLe_iff.mp

theorem phrase_of_mem_sync {e : TriggerEntry} (mem : e ∈ (r.sync models).1.entries) :
    e.phrase = (entryFor r.entries e.model).phrase := by
  obtain ⟨m, -, rfl⟩ := mem_entries_sync.mp mem
  rw [entryFor_model]

/-- Names that the backend lists keep their phrases. -/
theorem entryFor_sync {m : Model} (listed : m ∈ models) :
    entryFor (r.sync models).1.entries (Title.stripHash m.title) = entryFor r.entries (Title.stripHash m.title) := by
  have there : entryFor r.entries (Title.stripHash m.title) ∈ (r.sync models).1.entries :=
    mem_entries_sync.mpr ⟨m, listed, rfl⟩
  have named := entryFor_model r.entries (Title.stripHash m.title)
  have phrase := entryFor_of_agree there (by rw [named, Text.eqIgnoringCase_iff]) fun e mem same =>
    (phrase_of_mem_sync mem).trans (entryFor_congr same)
  rw [entryFor_eq, phrase, ← entryFor_eq]

theorem sync_eq (r : TriggerRegistry) (models : List Model) :
    r.sync models = ({ r with entries := (r.sync models).1.entries }, (r.sync models).1.entries != r.entries) :=
  rfl

theorem sync_sync (r : TriggerRegistry) (models : List Model) :
    (r.sync models).1.sync models = ((r.sync models).1, false) := by
  have again : ((r.sync models).1.sync models).1.entries = (r.sync models).1.entries := by
    rw [entries_sync, entries_sync r]
    congr 1
    exact List.map_congr_left fun m listed => entryFor_sync listed
  rw [sync_eq, again, bne_self_eq_false]

/-- Entries with different names in lower case have one order only. -/
theorem entries_sync_perm_congr {models' : List Model}
    (distinct : (models.map fun m => Text.lower (Title.stripHash m.title)).Nodup) (perm : models'.Perm models) :
    (r.sync models').1.entries = (r.sync models).1.entries := by
  have same : (r.sync models').1.entries.Perm (r.sync models).1.entries :=
    (entries_sync_perm r models').trans ((perm.map _).trans (entries_sync_perm r models).symm)
  have keys : ((r.sync models).1.entries.map fun e => Text.lower e.model).Nodup := by
    rw [((entries_sync_perm r models).map _).nodup_iff, List.map_map]
    simpa [Function.comp_def, entryFor_model] using distinct
  refine same.eq_of_pairwise (fun a b mem mem' le ge => ?_) (entries_sync_sorted r models') (entries_sync_sorted r models)
  exact List.inj_on_of_nodup_map keys (same.mem_iff.mp mem) mem' (le_antisymm le ge)

/-- A sync of the registry with the backend's checkpoints. There is an entry for each checkpoint and no other, sorted by
name in lower case. The flag says whether the entries have changed, which they do not when the registry is synced with
the same checkpoints again. Checkpoints whose names differ in lower case may come in any order. -/
theorem sync_exact (r : TriggerRegistry) (models : List Model) :
    (∃ named, (r.sync models).1.entries.Perm named ∧ List.Forall₂ (EntryOf r.entries) models named) ∧
    ((r.sync models).1.entries.Pairwise fun a b => Text.lower a.model ≤ Text.lower b.model) ∧
    (r.sync models).1.path = r.path ∧
    ((r.sync models).2 = true ↔ (r.sync models).1.entries ≠ r.entries) ∧
    (r.sync models).1.sync models = ((r.sync models).1, false) ∧
    ((models.map fun m => Text.lower (Title.stripHash m.title)).Nodup →
      ∀ models' : List Model, models'.Perm models → (r.sync models').1.entries = (r.sync models).1.entries) := by
  refine ⟨⟨_, entries_sync_perm r models, ?_⟩, entries_sync_sorted r models, rfl, bne_iff_ne, sync_sync r models,
    fun distinct _ perm => entries_sync_perm_congr distinct perm⟩
  rw [List.forall₂_map_right_iff, List.forall₂_same]
  intro m _
  refine ⟨entryFor_model _ _, ?_⟩
  rw [entryFor_model]
  exact remembers_entryFor _ _

/-- A registry that has a phrase under another spelling of a name, and an entry of a checkpoint that is gone. -/
def spelledRegistry : TriggerRegistry :=
  ⟨⟨"triggers.txt"⟩, [⟨"ALPHA.ckpt", "alpha style"⟩, ⟨"old.ckpt", "gone"⟩]⟩

theorem spelledRegistry_synced :
    let models : List Model := [⟨"beta.safetensors [1234]", none⟩, ⟨"alpha.ckpt [abcd]", none⟩]
    let models' : List Model := [⟨"alpha.ckpt [abcd]", none⟩, ⟨"beta.safetensors [1234]", none⟩]
    (models.map fun m => Text.lower (Title.stripHash m.title)).Nodup ∧ models'.Perm models ∧
      (spelledRegistry.sync models').1.entries = (spelledRegistry.sync models).1.entries ∧
      (spelledRegistry.sync models').1.entries = [⟨"alpha.ckpt", "alpha style"⟩, ⟨"beta.safetensors", ""⟩] := by
  intro models models'
  have distinct : (models.map fun m => Text.lower (Title.stripHash m.title)).Nodup := by decide +kernel
  have perm : models'.Perm models := List.Perm.swap _ _ _
  obtain ⟨-, -, -, -, -, order⟩ := sync_exact spelledRegistry models
  refine ⟨distinct, perm, order distinct models' perm, ?_⟩
  rw [entries_sync, List.mergeSort_of_pairwise (by decide +kernel)]
  decide +kernel

end RenderFarm.TriggerRegistry
