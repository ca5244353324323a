import Mathlib.Data.List.Nodup
import RenderFarm.Proofs.Json.RoundTrip
import RenderFarm.Proofs.Output.Lasting
import RenderFarm.Proofs.Partial
import RenderFarm.Proofs.Time.Instant
import RenderFarm.Record.Sidecar

/-!
Records kept beside images are read back as they were written: each field by its name, from an object in which every
name stands once.
-/

namespace RenderFarm

/-! ## Forms -/

namespace Json

theorem ofJson?_toJson_int64 (n : Int64) : ofJson? (toJson n) = some n := by
  have low : -(twoTo 63 : Int) ≤ n.toInt := Int64.le_toInt n
  have high : n.toInt < (twoTo 63 : Int) := Int64.toInt_lt n
  have between : intBetween? (-(twoTo 63 : Int)) (twoTo 63 - 1) (.int n.toInt) = some n.toInt :=
    if_pos ⟨low, by omega⟩
  change (intBetween? (-(twoTo 63 : Int)) (twoTo 63 - 1) (.int n.toInt)).map Int64.ofInt = some n
  rw [between, Option.map_some, Int64.ofInt_toInt]

theorem ofJson?_toJson_uint32 (n : UInt32) : ofJson? (toJson n) = some n := by
  have high : n.toNat < twoTo 32 := n.toNat_lt
  have between : intBetween? 0 (twoTo 32 - 1) (.int n.toNat) = some (n.toNat : Int) :=
    if_pos ⟨by omega, by omega⟩
  change (intBetween? 0 (twoTo 32 - 1) (.int n.toNat)).map (fun n => UInt32.ofNat n.toNat) = some n
  rw [between, Option.map_some, Int.toNat_natCast, UInt32.ofNat_toNat]

theorem ofJson?_toJson_float {x : Float} (finite : x.isFinite) : ofJson? (toJson x) = some x := by
  simp [toJson, finite, ofJson?]

theorem ofJson?_option {α : Type} [JsonForm α] {v : Json} (solid : v ≠ .null) :
    (ofJson? v : Option (Option α)) = (ofJson? v).map some := by
  cases v with
  | null => exact absurd rfl solid
  | _ => rfl

/-- An optional value whose form is never null. -/
theorem ofJson?_toJson_option {α : Type} [JsonForm α] (a : Option α) (solid : ∀ a : α, toJson a ≠ .null)
    (reads : ∀ a : α, ofJson? (toJson a) = some a) : ofJson? (toJson a) = some a := by
  cases a with
  | none => rfl
  | some a =>
    change ofJson? (toJson a) = some (some a)
    rw [ofJson?_option (solid a), reads a, Option.map_some]

theorem fitsWord_int64 (n : Int64) : FitsWord n.toInt := by
  have low : -(twoTo 63 : Int) ≤ n.toInt := Int64.le_toInt n
  have high : n.toInt < (twoTo 63 : Int) := Int64.toInt_lt n
  have words : twoTo 64 = 2 * twoTo 63 := rfl
  exact ⟨low, by omega⟩

theorem fitsWord_uint32 (n : UInt32) : FitsWord n.toNat := by
  have high : n.toNat < twoTo 32 := n.toNat_lt
  have words : twoTo 64 = twoTo 32 * twoTo 32 := rfl
  have := Nat.le_mul_of_pos_right (twoTo 32) (twoTo_pos 32)
  exact ⟨by omega, by omega⟩

/-! ## Fields -/

/-- The members of an object that are written. -/
def written (fields : List (String × Option Json)) : List (String × Json) :=
  fields.filterMap fun (name, v) => v.map fun v => (name, v)

theorem objectOf_eq (fields : List (String × Option Json)) : objectOf fields = .object (written fields) := rfl

theorem mem_written {fields : List (String × Option Json)} {name : String} {v : Json} :
    (name, v) ∈ written fields ↔ (name, some v) ∈ fields := by
  simp only [written, List.mem_filterMap, Option.map_eq_some_iff, Prod.mk.injEq]
  constructor
  · rintro ⟨⟨name', v'⟩, mem, v'', rfl, rfl, rfl⟩
    exact mem
  · exact fun mem => ⟨_, mem, v, rfl, rfl, rfl⟩

theorem names_written_sublist (fields : List (String × Option Json)) :
    ((written fields).map (·.1)).Sublist (fields.map (·.1)) := by
  induction fields with
  | nil => exact .slnil
  | cons field fields ih =>
    obtain ⟨name, _ | v⟩ := field
    · exact .cons _ ih
    · exact .cons_cons _ ih

variable {fields : List (String × Option Json)} {name : String}

theorem count_objectOf_le (distinct : (fields.map (·.1)).Nodup) (name : String) : count name (objectOf fields) ≤ 1 := by
  have once := List.nodup_iff_count_le_one.mp (distinct.sublist (names_written_sublist fields)) name
  rw [objectOf_eq, count, ← List.countP_eq_length_filter]
  rwa [List.count, List.countP_map] at once

/-- What an object has under a name is what it was given. -/
theorem member?_objectOf (distinct : (fields.map (·.1)).Nodup) {i : Nat} {v : Option Json}
    (given : fields[i]? = some (name, v)) : (objectOf fields).member? name = v := by
  have mem : (name, v) ∈ fields := List.mem_of_getElem? given
  have only {v' : Json} (mem' : (name, v') ∈ written fields) : v = some v' :=
    congrArg Prod.snd (List.inj_on_of_nodup_map distinct mem (mem_written.mp mem') rfl)
  rw [objectOf_eq, member?]
  cases found : (written fields).reverse.find? (·.1 == name) with
  | none =>
    cases v with
    | none => rfl
    | some v => exact absurd (List.find?_eq_none.mp found _ (List.mem_reverse.mpr (mem_written.mpr mem))) (by simp)
  | some member =>
    obtain ⟨name', v'⟩ := member
    obtain rfl : name' = name := by simpa using List.find?_some found
    exact (only (List.mem_reverse.mp (List.mem_of_find?_eq_some found))).symm

theorem asStruct?_objectOf (distinct : (fields.map (·.1)).Nodup) (names : List String) :
    (objectOf fields).asStruct? names = some (objectOf fields) := by
  rw [objectOf_eq, asStruct?, asRecord?, if_pos]
  rw [List.all_eq_true]
  exact fun name _ => decide_eq_true (count_objectOf_le distinct name)

theorem plain_cons {v : Json} (first : v.Plain) (more : (objectOf fields).Plain) :
    (objectOf ((name, some v) :: fields)).Plain :=
  ⟨first, more⟩

theorem field?_eq_some {α : Type} [JsonForm α] {v : Json} {a : α} (found : v.member? name = some (toJson a))
    (reads : ofJson? (toJson a) = some a) : v.field? name = some a := by
  rw [field?, found]
  exact reads

end Json

theorem Iptc.eq_of_isEmpty {i : Iptc} (empty : i.isEmpty) : i = {} := by
  obtain ⟨title, description, keywords, copyright⟩ := i
  simp only [Iptc.isEmpty, Bool.and_eq_true, String.isEmpty_iff] at empty
  obtain ⟨⟨⟨rfl, rfl⟩, rfl⟩, rfl⟩ := empty
  rfl

namespace ImageRecord

open Json

theorem fields_distinct (r : ImageRecord) : (r.fields.map (·.1)).Nodup := by
  change fieldNames.Nodup
  decide

/-- The descriptive fields are left out exactly when they are all empty. -/
theorem member?_iptc (r : ImageRecord) :
    r.encode.member? "iptc" = if r.iptc.isEmpty then none else some (toJson r.iptc) :=
  member?_objectOf r.fields_distinct (i := 10) rfl

/-- Descriptive fields that are left out are read as the empty ones. -/
theorem fieldD?_iptc (r : ImageRecord) : r.encode.fieldD? "iptc" ({} : Iptc) = some r.iptc := by
  rw [fieldD?, member?_iptc]
  cases empty : r.iptc.isEmpty with
  | true => rw [if_pos rfl, Iptc.eq_of_isEmpty empty]
  | false => rfl

theorem decode?_encode {r : ImageRecord} (finite : r.scale.isFinite) (stored : r.createdAt.Stored) :
    decode? r.encode = some r := by
  have field (i : Nat) {α : Type} [JsonForm α] {name : String} {a : α}
      (given : r.fields[i]? = some (name, some (toJson a)))
      (reads : ofJson? (toJson a) = some a) : (encode r).field? name = some a :=
    field?_eq_some (member?_objectOf r.fields_distinct given) reads
  have text (s : Option String) : ofJson? (toJson s) = some s := ofJson?_toJson_option s nofun fun _ => rfl
  have path (p : Option Path) : ofJson? (toJson p) = some p := ofJson?_toJson_option p nofun fun _ => rfl
  exact bind_eq (asStruct?_objectOf r.fields_distinct fieldNames) <| bind_eq (field 0 rfl rfl) <|
    bind_eq (field 1 rfl rfl) <| bind_eq (field 2 rfl (text _)) <| bind_eq (field 3 rfl (ofJson?_toJson_int64 _)) <|
    bind_eq (field 4 rfl (ofJson?_toJson_uint32 _)) <| bind_eq (field 5 rfl (ofJson?_toJson_uint32 _)) <|
    bind_eq (field 6 rfl (ofJson?_toJson_uint32 _)) <| bind_eq (field 7 rfl (ofJson?_toJson_float finite)) <|
    bind_eq (field 8 rfl rfl) <| bind_eq (field 9 rfl rfl) <| bind_eq r.fieldD?_iptc <|
    bind_eq (field 11 rfl (text _)) <| bind_eq (field 12 rfl (path _)) <| bind_eq (field 13 rfl rfl) <|
    bind_eq (field 14 rfl (Instant.ofChars?_text stored)) rfl

/-- The numbers of a record are read back when its scale is. -/
theorem plain_encode {r : ImageRecord} (finite : r.scale.isFinite)
    (scale : parse? (pretty (.float r.scale)) = some (.float r.scale)) : r.encode.Plain := by
  have text (s : Option String) : (toJson s).Plain := by cases s <;> trivial
  have path (p : Option Path) : (toJson p).Plain := by cases p <;> trivial
  have number : (toJson r.scale).Plain := by
    change Plain (if r.scale.isFinite then .float r.scale else .null)
    rwa [if_pos finite]
  have later : (objectOf (r.fields.drop 11)).Plain :=
    plain_cons (text _) <| plain_cons (path _) <| plain_cons trivial <| plain_cons trivial trivial
  have iptc : (objectOf (r.fields.drop 10)).Plain := by
    change (objectOf (("iptc", if r.iptc.isEmpty then none else some (toJson r.iptc)) :: r.fields.drop 11)).Plain
    split
    · exact later
    · exact plain_cons ⟨trivial, trivial, trivial, trivial, trivial⟩ later
  exact plain_cons trivial <| plain_cons trivial <| plain_cons (text _) <| plain_cons (fitsWord_int64 _) <|
    plain_cons (fitsWord_uint32 _) <| plain_cons (fitsWord_uint32 _) <| plain_cons (fitsWord_uint32 _) <|
    plain_cons number <| plain_cons trivial <| plain_cons trivial iptc

/-- A record is what its text reads as. -/
theorem ofText?_text {r : ImageRecord} (finite : r.scale.isFinite)
    (scale : parse? (pretty (.float r.scale)) = some (.float r.scale)) (stored : r.createdAt.Stored) :
    ofText? r.text = some r := by
  rw [ofText?, text, parse?_pretty (plain_encode finite scale)]
  exact decode?_encode finite stored

/-- A record is what is read back after it was written: from its text alone, and from its file. The descriptive fields
that are left out are the empty ones. -/
theorem read_back {r : ImageRecord} (finite : r.scale.isFinite)
    (scale : parse? (pretty (.float r.scale)) = some (.float r.scale)) (stored : r.createdAt.Stored) :
    ofText? r.text = some r ∧ (r.encode.member? "iptc" = none ↔ r.iptc = {}) ∧
      ∀ fs fs' image, write fs image r = .ok fs' → read fs' image = .ok r := by
  have same := ofText?_text finite scale stored
  refine ⟨same, ?_, fun fs fs' image written => ?_⟩
  · rw [member?_iptc]
    constructor
    · intro left
      by_cases empty : r.iptc.isEmpty
      · exact Iptc.eq_of_isEmpty empty
      · rw [if_neg empty] at left
        cases left
    · intro empty
      rw [empty]
      rfl
  · unfold write FileSystem.writeText at written
    cases put : fs.write (sidecarPath image) r.text.toUTF8 with
    | error fault =>
      rw [put] at written
      cases written
    | ok fs'' =>
      rw [put] at written
      cases written
      exact (read_eq_ok_iff (FileSystem.read_of_write put) r).mpr same

/-- A record of odd characters, extreme numbers and a leap second. -/
def oddRecord : ImageRecord where
  prompt := "say \"cheese\" \\ \u0001\t\u007f é 😀"
  negativePrompt := "\r\n"
  seed := -9223372036854775808
  width := 4294967295
  steps := 20
  scale := 7.5
  sampler := "Euler a"
  infotext := "Steps: 20,\nSeed: -1"
  sourceImage := some ⟨"/in/ø.png"⟩
  upscaled := true
  createdAt := ⟨1483228799, 1500000000⟩

theorem oddRecord_read_back : oddRecord.scale.isFinite ∧
    parse? (pretty (.float oddRecord.scale)) = some (.float oddRecord.scale) ∧ oddRecord.createdAt.Stored ∧
    ofText? oddRecord.text = some oddRecord ∧ (oddRecord.encode.member? "iptc" = none ↔ oddRecord.iptc = {}) ∧
      ∀ fs fs' image, write fs image oddRecord = .ok fs' → read fs' image = .ok oddRecord := by
  have finite : oddRecord.scale.isFinite := by decide +kernel
  have scale : parse? (pretty (.float oddRecord.scale)) = some (.float oddRecord.scale) := by rfl
  have stored : oddRecord.createdAt.Stored := ⟨by decide, .inr (by decide)⟩
  exact ⟨finite, scale, stored, read_back finite scale stored⟩

end ImageRecord

end RenderFarm
