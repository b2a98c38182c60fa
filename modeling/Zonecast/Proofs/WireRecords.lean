/-
The records that the zone backend's interface speaks are read back as they were written, from the
value and from its text. A record is written field by field, and a field that is left out is one
that the reader knows the value of; so the reader finds in every field what the writer put there,
or the default that it was left out for.

What a value is read as depends on its known members only, and a member that holds the default of
its field might as well be missing. Whatever was read is read again when it is written.
-/
import Mathlib.Data.List.Nodup
import Zonecast.Backend.Client
import Zonecast.Proofs.RenderedJson
import Zonecast.Zone.Wire

namespace Zonecast

namespace Json

/-! ### Members -/

/-- The value of a field, if it is written once or not at all. -/
def sole? : List Json → Option (Option Json)
  | [] => some none
  | [value] => some (some value)
  | _ => none

/-- The members of the fields that have a value. -/
def members (names : List String) (values : List (Option Json)) : List (String × Json) :=
  (names.zip values).filterMap fun field => field.2.map (field.1, ·)

theorem fields?_object (names : List String) (members : List (String × Json)) :
    fields? names (.object members) = names.mapM fun name => sole? (valuesOf name members) := by
  refine congrArg (List.mapM · names) (funext fun name => ?_)
  unfold sole?
  split <;> simp_all

theorem fields?_object_cons (name : String) (names : List String)
    (members : List (String × Json)) :
    fields? (name :: names) (.object members) =
      (sole? (valuesOf name members)).bind fun value =>
        (fields? names (.object members)).map (value :: ·) := by
  rw [fields?_object, fields?_object, List.mapM_cons]
  refine congrArg (Option.bind _) (funext fun value => ?_)
  rw [Option.map_eq_bind]
  rfl

theorem valuesOf_append (name : String) (front back : List (String × Json)) :
    valuesOf name (front ++ back) = valuesOf name front ++ valuesOf name back :=
  List.filterMap_append

theorem valuesOf_cons_self (name : String) (value : Json) (members : List (String × Json)) :
    valuesOf name ((name, value) :: members) = value :: valuesOf name members :=
  List.filterMap_cons_some (if_pos rfl)

theorem valuesOf_cons_of_ne {name other : String} (apart : other ≠ name) (value : Json)
    (members : List (String × Json)) :
    valuesOf name ((other, value) :: members) = valuesOf name members :=
  List.filterMap_cons_none (if_neg apart)

theorem valuesOf_eq_nil {name : String} {members : List (String × Json)}
    (missing : ∀ member ∈ members, member.1 ≠ name) : valuesOf name members = [] :=
  List.filterMap_eq_nil_iff.mpr fun member inside => if_neg (missing member inside)

/-- Members that are left out for their names are not missed under another name. -/
theorem valuesOf_filter {name : String} {keep : String × Json → Bool}
    (kept : ∀ member, member.1 = name → keep member = true) (members : List (String × Json)) :
    valuesOf name (members.filter keep) = valuesOf name members := by
  rw [valuesOf, List.filterMap_filter]
  refine congrArg (List.filterMap · members) (funext fun member => ?_)
  by_cases named : member.1 = name
  · rw [if_pos (kept member named)]
  · rw [if_neg named, ite_self]

/-- The fields are the same if the members of their names are. -/
theorem fields?_congr {names : List String} {first second : List (String × Json)}
    (same : ∀ name ∈ names, valuesOf name first = valuesOf name second) :
    fields? names (.object first) = fields? names (.object second) := by
  induction names with
  | nil => rfl
  | cons name names inductionHypothesis =>
    rw [fields?_object_cons, fields?_object_cons, same name List.mem_cons_self,
      inductionHypothesis fun name member => same name (List.mem_cons_of_mem _ member)]

/-- Every field has a value or is missing. -/
theorem length_of_fields? {names : List String} {members : List (String × Json)}
    {values : List (Option Json)} (read : fields? names (.object members) = some values) :
    values.length = names.length := by
  induction names generalizing values with
  | nil =>
    cases read
    rfl
  | cons name names inductionHypothesis =>
    rw [fields?_object_cons, Option.bind_eq_some_iff] at read
    obtain ⟨value, _, rest⟩ := read
    obtain ⟨values, read, rfl⟩ := Option.map_eq_some_iff.mp rest
    rw [List.length_cons, List.length_cons, inductionHypothesis read]

theorem mem_of_mem_members {names : List String} {values : List (Option Json)}
    {member : String × Json} (inside : member ∈ members names values) :
    member.1 ∈ names ∧ some member.2 ∈ values := by
  obtain ⟨⟨name, value⟩, zipped, held⟩ := List.mem_filterMap.mp inside
  obtain ⟨value, rfl, rfl⟩ := Option.map_eq_some_iff.mp held
  exact List.of_mem_zip zipped

/-- The fields of the members that were written for them are those that were written. -/
theorem fields?_members {names : List String} {values : List (Option Json)}
    (distinct : names.Nodup) (equal : values.length = names.length) :
    fields? names (.object (members names values)) = some values := by
  induction names generalizing values with
  | nil =>
    rw [List.eq_nil_of_length_eq_zero equal]
    rfl
  | cons name names inductionHypothesis =>
    obtain ⟨value, values, rfl⟩ := List.exists_cons_of_length_eq_add_one equal
    obtain ⟨apart, distinct⟩ := List.nodup_cons.mp distinct
    have rest := inductionHypothesis distinct (Nat.succ.inj equal)
    have missing : valuesOf name (members names values) = [] := by
      refine valuesOf_eq_nil fun member inside same => apart ?_
      exact same ▸ (mem_of_mem_members inside).1
    -- The head's name is none of the others, so it finds its own member only, and they theirs.
    cases value with
    | none =>
      have whole : members (name :: names) (none :: values) = members names values := rfl
      rw [fields?_object_cons, whole, missing, rest]
      rfl
    | some value =>
      have whole : members (name :: names) (some value :: values) =
          (name, value) :: members names values := rfl
      have others : fields? names (.object ((name, value) :: members names values)) =
          fields? names (.object (members names values)) := by
        refine fields?_congr fun other member => valuesOf_cons_of_ne ?_ _ _
        rintro rfl
        exact apart member
      rw [fields?_object_cons, whole, valuesOf_cons_self, missing, others, rest]
      rfl

/-! ### Defaults -/

/-- The values of fields, with the defaults of those that are missing. -/
def fill : List (String × Option Json) → List (Option Json) → List (Option Json)
  | (_, default) :: table, value :: values => value.or default :: fill table values
  | _, _ => []

/-- Two ways of finding fields find the same once defaults are filled in, if they do so for each
field. -/
theorem fill_fields?_congr {table : List (String × Option Json)}
    {first second : List (String × Json)}
    (same : ∀ field ∈ table, (sole? (valuesOf field.1 first)).map (·.or field.2) =
      (sole? (valuesOf field.1 second)).map (·.or field.2)) :
    (fields? (table.map (·.1)) (.object first)).map (fill table) =
      (fields? (table.map (·.1)) (.object second)).map (fill table) := by
  induction table with
  | nil => rfl
  | cons field table inductionHypothesis =>
    have rest := inductionHypothesis fun field member => same field (List.mem_cons_of_mem _ member)
    have head := same field List.mem_cons_self
    have step : ∀ members, (fields? ((field :: table).map (·.1)) (.object members)).map
        (fill (field :: table)) =
          ((sole? (valuesOf field.1 members)).map (·.or field.2)).bind fun value =>
            ((fields? (table.map (·.1)) (.object members)).map (fill table)).map
              (value :: ·) := by
      intro members
      rw [List.map_cons, fields?_object_cons]
      cases sole? (valuesOf field.1 members) with
      | none => rfl
      | some value => cases fields? (table.map (·.1)) (.object members) <;> rfl
    rw [step, step, head, rest]

/-- A member that holds the default of its field is as good as none. -/
theorem fill_fields?_default {table : List (String × Option Json)} {name : String} {default : Json}
    {before after : List (String × Json)} (distinct : (table.map (·.1)).Nodup)
    (listed : (name, some default) ∈ table)
    (missing : ∀ member ∈ before ++ after, member.1 ≠ name) :
    (fields? (table.map (·.1)) (.object (before ++ (name, default) :: after))).map (fill table) =
      (fields? (table.map (·.1)) (.object (before ++ after))).map (fill table) := by
  refine fill_fields?_congr fun field member => ?_
  by_cases same : field.1 = name
  · have sameField : field = (name, some default) :=
      List.inj_on_of_nodup_map distinct member listed same
    have front := valuesOf_eq_nil fun member inside =>
      missing member (List.mem_append_left after inside)
    have back := valuesOf_eq_nil fun member inside =>
      missing member (List.mem_append_right before inside)
    rw [sameField, valuesOf_append, valuesOf_append, valuesOf_cons_self, front, back]
    rfl
  · rw [valuesOf_append, valuesOf_append, valuesOf_cons_of_ne fun equal => same equal.symm]

/-! ### Values of fields -/

/-- What is written of a value is read as that value, from its text, too, and is not null. -/
class Carries {α : Type} (encode : α → Json) (decode : outParam (Json → Option α)) : Prop where
  back : ∀ value, decode (encode value) = some value
  solid : ∀ value, encode value ≠ .null
  legible : ∀ value, Legible (encode value)

def ofUInt32 (value : UInt32) : Json :=
  .nat value.toNat

def ofInt64 (value : Int64) : Json :=
  .integer value.toInt

/-- A list as an array. -/
def arrayOf {α : Type} (encode : α → Json) (values : List α) : Json :=
  .array (values.map encode)

/-- A list as an array, if there is anything in it. -/
def arrayIfAny {α : Type} (encode : α → Json) (values : List α) : Option Json :=
  if values.isEmpty then none else some (arrayOf encode values)

instance : Carries .string string? := ⟨fun _ => rfl, nofun, .string⟩

instance : Carries .bool bool? := ⟨fun _ => rfl, nofun, .bool⟩

instance : Carries ofUInt32 uint32? := by
  have small : ∀ value : UInt32, value.toNat < 4294967296 := UInt32.toNat_lt
  refine ⟨fun value => ?_, nofun, fun value => ?_⟩
  · have below := small value
    have held : (0 : Int) ≤ value.toNat ∧ (value.toNat : Int) ≤ 4294967295 := by omega
    rw [ofUInt32, uint32?, Json.nat, integer?, if_pos held, Option.map_some, Int.toNat_natCast,
      UInt32.ofNat_toNat]
  · have below := small value
    exact .integer _ (by omega) (by omega)

instance : Carries ofInt64 int64? := by
  have low : ∀ value : Int64, -9223372036854775808 ≤ value.toInt := Int64.le_toInt
  have high : ∀ value : Int64, value.toInt < 9223372036854775808 := Int64.toInt_lt
  refine ⟨fun value => ?_, nofun, fun value => ?_⟩
  · have above := high value
    rw [ofInt64, int64?, integer?, if_pos ⟨low value, by omega⟩, Option.map_some,
      Int64.ofInt_toInt]
  · have above := high value
    exact .integer _ (low value) (by omega)

section Fields

variable {α : Type} {encode : α → Json} {decode : Json → Option α} [carries : Carries encode decode]

instance : Carries (arrayOf encode) (list? decode) where
  back values := by
    have same : decode ∘ encode = some := funext carries.back
    rw [arrayOf, list?, List.mapM_map, same]
    induction values with
    | nil => rfl
    | cons value values inductionHypothesis =>
      rw [List.mapM_cons, inductionHypothesis]
      rfl
  solid := nofun
  legible values := by
    refine .array _ fun item member => ?_
    obtain ⟨value, _, rfl⟩ := List.mem_map.mp member
    exact carries.legible value

theorem option?_encode (value : α) : option? decode (encode value) = some (some value) := by
  unfold option?
  split
  · rename_i null
    exact absurd null (carries.solid value)
  · rw [carries.back]
    rfl

end Fields

/-- A way to write a field is one that it can be read back from, and the field is read alike
without a value and with its default. -/
structure IsField {α : Type} (write : α → Option Json) (read : Option Json → Option α)
    (default : Option Json) : Prop where
  back : ∀ value, read (write value) = some value
  legible : ∀ value, ∀ written ∈ write value, Legible written
  filled : ∀ field, read (field.or default) = read field

namespace IsField

variable {α : Type} (encode : α → Json) {decode : Json → Option α} [carries : Carries encode decode]

theorem required : IsField (fun value => some (encode value)) (required decode) none where
  back := carries.back
  legible value := by
    rintro _ ⟨⟩
    exact carries.legible value
  filled field := by rw [Option.or_none]

theorem defaulted {missing : α} {default : Json} (same : decode default = some missing) :
    IsField (fun value => some (encode value)) (defaulted missing decode) (some default) where
  back := carries.back
  legible := (required encode).legible
  filled
    | none => same
    | some _ => rfl

/-- A value or null. -/
theorem optional :
    IsField (fun value => some (.optional encode value)) (Json.defaulted none (option? decode))
      (some .null) where
  back
    | none => rfl
    | some value => option?_encode value
  legible
    | none => by
      rintro _ ⟨⟩
      exact .null
    | some value => (required encode).legible value
  filled
    | none => rfl
    | some _ => rfl

/-- A value that is left out if there is none. -/
theorem ifSome :
    IsField (Option.map encode) (Json.defaulted none (option? decode)) (some .null) where
  back
    | none => rfl
    | some value => option?_encode value
  legible
    | none => by rintro _ ⟨⟩
    | some value => (required encode).legible value
  filled
    | none => rfl
    | some _ => rfl

/-- A list that is left out if it is empty. -/
theorem ifAny :
    IsField (arrayIfAny encode) (Json.defaulted [] (list? decode)) (some (.array [])) where
  back
    | [] => rfl
    | value :: values => (required (arrayOf encode)).back (value :: values)
  legible
    | [] => by rintro _ ⟨⟩
    | value :: values => (required (arrayOf encode)).legible (value :: values)
  filled
    | none => rfl
    | some _ => rfl

theorem text : IsField (fun value => some (.string value)) (Json.required string?) none :=
  required Json.string

theorem optionalText : IsField (fun value => some (.optional .string value))
    (Json.defaulted none (option? string?)) (some .null) :=
  optional Json.string

theorem textIfSome : IsField (Option.map .string) (Json.defaulted none (option? string?))
    (some .null) :=
  ifSome Json.string

theorem flag : IsField (fun value => some (.bool value)) (Json.defaulted false bool?)
    (some (.bool false)) :=
  defaulted Json.bool rfl

theorem number : IsField (fun value => some (ofUInt32 value)) (Json.defaulted 0 uint32?)
    (some (.nat 0)) :=
  defaulted ofUInt32 rfl

theorem list : IsField (fun values => some (arrayOf encode values))
    (Json.defaulted [] (list? decode)) (some (.array [])) :=
  defaulted (arrayOf encode) rfl

end IsField

end Json

namespace Zone

open Json

/-! ### Record formats -/

/-- How records of one kind are written and read, by a table of the names of their fields, each
with what a missing one is read as, if it may be missing. -/
structure Format {α : Type} (table : List (String × Option Json)) (toJson : α → Json)
    (ofJson? : Json → Option α) where
  /-- The values that the fields are written with. -/
  values : α → List (Option Json)
  /-- The record with fields of these values. -/
  make? : List (Option Json) → Option α
  distinct : (table.map (·.1)).Nodup
  length_values : ∀ record, (values record).length = table.length
  toJson_eq : ∀ record, toJson record = .object (members (table.map (·.1)) (values record))
  ofJson?_eq : ∀ value, ofJson? value = (fields? (table.map (·.1)) value).bind make?
  make?_values : ∀ record, make? (values record) = some record
  make?_fill : ∀ fields, fields.length = table.length →
    make? (fill table fields) = make? fields
  legible : ∀ record, ∀ field ∈ values record, ∀ value ∈ field, Legible value

/-- Records of one kind survive being written and read. -/
structure RoundTrips {α : Type} (table : List (String × Option Json)) (toJson : α → Json)
    (ofJson? : Json → Option α) : Prop where
  /-- What is written is read back. -/
  back : ∀ record, ofJson? (toJson record) = some record
  /-- So it is from its text. -/
  text : ∀ record, Backend.readReply ofJson? (toJson record).render = some record
  /-- Whatever is read is read again when it is written. -/
  again : ∀ value record, ofJson? value = some record → ofJson? (toJson record) = some record
  /-- Members of other names do not matter. -/
  unknown : ∀ members, ofJson? (.object members) =
    ofJson? (.object (members.filter fun member => (table.map (·.1)).contains member.1))
  /-- A member that holds the default of its field does not matter. -/
  missing : ∀ name default before after, (name, some default) ∈ table →
    (∀ member ∈ before ++ after, member.1 ≠ name) →
    ofJson? (.object (before ++ (name, default) :: after)) = ofJson? (.object (before ++ after))

namespace Format

variable {α : Type} {table : List (String × Option Json)} {toJson : α → Json}
  {ofJson? : Json → Option α}

theorem ofJson?_toJson (format : Format table toJson ofJson?) (record : α) :
    ofJson? (toJson record) = some record := by
  have equal : (format.values record).length = (table.map (·.1)).length := by
    rw [format.length_values, List.length_map]
  rw [format.ofJson?_eq, format.toJson_eq, fields?_members format.distinct equal, Option.bind_some,
    format.make?_values]

theorem legible_toJson (format : Format table toJson ofJson?) (record : α) :
    Legible (toJson record) := by
  rw [format.toJson_eq]
  refine .object _ fun member inside => ?_
  exact format.legible record _ (mem_of_mem_members inside).2 _ rfl

/-- A record is read from its fields with their defaults filled in. -/
theorem ofJson?_object (format : Format table toJson ofJson?) (members : List (String × Json)) :
    ofJson? (.object members) =
      ((fields? (table.map (·.1)) (.object members)).map (fill table)).bind format.make? := by
  rw [format.ofJson?_eq]
  cases read : fields? (table.map (·.1)) (.object members) with
  | none => rfl
  | some fields =>
    have equal := length_of_fields? read
    rw [List.length_map] at equal
    exact (format.make?_fill fields equal).symm

/-- Records with a format survive. -/
theorem roundTrips (format : Format table toJson ofJson?) : RoundTrips table toJson ofJson? where
  back := format.ofJson?_toJson
  text record := by
    rw [Backend.readReply, read?_render (format.legible_toJson record), Option.bind_some,
      format.ofJson?_toJson]
  again _ record _ := format.ofJson?_toJson record
  unknown members := by
    rw [format.ofJson?_eq, format.ofJson?_eq]
    refine congrArg (Option.bind · format.make?) (fields?_congr fun name listed => ?_)
    refine (valuesOf_filter (fun member named => ?_) members).symm
    rwa [List.contains_iff_mem, named]
  missing name default before after listed absent := by
    rw [format.ofJson?_object, format.ofJson?_object,
      fill_fields?_default format.distinct listed absent]

theorem carries (format : Format table toJson ofJson?) : Carries toJson ofJson? where
  back := format.ofJson?_toJson
  solid record := by
    rw [format.toJson_eq]
    nofun
  legible := format.legible_toJson

end Format

/-! ### Record sets -/

instance : Carries ChangeType.toJson ChangeType.ofJson? where
  back change := by cases change <;> rfl
  solid change := by cases change <;> nofun
  legible change := by cases change <;> exact .string _

/-- The fields of a record. -/
def Record.table : List (String × Option Json) :=
  [("content", none), ("disabled", some (.bool false))]

/-- How records are written and read. -/
def Record.format : Format Record.table Record.toJson Record.ofJson? where
  values record := [some (.string record.content), some (.bool record.disabled)]
  -- What the reader does with the fields is taken from its definition, here and below.
  make? := _
  distinct := by decide
  length_values _ := rfl
  toJson_eq _ := rfl
  ofJson?_eq _ := rfl
  make?_values record := by
    simp only [IsField.text.back, IsField.flag.back, Option.bind_eq_bind, Option.bind_some]
    rfl
  make?_fill fields length := by
    match fields, length with
    | [_, _], _ => simp only [table, fill, IsField.text.filled, IsField.flag.filled]
  legible record := by
    simp only [List.forall_mem_cons]
    exact ⟨IsField.text.legible _, IsField.flag.legible _, List.forall_mem_nil _⟩

instance : Carries Record.toJson Record.ofJson? := Record.format.carries

/-- The fields of a comment. -/
def Comment.table : List (String × Option Json) :=
  [("content", none), ("account", none), ("modified_at", none)]

/-- How comments are written and read. -/
def Comment.format : Format Comment.table Comment.toJson Comment.ofJson? where
  values comment := [some (.string comment.content), some (.string comment.account),
    some (ofInt64 comment.modifiedAt)]
  make? := _
  distinct := by decide
  length_values _ := rfl
  toJson_eq _ := rfl
  ofJson?_eq _ := rfl
  make?_values comment := by
    simp only [IsField.text.back, (IsField.required ofInt64).back, Option.bind_eq_bind,
      Option.bind_some]
    rfl
  make?_fill fields length := by
    match fields, length with
    | [_, _, _], _ =>
      simp only [table, fill, IsField.text.filled, (IsField.required ofInt64).filled]
  legible comment := by
    simp only [List.forall_mem_cons]
    exact ⟨IsField.text.legible _, IsField.text.legible _,
      (IsField.required ofInt64).legible _, List.forall_mem_nil _⟩

instance : Carries Comment.toJson Comment.ofJson? := Comment.format.carries

/-- The fields of a record set. -/
def RecordSet.table : List (String × Option Json) :=
  [("name", none), ("type", none), ("ttl", some (.nat 0)), ("changetype", some .null),
    ("records", some (.array [])), ("comments", some (.array []))]

/-- How record sets are written and read. -/
def RecordSet.format : Format RecordSet.table RecordSet.toJson RecordSet.ofJson? where
  values recordSet := [some (.string recordSet.name), some (.string recordSet.type),
    some (ofUInt32 recordSet.ttl), recordSet.changeType.map ChangeType.toJson,
    some (arrayOf Record.toJson recordSet.records), arrayIfAny Comment.toJson recordSet.comments]
  make? := _
  distinct := by decide
  length_values _ := rfl
  toJson_eq recordSet := by
    rcases recordSet with ⟨_, _, _, _ | _, _, _ | _⟩ <;> rfl
  ofJson?_eq _ := rfl
  make?_values recordSet := by
    simp only [IsField.text.back, IsField.number.back, (IsField.ifSome ChangeType.toJson).back,
      (IsField.list Record.toJson).back, (IsField.ifAny Comment.toJson).back,
      Option.bind_eq_bind, Option.bind_some]
    rfl
  make?_fill fields length := by
    match fields, length with
    | [_, _, _, _, _, _], _ =>
      simp only [table, fill, IsField.text.filled, IsField.number.filled,
        (IsField.ifSome ChangeType.toJson).filled, (IsField.list Record.toJson).filled,
        (IsField.ifAny Comment.toJson).filled]
  legible recordSet := by
    simp only [List.forall_mem_cons]
    exact ⟨IsField.text.legible _, IsField.text.legible _, IsField.number.legible _,
      (IsField.ifSome _).legible _, (IsField.list _).legible _, (IsField.ifAny _).legible _,
      List.forall_mem_nil _⟩

instance : Carries RecordSet.toJson RecordSet.ofJson? := RecordSet.format.carries

/-! ### Zones -/

/-- The fields of a zone. -/
def Detail.table : List (String × Option Json) :=
  [("id", none), ("name", none), ("kind", some .null), ("serial", some .null),
    ("dnssec", some (.bool false)), ("account", some .null), ("rrsets", some (.array []))]

/-- How zones are written and read. -/
def Detail.format : Format Detail.table Detail.toJson Detail.ofJson? where
  values zone := [some (.string zone.id), some (.string zone.name),
    some (.optional .string zone.kind), some (.optional ofUInt32 zone.serial),
    some (.bool zone.signed), some (.optional .string zone.account),
    some (arrayOf RecordSet.toJson zone.recordSets)]
  make? := _
  distinct := by decide
  length_values _ := rfl
  toJson_eq _ := rfl
  ofJson?_eq _ := rfl
  make?_values zone := by
    simp only [IsField.text.back, IsField.optionalText.back, (IsField.optional ofUInt32).back,
      IsField.flag.back, (IsField.list RecordSet.toJson).back, Option.bind_eq_bind,
      Option.bind_some]
    rfl
  make?_fill fields length := by
    match fields, length with
    | [_, _, _, _, _, _, _], _ =>
      simp only [table, fill, IsField.text.filled, IsField.optionalText.filled,
        (IsField.optional ofUInt32).filled, IsField.flag.filled,
        (IsField.list RecordSet.toJson).filled]
  legible zone := by
    simp only [List.forall_mem_cons]
    exact ⟨IsField.text.legible _, IsField.text.legible _, IsField.optionalText.legible _,
      (IsField.optional _).legible _, IsField.flag.legible _, IsField.optionalText.legible _,
      (IsField.list _).legible _, List.forall_mem_nil _⟩

/-- The fields of a request to create a zone. -/
def Creation.table : List (String × Option Json) :=
  [("name", none), ("kind", none), ("rrsets", none)]

/-- How requests to create a zone are written and read. -/
def Creation.format : Format Creation.table Creation.toJson Creation.ofJson? where
  values creation := [some (.string creation.name), some (.string creation.kind),
    some (arrayOf RecordSet.toJson creation.recordSets)]
  make? := _
  distinct := by decide
  length_values _ := rfl
  toJson_eq _ := rfl
  ofJson?_eq _ := rfl
  make?_values creation := by
    simp only [IsField.text.back, (IsField.required (arrayOf RecordSet.toJson)).back,
      Option.bind_eq_bind, Option.bind_some]
    rfl
  make?_fill fields length := by
    match fields, length with
    | [_, _, _], _ =>
      simp only [table, fill, IsField.text.filled,
        (IsField.required (arrayOf RecordSet.toJson)).filled]
  legible creation := by
    simp only [List.forall_mem_cons]
    exact ⟨IsField.text.legible _, IsField.text.legible _,
      (IsField.required (arrayOf RecordSet.toJson)).legible _, List.forall_mem_nil _⟩

/-- The fields of zone settings. -/
def Settings.table : List (String × Option Json) :=
  [("account", some .null), ("api_rectify", some .null)]

/-- How zone settings are written and read. -/
def Settings.format : Format Settings.table Settings.toJson Settings.ofJson? where
  values settings := [settings.account.map .string, settings.rectify.map .bool]
  make? := _
  distinct := by decide
  length_values _ := rfl
  toJson_eq settings := by
    rcases settings with ⟨_ | _, _ | _⟩ <;> rfl
  ofJson?_eq _ := rfl
  make?_values settings := by
    simp only [IsField.textIfSome.back, (IsField.ifSome Json.bool).back, Option.bind_eq_bind,
      Option.bind_some]
    rfl
  make?_fill fields length := by
    match fields, length with
    | [_, _], _ =>
      simp only [table, fill, IsField.textIfSome.filled, (IsField.ifSome Json.bool).filled]
  legible settings := by
    simp only [List.forall_mem_cons]
    exact ⟨IsField.textIfSome.legible _, (IsField.ifSome Json.bool).legible _,
      List.forall_mem_nil _⟩

/-! ### Keys, metadata and servers -/

instance : Carries KeyRole.toJson KeyRole.ofJson? where
  back role := by cases role <;> rfl
  solid role := by cases role <;> nofun
  legible role := by cases role <;> exact .string _

/-- The fields of a signing key. -/
def SigningKey.table : List (String × Option Json) :=
  [("id", some .null), ("keytype", none), ("active", some (.bool false)),
    ("published", some (.bool false)), ("algorithm", some .null), ("bits", some .null),
    ("ds", some (.array []))]

/-- How signing keys are written and read. -/
def SigningKey.format : Format SigningKey.table SigningKey.toJson SigningKey.ofJson? where
  values key := [key.id.map ofUInt32, some key.role.toJson, some (.bool key.active),
    some (.bool key.published), key.algorithm.map .string, key.bits.map ofUInt32,
    arrayIfAny .string key.ds]
  make? := _
  distinct := by decide
  length_values _ := rfl
  toJson_eq key := by
    rcases key with ⟨_ | _, _, _, _, _ | _, _ | _, _ | _⟩ <;> rfl
  ofJson?_eq _ := rfl
  make?_values key := by
    simp only [(IsField.ifSome ofUInt32).back, (IsField.required KeyRole.toJson).back,
      IsField.flag.back, IsField.textIfSome.back, (IsField.ifAny Json.string).back,
      Option.bind_eq_bind, Option.bind_some]
    rfl
  make?_fill fields length := by
    match fields, length with
    | [_, _, _, _, _, _, _], _ =>
      simp only [table, fill, (IsField.ifSome ofUInt32).filled,
        (IsField.required KeyRole.toJson).filled, IsField.flag.filled,
        IsField.textIfSome.filled, (IsField.ifAny Json.string).filled]
  legible key := by
    simp only [List.forall_mem_cons]
    exact ⟨(IsField.ifSome _).legible _, (IsField.required KeyRole.toJson).legible _,
      IsField.flag.legible _, IsField.flag.legible _, IsField.textIfSome.legible _,
      (IsField.ifSome _).legible _, (IsField.ifAny _).legible _, List.forall_mem_nil _⟩

/-- The fields of metadata. -/
def Metadata.table : List (String × Option Json) :=
  [("kind", none), ("metadata", some (.array []))]

/-- How metadata are written and read. -/
def Metadata.format : Format Metadata.table Metadata.toJson Metadata.ofJson? where
  values metadata := [some (.string metadata.kind), some (arrayOf .string metadata.values)]
  make? := _
  distinct := by decide
  length_values _ := rfl
  toJson_eq _ := rfl
  ofJson?_eq _ := rfl
  make?_values metadata := by
    simp only [IsField.text.back, (IsField.list Json.string).back, Option.bind_eq_bind,
      Option.bind_some]
    rfl
  make?_fill fields length := by
    match fields, length with
    | [_, _], _ =>
      simp only [table, fill, IsField.text.filled, (IsField.list Json.string).filled]
  legible metadata := by
    simp only [List.forall_mem_cons]
    exact ⟨IsField.text.legible _, (IsField.list _).legible _, List.forall_mem_nil _⟩

/-- The fields of a transfer key. -/
def TransferKey.table : List (String × Option Json) :=
  [("id", some .null), ("name", none), ("algorithm", none), ("key", some .null)]

/-- How transfer keys are written and read. -/
def TransferKey.format : Format TransferKey.table TransferKey.toJson TransferKey.ofJson? where
  values key := [key.id.map .string, some (.string key.name), some (.string key.algorithm),
    key.secret.map .string]
  make? := _
  distinct := by decide
  length_values _ := rfl
  toJson_eq key := by
    rcases key with ⟨_ | _, _, _, _ | _⟩ <;> rfl
  ofJson?_eq _ := rfl
  make?_values key := by
    simp only [IsField.text.back, IsField.textIfSome.back, Option.bind_eq_bind, Option.bind_some]
    rfl
  make?_fill fields length := by
    match fields, length with
    | [_, _, _, _], _ =>
      simp only [table, fill, IsField.text.filled, IsField.textIfSome.filled]
  legible key := by
    simp only [List.forall_mem_cons]
    exact ⟨IsField.textIfSome.legible _, IsField.text.legible _, IsField.text.legible _,
      IsField.textIfSome.legible _, List.forall_mem_nil _⟩

/-- The fields of a server. -/
def Server.table : List (String × Option Json) :=
  [("id", none), ("daemon_type", some .null), ("version", some .null)]

/-- How servers are written and read. -/
def Server.format : Format Server.table Server.toJson Server.ofJson? where
  values server := [some (.string server.id), some (.optional .string server.daemonType),
    some (.optional .string server.version)]
  make? := _
  distinct := by decide
  length_values _ := rfl
  toJson_eq _ := rfl
  ofJson?_eq _ := rfl
  make?_values server := by
    simp only [IsField.text.back, IsField.optionalText.back, Option.bind_eq_bind, Option.bind_some]
    rfl
  make?_fill fields length := by
    match fields, length with
    | [_, _, _], _ =>
      simp only [table, fill, IsField.text.filled, IsField.optionalText.filled]
  legible server := by
    simp only [List.forall_mem_cons]
    exact ⟨IsField.text.legible _, IsField.optionalText.legible _,
      IsField.optionalText.legible _, List.forall_mem_nil _⟩

/-- Every record of the interface survives being written and read, from its text, too; and
whatever is read is read again, however it was written. -/
theorem wireRecords_roundTrip :
    RoundTrips Server.table Server.toJson Server.ofJson? ∧
    RoundTrips Detail.table Detail.toJson Detail.ofJson? ∧
    RoundTrips RecordSet.table RecordSet.toJson RecordSet.ofJson? ∧
    RoundTrips Creation.table Creation.toJson Creation.ofJson? ∧
    RoundTrips Settings.table Settings.toJson Settings.ofJson? ∧
    RoundTrips SigningKey.table SigningKey.toJson SigningKey.ofJson? ∧
    RoundTrips Metadata.table Metadata.toJson Metadata.ofJson? ∧
    RoundTrips TransferKey.table TransferKey.toJson TransferKey.ofJson? ∧
    RoundTrips Record.table Record.toJson Record.ofJson? ∧
    RoundTrips Comment.table Comment.toJson Comment.ofJson? :=
  ⟨Server.format.roundTrips, Detail.format.roundTrips, RecordSet.format.roundTrips,
    Creation.format.roundTrips, Settings.format.roundTrips, SigningKey.format.roundTrips,
    Metadata.format.roundTrips, TransferKey.format.roundTrips, Record.format.roundTrips,
    Comment.format.roundTrips⟩

/-- A set whose lists, lifetime and change are missing, null or unknown. -/
example : RecordSet.ofJson? (.object [("type", .string "A"), ("modified", .array []),
    ("changetype", .null), ("name", .string "a.test.")]) =
      some ⟨"a.test.", "A", 0, none, [], []⟩ := by
  decide

end Zone

end Zonecast
