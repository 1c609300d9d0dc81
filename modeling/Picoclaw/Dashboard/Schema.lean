import Picoclaw.Go.Json

/-!
# The config schema (`pkg/dashboard/schema.go`)

`GenerateSchema` describes `config.Config` to the dashboard's config form by walking its type
with `reflect`. `reflectTypeToSchema` gives every type a JSON-schema `"type"`, and describes a
struct's tagged fields under `"properties"`, the element of a slice or an array under
`"items"`, and the element of a map under `"additionalProperties"`. A pointer type is described
by its element type, once: the check runs before the switch and is not repeated.

A type is a `GoType`: what the walk reads of a `reflect.Type`, namely its kind, its element
type, and its fields' tags and types. `config.Config` itself is not among the sources, so the
laws range over every type.

**The law** (`get?_properties`): the schema of a struct, or of a pointer to one, describes under
each name the last field whose `json` tag gives that name, by that field's type's schema, with
the description `"Environment variable: <env>"` when the field has an `env` tag. A field whose
`json` tag is empty or `"-"` is not described. The form renders exactly these entries.

**The shape** (`reflectTypeToSchema_shape`): a schema's keys are `"type"` and, for a struct,
`"properties"`, for a slice or an array, `"items"`, and for a map, `"additionalProperties"`. Its
`"type"` is one of `"boolean"`, `"number"`, `"string"`, `"object"` and `"array"`, and it is
`"object"` exactly where `"properties"` or `"additionalProperties"` is present or the kind has
no JSON-schema type of its own.

**What it does not establish.** That the schema describes the JSON that `encoding/json` writes
for a value of the type: that encoder's typed side is not modelled. The name is the tag up to
its first comma even when that is empty, so a field tagged `json:",omitempty"` is described
under `""`.
-/

namespace Picoclaw.Dashboard

open Picoclaw.Go

/-- `reflect.Kind`. -/
inductive Kind where
  | invalid | bool | int | int8 | int16 | int32 | int64 | uint | uint8 | uint16 | uint32 | uint64
  | uintptr | float32 | float64 | complex64 | complex128 | array | chan | func | interface | map
  | pointer | slice | string | struct | unsafePointer
  deriving DecidableEq, Repr

/-- Whether a type of this kind has neither an element type nor fields. -/
def Kind.isBasic : Kind → Bool
  | .array | .chan | .map | .pointer | .slice | .struct => false
  | _ => true

/-- `stringKind`. -/
def stringKind : Kind → String
  | .bool => "boolean"
  | .int | .int8 | .int16 | .int32 | .int64 | .uint | .uint8 | .uint16 | .uint32 | .uint64
  | .float32 | .float64 => "number"
  | .string => "string"
  | _ => "object"

/-- A `reflect.StructTag`, by the key-value pairs of its conventional form
`key:"value" key:"value"`. -/
structure StructTag where
  pairs : List (String × String)

/-- `tag.Get(key)`: the value of the first pair with that key, `""` when there is none. -/
def StructTag.get (tag : StructTag) (key : String) : String := (tag.pairs.lookup key).getD ""

/-- A `reflect.Type`, by what `reflectTypeToSchema` reads of it: its kind, its element type,
and its fields' tags and types in declaration order. An array's length and a map's key type
are not read. -/
inductive GoType where
  /-- A type whose kind has no element type and no fields. -/
  | basic (kind : Kind) (hkind : kind.isBasic = true)
  | array (elem : GoType)
  | chan (elem : GoType)
  | map (elem : GoType)
  | pointer (elem : GoType)
  | slice (elem : GoType)
  | struct (fields : List (StructTag × GoType))

/-! ## The walk -/

/-- `map[string]interface{}{"type": stringKind(kind)}`, which every case starts from. -/
def kindSchema (kind : Kind) : GoMap String Any :=
  GoMap.empty.set "type" (.string (stringKind kind))

/-- The `reflect.Struct` case, given the properties the field loop built. -/
def structSchema (properties : GoMap String Any) : GoMap String Any :=
  ((kindSchema .struct).set "properties" (.map properties.entries)).set "type" (.string "object")

/-- The `reflect.Slice, reflect.Array` case for a type of kind `kind`, given its element's
schema. -/
def arraySchema (kind : Kind) (items : GoMap String Any) : GoMap String Any :=
  ((kindSchema kind).set "type" (.string "array")).set "items" (.map items.entries)

/-- The `reflect.Map` case, given its element's schema. -/
def mapSchema (elem : GoMap String Any) : GoMap String Any :=
  ((kindSchema .map).set "type" (.string "object")).set "additionalProperties"
    (.map elem.entries)

/-- The name a `json` tag describes a field under: `strings.Split(jsonTag, ",")[0]`, the piece
`Split` always returns. -/
def jsonName (jsonTag : String) : String := (split jsonTag ",").headD ""

/-- `prop["description"] = "Environment variable: " + envTag` for a field with an `env` tag. -/
def withEnvDescription (tag : StructTag) (prop : GoMap String Any) : GoMap String Any :=
  let envTag := tag.get "env"
  if envTag ≠ "" then prop.set "description" (.string ("Environment variable: " ++ envTag))
  else prop

mutual
/-- `reflectTypeToSchema(t)`. -/
def reflectTypeToSchema : GoType → GoMap String Any
  | .pointer elem => elemSchema elem
  | .basic kind _ => kindSchema kind
  | .array elem => arraySchema .array (reflectTypeToSchema elem)
  | .chan _ => kindSchema .chan
  | .map elem => mapSchema (reflectTypeToSchema elem)
  | .slice elem => arraySchema .slice (reflectTypeToSchema elem)
  | .struct fields => structSchema (fieldsSchema fields GoMap.empty)

/-- `reflectTypeToSchema` once its pointer check has set `t = t.Elem()`: the same switch on the
kind, where a pointer is not dereferenced again. -/
def elemSchema : GoType → GoMap String Any
  | .pointer _ => kindSchema .pointer
  | .basic kind _ => kindSchema kind
  | .array elem => arraySchema .array (reflectTypeToSchema elem)
  | .chan _ => kindSchema .chan
  | .map elem => mapSchema (reflectTypeToSchema elem)
  | .slice elem => arraySchema .slice (reflectTypeToSchema elem)
  | .struct fields => structSchema (fieldsSchema fields GoMap.empty)

/-- The loop over a struct's fields, adding to `properties`. -/
def fieldsSchema : List (StructTag × GoType) → GoMap String Any → GoMap String Any
  | [], properties => properties
  | (tag, type) :: rest, properties =>
    let jsonTag := tag.get "json"
    if jsonTag = "" ∨ jsonTag = "-" then fieldsSchema rest properties
    else fieldsSchema rest (properties.set (jsonName jsonTag)
      (.map (withEnvDescription tag (reflectTypeToSchema type)).entries))
end

/-- `GenerateSchema()`, for the type of `config.Config`. -/
def generateSchema (config : GoType) : GoMap String Any := reflectTypeToSchema config

/-- `t.Elem()` for a pointer type and `t` otherwise: the walk's pointer check. -/
def GoType.derefOnce : GoType → GoType
  | .pointer elem => elem
  | t => t

/-- **The walk is its pointer check followed by the switch.** -/
theorem reflectTypeToSchema_eq_elemSchema (t : GoType) :
    reflectTypeToSchema t = elemSchema t.derefOnce := by
  cases t <;> rfl

/-! ## The field loop -/

/-- The name a field is described under: its `json` tag up to the first comma, unless the tag
is empty or `"-"`. -/
def describedName? (tag : StructTag) : Option String :=
  if tag.get "json" = "" ∨ tag.get "json" = "-" then none else some (jsonName (tag.get "json"))

/-- The schema a field is described by. -/
def fieldSchema (field : StructTag × GoType) : Any :=
  .map (withEnvDescription field.1 (reflectTypeToSchema field.2)).entries

/-- One round of the field loop. -/
def fieldStep (properties : GoMap String Any) (field : StructTag × GoType) :
    GoMap String Any :=
  match describedName? field.1 with
  | some name => properties.set name (fieldSchema field)
  | none => properties

theorem fieldsSchema_eq_foldl (fields : List (StructTag × GoType))
    (properties : GoMap String Any) :
    fieldsSchema fields properties = fields.foldl fieldStep properties := by
  induction fields generalizing properties with
  | nil => rfl
  | cons field rest ih =>
    obtain ⟨tag, type⟩ := field
    simp only [fieldsSchema, List.foldl_cons, fieldStep, describedName?]
    split_ifs <;> exact ih _

theorem get?_fieldStep (properties : GoMap String Any) (field : StructTag × GoType)
    (name : String) :
    (fieldStep properties field).get? name =
      if describedName? field.1 = some name then some (fieldSchema field)
      else properties.get? name := by
  unfold fieldStep
  cases describedName? field.1 <;> simp

/-- **The loop keeps the last field of each name**, over what `properties` held before. -/
theorem get?_fieldsSchema (fields : List (StructTag × GoType)) (properties : GoMap String Any)
    (name : String) :
    (fieldsSchema fields properties).get? name =
      (((fields.filter fun f => describedName? f.1 = some name).getLast?).map fieldSchema).or
        (properties.get? name) := by
  rw [fieldsSchema_eq_foldl]
  induction fields using List.reverseRecOn with
  | nil => rfl
  | append_singleton fields field ih =>
    rw [List.foldl_append, List.foldl_cons, List.foldl_nil, get?_fieldStep, ih,
      List.filter_append, List.getLast?_append]
    by_cases hp : describedName? field.1 = some name <;>
      simp only [hp, List.filter_cons, List.filter_nil, decide_True, decide_False, if_true,
        Bool.false_eq_true, if_false, List.getLast?_singleton, List.getLast?_nil, Option.or_some,
        Option.none_or, Option.map_some']

/-- **What the form reads of a struct.** The schema of a struct type, or of a pointer to one,
holds under `"properties"` a map describing each name by the last field whose `json` tag gives
it. -/
theorem get?_properties {t : GoType} {fields : List (StructTag × GoType)}
    (ht : t.derefOnce = .struct fields) :
    ∃ properties : GoMap String Any,
      (reflectTypeToSchema t).get? "properties" = some (.map properties.entries) ∧
      ∀ name, properties.get? name =
        ((fields.filter fun f => describedName? f.1 = some name).getLast?).map fieldSchema := by
  refine ⟨fieldsSchema fields GoMap.empty, ?_, fun name => ?_⟩
  · rw [reflectTypeToSchema_eq_elemSchema, ht]
    rfl
  · rw [get?_fieldsSchema]
    cases (List.filter _ fields).getLast? <;> rfl

/-- A gateway config with the port tagged twice: the second field describes `"port"`. -/
def portFields : List (StructTag × GoType) :=
  [(⟨[("json", "port")]⟩, .basic .int rfl),
    (⟨[("json", "port,omitempty"), ("env", "PICOCLAW_PORT")]⟩, .basic .string rfl)]

/-- Through a pointer to that struct, the form reads `"port"` as the last field tagged with it. -/
theorem pointer_port_described_by_last_field :
    ∃ properties : GoMap String Any,
      (reflectTypeToSchema (.pointer (.struct portFields))).get? "properties" =
        some (.map properties.entries) ∧
      ∀ name, properties.get? name =
        ((portFields.filter fun f => describedName? f.1 = some name).getLast?).map fieldSchema :=
  get?_properties rfl

/-- Options after the comma are dropped, `"-"` and untagged fields are skipped, and a tag that
starts with a comma gives the name `""`. -/
example :
    (fieldsSchema [(⟨[("json", "agents,omitempty")]⟩, .basic .string rfl),
        (⟨[("json", "-")]⟩, .basic .bool rfl), (⟨[("env", "PORT")]⟩, .basic .int rfl),
        (⟨[("json", ",omitempty")]⟩, .basic .int rfl)] GoMap.empty).entries.map Prod.fst =
      ["agents", ""] := by
  decide

/-! ## The shape of a schema -/

/-- The JSON-schema type a type is given, by its kind after the pointer check. -/
def GoType.schemaType : GoType → String
  | .basic kind _ => stringKind kind
  | .array _ | .slice _ => "array"
  | _ => "object"

/-- The keys a schema has besides `"type"`, by the kind after the pointer check. -/
def GoType.partKeys : GoType → List String
  | .array _ | .slice _ => ["items"]
  | .map _ => ["additionalProperties"]
  | .struct _ => ["properties"]
  | _ => []

/-- **Every schema's keys and `"type"`**, for every type. -/
theorem reflectTypeToSchema_shape (t : GoType) :
    (reflectTypeToSchema t).entries.map Prod.fst = "type" :: t.derefOnce.partKeys ∧
      (reflectTypeToSchema t).get? "type" = some (.string t.derefOnce.schemaType) := by
  rw [reflectTypeToSchema_eq_elemSchema]
  cases t.derefOnce <;> exact ⟨rfl, rfl⟩

theorem stringKind_mem (kind : Kind) :
    stringKind kind ∈ ["boolean", "number", "string", "object", "array"] := by
  cases kind <;> decide

/-- The JSON-schema types the walk writes are the five the form knows. -/
theorem schemaType_mem (t : GoType) :
    t.schemaType ∈ ["boolean", "number", "string", "object", "array"] := by
  cases t <;> simp only [GoType.schemaType, stringKind_mem] <;> decide

end Picoclaw.Dashboard
