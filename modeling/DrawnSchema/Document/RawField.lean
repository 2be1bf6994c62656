import DrawnSchema.Document.Field
import DrawnSchema.Reading

namespace DrawnSchema

/-- The items that going through a value yields: the keys of a map, the characters of a text. -/
def Value.iterate (v : Value) : Except ShapeError (List Value) :=
  match v.exposed with
  | .list items => .ok items
  | .pair a b => .ok [a, b]
  | .map entries => .ok (entries.map fun e => .scalar e.1)
  | .set members => .ok (members.map .scalar)
  | .text s => .ok ((Text.codes s.toList).map fun n => .text (String.ofList (Text.ofCode n)))
  | .scalar (.bytes octets) => .ok (octets.map fun b => .int b.toNat)
  | _ => .error .notIterable

/-- The scalar that a value is, as only scalars can be keys. -/
def Value.hashable : Value → Except ShapeError Scalar
  | .scalar s => .ok s
  | _ => .error .notHashable

def Value.asPair (index : Nat) (v : Value) : Except ShapeError (Scalar × Value) := do
  match ← v.iterate with
  | [k, x] => .ok (← k.hashable, x)
  | items => .error (.notAPair index items.length)

def Value.asPairs (index : Nat) : List Value → Except ShapeError (List (Scalar × Value))
  | [] => .ok []
  | v :: vs => do
    let pair ← v.asPair index
    let pairs ← asPairs (index + 1) vs
    .ok (pair :: pairs)

def Value.asEntries (v : Value) : Except ShapeError Entries :=
  match v.exposed with
  | .map m => .ok m
  | _ => do .ok (Entries.ofList (← Value.asPairs 0 (← v.iterate)))

/-- The names that a surrounding document gives to models and enums. They are raw, so any scalar
may be among them. -/
structure KnownNames where
  models : List Scalar := []
  enums : List Scalar := []

namespace RawField

/-- A relation key beside the nested relation, and the attribute of the relation it stands for. -/
structure FlatKey where
  flat : String
  nested : String

def flatKeys : List FlatKey := [
  ⟨"relationName", "name"⟩, ⟨"relationFields", "fields"⟩, ⟨"relationReferences", "references"⟩]

def foldKey (state : Entries × Entries) (k : FlatKey) : Entries × Entries :=
  let (field, relation) := state
  match field.get? k.flat with
  | some v => (field.erase k.flat, relation.insertNew k.nested v)
  | none => (field, relation)

def hasFlatKey (field : Entries) : Bool := flatKeys.any fun k => field.has k.flat

def startOfRelation (field : Entries) : Except ShapeError Entries :=
  let v := field.getD "relation"
  if v.truthy then v.asEntries else .ok []

def foldRelation (field : Entries) : Except ShapeError Entries :=
  if hasFlatKey field then do
    let (field, relation) := flatKeys.foldl foldKey (field, ← startOfRelation field)
    .ok (field.insert "relation" (.map relation))
  else .ok field

/-- Whether a type is among some names. No type is looked up among no names. -/
def mentions (names : List Scalar) (type : Value) : Except ShapeError Bool :=
  if names.isEmpty then .ok false else do
    let s ← type.hashable
    .ok (names.any fun n => n.sameKey s)

/-- The kind of a field that does not bring one: by what its type names, then by whether it has a
relation. -/
def kindOf (field : Entries) (known : KnownNames) : Except ShapeError FieldKind := do
  let type := field.getD "type"
  if ← mentions known.models type then .ok .relation
  else if ← mentions known.enums type then .ok .enum
  else if (field.getD "relation").truthy then .ok .relation
  else .ok .scalar

def normalize (field : Entries) (known : KnownNames) : Except ShapeError Entries := do
  let field ← foldRelation field
  if (field.getD "kind").truthy then .ok field
  else .ok (field.insert "kind" (.text (← kindOf field known).name))

def normalizeValue (known : KnownNames) (v : Value) : Except ShapeError Value :=
  match v.exposed with
  | .map m => do .ok (.map (← normalize m known))
  | _ => .ok v

def kindForType (type : Value) (known : KnownNames) : Except ShapeError FieldKind := do
  let s ← type.hashable
  if known.models.any fun n => n.sameKey s then .ok .relation
  else if known.enums.any fun n => n.sameKey s then .ok .enum
  else .ok .scalar

end RawField

namespace RawModel

def normalizeFields (known : KnownNames) (model : Entries) : Except ShapeError Entries :=
  match (model.get? "fields").map Value.exposed with
  | some (.list fields) => do
    .ok (model.insert "fields" (.list (← fields.mapM (RawField.normalizeValue known))))
  | _ => .ok model

def normalizeValue (known : KnownNames) (v : Value) : Except ShapeError Value :=
  match v.exposed with
  | .map m => do .ok (.map (← normalizeFields known m))
  | _ => .ok v

end RawModel

namespace RawDocument

def namesOf : List Value → Except ShapeError (List Scalar)
  | [] => .ok []
  | v :: vs =>
    match v.exposed with
    | .map m => do
      let name ← (Entries.getD m "name").hashable
      let names ← namesOf vs
      .ok (name :: names)
    | _ => namesOf vs

def itemsOrNone (v : Value) : Except ShapeError (List Value) :=
  if v.truthy then v.iterate else .ok []

def knownNames (models : List Value) (enums : Value) : Except ShapeError KnownNames := do
  let modelNames ← namesOf models
  let enumNames ← namesOf (← itemsOrNone enums)
  .ok { models := modelNames, enums := enumNames }

def classify (document : Entries) : Except ShapeError Entries :=
  match (document.get? "models").map Value.exposed with
  | some (.list models) => do
    let known ← knownNames models (document.getD "enums")
    .ok (document.insert "models" (.list (← models.mapM (RawModel.normalizeValue known))))
  | _ => .ok document

end RawDocument

end DrawnSchema
