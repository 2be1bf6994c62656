import DrawnSchema.Document.Reader

namespace DrawnSchema

def Value.optional {α : Type} (write : α → Value) : Option α → Value
  | some a => write a
  | none => .null

def ReferentialAction.toValue (a : ReferentialAction) : Value := .text a.name

def NativeArg.toValue : NativeArg → Value
  | .text s => .text s
  | .int n => .int n
  | .float x => .float x

def NativeType.toValue (t : NativeType) : Value :=
  .record [("type", .text t.type), ("args", .list (t.args.map NativeArg.toValue))]

def RelationInfo.toValue (s : Spelling) (r : RelationInfo) : Value :=
  .record [
    ("name", .optionText r.name), ("fields", .texts r.fields), ("references", .texts r.references),
    (Key.onDelete.spelled s, .optional ReferentialAction.toValue r.onDelete),
    (Key.onUpdate.spelled s, .optional ReferentialAction.toValue r.onUpdate)]

namespace Field

def sharedAttributes (s : Spelling) (f : Field) : List (String × Value) := [
  ("id", .optionText f.id), ("name", .text f.name), ("type", .text f.type),
  (Key.isOptional.spelled s, .bool f.isOptional), (Key.isArray.spelled s, .bool f.isArray),
  (Key.mapName.spelled s, .optionText f.mapName), ("ignore", .bool f.ignore),
  ("origin", .text f.origin.name)]

def contentAttributes (s : Spelling) : FieldContent → List (String × Value)
  | .scalar c => [
    (Key.isId.spelled s, .bool c.isId), (Key.isUnique.spelled s, .bool c.isUnique),
    (Key.isUpdatedAt.spelled s, .bool c.isUpdatedAt),
    (Key.defaultValue.spelled s, .optionText c.defaultValue),
    (Key.nativeType.spelled s, .optional NativeType.toValue c.nativeType)]
  | .enum c => [
    (Key.isId.spelled s, .bool c.isId), (Key.isUnique.spelled s, .bool c.isUnique),
    (Key.defaultValue.spelled s, .optionText c.defaultValue)]
  | .relation info => [("relation", .optional (RelationInfo.toValue s) info)]

def attributes (s : Spelling) (f : Field) : List (String × Value) :=
  f.sharedAttributes s ++ contentAttributes s f.content

def toValue (f : Field) : Value :=
  .record (f.sharedAttributes .camel ++
    ("kind", .text f.kind.name) :: contentAttributes .camel f.content)

end Field

def Value.textLists (ss : List (List String)) : Value := .list (ss.map .texts)

def Model.toValue (m : Model) : Value :=
  .record [
    ("id", .text m.id), ("name", .text m.name), ("fields", .list (m.fields.map Field.toValue)),
    ("mapName", .optionText m.mapName), ("ignore", .bool m.ignore),
    ("compositeId", .optional .texts m.compositeId),
    ("compositeUnique", .textLists m.compositeUnique),
    ("compositeIndex", .textLists m.compositeIndex),
    ("fulltextIndex", .textLists m.fulltextIndex), ("schema", .optionText m.schema)]

def Enumeration.toValue (e : Enumeration) : Value :=
  .record [
    ("id", .text e.id), ("name", .text e.name), ("values", .texts e.values),
    ("mapName", .optionText e.mapName)]

def RelationEdge.toValue (e : RelationEdge) : Value :=
  .record [
    ("id", .text e.id), ("type", .text e.type), ("sourceModelId", .text e.source),
    ("targetModelId", .text e.target), ("name", .optionText e.name),
    ("onDelete", .optional ReferentialAction.toValue e.onDelete),
    ("onUpdate", .optional ReferentialAction.toValue e.onUpdate),
    ("isOptional", .bool e.isOptional), ("origin", .text e.origin.name)]

def EnumEdge.toValue (e : EnumEdge) : Value :=
  .record [
    ("id", .text e.id), ("enumId", .text e.enumId), ("modelId", .text e.modelId),
    ("fieldId", .text e.fieldId), ("fieldName", .text e.fieldName),
    ("origin", .text e.origin.name)]

def Generator.toValue (g : Generator) : Value :=
  .record [
    ("provider", .text g.provider), ("previewFeatures", .texts g.previewFeatures),
    ("output", .optionText g.output), ("engineType", .optionText g.engineType)]

def Datasource.toValue (d : Datasource) : Value :=
  .record [("provider", .text d.provider.name)]

def Document.toValue (d : Document) : Value :=
  .record [
    ("models", .list (d.models.map Model.toValue)),
    ("enums", .list (d.enums.map Enumeration.toValue)),
    ("relationEdges", .list (d.relationEdges.map RelationEdge.toValue)),
    ("enumEdges", .list (d.enumEdges.map EnumEdge.toValue)),
    ("generator", d.generator.toValue), ("datasource", d.datasource.toValue)]

mutual

def Value.brief : Value → Value
  | .scalar s => .scalar s
  | .list vs => .list (briefItems vs)
  | .map es => .map (briefMembers es)
  | .pair a b => .pair a.brief b.brief
  | .set ss => .set ss
  | .loop label body => .loop label body.brief

def Value.briefItems : List Value → List Value
  | [] => []
  | v :: vs => v.brief :: briefItems vs

def Value.briefMembers : List (Scalar × Value) → List (Scalar × Value)
  | [] => []
  | (k, v) :: es => if v.isNull then briefMembers es else (k, v.brief) :: briefMembers es

end

end DrawnSchema
