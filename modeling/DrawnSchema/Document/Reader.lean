import DrawnSchema.Document.Basic
import DrawnSchema.Document.RawField
import DrawnSchema.Text.Case
import DrawnSchema.Value.Text

namespace DrawnSchema

namespace Key

def id : Key := .plain "id"
def name : Key := .plain "name"
def type : Key := .plain "type"
def isOptional : Key := { camel := "isOptional", snake := "is_optional" }
def isArray : Key := { camel := "isArray", snake := "is_array" }
def mapName : Key := { camel := "mapName", snake := "map_name" }
def ignore : Key := .plain "ignore"
def origin : Key := .plain "origin"
def kind : Key := .plain "kind"
def isId : Key := { camel := "isId", snake := "is_id" }
def isUnique : Key := { camel := "isUnique", snake := "is_unique" }
def isUpdatedAt : Key := { camel := "isUpdatedAt", snake := "is_updated_at" }
def defaultValue : Key := { camel := "defaultValue", snake := "default_value" }
def nativeType : Key := { camel := "nativeType", snake := "native_type" }
def relation : Key := .plain "relation"
def args : Key := .plain "args"
def fields : Key := .plain "fields"
def relationFields : Key :=
  { camel := "fields", snake := "fields", accepted := ["fields", "fkFields", "fk_fields"] }
def references : Key := .plain "references"
def onDelete : Key := { camel := "onDelete", snake := "on_delete" }
def onUpdate : Key := { camel := "onUpdate", snake := "on_update" }
def compositeId : Key := { camel := "compositeId", snake := "composite_id" }
def compositeUnique : Key := { camel := "compositeUnique", snake := "composite_unique" }
def compositeIndex : Key := { camel := "compositeIndex", snake := "composite_index" }
def fulltextIndex : Key := { camel := "fulltextIndex", snake := "fulltext_index" }
def schema : Key :=
  { camel := "schema", snake := "schema_name", accepted := ["schema", "schemaName", "schema_name"] }
def values : Key := .plain "values"
def source : Key :=
  { camel := "sourceModelId", snake := "source_model_id"
    accepted := ["sourceModelId", "source_model_id", "source"] }
def target : Key :=
  { camel := "targetModelId", snake := "target_model_id"
    accepted := ["targetModelId", "target_model_id", "target"] }
def enumId : Key := { camel := "enumId", snake := "enum_id" }
def modelId : Key := { camel := "modelId", snake := "model_id" }
def fieldId : Key := { camel := "fieldId", snake := "field_id" }
def fieldName : Key := { camel := "fieldName", snake := "field_name" }
def provider : Key := .plain "provider"
def previewFeatures : Key := { camel := "previewFeatures", snake := "preview_features" }
def output : Key := .plain "output"
def engineType : Key := { camel := "engineType", snake := "engine_type" }
def models : Key := .plain "models"
def enums : Key := .plain "enums"
def relationEdges : Key := { camel := "relationEdges", snake := "relation_edges" }
def enumEdges : Key := { camel := "enumEdges", snake := "enum_edges" }
def generator : Key := .plain "generator"
def datasource : Key := .plain "datasource"

end Key

def Origin.read : Value → Reading Origin := readLiteral Origin.table

def ReferentialAction.read : Value → Reading ReferentialAction :=
  readChoice ReferentialAction.table

/-- Texts and numbers are kept as they are; a truth value becomes a number. What is none of these is
wrong in three ways. -/
def NativeArg.read : Value → Reading NativeArg
  | .text s => .value (.text s)
  | .int n => .value (.int n)
  | .float x => .value (.float x)
  | .bool b => .value (.int (if b then 1 else 0))
  | v =>
    match v, readText v with
    | _, .value s => .value (.text s)
    | .scalar (.bytes _), _ => wrong .notUnicode .unclearWhole .unclearNumber
    | _, _ => wrong .notText .notWhole .notNumber
where
  wrong (asText asWhole asNumber : Complaint) : Reading NativeArg :=
    .faulty [⟨[.key "str"], asText⟩, ⟨[.key "int"], asWhole⟩, ⟨[.key "float"], asNumber⟩]

def NativeType.read : Value → Reading NativeType :=
  readRecord .nativeType fun m =>
    NativeType.mk
      <$> m.required Key.type readText
      <*> m.withDefault Key.args [] (readList NativeArg.read)

def RelationInfo.read : Value → Reading RelationInfo :=
  readRecord .relationInfo fun m =>
    RelationInfo.mk
      <$> m.optional Key.name readText
      <*> m.withDefault Key.relationFields [] readTexts
      <*> m.withDefault Key.references [] readTexts
      <*> m.optional Key.onDelete ReferentialAction.read
      <*> m.optional Key.onUpdate ReferentialAction.read

def ScalarContent.read (m : Entries) : Reading ScalarContent :=
  ScalarContent.mk
    <$> m.withDefault Key.isId false readTruth
    <*> m.withDefault Key.isUnique false readTruth
    <*> m.withDefault Key.isUpdatedAt false readTruth
    <*> m.optional Key.defaultValue readText
    <*> m.optional Key.nativeType NativeType.read

def EnumContent.read (m : Entries) : Reading EnumContent :=
  EnumContent.mk
    <$> m.withDefault Key.isId false readTruth
    <*> m.withDefault Key.isUnique false readTruth
    <*> m.optional Key.defaultValue readText

def FieldContent.read (m : Entries) : FieldKind → Reading FieldContent
  | .scalar => .scalar <$> ScalarContent.read m
  | .enum => .enum <$> EnumContent.read m
  | .relation => .relation <$> m.optional Key.relation RelationInfo.read

def FieldKind.recordType : FieldKind → RecordType
  | .scalar => .scalarField
  | .enum => .enumField
  | .relation => .relationField

namespace Field

/-- Reads a field of a known kind; a key `kind` is not looked at. -/
def readAs (kind : FieldKind) (m : Entries) : Reading Field :=
  Field.mk
    <$> m.optional Key.id readText
    <*> m.required Key.name readText
    <*> m.required Key.type readText
    <*> m.withDefault Key.isOptional false readTruth
    <*> m.withDefault Key.isArray false readTruth
    <*> m.optional Key.mapName readText
    <*> m.withDefault Key.ignore false readTruth
    <*> m.withDefault Key.origin .user Origin.read
    <*> FieldContent.read m kind

/-- Reads a field of a known kind; a key `kind` has to agree. It is looked at between the shared
attributes and those of the kind. -/
def readExactly (kind : FieldKind) : Value → Reading Field :=
  readRecord kind.recordType fun m =>
    Field.mk
      <$> m.optional Key.id readText
      <*> m.required Key.name readText
      <*> m.required Key.type readText
      <*> m.withDefault Key.isOptional false readTruth
      <*> m.withDefault Key.isArray false readTruth
      <*> m.optional Key.mapName readText
      <*> m.withDefault Key.ignore false readTruth
      <*> m.withDefault Key.origin .user Origin.read
      <*> ((fun _ content => content)
        <$> m.withDefault Key.kind kind (readLiteral [(kind.name, kind)])
        <*> FieldContent.read m kind)

def read (v : Value) : Reading Field :=
  match v.exposed with
  | .map m =>
    match Entries.getD m "kind" with
    | .text tag =>
      match FieldKind.table.lookup tag with
      | some kind => (readAs kind m).under (.key tag)
      | none => .fault (.unknownKind tag)
    | v => .fault (.unknownKind v.inMessage)
  | _ => .fault .notField

def build (data : Entries) (known : KnownNames) :
    Except ShapeError (FieldKind × Reading Field) := do
  let data ← RawField.normalize data {}
  match data.get? "type" with
  | none => .error (.missingKey "type")
  | some type =>
    let kind ← RawField.kindForType type known
    .ok (kind, readAs kind data)

end Field

def firstRepeated (seen : List String) : List String → Option String
  | [] => none
  | s :: rest => if s ∈ seen then some s else firstRepeated (s :: seen) rest

namespace Model

def complaint (m : Model) : Option Complaint :=
  (firstRepeated [] (m.fields.map (·.name))).map fun name =>
    .rejected s!"Duplicate field '{name}' in model '{m.name}'"

def readNormal (m : Entries) : Reading Model :=
  Reading.check complaint <|
    Model.mk
      <$> m.required Key.id readText
      <*> m.required Key.name readText
      <*> m.withDefault Key.fields [] (readList Field.read)
      <*> m.optional Key.mapName readText
      <*> m.withDefault Key.ignore false readTruth
      <*> m.optional Key.compositeId readTexts
      <*> m.withDefault Key.compositeUnique [] (readList readTexts)
      <*> m.withDefault Key.compositeIndex [] (readList readTexts)
      <*> m.withDefault Key.fulltextIndex [] (readList readTexts)
      <*> m.optional Key.schema readText

end Model

/-- Reads a record after its raw data was put in order. A pair that is none is a fault of the
record; other wrong shapes end the reading. -/
def readPrepared {α : Type} (prepared : Except ShapeError Entries) (read : Entries → Reading α) :
    Reading α :=
  match prepared with
  | .ok m => read m
  | .error e =>
    match e.message? with
    | some message => .fault (.rejected message)
    | none => .broken e

def Model.read : Value → Reading Model :=
  readRecord .model fun m => readPrepared (RawModel.normalizeFields {} m) Model.readNormal

namespace Enumeration

def repeated (values : List String) : List String :=
  ((values.filter fun v => values.count v > 1).eraseDups).mergeSort Text.notAfter

def complaint (e : Enumeration) : Option Complaint :=
  match repeated e.values with
  | [] => none
  | names =>
    let listed := String.intercalate ", " names
    some (.rejected s!"Duplicate value(s) {listed} in enum '{e.name}'")

def read : Value → Reading Enumeration :=
  readRecord .enumeration fun m =>
    Reading.check complaint <|
      Enumeration.mk
        <$> m.required Key.id readText
        <*> m.required Key.name readText
        <*> m.withDefault Key.values [] readTexts
        <*> m.optional Key.mapName readText

end Enumeration

def RelationEdge.readEntries (m : Entries) : Reading RelationEdge :=
  RelationEdge.mk
    <$> m.required Key.id readText
    <*> m.withDefault Key.type RelationType.oneToMany.name readText
    <*> m.required Key.source readText
    <*> m.required Key.target readText
    <*> m.optional Key.name readText
    <*> m.optional Key.onDelete ReferentialAction.read
    <*> m.optional Key.onUpdate ReferentialAction.read
    <*> m.withDefault Key.isOptional true readTruth
    <*> m.withDefault Key.origin .user Origin.read

def RelationEdge.read : Value → Reading RelationEdge := readRecord .relationEdge readEntries

def EnumEdge.read : Value → Reading EnumEdge :=
  readRecord .enumEdge fun m =>
    EnumEdge.mk
      <$> m.required Key.id readText
      <*> m.required Key.enumId readText
      <*> m.required Key.modelId readText
      <*> m.required Key.fieldId readText
      <*> m.required Key.fieldName readText
      <*> m.withDefault Key.origin .derived Origin.read

def Generator.read : Value → Reading Generator :=
  readRecord .generator fun m =>
    Generator.mk
      <$> m.withDefault Key.provider "prisma-client" readText
      <*> m.withDefault Key.previewFeatures [] readTexts
      <*> m.optional Key.output readText
      <*> m.optional Key.engineType readText

def Provider.read : Value → Reading Provider
  | .text s => readChoice Provider.table (.text (Text.capitals s))
  | v => readChoice Provider.table v

def Datasource.read : Value → Reading Datasource :=
  readRecord .datasource fun m =>
    Datasource.mk <$> m.withDefault Key.provider .postgresql Provider.read

namespace Document

def readNormal (m : Entries) : Reading Document :=
  Document.mk
    <$> m.withDefault Key.models [] (readList Model.read)
    <*> m.withDefault Key.enums [] (readList Enumeration.read)
    <*> m.withDefault Key.relationEdges [] (readList RelationEdge.read)
    <*> m.withDefault Key.enumEdges [] (readList EnumEdge.read)
    <*> m.withDefault Key.generator {} Generator.read
    <*> m.withDefault Key.datasource {} Datasource.read

def read : Value → Reading Document :=
  readRecord .document fun m => readPrepared (RawDocument.classify m) readNormal

end Document

end DrawnSchema
