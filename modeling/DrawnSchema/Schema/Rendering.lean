import DrawnSchema.Document.Basic
import DrawnSchema.Number.Shortest
import DrawnSchema.Schema.Block
import DrawnSchema.Text.Case
import DrawnSchema.Text.Digits

namespace DrawnSchema

open Text (quote)

def ReferentialAction.keyword : ReferentialAction → String
  | .cascade => "Cascade"
  | .setNull => "SetNull"
  | .restrict => "Restrict"
  | .noAction => "NoAction"
  | .setDefault => "SetDefault"

def NativeArg.isWritable : NativeArg → Bool
  | .int n => !Text.isOverlong n
  | _ => true

def NativeArg.render : NativeArg → String
  | .text s => s
  | .int n => toString n
  | .float x => x.toText

def nonEmpty? : Option String → Option String
  | some s => if s = "" then none else some s
  | none => none

def flag (name : String) (b : Bool) : List Attribute := if b then [{ name }] else []

def quotedAttribute (name : String) (blockLevel : Bool) (value : Option String) :
    List Attribute :=
  (nonEmpty? value).toList.map fun s => { name, args := some [quote s], blockLevel }

def defaultAttribute (value : Option String) : List Attribute :=
  (nonEmpty? value).toList.map fun s => { name := "default", args := some [s] }

def NativeType.attribute (t : NativeType) : Attribute :=
  { name := "db." ++ t.type
    args := if t.args.isEmpty then none else some (t.args.map NativeArg.render) }

def RelationInfo.args (r : RelationInfo) : List String :=
  (nonEmpty? r.name).toList.map (fun s => "name: " ++ quote s) ++
  (if r.fields.isEmpty then [] else ["fields: " ++ identifierList r.fields]) ++
  (if r.references.isEmpty then [] else ["references: " ++ identifierList r.references]) ++
  r.onDelete.toList.map (fun a => "onDelete: " ++ a.keyword) ++
  r.onUpdate.toList.map (fun a => "onUpdate: " ++ a.keyword)

def RelationInfo.attributes (r : RelationInfo) : List Attribute :=
  if r.args.isEmpty then [] else [{ name := "relation", args := some r.args }]

def FieldContent.attributes : FieldContent → List Attribute
  | .scalar c =>
    flag "id" c.isId ++ flag "unique" c.isUnique ++ flag "updatedAt" c.isUpdatedAt ++
      defaultAttribute c.defaultValue ++ c.nativeType.toList.map NativeType.attribute
  | .enum c =>
    flag "id" c.isId ++ flag "unique" c.isUnique ++ defaultAttribute c.defaultValue
  | .relation info => info.toList.flatMap RelationInfo.attributes

namespace Field

def lineAttributes (f : Field) : List Attribute :=
  f.content.attributes ++ quotedAttribute "map" false f.mapName

def modifier (f : Field) : String :=
  if f.isArray then "[]" else if f.isOptional then "?" else ""

def line (f : Field) : FieldLine :=
  { name := f.name, type := f.type, modifier := f.modifier, attributes := f.lineAttributes }

def isWritable (f : Field) : Bool :=
  match f.content with
  | .scalar c => c.nativeType.all fun t => t.args.all NativeArg.isWritable
  | _ => true

end Field

def Generator.block (g : Generator) : Block :=
  .config "generator" "client" (
    [("provider", quote g.provider)] ++
    (if g.previewFeatures.isEmpty then []
      else [("previewFeatures", stringList g.previewFeatures)]) ++
    (nonEmpty? g.output).toList.map (fun s => ("output", quote s)) ++
    (nonEmpty? g.engineType).toList.map (fun s => ("engineType", quote s)))

def Datasource.block (d : Datasource) : Block :=
  .config "datasource" "db" [("provider", quote (Text.lower d.provider.name))]

def Enumeration.block (e : Enumeration) : Block :=
  .enum e.name e.values (quotedAttribute "map" true e.mapName)

namespace Model

def listAttribute (name : String) (fields : List String) : Attribute :=
  { name, args := some [identifierList fields], blockLevel := true }

def idAttribute : Option (List String) → List Attribute
  | some fields => if fields.isEmpty then [] else [listAttribute "id" fields]
  | none => []

def blockAttributes (m : Model) : List Attribute :=
  idAttribute m.compositeId ++
  m.compositeUnique.map (listAttribute "unique") ++
  m.compositeIndex.map (listAttribute "index") ++
  m.fulltextIndex.map (listAttribute "fulltext") ++
  quotedAttribute "map" true m.mapName ++ quotedAttribute "schema" true m.schema

def shownFields (m : Model) : List Field := m.fields.filter fun f => !f.ignore

def isWritable (m : Model) : Bool := m.ignore || m.shownFields.all Field.isWritable

def block (m : Model) : Block :=
  if m.ignore then .ignored m.name
  else .model m.name (m.shownFields.map Field.line) m.blockAttributes

end Model

namespace Document

def blocks (d : Document) : List Block :=
  [d.generator.block, d.datasource.block] ++ d.enums.map Enumeration.block ++
    d.models.map Model.block

def render (d : Document) : String := renderBlocks d.blocks

def isWritable (d : Document) : Bool := d.models.all Model.isWritable

end Document

end DrawnSchema
