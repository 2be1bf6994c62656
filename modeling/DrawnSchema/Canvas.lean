import DrawnSchema.Document.Reader

namespace DrawnSchema

namespace Canvas

/-- Whether `key` is in a value: a key of a map, an item of a list, a part of a text. -/
def mentions (key : String) (v : Value) : Except ShapeError Bool :=
  match v.exposed with
  | .map m => .ok (Entries.has m key)
  | .list items => .ok (items.any isKey)
  | .pair a b => .ok (isKey a || isKey b)
  | .set members => .ok (members.contains (.text key))
  | .text s => .ok (containsText s.toList key.toList)
  | _ => .error .notIterable
where
  isKey : Value → Bool
    | .text s => s == key
    | _ => false
  containsText (all part : List Char) : Bool :=
    match all with
    | [] => part.isEmpty
    | c :: rest => part.isPrefixOf (c :: rest) || containsText rest part

/-- A canvas snapshot has nodes and no models. -/
def isCanvas (data : Value) : Except ShapeError Bool := do
  if ← mentions "nodes" data then .ok (!(← mentions "models" data)) else .ok false

def asMap (v : Value) : Except ShapeError Entries :=
  match v.exposed with
  | .map m => .ok m
  | _ => .error .notAMap

/-- The data of a node or an edge; none counts as empty. -/
def dataOf (m : Entries) : Except ShapeError Entries :=
  let data := m.getD "data"
  if data.truthy then asMap data else .ok []

/-- The items of a member, where anything empty counts as no items. -/
def itemsOf (m : Entries) (key : String) : Except ShapeError (List Value) :=
  let v := m.getD key
  if v.truthy then v.iterate else .ok []

def orElse (v other : Value) : Value := if v.truthy then v else other

def enumOfNode (node data : Entries) (label : Value) : Value :=
  let members : Entries := [
    (.text "id", node.getD "id"), (.text "name", label),
    (.text "values", orElse (data.getD "values") (.list []))]
  let mapName := data.getD "mapName"
  .map (if mapName.truthy then members ++ [(.text "mapName", mapName)] else members)

def modelOfNode (node data : Entries) (label : Value) : Value :=
  let members : Entries := (data.erase "label").erase "isEnum"
  let members := Entries.insert members "id" (node.getD "id")
  let members := Entries.insert members "name" label
  .map (Entries.insertNew members "fields" (.list []))

structure Parts where
  models : List Value := []
  enums : List Value := []

def partsOf : List Value → Except ShapeError Parts
  | [] => .ok {}
  | v :: rest =>
    match v.exposed with
    | .map node => do
      let data ← dataOf node
      let label := (data.get? "label").getD (.text "")
      let parts ← partsOf rest
      match Entries.getD node "type" with
      | .text "enum" => .ok { parts with enums := enumOfNode node data label :: parts.enums }
      | .text "model" => .ok { parts with models := modelOfNode node data label :: parts.models }
      | _ => .ok parts
    | _ => partsOf rest

def copiedAttributes : List String := ["name", "onDelete", "onUpdate", "isOptional"]

def copyGiven (data : Entries) : List String → Entries
  | [] => []
  | key :: keys =>
    let v := data.getD key
    if v.isNull then copyGiven data keys else (.text key, v) :: copyGiven data keys

/-- The raw relation edge of a canvas edge, none for an edge that shows the use of an enum. -/
def relationOfEdge (edge : Entries) : Except ShapeError (Option Value) := do
  let data ← dataOf edge
  let isEnumEdge := match edge.getD "type" with
    | .text s => s == "enumType"
    | _ => false
  if (data.getD "isEnumType").truthy || isEnumEdge then .ok none
  else
    let members : Entries := [
      (.text "id", edge.getD "id"), (.text "sourceModelId", edge.getD "source"),
      (.text "targetModelId", edge.getD "target"),
      (.text "type", orElse (data.getD "relationType") (.text RelationType.oneToMany.name))]
    .ok (some (.map (members ++ copyGiven data copiedAttributes)))

def relationsOf : List Value → Except ShapeError (List Value)
  | [] => .ok []
  | v :: rest =>
    match v.exposed with
    | .map edge => do
      let relation ← relationOfEdge edge
      let relations ← relationsOf rest
      .ok (relation.toList ++ relations)
    | _ => relationsOf rest

def copiedSettings (m : Entries) : Entries :=
  ["generator", "datasource"].filterMap fun key => (m.get? key).map fun v => (.text key, v)

/-- The raw document that a canvas shows. Edges to enums are left out, as they are derived. -/
def toDocumentData (data : Value) : Except ShapeError Value := do
  let m ← asMap data
  let parts ← partsOf (← itemsOf m "nodes")
  let relations ← relationsOf (← itemsOf m "edges")
  let members : Entries := [
    (.text "models", .list parts.models), (.text "enums", .list parts.enums),
    (.text "relationEdges", .list relations)]
  .ok (.map (members ++ copiedSettings m))

end Canvas

namespace Document

def parse (data : Value) : Reading Document :=
  match Canvas.isCanvas data with
  | .error e => .broken e
  | .ok false => read data
  | .ok true =>
    match Canvas.toDocumentData data with
    | .error e => .broken e
    | .ok data => read data

end Document

end DrawnSchema
