import DrawnSchema.Document.Basic

namespace DrawnSchema

def enumEdgeId (modelId fieldKey enumId : String) : String :=
  "enum-edge-" ++ modelId ++ "-" ++ fieldKey ++ "-" ++ enumId

/-- The edge for a field whose type names an enum; of several enums of the name, the first. -/
def enumEdge? (enums : List Enumeration) (m : Model) (f : Field) : Option EnumEdge :=
  (enums.find? (·.name = f.type)).map fun e =>
    { id := enumEdgeId m.id f.key e.id, enumId := e.id, modelId := m.id, fieldId := f.key
      fieldName := f.name }

def dropSeen (seen : List String) : List EnumEdge → List EnumEdge
  | [] => []
  | e :: rest =>
    if e.id ∈ seen then dropSeen seen rest else e :: dropSeen (e.id :: seen) rest

def deriveEnumEdges (models : List Model) (enums : List Enumeration) : List EnumEdge :=
  dropSeen [] (models.flatMap fun m => m.fields.filterMap (enumEdge? enums m))

end DrawnSchema
