import DrawnSchema.Document.Names
import DrawnSchema.Relation.EnumEdges
import DrawnSchema.Relation.Synthesis

namespace DrawnSchema

inductive Node where
  | model (m : Model)
  | enum (e : Enumeration)
deriving DecidableEq, Repr

namespace Node

def id : Node → String
  | .model m => m.id
  | .enum e => e.id

def name : Node → String
  | .model m => m.name
  | .enum e => e.name

def kind : Node → NodeKind
  | .model _ => .model
  | .enum _ => .enum

def model? : Node → Option Model
  | .model m => some m
  | .enum _ => none

def enum? : Node → Option Enumeration
  | .model _ => none
  | .enum e => some e

def rename (name : String) : Node → Node
  | .model m => .model { m with name }
  | .enum e => .enum { e with name }

def mapModel (f : Model → Model) : Node → Node
  | .model m => .model (f m)
  | .enum e => .enum e

end Node

inductive ArcContent where
  | relation (e : RelationEdge)
  | enumEdge (e : EnumEdge)
deriving DecidableEq, Repr

def ArcContent.relation? : ArcContent → Option RelationEdge
  | .relation e => some e
  | .enumEdge _ => none

def ArcContent.enumEdge? : ArcContent → Option EnumEdge
  | .relation _ => none
  | .enumEdge e => some e

/-- A connection between two nodes. Its ends and its key tell it from all others. -/
structure Arc where
  source : String
  target : String
  key : String
  content : ArcContent
deriving DecidableEq, Repr

def Arc.parallel (a b : Arc) : Bool := a.source = b.source && a.target = b.target

def Arc.same (a b : Arc) : Bool := a.parallel b && a.key = b.key

/-- Models and enums with the connections between them. The relations are all that were drawn; an
arc stands for each one whose ends are models. Parallel arcs lie next to each other, in the place of
the first of them. -/
structure Graph where
  nodes : List Node := []
  relations : List RelationEdge := []
  arcs : List Arc := []
  generator : Generator := {}
  datasource : Datasource := {}
deriving DecidableEq, Repr

/-- Puts an item in the place of the first one that it matches, at the end if it matches none. -/
def placeOrAppend {α : Type} (same : α → Bool) (new : α) : List α → List α
  | [] => [new]
  | a :: rest => if same a then new :: rest else a :: placeOrAppend same new rest

/-- Puts a new arc behind the last one that is parallel to it, at the end if there is none. -/
def insertParallel (new : Arc) : List Arc → List Arc
  | [] => [new]
  | a :: rest =>
    if a.parallel new && !rest.any (·.parallel new) then a :: new :: rest
    else a :: insertParallel new rest

def insertArc (arcs : List Arc) (new : Arc) : List Arc :=
  if arcs.any (·.same new) then placeOrAppend (·.same new) new arcs else insertParallel new arcs

namespace Graph

def node? (g : Graph) (id : String) : Option Node := g.nodes.find? (·.id = id)

def hasNode (g : Graph) (id : String) : Bool := (g.node? id).isSome

def model? (g : Graph) (id : String) : Option Model := (g.node? id).bind Node.model?

def enum? (g : Graph) (id : String) : Option Enumeration := (g.node? id).bind Node.enum?

def models (g : Graph) : List Model := g.nodes.filterMap Node.model?

def enums (g : Graph) : List Enumeration := g.nodes.filterMap Node.enum?

def modelIds (g : Graph) : List String := g.models.map (·.id)

def relation? (g : Graph) (id : String) : Option RelationEdge := g.relations.find? (·.id = id)

def orderedArcs (g : Graph) : List Arc :=
  g.nodes.flatMap fun n => g.arcs.filter (·.source = n.id)

def enumEdges (g : Graph) : List EnumEdge := g.orderedArcs.filterMap (·.content.enumEdge?)

def enumUsages (g : Graph) (id : String) : List EnumEdge :=
  if g.hasNode id then
    (g.arcs.filter (·.source = id)).filterMap (·.content.enumEdge?)
  else []

def findByName? (g : Graph) (name : String) : Option Node := g.nodes.find? (·.name = name)

/-- The document of a graph. The records are taken over as they are: a model with two fields of one
name, to which only a field name in octets leads, is not refused as it is where a document is
validated. -/
def toDocument (g : Graph) : Document :=
  { models := g.models, enums := g.enums, relationEdges := g.relations, enumEdges := g.enumEdges
    generator := g.generator, datasource := g.datasource }

/-- Models and enums alone, for checks that look at names. The records are taken over as in
`toDocument`, also where a document of them would be refused. -/
def namesDocument (g : Graph) : Document := { models := g.models, enums := g.enums }

inductive Direction where
  | outgoing
  | incoming
deriving DecidableEq, Repr

def Direction.name : Direction → String
  | .outgoing => "outgoing"
  | .incoming => "incoming"

structure RelationView where
  id : String
  type : String
  other : String
  direction : Direction
deriving DecidableEq, Repr

def relationView? (g : Graph) (direction : Direction) (a : Arc) : Option RelationView :=
  a.content.relation?.map fun e =>
    let other := match direction with
      | .outgoing => a.target
      | .incoming => a.source
    { id := e.id, type := e.type, other := ((g.node? other).map Node.name).getD "", direction }

def relationsOf (g : Graph) (id : String) : List RelationView :=
  if g.hasNode id then
    (g.arcs.filter (·.source = id)).filterMap (g.relationView? .outgoing) ++
      (g.arcs.filter (·.target = id)).filterMap (g.relationView? .incoming)
  else []

def hasRelations (g : Graph) (id : String) : Bool := !(g.relationsOf id).isEmpty

def derivedFields (g : Graph) (id : String) : List Field :=
  match g.model? id with
  | some m => m.fields.filter fun f => f.origin = .derived
  | none => []

def insertNode (g : Graph) (n : Node) : Graph :=
  { g with nodes := placeOrAppend (fun m => m.id = n.id) n g.nodes }

def attach (g : Graph) (e : RelationEdge) : Graph :=
  if (g.model? e.source).isSome && (g.model? e.target).isSome then
    { g with arcs := insertArc g.arcs ⟨e.source, e.target, e.id, .relation e⟩ }
  else g

def attachRelations (g : Graph) : Graph := g.relations.foldl attach g

def insertModel (g : Graph) (m : Model) : Graph := (g.insertNode (.model m)).attachRelations

def insertEnum (g : Graph) (e : Enumeration) : Graph := g.insertNode (.enum e)

def insertRelation (g : Graph) (e : RelationEdge) : Graph :=
  { g with relations := placeOrAppend (fun r => r.id = e.id) e g.relations }.attachRelations

def link (g : Graph) (e : EnumEdge) : Graph :=
  { g with arcs := insertArc g.arcs ⟨e.enumId, e.modelId, e.id, .enumEdge e⟩ }

def relinkEnums (g : Graph) : Graph :=
  let kept := { g with arcs := g.arcs.filter fun a => a.content.enumEdge?.isNone }
  (deriveEnumEdges g.models g.enums).foldl link kept

/-- The graph of a document. Nothing is checked, and the enum edges of the document are derived
anew. -/
def ofDocument (d : Document) : Graph :=
  let g : Graph := { generator := d.generator, datasource := d.datasource }
  let g := d.models.foldl insertModel g
  let g := d.enums.foldl insertEnum g
  (d.relationEdges.foldl insertRelation g).relinkEnums

end Graph

end DrawnSchema
