import DrawnSchema.Canvas
import DrawnSchema.Proofs.Document.Matching
import DrawnSchema.Proofs.Document.NestedRelation

/-!
# A canvas and the document that it shows

A canvas has a node for each model and each enum, in one list, and an edge for each relation. What
it shows is said by its entries, apart from the way a raw document is made of it. Among the nodes
and edges there may be others that show nothing. The canvas is read as the document is, down to the
places of the faults.
-/

namespace DrawnSchema

namespace Canvas

/-! ### What nodes and edges show -/

/-- The data of a node or an edge can be looked into, or there is none. -/
def HasSoundData (m : Entries) : Prop :=
  (m.getD "data").truthy = false ∨ ∃ data : Entries, (m.getD "data").exposed = .map data

/-- A node with its data, and the raw model that it shows. The label of the node is the name, and
all else that the data says is said of the model. -/
structure ModelNode (node data model : Entries) : Prop where
  type : node.get? "type" = some (.text "model")
  content : (node.getD "data").exposed = .map data
  id : ∃ v, model.get? "id" = some v ∧ node.get? "id" = some v
  name : ∃ v, model.get? "name" = some v ∧ data.get? "label" = some v
  fields : (model.get? "fields").isSome
  unlabeled : model.get? "label" = none ∧ model.get? "isEnum" = none
  others : ∀ key ∉ ["id", "name", "label", "isEnum"], data.get? key = model.get? key

/-- A node with its data, and the raw enum that it shows, which has no other entries. An empty name
to map to is none. -/
structure EnumNode (node data enum : Entries) : Prop where
  type : node.get? "type" = some (.text "enum")
  content : (node.getD "data").exposed = .map data
  id : ∃ v, enum.get? "id" = some v ∧ node.get? "id" = some v
  name : ∃ v, enum.get? "name" = some v ∧ data.get? "label" = some v
  values : ∃ v vs, v.exposed = .list vs ∧ enum.get? "values" = some v ∧ data.get? "values" = some v
  mapName : enum.get? "mapName" = (data.get? "mapName").filter Value.truthy
  others : ∀ key ∉ ["id", "name", "values", "mapName"], enum.get? key = none

/-- An edge that shows the use of an enum. -/
def ShowsEnumUse (edge : Entries) : Prop :=
  edge.get? "type" = some (.text "enumType") ∨
    ∃ data : Entries, (edge.getD "data").exposed = .map data ∧
      (data.getD "isEnumType").truthy = true

/-- An edge with its data, and the raw relation that it shows, which has no other entries. An
attribute that is null in the data is not given. -/
structure RelationLine (edge data relation : Entries) : Prop where
  content : (edge.getD "data").exposed = .map data
  noEnum : ¬ShowsEnumUse edge
  id : ∃ v, relation.get? "id" = some v ∧ edge.get? "id" = some v
  source : ∃ v, relation.get? "sourceModelId" = some v ∧ edge.get? "source" = some v
  target : ∃ v, relation.get? "targetModelId" = some v ∧ edge.get? "target" = some v
  type : ∃ v, v.truthy = true ∧ relation.get? "type" = some v ∧ data.get? "relationType" = some v
  given : ∀ key ∈ copiedAttributes, relation.get? key = (data.get? key).filter fun v => !v.isNull
  others : ∀ key ∉ ["id", "sourceModelId", "targetModelId", "type"] ++ copiedAttributes,
    relation.get? key = none

/-- An entry of the nodes that shows nothing: no map, or a node of another type with sound data. -/
def IsIdleNode (v : Value) : Prop :=
  (∀ node, v.exposed ≠ .map node) ∨ ∃ node : Entries, v.exposed = .map node ∧ HasSoundData node ∧
    node.get? "type" ≠ some (.text "model") ∧ node.get? "type" ≠ some (.text "enum")

/-- An entry of the edges that shows no relation: no map, or the use of an enum with sound data. -/
def IsIdleEdge (v : Value) : Prop :=
  (∀ edge, v.exposed ≠ .map edge) ∨
    ∃ edge, v.exposed = .map edge ∧ ShowsEnumUse edge ∧ HasSoundData edge

/-- Nodes that show some models and some enums, each in their order, among idle entries. -/
inductive ShowsNodes : List Value → List Value → List Value → Prop
  | nil : ShowsNodes [] [] []
  | model {v w : Value} {node data model : Entries} {nodes models enums : List Value}
      (entries : v.exposed = .map node) (raw : w.exposed = .map model)
      (shows : ModelNode node data model) (rest : ShowsNodes nodes models enums) :
      ShowsNodes (v :: nodes) (w :: models) enums
  | enum {v w : Value} {node data enum : Entries} {nodes models enums : List Value}
      (entries : v.exposed = .map node) (raw : w.exposed = .map enum)
      (shows : EnumNode node data enum) (rest : ShowsNodes nodes models enums) :
      ShowsNodes (v :: nodes) models (w :: enums)
  | idle {v : Value} {nodes models enums : List Value} (idle : IsIdleNode v)
      (rest : ShowsNodes nodes models enums) : ShowsNodes (v :: nodes) models enums

/-- Edges that show some relations in their order, among idle entries. -/
inductive ShowsEdges (IsIdle : Value → Prop) : List Value → List Value → Prop
  | nil : ShowsEdges IsIdle [] []
  | relation {v w : Value} {edge data relation : Entries} {edges relations : List Value}
      (entries : v.exposed = .map edge) (raw : w.exposed = .map relation)
      (shows : RelationLine edge data relation) (rest : ShowsEdges IsIdle edges relations) :
      ShowsEdges IsIdle (v :: edges) (w :: relations)
  | idle {v : Value} {edges relations : List Value} (idle : IsIdle v)
      (rest : ShowsEdges IsIdle edges relations) : ShowsEdges IsIdle (v :: edges) relations

/-! ### Data -/

variable {m data : Entries}

theorem dataOf_of_exposed (h : (m.getD "data").exposed = .map data) : dataOf m = .ok data := by
  unfold dataOf asMap
  generalize m.getD "data" = v at h
  by_cases htruthy : v.truthy = true
  · simp only [htruthy, if_true, h]
  · have hempty : data = [] := by
      by_contra hne
      exact htruthy (Value.truthy_of_exposed_map h hne)
    simp only [htruthy, hempty]
    rfl

theorem HasSoundData.dataOf_isOk (h : HasSoundData m) : ∃ data, dataOf m = .ok data := by
  obtain hfalse | ⟨data, hdata⟩ := h
  · exact ⟨[], by simp [dataOf, hfalse]⟩
  · exact ⟨data, dataOf_of_exposed hdata⟩

/-! ### What is made of nodes and edges -/

variable {node edge model enum relation : Entries}

/-- The label of a node comes to be the name, whatever else the data says under that key. -/
theorem ModelNode.matches (h : ModelNode node data model) :
    ∃ m', modelOfNode node data ((data.get? "label").getD (.text "")) = .map m' ∧
      model.Matches m' := by
  obtain ⟨id, hid, hnode⟩ := h.id
  obtain ⟨name, hname, hlabel⟩ := h.name
  have hkept {key : String} (hkey : key ∉ ["id", "name", "label", "isEnum"]) :
      ((((data.erase "label").erase "isEnum").insert "id" id).insert "name" name).get? key =
        model.get? key := by
    rw [← h.others key hkey]
    simp only [List.mem_cons, List.not_mem_nil, or_false, not_or] at hkey
    rw [Entries.get?_insert_of_ne hkey.2.1, Entries.get?_insert_of_ne hkey.1,
      Entries.get?_erase_of_ne hkey.2.2.2, Entries.get?_erase_of_ne hkey.2.2.1]
  have hfields : Entries.has
      ((((data.erase "label").erase "isEnum").insert "id" id).insert "name" name) "fields" =
        true := by
    rw [Entries.has, hkept (by decide)]
    exact h.fields
  refine ⟨_, rfl, fun key => ?_⟩
  rw [Entries.getD_of_get? hnode, hlabel, Option.getD_some, Entries.insertNew, if_pos hfields]
  by_cases hkey : key ∈ ["id", "name", "label", "isEnum"]
  · simp only [List.mem_cons, List.not_mem_nil, or_false] at hkey
    obtain rfl | rfl | rfl | rfl := hkey
    · rw [Entries.get?_insert_of_ne (by decide), Entries.get?_insert_self, hid]
    · rw [Entries.get?_insert_self, hname]
    · rw [Entries.get?_insert_of_ne (by decide), Entries.get?_insert_of_ne (by decide),
        Entries.get?_erase_of_ne (by decide), Entries.get?_erase_self, h.unlabeled.1]
    · rw [Entries.get?_insert_of_ne (by decide), Entries.get?_insert_of_ne (by decide),
        Entries.get?_erase_self, h.unlabeled.2]
  · exact hkept hkey

theorem EnumNode.matches (h : EnumNode node data enum) :
    ∃ m', enumOfNode node data ((data.get? "label").getD (.text "")) = .map m' ∧
      enum.Matches m' := by
  obtain ⟨id, hid, hnode⟩ := h.id
  obtain ⟨name, hname, hlabel⟩ := h.name
  obtain ⟨values, vs, hlist, hvalues, hgiven⟩ := h.values
  have horElse : orElse values (.list []) = values := by
    unfold orElse
    split
    · rfl
    next hfalse => exact (Value.eq_nil_of_exposed_list hlist hfalse).symm
  have hget (members : Entries) (key : String) :
      Entries.get? (if (data.getD "mapName").truthy then
          members ++ [(.text "mapName", data.getD "mapName")] else members) key =
        (members.get? key).or (if key = "mapName" then enum.get? "mapName" else none) := by
    rw [h.mapName, Entries.getD]
    cases data.get? "mapName" with
    | none => simp [Value.truthy, Scalar.truthy]
    | some v =>
        cases htruthy : v.truthy <;>
          simp [htruthy, Option.filter, Entries.get?_append, Entries.get?_cons, eq_comm]
  refine ⟨_, rfl, fun key => ?_⟩
  rw [Entries.getD_of_get? hnode, hlabel, Option.getD_some, Entries.getD_of_get? hgiven, horElse,
    hget]
  by_cases hkey : key ∈ ["id", "name", "values", "mapName"]
  · simp only [List.mem_cons, List.not_mem_nil, or_false] at hkey
    obtain rfl | rfl | rfl | rfl := hkey <;> simp [Entries.get?_cons, hid, hname, hvalues]
  · rw [h.others key hkey]
    simp only [List.mem_cons, List.not_mem_nil, or_false, not_or] at hkey
    simp [Entries.get?_cons, Ne.symm hkey.1, Ne.symm hkey.2.1, Ne.symm hkey.2.2.1, hkey.2.2.2]

/-- Of the attributes that are copied, those that are null are left out. -/
theorem get?_copyGiven (data : Entries) (keys : List String) (key : String) :
    (copyGiven data keys).get? key =
      if key ∈ keys then (data.get? key).filter fun v => !v.isNull else none := by
  induction keys with
  | nil => rfl
  | cons k keys ih =>
      have hcons : (copyGiven data (k :: keys)).get? key =
          if k = key then
            ((data.get? k).filter fun v => !v.isNull).or ((copyGiven data keys).get? key)
          else (copyGiven data keys).get? key := by
        rw [copyGiven, Entries.getD]
        cases data.get? k with
        | none => simp [Value.isNull]
        | some v => cases hnull : v.isNull <;> simp [hnull, Option.filter, Entries.get?_cons]
      rw [hcons, ih]
      by_cases hk : k = key
      · subst hk
        cases (data.get? k).filter fun v => !v.isNull <;> simp
      · simp [hk, Ne.symm hk]

theorem relationOfEdge_of_enumUse (huse : ShowsEnumUse edge) (hsound : HasSoundData edge) :
    relationOfEdge edge = .ok none := by
  unfold relationOfEdge
  obtain htype | ⟨data, hdata, hflag⟩ := huse
  · obtain ⟨data, hdata⟩ := hsound.dataOf_isOk
    rw [hdata, Entries.getD_of_get? htype]
    simp [bind, Except.bind]
  · rw [dataOf_of_exposed hdata]
    simp [bind, Except.bind, hflag]

/-- The raw relation that is made of an edge with its data. -/
def rawRelation (edge data : Entries) : Entries :=
  [(.text "id", edge.getD "id"), (.text "sourceModelId", edge.getD "source"),
    (.text "targetModelId", edge.getD "target"),
    (.text "type", orElse (data.getD "relationType") (.text RelationType.oneToMany.name))] ++
      copyGiven data copiedAttributes

theorem relationOfEdge_of_not_enumUse (huse : ¬ShowsEnumUse edge)
    (hdata : (edge.getD "data").exposed = .map data) :
    relationOfEdge edge = .ok (some (.map (rawRelation edge data))) := by
  unfold relationOfEdge
  rw [dataOf_of_exposed hdata]
  refine if_neg ?_
  rw [Bool.or_eq_true, not_or]
  refine ⟨fun hflag => huse (Or.inr ⟨data, hdata, hflag⟩), fun htext => ?_⟩
  split at htext
  next s hs =>
    rw [beq_iff_eq.mp htext, Entries.getD_eq_text_iff] at hs
    exact huse (Or.inl hs)
  next => cases htext

theorem RelationLine.matches (h : RelationLine edge data relation) :
    relation.Matches (rawRelation edge data) := by
  obtain ⟨id, hid, hedge⟩ := h.id
  obtain ⟨source, hsource, hfrom⟩ := h.source
  obtain ⟨target, htarget, hto⟩ := h.target
  obtain ⟨type, htruthy, htype, hgiven⟩ := h.type
  have horElse : orElse type (.text RelationType.oneToMany.name) = type := if_pos htruthy
  intro key
  rw [rawRelation, Entries.getD_of_get? hedge, Entries.getD_of_get? hfrom,
    Entries.getD_of_get? hto, Entries.getD_of_get? hgiven, horElse, Entries.get?_append,
    get?_copyGiven]
  by_cases hkey : key ∈ ["id", "sourceModelId", "targetModelId", "type"]
  · simp only [List.mem_cons, List.not_mem_nil, or_false] at hkey
    obtain rfl | rfl | rfl | rfl := hkey <;>
      simp [Entries.get?_cons, hid, hsource, htarget, htype]
  · have hfirst : Entries.get? [(.text "id", id), (.text "sourceModelId", source),
        (.text "targetModelId", target), (.text "type", type)] key = none := by
      simp only [List.mem_cons, List.not_mem_nil, or_false, not_or] at hkey
      simp [Entries.get?_cons, Ne.symm hkey.1, Ne.symm hkey.2.1, Ne.symm hkey.2.2.1,
        Ne.symm hkey.2.2.2]
    rw [hfirst, Option.none_or]
    by_cases hcopied : key ∈ copiedAttributes
    · rw [if_pos hcopied, h.given key hcopied]
    · have hnone : key ∉ ["id", "sourceModelId", "targetModelId", "type"] ++ copiedAttributes := by
        rw [List.mem_append, not_or]
        exact ⟨hkey, hcopied⟩
      rw [if_neg hcopied, h.others key hnone]

/-! ### What is made of a canvas -/

theorem partsOf_of_showsNodes {nodes models enums : List Value}
    (h : ShowsNodes nodes models enums) :
    ∃ parts, partsOf nodes = .ok parts ∧ List.Forall₂ Value.Matches models parts.models ∧
      List.Forall₂ Value.Matches enums parts.enums := by
  induction h with
  | nil => exact ⟨{}, rfl, .nil, .nil⟩
  | @model v w node data model _ _ _ hnode hmodel hshows _ ih =>
      obtain ⟨parts, hparts, hmodels, henums⟩ := ih
      obtain ⟨m', hm', hmatches⟩ := hshows.matches
      refine ⟨{ parts with models := .map m' :: parts.models }, ?_, ?_, henums⟩
      · have htype : node.getD "type" = .text "model" := Entries.getD_of_get? hshows.type
        simp only [partsOf, hnode, dataOf_of_exposed hshows.content, bind, Except.bind, hparts,
          htype, hm']
      · exact .cons ⟨model, m', hmodel, rfl, hmatches⟩ hmodels
  | @enum v w node data enum _ _ _ hnode henum hshows _ ih =>
      obtain ⟨parts, hparts, hmodels, henums⟩ := ih
      obtain ⟨m', hm', hmatches⟩ := hshows.matches
      refine ⟨{ parts with enums := .map m' :: parts.enums }, ?_, hmodels, ?_⟩
      · have htype : node.getD "type" = .text "enum" := Entries.getD_of_get? hshows.type
        simp only [partsOf, hnode, dataOf_of_exposed hshows.content, bind, Except.bind, hparts,
          htype, hm']
      · exact .cons ⟨enum, m', henum, rfl, hmatches⟩ henums
  | @idle v nodes _ _ hidle _ ih =>
      obtain ⟨parts, hparts, hmatches⟩ := ih
      refine ⟨parts, ?_, hmatches⟩
      rw [partsOf]
      obtain hnomap | ⟨node, hnode, hsound, hmodel, henum⟩ := hidle
      · split
        next node hnode => exact absurd hnode (hnomap node)
        next => exact hparts
      · obtain ⟨data, hdata⟩ := hsound.dataOf_isOk
        simp only [hnode, hdata, bind, Except.bind, hparts]
        split
        next htype => exact absurd (Entries.getD_eq_text_iff.mp htype) henum
        next htype => exact absurd (Entries.getD_eq_text_iff.mp htype) hmodel
        next => rfl

theorem relationsOf_of_showsEdges {edges relations : List Value}
    (h : ShowsEdges IsIdleEdge edges relations) :
    ∃ made, relationsOf edges = .ok made ∧ List.Forall₂ Value.Matches relations made := by
  induction h with
  | nil => exact ⟨[], rfl, .nil⟩
  | @relation v w edge data relation _ _ hedge hrelation hshows _ ih =>
      obtain ⟨made, hmade, hmatches⟩ := ih
      refine ⟨.map (rawRelation edge data) :: made, ?_, ?_⟩
      · simp only [relationsOf, hedge, relationOfEdge_of_not_enumUse hshows.noEnum hshows.content,
          bind, Except.bind, hmade]
        rfl
      · exact .cons ⟨relation, _, hrelation, rfl, hshows.matches⟩ hmatches
  | @idle v edges _ hidle _ ih =>
      obtain ⟨made, hmade, hmatches⟩ := ih
      refine ⟨made, ?_, hmatches⟩
      rw [relationsOf]
      obtain hnomap | ⟨edge, hedge, huse, hsound⟩ := hidle
      · split
        next edge hedge => exact absurd hedge (hnomap edge)
        next => exact hmade
      · simp only [hedge, relationOfEdge_of_enumUse huse hsound, bind, Except.bind, hmade]
        rfl

/-- The settings that a canvas and a raw document have in common. -/
def IsSettings (settings : Entries) : Prop :=
  ∀ e ∈ settings, e.1 = .text "generator" ∨ e.1 = .text "datasource"

theorem IsSettings.get?_eq_none {settings : Entries} (h : IsSettings settings) {key : String}
    (hkey : key ∉ ["generator", "datasource"]) : settings.get? key = none := by
  rw [Option.eq_none_iff_forall_ne_some]
  intro v hv
  have hmem := h _ (Entries.mem_of_get? hv)
  simp only [Scalar.text.injEq] at hmem
  exact hkey (by simpa using hmem)

/-- A map of the entries of another under some keys. -/
theorem get?_filterMap_keys (m : Entries) (keys : List String) (key : String) :
    Entries.get? (keys.filterMap fun k => (m.get? k).map fun v => (.text k, v)) key =
      if key ∈ keys then m.get? key else none := by
  induction keys with
  | nil => rfl
  | cons k keys ih =>
      rw [List.filterMap_cons]
      by_cases hk : k = key
      · subst hk
        cases hget : m.get? k with
        | none => simp only [Option.map_none, ih, hget, ite_self]
        | some v => simp [Entries.get?_cons]
      · have hmem : key ∈ k :: keys ↔ key ∈ keys := by simp [Ne.symm hk]
        cases m.get? k with
        | none => simp only [Option.map_none, ih, hmem]
        | some v => simp only [Option.map_some, Entries.get?_cons, Scalar.text.injEq, hk, if_false,
            ih, hmem]

/-- A canvas of some nodes and edges. -/
def canvasOf (nodes edges : List Value) (settings : Entries) : Entries :=
  (.text "nodes", .list nodes) :: (.text "edges", .list edges) :: settings

/-- A raw document of some models, enums and relations. -/
def documentOf (models enums relations : List Value) (settings : Entries) : Entries :=
  (.text "models", .list models) :: (.text "enums", .list enums) ::
    (.text "relationEdges", .list relations) :: settings

variable {nodes edges models enums relations : List Value} {settings : Entries}

theorem get?_canvasOf {key : String} (hkey : key ∉ ["nodes", "edges"]) :
    (canvasOf nodes edges settings).get? key = settings.get? key := by
  simp only [List.mem_cons, List.not_mem_nil, or_false, not_or] at hkey
  simp [canvasOf, Entries.get?_cons, Ne.symm hkey.1, Ne.symm hkey.2]

theorem get?_documentOf {key : String} (hkey : key ∉ ["models", "enums", "relationEdges"]) :
    (documentOf models enums relations settings).get? key = settings.get? key := by
  simp only [List.mem_cons, List.not_mem_nil, or_false, not_or] at hkey
  simp [documentOf, Entries.get?_cons, Ne.symm hkey.1, Ne.symm hkey.2.1, Ne.symm hkey.2.2]

theorem itemsOf_of_get? {m : Entries} {key : String} {vs : List Value}
    (h : m.get? key = some (.list vs)) : itemsOf m key = .ok vs := by
  rw [itemsOf, Entries.getD_of_get? h]
  exact RawDocument.itemsOrNone_of_list (Value.exposed_list vs)

theorem toDocumentData_canvasOf (hnodes : ShowsNodes nodes models enums)
    (hedges : ShowsEdges IsIdleEdge edges relations) (hsettings : IsSettings settings) :
    ∃ made, toDocumentData (.map (canvasOf nodes edges settings)) = .ok (.map made) ∧
      RawDocument.Matches (documentOf models enums relations settings) made := by
  obtain ⟨parts, hparts, hmodels, henums⟩ := partsOf_of_showsNodes hnodes
  obtain ⟨lines, hlines, hrelations⟩ := relationsOf_of_showsEdges hedges
  have hnodes : itemsOf (canvasOf nodes edges settings) "nodes" = .ok nodes :=
    itemsOf_of_get? (by simp [canvasOf, Entries.get?_cons])
  have hedges : itemsOf (canvasOf nodes edges settings) "edges" = .ok edges :=
    itemsOf_of_get? (by simp [canvasOf, Entries.get?_cons])
  refine ⟨documentOf parts.models parts.enums lines
    (copiedSettings (canvasOf nodes edges settings)), ?_, ?_⟩
  · simp only [toDocumentData, asMap, Value.exposed_map, bind, Except.bind, hnodes, hedges, hparts,
      hlines]
    rfl
  · constructor
    · exact ⟨models, parts.models, by simp [documentOf, Entries.get?_cons],
        by simp [documentOf, Entries.get?_cons], hmodels⟩
    · exact ⟨enums, parts.enums, by simp [documentOf, Entries.get?_cons],
        by simp [documentOf, Entries.get?_cons], henums⟩
    · exact ⟨relations, lines, by simp [documentOf, Entries.get?_cons],
        by simp [documentOf, Entries.get?_cons], hrelations⟩
    · intro key hkey
      rw [get?_documentOf hkey, get?_documentOf hkey, copiedSettings, get?_filterMap_keys]
      by_cases hsetting : key ∈ ["generator", "datasource"]
      · have hother : key ∉ ["nodes", "edges"] := by
          revert hsetting
          simp only [List.mem_cons, List.not_mem_nil, or_false]
          rintro (rfl | rfl) <;> decide
        rw [if_pos hsetting, get?_canvasOf hother]
      · rw [if_neg hsetting, hsettings.get?_eq_none hsetting]

end Canvas

namespace Document

open Canvas

/-- A canvas is read as the raw document of the models, enums and relations that it shows: to the
same document, or to the same faults in the same places. -/
theorem parse_canvas (nodes edges models enums relations : List Value) (settings : Entries)
    (hnodes : ShowsNodes nodes models enums) (hedges : ShowsEdges IsIdleEdge edges relations)
    (hsettings : IsSettings settings) :
    parse (.map (canvasOf nodes edges settings)) =
      parse (.map (documentOf models enums relations settings)) := by
  obtain ⟨made, hmade, hmatches⟩ := toDocumentData_canvasOf hnodes hedges hsettings
  have hcanvas : isCanvas (.map (canvasOf nodes edges settings)) = .ok true := by
    have hnodes : Entries.has (canvasOf nodes edges settings) "nodes" = true := rfl
    have hmodels : Entries.has (canvasOf nodes edges settings) "models" = false := by
      rw [Entries.has, get?_canvasOf (by decide), hsettings.get?_eq_none (by decide)]
      rfl
    simp [isCanvas, mentions, bind, Except.bind, hnodes, hmodels]
  have hdocument : isCanvas (.map (documentOf models enums relations settings)) = .ok false := by
    have hnodes : Entries.has (documentOf models enums relations settings) "nodes" = false := by
      rw [Entries.has, get?_documentOf (by decide), hsettings.get?_eq_none (by decide)]
      rfl
    simp [isCanvas, mentions, bind, Except.bind, hnodes]
  simp only [parse, hcanvas, hmade, hdocument]
  exact read_of_matches hmatches

namespace ReaderCanvas

/-- The node of the model of readers, whose name is stored under another one. -/
def modelData : Entries := [
  (.text "isEnum", .bool false), (.text "label", .text "Reader"),
  (.text "fields", .list [.record [("name", .text "role"), ("type", .text "Role")]]),
  (.text "map_name", .text "readers")]

def modelNode : Entries :=
  [(.text "id", .text "u"), (.text "type", .text "model"), (.text "data", .map modelData)]

def model : Entries := [
  (.text "id", .text "u"), (.text "name", .text "Reader"), (.text "map_name", .text "readers"),
  (.text "fields", .list [.record [("name", .text "role"), ("type", .text "Role")]])]

def enumData : Entries :=
  [(.text "label", .text "Role"), (.text "values", .texts ["GUEST"]), (.text "mapName", .text "")]

def enumNode : Entries :=
  [(.text "id", .text "r"), (.text "type", .text "enum"), (.text "data", .map enumData)]

def enum : Entries :=
  [(.text "id", .text "r"), (.text "name", .text "Role"), (.text "values", .texts ["GUEST"])]

/-- The edge from a reader to another, who has to be there. -/
def edgeData : Entries := [
  (.text "relationType", .text "ONE_TO_ONE"), (.text "name", .null),
  (.text "isOptional", .bool false)]

def edge : Entries := [
  (.text "id", .text "e"), (.text "source", .text "u"), (.text "target", .text "u"),
  (.text "data", .map edgeData)]

def relation : Entries := [
  (.text "id", .text "e"), (.text "type", .text "ONE_TO_ONE"), (.text "sourceModelId", .text "u"),
  (.text "targetModelId", .text "u"), (.text "isOptional", .bool false)]

/-- The enum stands before the model, a note between them, and a number behind. -/
def nodes : List Value :=
  [.map enumNode, .record [("id", .text "n"), ("type", .text "note")], .map modelNode, .int 7]

/-- The use of the enum is drawn as well. -/
def edges : List Value :=
  [.record [("id", .text "u-r"), ("type", .text "enumType"), ("data", .null)], .map edge]

theorem enumNode_shows : EnumNode enumNode enumData enum := by
  refine ⟨rfl, rfl, ⟨_, rfl, rfl⟩, ⟨_, rfl, rfl⟩, ⟨_, _, rfl, rfl, rfl⟩, rfl, fun key hkey => ?_⟩
  simp only [List.mem_cons, List.not_mem_nil, or_false, not_or] at hkey
  simp [enum, Entries.get?_cons, Ne.symm hkey.1, Ne.symm hkey.2.1, Ne.symm hkey.2.2.1]

theorem modelNode_shows : ModelNode modelNode modelData model := by
  refine ⟨rfl, rfl, ⟨_, rfl, rfl⟩, ⟨_, rfl, rfl⟩, rfl, ⟨rfl, rfl⟩, fun key hkey => ?_⟩
  simp only [List.mem_cons, List.not_mem_nil, or_false, not_or] at hkey
  simp only [model, modelData, Entries.get?_cons, Scalar.text.injEq, Ne.symm hkey.1,
    Ne.symm hkey.2.1, Ne.symm hkey.2.2.1, Ne.symm hkey.2.2.2, if_false]
  by_cases hfields : "fields" = key
  · subst hfields
    rfl
  · simp only [hfields, if_false]

theorem edge_shows : RelationLine edge edgeData relation := by
  refine ⟨rfl, ?_, ⟨_, rfl, rfl⟩, ⟨_, rfl, rfl⟩, ⟨_, rfl, rfl⟩, ⟨_, rfl, rfl, rfl⟩, ?_, ?_⟩
  · rintro (htype | ⟨data, hdata, hflag⟩)
    · cases htype
    · obtain rfl := Value.map.inj hdata
      cases hflag
  · intro key hkey
    simp only [copiedAttributes, List.mem_cons, List.not_mem_nil, or_false] at hkey
    obtain rfl | rfl | rfl | rfl := hkey <;> rfl
  · intro key hkey
    simp only [copiedAttributes, List.cons_append, List.nil_append, List.mem_cons,
      List.not_mem_nil, or_false, not_or] at hkey
    obtain ⟨hid, hsource, htarget, htype, -, -, -, hoptional⟩ := hkey
    simp [relation, Entries.get?_cons, Ne.symm hid, Ne.symm hsource, Ne.symm htarget,
      Ne.symm htype, Ne.symm hoptional]

theorem showsNodes : ShowsNodes nodes [.map model] [.map enum] := by
  refine .enum rfl rfl enumNode_shows (.idle ?_ (.model rfl rfl modelNode_shows (.idle ?_ .nil)))
  · exact .inr ⟨_, rfl, .inl rfl, by simp [Entries.get?_cons], by simp [Entries.get?_cons]⟩
  · exact .inl nofun

theorem showsEdges : ShowsEdges IsIdleEdge edges [.map relation] :=
  .idle (.inr ⟨_, rfl, .inl rfl, .inl rfl⟩) (.relation rfl rfl edge_shows .nil)

end ReaderCanvas

theorem parse_canvas_readers :
    ShowsNodes ReaderCanvas.nodes [.map ReaderCanvas.model] [.map ReaderCanvas.enum] ∧
      ShowsEdges IsIdleEdge ReaderCanvas.edges [.map ReaderCanvas.relation] ∧ IsSettings [] ∧
      parse (.map (canvasOf ReaderCanvas.nodes ReaderCanvas.edges [])) =
        parse (.map (documentOf [.map ReaderCanvas.model] [.map ReaderCanvas.enum]
          [.map ReaderCanvas.relation] [])) :=
  ⟨ReaderCanvas.showsNodes, ReaderCanvas.showsEdges, nofun,
    parse_canvas _ _ _ _ _ _ ReaderCanvas.showsNodes ReaderCanvas.showsEdges nofun⟩

example : (parse (.map (canvasOf ReaderCanvas.nodes ReaderCanvas.edges []))).value? =
    some {
      models := [{ id := "u", name := "Reader", mapName := some "readers"
                   fields := [{ name := "role", type := "Role", content := .enum {} }] }]
      enums := [{ id := "r", name := "Role", values := ["GUEST"] }]
      relationEdges := [{ id := "e", type := "ONE_TO_ONE", source := "u", target := "u"
                          isOptional := false }] } := by
  decide +kernel

/-- An edge that is drawn for the use of an enum, with a text for its data. -/
def notedEdge : Value :=
  .record [("id", .text "e"), ("type", .text "enumType"), ("data", .text "note")]

/-- The data of an edge is looked into before the edge is passed over. -/
theorem parse_canvas_notedEdge :
    ¬ ∀ (nodes edges models enums relations : List Value) (settings : Entries),
      ShowsNodes nodes models enums →
      ShowsEdges (fun v => (∀ edge, v.exposed ≠ .map edge) ∨
        ∃ edge, v.exposed = .map edge ∧ ShowsEnumUse edge) edges relations →
      IsSettings settings →
        parse (.map (canvasOf nodes edges settings)) =
          parse (.map (documentOf models enums relations settings)) := by
  intro h
  have hedges : ShowsEdges (fun v => (∀ edge, v.exposed ≠ .map edge) ∨
      ∃ edge, v.exposed = .map edge ∧ ShowsEnumUse edge) [notedEdge] [] :=
    .idle (.inr ⟨_, rfl, .inl rfl⟩) .nil
  have heq := h [] [notedEdge] [] [] [] [] .nil hedges nofun
  have hcanvas : parse (.map (canvasOf [] [notedEdge] [])) = .broken .notAMap := rfl
  have hdocument : parse (.map (documentOf [] [] [] [])) = .value {} := rfl
  rw [hcanvas, hdocument] at heq
  cases heq

end Document

end DrawnSchema
