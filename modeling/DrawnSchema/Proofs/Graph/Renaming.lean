import DrawnSchema.Proofs.Graph.Sound

/-!
# A node with another name

Fields refer to models and enums by name. A node that is renamed takes along the fields that refer
to it, and no others, since no other node has its name. What it could still do is to come to be what
a type refers to that referred to nothing. Where no field has the new name as its type, every field
refers to what it referred to before, and renaming back undoes it all.
-/

namespace DrawnSchema

theorem find?_map_of_eq {α : Type} {l : List α} {change : α → α} {p q : α → Bool}
    (h : ∀ a ∈ l, p (change a) = q a) : (l.map change).find? p = (l.find? q).map change := by
  induction l with
  | nil => rfl
  | cons a l ih =>
      have hrest := ih fun b hb => h b (List.mem_cons_of_mem a hb)
      rw [List.map_cons, List.find?_cons, List.find?_cons, h a List.mem_cons_self, hrest]
      split <;> rfl

/-! ### Other names and types -/

/-- A field of a type takes another type. -/
def Field.retyped (old new : String) (f : Field) : Field :=
  if f.type = old then { f with type := new } else f

namespace Field

variable {old new : String} {f : Field}

theorem retyped_type : (f.retyped old new).type = if f.type = old then new else f.type := by
  unfold retyped
  split <;> rfl

theorem retyped_eq : f.retyped old new = { f with type := (f.retyped old new).type } := by
  unfold retyped
  split <;> rfl

theorem retyped_key : (f.retyped old new).key = f.key := by
  rw [retyped_eq]
  rfl

theorem retyped_name : (f.retyped old new).name = f.name := by
  rw [retyped_eq]

/-- A field that has not had the new type has its old one again on the way back. -/
theorem retyped_retyped (h : old = new ∨ f.type ≠ new) :
    (f.retyped old new).retyped new old = f := by
  by_cases hold : f.type = old
  · rw [retyped, retyped, if_pos hold, if_pos rfl, ← hold]
  · have hnew : f.type ≠ new := h.elim (fun heq => heq ▸ hold) fun hne => hne
    rw [retyped, retyped, if_neg hold, if_neg hnew]

end Field

/-- A model in which fields of a type have another one, and which has that as its name if it goes by
an id. -/
def Model.renamed (id old new : String) (m : Model) : Model :=
  { m with
    name := if m.id = id then new else m.name
    fields := m.fields.map (Field.retyped old new) }

def Enumeration.renamed (id new : String) (e : Enumeration) : Enumeration :=
  { e with name := if e.id = id then new else e.name }

theorem Model.renamed_renamed {id old new : String} {m : Model} (hname : m.id = id → m.name = old)
    (hfields : ∀ f ∈ m.fields, old = new ∨ f.type ≠ new) :
    (m.renamed id old new).renamed id new old = m := by
  have hnamed : ((m.renamed id old new).renamed id new old).name = m.name := by
    by_cases hid : m.id = id
    · exact (if_pos hid).trans (hname hid).symm
    · exact (if_neg hid).trans (if_neg hid)
  have hretyped : ((m.renamed id old new).renamed id new old).fields = m.fields := by
    refine List.map_map.trans <| (List.map_congr_left fun f hf => ?_).trans (List.map_id m.fields)
    exact Field.retyped_retyped (hfields f hf)
  calc (m.renamed id old new).renamed id new old
      = { m with
          name := ((m.renamed id old new).renamed id new old).name
          fields := ((m.renamed id old new).renamed id new old).fields } := rfl
    _ = m := by rw [hnamed, hretyped]

theorem Enumeration.renamed_renamed {id old new : String} {e : Enumeration}
    (hname : e.id = id → e.name = old) : (e.renamed id new).renamed id old = e := by
  have hnamed : ((e.renamed id new).renamed id old).name = e.name := by
    by_cases hid : e.id = id
    · exact (if_pos hid).trans (hname hid).symm
    · exact (if_neg hid).trans (if_neg hid)
  calc (e.renamed id new).renamed id old
      = { e with name := ((e.renamed id new).renamed id old).name } := rfl
    _ = e := by rw [hnamed]

def Node.renamed (id old new : String) : Node → Node
  | .model m => .model (m.renamed id old new)
  | .enum e => .enum (e.renamed id new)

@[simp]
theorem Node.renamed_id (id old new : String) (n : Node) : (n.renamed id old new).id = n.id := by
  cases n <;> rfl

theorem Node.renamed_name (id old new : String) (n : Node) :
    (n.renamed id old new).name = if n.id = id then new else n.name := by
  cases n <;> rfl

namespace Graph

variable {g : Graph}

/-- The id of the node that a type refers to. -/
def resolve? (g : Graph) (type : String) : Option String := (g.findByName? type).map Node.id

/-- A graph in which the node of an id has a new name, and so have the types that were its name. -/
def renamed (g : Graph) (id old new : String) : Graph :=
  (g.renameNode id new).mapModels (retypeFields old new)

section Parts

variable (g : Graph) (id old new : String)

theorem renamed_nodes : (g.renamed id old new).nodes = g.nodes.map (Node.renamed id old new) := by
  simp only [renamed, mapModels, renameNode, List.map_map]
  refine List.map_congr_left fun n _ => ?_
  cases n with
  | model m =>
      by_cases hm : m.id = id <;>
        simp [Node.id, Node.rename, Node.mapModel, Node.renamed, Model.renamed, retypeFields,
          Field.retyped, hm]
  | enum e =>
      by_cases he : e.id = id <;>
        simp [Node.id, Node.rename, Node.mapModel, Node.renamed, Enumeration.renamed, he]

theorem renamed_models :
    (g.renamed id old new).models = g.models.map (Model.renamed id old new) := by
  rw [models, renamed_nodes, models, List.filterMap_map, List.map_filterMap]
  refine List.filterMap_congr fun n _ => ?_
  cases n <;> rfl

theorem renamed_enums :
    (g.renamed id old new).enums = g.enums.map (Enumeration.renamed id new) := by
  rw [enums, renamed_nodes, enums, List.filterMap_map, List.map_filterMap]
  refine List.filterMap_congr fun n _ => ?_
  cases n <;> rfl

end Parts

/-! ### Names that a node may take -/

/-- A node may take a name that no other node has, and that is not a type of fields unless the node
has it. -/
structure MayTake (g : Graph) (n : Node) (name : String) : Prop where
  ids : (g.nodes.map Node.id).Nodup
  names : (g.nodes.map Node.name).Nodup
  mem : n ∈ g.nodes
  free : ∀ k ∈ g.nodes, k.name = name → k.id = n.id
  unused : n.name = name ∨ ∀ m ∈ g.models, ∀ f ∈ m.fields, f.type ≠ name

namespace MayTake

variable {n : Node} {name : String} (h : g.MayTake n name)
include h

theorem name_eq_iff {k : Node} (hk : k ∈ g.nodes) : k.name = n.name ↔ k.id = n.id := by
  constructor
  · intro hname
    rw [List.inj_on_of_nodup_map h.names hk h.mem hname]
  · intro hid
    rw [List.inj_on_of_nodup_map h.ids hk h.mem hid]

theorem unused_type {m : Model} (hm : m ∈ g.models) {f : Field} (hf : f ∈ m.fields) :
    n.name = name ∨ f.type ≠ name :=
  h.unused.imp_right fun hunused => hunused m hm f hf

/-- A node has the type of a field as its name after the change just if it had it before. This is
what all references are told by. -/
theorem renamed_name_iff {k : Node} (hk : k ∈ g.nodes) {f : Field}
    (hf : n.name = name ∨ f.type ≠ name) :
    (if k.id = n.id then name else k.name) = (f.retyped n.name name).type ↔ k.name = f.type := by
  rw [Field.retyped_type]
  by_cases hid : k.id = n.id
  · rw [if_pos hid, (h.name_eq_iff hk).mpr hid]
    by_cases htype : f.type = n.name
    · simp [htype]
    · rw [if_neg htype]
      refine iff_of_false (fun hname => ?_) fun hname => htype hname.symm
      exact hf.elim (fun hsame => htype (hname.symm.trans hsame.symm)) fun hne => hne hname.symm
  · rw [if_neg hid]
    by_cases htype : f.type = n.name
    · rw [if_pos htype, htype]
      refine iff_of_false (fun hname => hid (h.free k hk hname)) fun hname => ?_
      exact hid ((h.name_eq_iff hk).mp hname)
    · rw [if_neg htype]

/-- A field refers to what it referred to before. -/
theorem resolve?_renamed {f : Field} (hf : n.name = name ∨ f.type ≠ name) :
    (g.renamed n.id n.name name).resolve? (f.retyped n.name name).type = g.resolve? f.type := by
  have hfound : (g.nodes.map (Node.renamed n.id n.name name)).find?
        (·.name = (f.retyped n.name name).type) =
      (g.nodes.find? (·.name = f.type)).map (Node.renamed n.id n.name name) := by
    refine find?_map_of_eq fun k hk => decide_eq_decide.mpr ?_
    rw [Node.renamed_name]
    exact h.renamed_name_iff hk hf
  rw [resolve?, findByName?, renamed_nodes, hfound, Option.map_map]
  exact congrArg (Option.map · _) (funext (Node.renamed_id n.id n.name name))

/-- A field that an enum is linked to is linked to it as before. -/
theorem enumEdge?_renamed (m : Model) {f : Field} (hf : n.name = name ∨ f.type ≠ name) :
    enumEdge? (g.renamed n.id n.name name).enums (m.renamed n.id n.name name)
      (f.retyped n.name name) = enumEdge? g.enums m f := by
  have hfound : (g.enums.map (Enumeration.renamed n.id name)).find?
        (·.name = (f.retyped n.name name).type) =
      (g.enums.find? (·.name = f.type)).map (Enumeration.renamed n.id name) := by
    refine find?_map_of_eq fun e he => decide_eq_decide.mpr ?_
    exact h.renamed_name_iff (mem_enums.mp he) hf
  rw [enumEdge?, renamed_enums, hfound, Option.map_map, Field.retyped_key, Field.retyped_name]
  rfl

theorem deriveEnumEdges_renamed :
    deriveEnumEdges (g.renamed n.id n.name name).models (g.renamed n.id n.name name).enums =
      deriveEnumEdges g.models g.enums := by
  unfold deriveEnumEdges
  rw [renamed_models, List.flatMap_map]
  refine congrArg (dropSeen []) (List.flatMap_congr fun m hm => ?_)
  rw [Model.renamed, List.filterMap_map]
  exact List.filterMap_congr fun f hf => h.enumEdge?_renamed m (h.unused_type hm hf)

/-! ### The way back -/

theorem name_free_of_renamed {k : Node} (hk : k ∈ (g.renamed n.id n.name name).nodes)
    (hname : k.name = n.name) : k.id = n.id := by
  rw [renamed_nodes] at hk
  obtain ⟨old, hold, rfl⟩ := List.mem_map.mp hk
  rw [Node.renamed_name] at hname
  rw [Node.renamed_id]
  by_contra hid
  rw [if_neg hid] at hname
  exact hid ((h.name_eq_iff hold).mp hname)

theorem renamed_back_models :
    ((g.renamed n.id n.name name).renamed n.id name n.name).models = g.models := by
  rw [renamed_models, renamed_models, List.map_map]
  refine (List.map_congr_left fun m hm => ?_).trans (List.map_id g.models)
  refine Model.renamed_renamed ?_ fun f hf => h.unused_type hm hf
  exact (h.name_eq_iff (k := .model m) (mem_models.mp hm)).mpr

theorem renamed_back_enums :
    ((g.renamed n.id n.name name).renamed n.id name n.name).enums = g.enums := by
  rw [renamed_enums, renamed_enums, List.map_map]
  refine (List.map_congr_left fun e he => ?_).trans (List.map_id g.enums)
  exact Enumeration.renamed_renamed (h.name_eq_iff (k := .enum e) (mem_enums.mp he)).mpr

end MayTake

end Graph

end DrawnSchema
