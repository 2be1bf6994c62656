import DrawnSchema.Proofs.Relation.Demand

/-!
# Synthesis does not look at ids

The id of a model is there to be found by. If ids are changed, everywhere at once and no two of them
into one, each edge finds the models that it found before, or misses the ends that it missed. So the
demands of the edges stay the same, and what a run makes of them.
-/

namespace DrawnSchema

def Model.relabel (r : String → String) (m : Model) : Model := { m with id := r m.id }

def RelationEdge.relabel (r : String → String) (e : RelationEdge) : RelationEdge :=
  { e with source := r e.source, target := r e.target }

def CompileError.relabel (r : String → String) : CompileError → CompileError
  | .nameConflict names => .nameConflict names
  | .missingEndpoint edge missing => .missingEndpoint edge (missing.map r)
  | .unsupportedRelationType edge type => .unsupportedRelationType edge type

def Synthesis.relabel (r : String → String) (s : Synthesis) : Synthesis :=
  { s with models := s.models.map (Model.relabel r) }

variable {r : String → String}

theorem Model.relabel_ids (r : String → String) (models : List Model) :
    (models.map (relabel r)).map (·.id) = (models.map (·.id)).map r := by
  simp only [List.map_map]
  rfl

/-! ### Faults of edges -/

namespace RelationEdge

@[simp]
theorem relabel_source (r : String → String) (e : RelationEdge) :
    (e.relabel r).source = r e.source := rfl

@[simp]
theorem relabel_target (r : String → String) (e : RelationEdge) :
    (e.relabel r).target = r e.target := rfl

@[simp]
theorem relabel_relationType? (r : String → String) (e : RelationEdge) :
    (e.relabel r).relationType? = e.relationType? := rfl

theorem endpoint_relabel (r : String → String) (e : RelationEdge) (end_ : EdgeEnd) :
    (e.relabel r).endpoint end_ = r (e.endpoint end_) := by
  cases end_ <;> rfl

/-- What an edge implies is told by the names of its ends, not by their ids. -/
theorem impliedFields_relabel (r : String → String) (e : RelationEdge) (source target : Model) :
    (e.relabel r).impliedFields (source.relabel r) (target.relabel r) =
      e.impliedFields source target := by
  unfold impliedFields
  rw [relabel_relationType?]
  cases e.relationType? with
  | none => rfl
  | some type => cases type <;> rfl

theorem missingEndpoints_relabel (hr : Function.Injective r) (e : RelationEdge)
    (ids : List String) :
    (e.relabel r).missingEndpoints (ids.map r) = (e.missingEndpoints ids).map r := by
  have hends : [r e.source, r e.target].eraseDups = [e.source, e.target].eraseDups.map r := by
    by_cases hself : e.target = e.source
    · simp [List.eraseDups_cons, hself]
    · simp [List.eraseDups_cons, hself, hr.eq_iff]
  have hknown (id : String) : (ids.map r).contains (r id) = ids.contains id := by
    rw [Bool.eq_iff_iff, List.contains_iff_mem, List.contains_iff_mem]
    exact List.mem_map_of_injective hr
  calc (e.relabel r).missingEndpoints (ids.map r)
      = ([e.source, e.target].eraseDups.map r).filter fun id => !(ids.map r).contains id := by
        rw [← hends]
        rfl
    _ = ([e.source, e.target].eraseDups.filter fun id => !(ids.map r).contains (r id)).map r :=
        List.filter_map
    _ = (e.missingEndpoints ids).map r := by
        simp only [hknown]
        rfl

theorem fault?_relabel (hr : Function.Injective r) (e : RelationEdge) (ids : List String) :
    (e.relabel r).fault? (ids.map r) = (e.fault? ids).map (CompileError.relabel r) := by
  unfold fault?
  rw [missingEndpoints_relabel hr, relabel_relationType?]
  cases e.missingEndpoints ids with
  | cons id missing => rfl
  | nil => cases e.relationType? <;> rfl

end RelationEdge

theorem firstEdgeFault?_relabel (hr : Function.Injective r) (edges : List RelationEdge)
    (models : List Model) :
    firstEdgeFault? (edges.map (RelationEdge.relabel r)) (models.map (Model.relabel r)) =
      (firstEdgeFault? edges models).map (CompileError.relabel r) := by
  unfold firstEdgeFault?
  rw [Model.relabel_ids, List.findSome?_map, List.map_findSome?]
  congr 1
  funext e
  exact e.fault?_relabel hr (models.map (·.id))

/-! ### A run -/

namespace Synthesis

theorem modelById?_relabel (hr : Function.Injective r) (models : List Model) (id : String) :
    modelById? (models.map (Model.relabel r)) (r id) =
      (modelById? models id).map (Model.relabel r) := by
  unfold modelById?
  rw [← List.map_reverse, List.find?_map]
  congr 2
  funext m
  exact decide_eq_decide.mpr hr.eq_iff

theorem place?_relabel (hr : Function.Injective r) (models : List Model) (id : String) :
    place? (models.map (Model.relabel r)) (r id) = place? models id := by
  unfold place?
  rw [← List.map_reverse, List.findIdx?_map, List.length_map]
  congr 2
  funext m
  exact decide_eq_decide.mpr hr.eq_iff

theorem demandsOf_relabel (hr : Function.Injective r) (models : List Model) (e : RelationEdge) :
    demandsOf (models.map (Model.relabel r)) (e.relabel r) = demandsOf models e := by
  unfold demandsOf
  rw [RelationEdge.relabel_source, RelationEdge.relabel_target, modelById?_relabel hr,
    modelById?_relabel hr]
  cases modelById? models e.source with
  | none => rfl
  | some source =>
      cases modelById? models e.target with
      | none => rfl
      | some target =>
          simp only [Option.map_some, RelationEdge.impliedFields_relabel,
            RelationEdge.endpoint_relabel, place?_relabel hr]
          rfl

theorem demands_relabel (hr : Function.Injective r) (edges : List RelationEdge)
    (models : List Model) :
    demands (edges.map (RelationEdge.relabel r)) (models.map (Model.relabel r)) =
      demands edges models := by
  unfold demands
  rw [List.flatMap_map]
  exact List.flatMap_congr fun e _ => demandsOf_relabel hr models e

theorem insertInto_relabel (r : String → String) (edge : String) (owner : Model) (f : Field) :
    insertInto edge (owner.relabel r) f = (insertInto edge owner f).relabel r := by
  have hblocks : (owner.relabel r).blocks f = owner.blocks f := rfl
  rw [insertInto_eq, insertInto_eq, hblocks]
  split <;> rfl

theorem meet_relabel (r : String → String) (s : Synthesis) (d : Demand) :
    (s.relabel r).meet d = (s.meet d).relabel r := by
  have hget : (s.relabel r).models[d.place]? = s.models[d.place]?.map (Model.relabel r) :=
    List.getElem?_map
  cases howner : s.models[d.place]? with
  | none =>
      rw [howner] at hget
      rw [meet_of_none howner, meet_of_none hget]
  | some owner =>
      rw [howner] at hget
      rw [meet_of_some howner, meet_of_some hget, insertInto_relabel]
      simp only [relabel, List.map_set]
      rfl

theorem foldl_meet_relabel (r : String → String) (ds : List Demand) (s : Synthesis) :
    ds.foldl meet (s.relabel r) = (ds.foldl meet s).relabel r :=
  List.foldl_hom (relabel r) fun s d => meet_relabel r s d

/-- Under other ids the same fields are added to the same models, and what stops a run stops it
still. -/
theorem synthesizeFields_relabel (hr : Function.Injective r) (edges : List RelationEdge)
    (models : List Model) :
    synthesizeFields (edges.map (RelationEdge.relabel r)) (models.map (Model.relabel r)) =
      ((synthesizeFields edges models).map (relabel r)).mapError (CompileError.relabel r) := by
  unfold synthesizeFields
  rw [firstEdgeFault?_relabel hr]
  cases firstEdgeFault? edges models with
  | some error => rfl
  | none =>
      simp only [Option.map_none, Except.map, Except.mapError, foldl_step_eq_foldl_meet,
        demands_relabel hr]
      exact congrArg Except.ok (foldl_meet_relabel r (demands edges models) { models })

end Synthesis

end DrawnSchema
