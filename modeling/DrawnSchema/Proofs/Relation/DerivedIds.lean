import DrawnSchema.Proofs.Relation.Demand
import Mathlib.Data.List.Flatten
import Mathlib.Data.Option.Basic

/-!
# The ids of implied fields tell edges apart

An id shows the edge and the role of the field, so no two fields that are implied share one, unless
two edges share theirs.
-/

namespace DrawnSchema

namespace RelationEdge

theorem sourceFieldId_injective : Function.Injective sourceFieldId := by
  intro a b h
  exact (String.append_right_inj _).mp ((String.append_left_inj _).mp h)

theorem targetFieldId_injective : Function.Injective targetFieldId := by
  intro a b h
  exact (String.append_right_inj _).mp ((String.append_left_inj _).mp h)

theorem foreignKeyId_injective : Function.Injective foreignKeyId := by
  intro a b h
  exact (String.append_right_inj _).mp h

theorem sourceFieldId_ne_targetFieldId (a b : String) : sourceFieldId a ≠ targetFieldId b := by
  intro h
  have hchars := congrArg String.toList h
  simp only [sourceFieldId, targetFieldId, String.toList_append] at hchars
  have hends : "-source".toList = "-target".toList := List.append_inj_right' hchars (by simp)
  simp at hends

theorem foreignKeyId_ne_sourceFieldId (a b : String) : foreignKeyId a ≠ sourceFieldId b := by
  intro h
  have hchars := congrArg String.toList h
  simp [foreignKeyId, sourceFieldId] at hchars

theorem foreignKeyId_ne_targetFieldId (a b : String) : foreignKeyId a ≠ targetFieldId b := by
  intro h
  have hchars := congrArg String.toList h
  simp [foreignKeyId, targetFieldId] at hchars

theorem derivedIds_nodup (edge : String) : (derivedIds edge).Nodup := by
  simp [derivedIds, sourceFieldId_ne_targetFieldId, (foreignKeyId_ne_sourceFieldId _ _).symm,
    (foreignKeyId_ne_targetFieldId _ _).symm]

theorem derivedIds_disjoint {a b : String} (h : a ≠ b) :
    (derivedIds a).Disjoint (derivedIds b) := by
  simp [derivedIds, sourceFieldId_injective.eq_iff, targetFieldId_injective.eq_iff,
    foreignKeyId_injective.eq_iff, h.symm, sourceFieldId_ne_targetFieldId,
    (sourceFieldId_ne_targetFieldId _ _).symm, foreignKeyId_ne_sourceFieldId,
    (foreignKeyId_ne_sourceFieldId _ _).symm, foreignKeyId_ne_targetFieldId,
    (foreignKeyId_ne_targetFieldId _ _).symm]

theorem derivedIds_disjoint_iff {a b : String} :
    (derivedIds a).Disjoint (derivedIds b) ↔ a ≠ b := by
  refine ⟨?_, derivedIds_disjoint⟩
  rintro hdisjoint rfl
  exact hdisjoint List.mem_cons_self List.mem_cons_self

/-- The fields that an edge implies have some of its derived ids, in the order of these. -/
theorem impliedFields_ids (e : RelationEdge) (source target : Model) :
    ((e.impliedFields source target).map fun implied => implied.2.id).Sublist
      ((derivedIds e.id).map some) := by
  unfold impliedFields
  cases e.relationType? with
  | none => exact List.nil_sublist _
  | some type =>
      cases type with
      | oneToOne => exact .cons_cons _ (.cons _ (.refl _))
      | oneToMany => exact .refl _
      | manyToMany => exact .cons_cons _ (.cons_cons _ (.cons _ (.refl _)))

theorem impliedFields_ids_nodup (e : RelationEdge) (source target : Model) :
    ((e.impliedFields source target).map fun implied => implied.2.id).Nodup :=
  ((derivedIds_nodup e.id).map (Option.some_injective _)).sublist
    (e.impliedFields_ids source target)

theorem impliedFields_id {e : RelationEdge} {source target : Model} {implied : EdgeEnd × Field}
    (h : implied ∈ e.impliedFields source target) :
    ∃ id ∈ derivedIds e.id, implied.2.id = some id := by
  have hid : implied.2.id ∈ (derivedIds e.id).map some :=
    (e.impliedFields_ids source target).subset (List.mem_map_of_mem h)
  simpa [eq_comm] using hid

/-- Which of its derived ids an edge makes use of: a field at the source is always implied, one for
the end of the target unless the relation is one to one, and a foreign key unless it is many to
many. -/
theorem mem_impliedFields_ids_iff {e : RelationEdge} {type : RelationType}
    (htype : e.relationType? = some type) (source target : Model) {id : String} :
    some id ∈ (e.impliedFields source target).map (fun implied => implied.2.id) ↔
      id = sourceFieldId e.id ∨ (id = targetFieldId e.id ∧ type ≠ .oneToOne) ∨
        (id = foreignKeyId e.id ∧ type ≠ .manyToMany) := by
  rw [impliedFields_of_type htype]
  cases type <;> simp [impliedFieldsOf, listField, singleField, foreignKeyField]

/-- An id that is derived shows the edge and the role of the field, whatever texts the ids of edges
are: the three of one edge are distinct, and no other edge has one of them. The fields that an edge
of a supported type implies go by such ids, each by its own. -/
theorem derivedIds_tell_edges_apart (a b : String) :
    (derivedIds a).Nodup ∧ ((derivedIds a).Disjoint (derivedIds b) ↔ a ≠ b) ∧
      ∀ (e : RelationEdge) (type : RelationType), e.relationType? = some type →
        ∀ source target : Model,
          (∀ implied ∈ e.impliedFields source target,
            ∃ id ∈ derivedIds e.id, implied.2.id = some id) ∧
          ((e.impliedFields source target).map fun implied => implied.2.id).Nodup ∧
          ∀ id, some id ∈ (e.impliedFields source target).map (fun implied => implied.2.id) ↔
            id = sourceFieldId e.id ∨ (id = targetFieldId e.id ∧ type ≠ .oneToOne) ∨
              (id = foreignKeyId e.id ∧ type ≠ .manyToMany) := by
  refine ⟨derivedIds_nodup a, derivedIds_disjoint_iff, fun e type htype source target => ?_⟩
  exact ⟨fun implied h => impliedFields_id h, e.impliedFields_ids_nodup source target,
    fun id => mem_impliedFields_ids_iff htype source target⟩

/-- An edge that is named for a field of another has ids of its own. -/
theorem derivedIds_tell_edges_apart_nested :
    let nested : RelationEdge := { id := "e-source", source := "u", target := "p" }
    let user : Model := { id := "u", name := "User" }
    let post : Model := { id := "p", name := "Post" }
    let key := nested.foreignKeyField (foreignKeyName user.name) false
    nested.relationType? = some .oneToMany ∧ "e" ≠ "e-source" ∧
      (derivedIds "e").Disjoint (derivedIds "e-source") ∧
        (EdgeEnd.target, key) ∈ nested.impliedFields user post ∧
          (∃ id ∈ derivedIds "e-source", key.id = some id) ∧
            some "rel-e-source-target" ∈
              (nested.impliedFields user post).map fun implied => implied.2.id := by
  intro nested user post key
  obtain ⟨-, hapart, hedges⟩ := derivedIds_tell_edges_apart "e" "e-source"
  have htype : nested.relationType? = some .oneToMany := rfl
  have hother : "e" ≠ "e-source" := by decide
  have hkey : (EdgeEnd.target, key) ∈ nested.impliedFields user post :=
    .tail _ (.tail _ (.head _))
  obtain ⟨hids, -, hused⟩ := hedges nested .oneToMany htype user post
  have htarget : "rel-e-source-target" = targetFieldId nested.id := by decide
  exact ⟨htype, hother, hapart.mpr hother, hkey, hids _ hkey,
    (hused _).mpr (.inr (.inl ⟨htarget, by decide⟩))⟩

end RelationEdge

namespace Synthesis

theorem filterMap_sublist_map {α β γ : Type} (keep : α → Option β) (f : α → γ) (l : List α) :
    (l.filterMap fun a => (keep a).map fun _ => f a).Sublist (l.map f) := by
  induction l with
  | nil => exact .refl _
  | cons a l ih =>
      cases hkeep : keep a with
      | none => simpa [hkeep] using ih.cons (f a)
      | some b => simpa [hkeep] using ih

theorem demandsOf_ids (models : List Model) (e : RelationEdge) :
    ((demandsOf models e).map fun d => d.field.id).Sublist
      ((RelationEdge.derivedIds e.id).map some) := by
  unfold demandsOf
  cases modelById? models e.source with
  | none => exact List.nil_sublist _
  | some source =>
      cases modelById? models e.target with
      | none => exact List.nil_sublist _
      | some target =>
          refine .trans ?_ (e.impliedFields_ids source target)
          simp only [List.map_filterMap, Option.map_map]
          exact filterMap_sublist_map (fun implied => place? models (e.endpoint implied.1))
            (fun implied => implied.2.id) (e.impliedFields source target)

/-- A field that is demanded for an edge shows that it was derived from it. -/
theorem demandsOf_derived {models : List Model} {e : RelationEdge} {d : Demand}
    (h : d ∈ demandsOf models e) :
    d.field.origin = .derived ∧ ∃ id ∈ RelationEdge.derivedIds e.id, d.field.id = some id := by
  obtain ⟨source, target, end_, -, -, himplied, -⟩ := demandsOf_implied h
  exact ⟨RelationEdge.impliedFields_derived himplied, RelationEdge.impliedFields_id himplied⟩

/-- Where no two edges share an id, no two demands are for fields of the same id. -/
theorem demands_ids_nodup {edges : List RelationEdge} (h : (edges.map (·.id)).Nodup)
    (models : List Model) : ((demands edges models).map fun d => d.field.id).Nodup := by
  have hids : (edges.flatMap fun e => (RelationEdge.derivedIds e.id).map some).Nodup := by
    refine List.nodup_flatMap.mpr ⟨fun e _ => ?_, ?_⟩
    · exact (RelationEdge.derivedIds_nodup e.id).map (Option.some_injective _)
    · refine (List.pairwise_map.mp h).imp fun hne => ?_
      exact (RelationEdge.derivedIds_disjoint hne).map (Option.some_injective _)
  refine hids.sublist ?_
  rw [demands, List.map_flatMap]
  exact .flatMap_right _ fun e _ => demandsOf_ids models e

end Synthesis

end DrawnSchema
