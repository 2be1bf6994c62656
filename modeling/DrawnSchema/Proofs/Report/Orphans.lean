import DrawnSchema.Proofs.Graph.Relatedness

/-!
# Orphans

The report finds the relations of a model by its id and the fields that refer to it by its name. In
the document this says: a relation relates its ends if both are models, whatever id it has, and a
field relates two names, that of its model and that of its type, if these differ. A model is an
orphan if it is related in neither way. So a relation of a model to itself counts, while a field of
its own type does not, and models that share a name share its fields.
-/

namespace DrawnSchema

/-- The complaint about an orphan. -/
def Model.orphanWarning (m : Model) : Issue :=
  { code := "ORPHAN_MODEL", severity := .warning, model := some m.name
    message := s!"Model '{m.name}' has no relations to other models" }

namespace Document

variable {d : Document} {m : Model}

/-- Both ends of a relation are models of the document. -/
def JoinsModels (d : Document) (e : RelationEdge) : Prop :=
  e.source ∈ d.models.map (·.id) ∧ e.target ∈ d.models.map (·.id)

instance (d : Document) (e : RelationEdge) : Decidable (d.JoinsModels e) :=
  inferInstanceAs (Decidable (_ ∧ _))

/-- No relation that touches the model joins models, and no field connects its name with the name
of another model, neither from models of its name nor to them. -/
@[mk_iff]
structure IsOrphan (d : Document) (m : Model) : Prop where
  undrawn : ∀ e ∈ d.relationEdges, e.source = m.id ∨ e.target = m.id → ¬d.JoinsModels e
  refers_to_none : ∀ owner ∈ d.models, owner.name = m.name → ∀ f ∈ owner.fields,
    ∀ other ∈ d.models, other.name ≠ m.name → f.type ≠ other.name
  referred_by_none : ∀ other ∈ d.models, other.name ≠ m.name → ∀ f ∈ other.fields,
    f.type ≠ m.name

instance (d : Document) (m : Model) : Decidable (d.IsOrphan m) :=
  decidable_of_iff _ (isOrphan_iff d m).symm

section DistinctIds

variable (h : (d.models.map (·.id) ++ d.enums.map (·.id)).Nodup)
include h

theorem ofDocument_hasRelations_eq_false_iff :
    (Graph.ofDocument d).hasRelations m.id = false ↔
      ∀ e ∈ d.relationEdges, e.source = m.id ∨ e.target = m.id → ¬d.JoinsModels e := by
  have hresolves (e : RelationEdge) : (Graph.ofDocument d).Resolves e ↔ d.JoinsModels e := by
    rw [Graph.Resolves, Graph.modelIds, Graph.ofDocument_models_of_nodup h, JoinsModels]
  rw [← Bool.not_eq_true, Graph.ofDocument_hasRelations_iff]
  simp only [hresolves, not_exists, not_and]
  exact forall₂_congr fun e _ => imp_not_comm

/-- A name is not referred to where no field connects it with another one, be it the name of the
model of the field or that of its type. -/
theorem notMem_referencedNames_iff (hm : m ∈ d.models) :
    m.name ∉ (Graph.ofDocument d).referencedNames ↔
      (∀ owner ∈ d.models, owner.name = m.name → ∀ f ∈ owner.fields,
        ∀ other ∈ d.models, other.name ≠ m.name → f.type ≠ other.name) ∧
      ∀ other ∈ d.models, other.name ≠ m.name → ∀ f ∈ other.fields, f.type ≠ m.name := by
  rw [Graph.mem_referencedNames_iff, Graph.ofDocument_models_of_nodup h]
  constructor
  · intro hnone
    constructor
    · intro owner howner hname f hf other hother hne htype
      refine hnone ⟨owner, howner, f, hf, ?_, ?_, .inr hname.symm⟩
      · exact htype ▸ List.mem_map_of_mem hother
      · rw [htype, hname]
        exact hne
    · intro other hother hne f hf htype
      exact hnone ⟨other, hother, f, hf, htype ▸ List.mem_map_of_mem hm, htype ▸ hne.symm,
        .inl htype.symm⟩
  · rintro ⟨hto, hby⟩ ⟨owner, howner, f, hf, htype, hne, hname | hname⟩
    · exact hby owner howner (fun hsame => hne (hname.symm.trans hsame.symm)) f hf hname.symm
    · obtain ⟨other, hother, hsame⟩ := List.mem_map.mp htype
      refine hto owner howner hname.symm f hf other hother ?_ hsame.symm
      rw [hsame, hname]
      exact hne

theorem isOrphan_iff_not_isRelated (hm : m ∈ d.models) :
    d.IsOrphan m ↔ (Graph.ofDocument d).isRelated m.heading = false := by
  rw [isOrphan_iff, ← ofDocument_hasRelations_eq_false_iff h, ← notMem_referencedNames_iff h hm,
    Graph.isRelated, Bool.or_eq_false_iff, ← List.contains_iff_mem, Bool.not_eq_true]
  rfl

end DistinctIds

/-- The report warns of the orphans of a document, of each once and in their order, if ids tell its
models and enums apart. -/
theorem checkOrphans_eq_orphans (h : (d.models.map (·.id) ++ d.enums.map (·.id)).Nodup) :
    (Graph.ofDocument d).checkOrphans.issues =
      (d.models.filter fun m => d.IsOrphan m).map Model.orphanWarning := by
  have hcheck : (Graph.ofDocument d).checkOrphans.issues = d.models.filterMap fun m =>
      if (Graph.ofDocument d).isRelated m.heading then none else some m.orphanWarning := by
    unfold Graph.checkOrphans
    rw [Graph.ofDocument_models_of_nodup h]
    rfl
  rw [hcheck, ← List.filterMap_eq_map, List.filterMap_filter]
  refine List.filterMap_congr fun m hm => ?_
  have horphan := isOrphan_iff_not_isRelated h hm
  by_cases hrelated : (Graph.ofDocument d).isRelated m.heading = true
  · have hnot : ¬d.IsOrphan m := by simp [horphan, hrelated]
    simp [hrelated, hnot]
  · have hyes : d.IsOrphan m := by simpa [horphan] using hrelated
    simp [hrelated, hyes]

/-- Relations whose ids repeat, one of which leads nowhere, one to an enum and one back to its
model; two models of one name, of which one refers to itself, and a field of the name of an enum
that is a model as well. -/
def tangled : Document :=
  { models := [
      { id := "u", name := "User" },
      { id := "p", name := "Post", fields := [{ name := "parent", type := "Post" }] },
      { id := "q", name := "Post" },
      { id := "t", name := "Tag" },
      { id := "a", name := "Audit", fields := [{ name := "role", type := "Role" }] },
      { id := "s", name := "Role" },
      { id := "n", name := "Note" }]
    enums := [{ id := "r", name := "Role", values := ["READER"] }]
    relationEdges := [
      { id := "e", source := "t", target := "t" },
      { id := "e", source := "t", target := "gone" },
      { id := "f", source := "u", target := "r" },
      { id := "f", source := "gone", target := "n" }] }

/-- The tag has its relation to itself, though another relation has taken the id. The user and the
note have relations that join no models, and the posts refer to their own name only. -/
theorem checkOrphans_eq_orphans_tangled :
    (tangled.models.map (·.id) ++ tangled.enums.map (·.id)).Nodup ∧
      (Graph.ofDocument tangled).checkOrphans.issues = [
        Model.orphanWarning { id := "u", name := "User" },
        Model.orphanWarning
          { id := "p", name := "Post", fields := [{ name := "parent", type := "Post" }] },
        Model.orphanWarning { id := "q", name := "Post" },
        Model.orphanWarning { id := "n", name := "Note" }] := by
  have hids : (tangled.models.map (·.id) ++ tangled.enums.map (·.id)).Nodup := by decide
  have horphans : (tangled.models.filter fun m => tangled.IsOrphan m) = [
      { id := "u", name := "User" },
      { id := "p", name := "Post", fields := [{ name := "parent", type := "Post" }] },
      { id := "q", name := "Post" },
      { id := "n", name := "Note" }] := by decide +kernel
  refine ⟨hids, ?_⟩
  rw [checkOrphans_eq_orphans hids, horphans]
  rfl

end Document

end DrawnSchema
