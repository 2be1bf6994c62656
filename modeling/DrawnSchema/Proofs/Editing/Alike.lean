import DrawnSchema.Proofs.Editing.Transitions
import DrawnSchema.Proofs.Graph.Twin

/-!
# Edits on twins

Two sessions whose graphs are twins and that hand out the same ids answer an edit alike, and are
twins after it. As for a single session, this is found by going along the edit: twins give the same
answer to each question, and each change leaves them twins.
-/

namespace DrawnSchema

/-- Sessions on twins that hand out the same ids. -/
structure Session.Twin (s t : Session) : Prop where
  graph : s.graph.Twin t.graph
  supply : t.supply = s.supply
  issued : t.issued = s.issued

namespace Session.Twin

variable {s t : Session} (h : s.Twin t)
include h

theorem nextId_eq (label : String) : t.nextId label = s.nextId label := by
  rw [nextId, nextId, h.supply, h.issued]

theorem idFor_eq (label : String) (id : Option String) : t.idFor label id = s.idFor label id := by
  rw [idFor, idFor, h.nextId_eq]

theorem taking (count : Nat) : (s.taking count).Twin (t.taking count) :=
  ⟨h.graph, h.supply, congrArg (· + count) h.issued⟩

theorem withGraph {g g' : Graph} (hgraph : g.Twin g') :
    Session.Twin { s with graph := g } { t with graph := g' } :=
  ⟨hgraph, h.supply, h.issued⟩

end Session.Twin

namespace Editing

variable {α β : Type} {s t : Session}

/-- An edit, or the rest of one, is answered alike in two sessions and leaves them twins. -/
def Alike (p : Editing α) (s t : Session) : Prop :=
  match p.run s, p.run t with
  | .ok a s', .ok b t' => b = a ∧ s'.Twin t'
  | .error e s', .error e' t' => e' = e ∧ s'.Twin t'
  | _, _ => False

section Rules

variable {p : Editing α} {k : α → Editing β}

theorem Alike.pure {b : β} (h : s.Twin t) : Alike (Pure.pure b) s t := ⟨rfl, h⟩

theorem Alike.throw {e : EditError} (h : s.Twin t) : Alike (throw e : Editing β) s t := ⟨rfl, h⟩

theorem Alike.bind (hp : Alike p s t) (hrest : ∀ a s' t', s'.Twin t' → Alike (k a) s' t') :
    Alike (p >>= k) s t := by
  unfold Alike at hp ⊢
  rw [EStateM.run_bind, EStateM.run_bind]
  cases hs : p.run s with
  | ok a s' =>
      cases ht : p.run t with
      | ok b t' =>
          rw [hs, ht] at hp
          obtain ⟨rfl, htwin⟩ := hp
          exact hrest _ s' t' htwin
      | error e t' =>
          rw [hs, ht] at hp
          exact hp.elim
  | error e s' =>
      cases ht : p.run t with
      | ok b t' =>
          rw [hs, ht] at hp
          exact hp.elim
      | error e' t' =>
          rw [hs, ht] at hp
          exact hp

/-- The rest of an edit, after a part that comes to the same in both sessions. -/
theorem Alike.bind_of_run {a : α} {s' t' : Session} (hs : p.run s = .ok a s')
    (ht : p.run t = .ok a t') (hrest : Alike (k a) s' t') : Alike (p >>= k) s t := by
  unfold Alike
  rw [EStateM.run_bind, EStateM.run_bind, hs, ht]
  exact hrest

theorem Alike.get_bind {k : Session → Editing β} (hsame : k t = k s) (hrest : Alike (k s) s t) :
    Alike (get >>= k) s t := by
  unfold Alike
  rw [EStateM.run_bind, EStateM.run_bind, EStateM.run_get, EStateM.run_get]
  simp only [hsame]
  exact hrest

theorem Alike.ask_bind {f : Graph → Except EditError α} (h : s.Twin t)
    (hf : f t.graph = f s.graph) (hrest : ∀ a, f s.graph = .ok a → Alike (k a) s t) :
    Alike (ask f >>= k) s t := by
  cases hanswer : f s.graph with
  | ok a =>
      have hs : (ask f).run s = .ok a s := by rw [run_ask, hanswer]
      have ht : (ask f).run t = .ok a t := by rw [run_ask, hf, hanswer]
      exact .bind_of_run hs ht (hrest a hanswer)
  | error e =>
      unfold Alike
      rw [EStateM.run_bind, EStateM.run_bind, run_ask, run_ask, hf, hanswer]
      exact ⟨rfl, h⟩

theorem Alike.change_bind {f : Graph → Graph} {k : Unit → Editing β}
    (hrest : Alike (k ()) (s.changing f) (t.changing f)) : Alike (change f >>= k) s t :=
  .bind_of_run (run_change f s) (run_change f t) hrest

theorem Alike.nextId_bind {label : String} {k : String → Editing β} (h : s.Twin t)
    (hrest : Alike (k (s.nextId label)) (s.taking 1) (t.taking 1)) :
    Alike (nextId label >>= k) s t := by
  refine .bind_of_run (run_nextId label s) ?_ hrest
  rw [run_nextId, h.nextId_eq]

theorem Alike.idFor_bind {label : String} {given : Option String} {k : String → Editing β}
    (h : s.Twin t)
    (hrest : ∀ s' t', s'.Twin t' → s'.graph = s.graph →
      Alike (k (s.idFor label given)) s' t') :
    Alike (idFor label given >>= k) s t := by
  have htwin : (if Session.givesId given then s else s.taking 1).Twin
      (if Session.givesId given then t else t.taking 1) := by
    split
    · exact h
    · exact h.taking 1
  have hgraph : (if Session.givesId given then s else s.taking 1).graph = s.graph := by
    split <;> rfl
  refine .bind_of_run (run_idFor label given s) ?_ (hrest _ _ htwin hgraph)
  rw [run_idFor, h.idFor_eq]

end Rules

/-! ### Each edit in turn -/

theorem run_synthesizeEdges (edges : List RelationEdge) (s : Session) :
    (synthesizeEdges edges).run s =
      match synthesizeFields edges s.graph.models with
      | .error e => .error (.compile e) s
      | .ok r => .ok r.outcomes (s.changing fun g => (g.setAllFields r.models).relinkEnums) := by
  unfold synthesizeEdges
  rw [EStateM.run_bind, run_ask]
  unfold Graph.synthesizeEdges
  cases synthesizeFields edges s.graph.models <;> rfl

section Edits

variable (h : s.Twin t)
include h

theorem addModel_alike {name id : Option String} (hfresh : (Edit.addModel name id).IsFresh s) :
    Alike (addModel name id) s t := by
  unfold addModel
  refine .ask_bind h (h.graph.checkNewId_eq id) fun _ hnew => ?_
  refine .ask_bind h (h.graph.newName_eq _ name) fun _ _ => ?_
  refine .idFor_bind h fun s' t' h' hgraph => .nextId_bind h' ?_
  refine .change_bind <| .change_bind <| .pure ?_
  have hmodel := hasNode_idFor hnew hfresh
  rw [← hgraph] at hmodel
  exact (h'.taking 1).withGraph (h'.graph.insertModel hmodel).relinkEnums

theorem addEnum_alike {name : Option String} {values : Option (List String)} {id : Option String}
    (hfresh : (Edit.addEnum name values id).IsFresh s) : Alike (addEnum name values id) s t := by
  unfold addEnum
  refine .ask_bind h (h.graph.checkNewId_eq id) fun _ hnew => ?_
  refine .ask_bind h (h.graph.newName_eq _ name) fun _ _ => ?_
  refine .ask_bind h rfl fun _ _ => .idFor_bind h fun s' t' h' hgraph => ?_
  refine .change_bind <| .change_bind <| .pure ?_
  have henum := hasNode_idFor hnew hfresh
  rw [← hgraph] at henum
  exact h'.withGraph (h'.graph.insertEnum henum).relinkEnums

theorem rename_alike (id name : String) : Alike (rename id name) s t := by
  unfold rename
  refine .ask_bind h (h.graph.nodeOrFail_eq id) fun n _ => ?_
  refine .ask_bind h (h.graph.checkName_eq name (some id)) fun _ _ => ?_
  refine .change_bind <| .change_bind <| .change_bind <| .pure ?_
  have hrenamed := (h.graph.renameNode id name).mapModels
    (f := Graph.retypeFields n.name name) fun _ => rfl
  exact h.withGraph hrenamed.relinkEnums

theorem delete_alike (id : String) : Alike (delete id) s t := by
  unfold delete
  refine .ask_bind h (h.graph.nodeOrFail_eq id) fun _ _ => ?_
  refine .change_bind <| .change_bind <| .change_bind <| .pure ?_
  exact h.withGraph (h.graph.removeNode id).relinkEnums

theorem addField_alike (model : String) (data : Entries) : Alike (addField model data) s t := by
  unfold addField
  refine .ask_bind h (h.graph.modelOrFail_eq model) fun m _ => .nextId_bind h ?_
  refine .ask_bind (h.taking 1) rfl fun _ _ => .ask_bind (h.taking 1) rfl fun _ _ => ?_
  refine .ask_bind (h.taking 1) (h.graph.buildField_eq _) fun f _ => ?_
  refine .change_bind <| .change_bind <| .pure ?_
  exact (h.taking 1).withGraph (h.graph.setFields model (m.fields ++ [f])).relinkEnums

theorem updateField_alike (model field : String) (changes : Entries) :
    Alike (updateField model field changes) s t := by
  unfold updateField
  refine .ask_bind h rfl fun _ _ => .ask_bind h rfl fun _ _ => ?_
  refine .ask_bind h (h.graph.modelOrFail_eq model) fun m _ => .ask_bind h rfl fun old _ => ?_
  refine .ask_bind h rfl fun _ _ => .ask_bind h (h.graph.buildField_eq _) fun f _ => ?_
  refine .change_bind <| .change_bind <| .pure ?_
  exact h.withGraph (h.graph.setFields model (m.fields.set old.1 f)).relinkEnums

theorem removeField_alike (model field : String) : Alike (removeField model field) s t := by
  unfold removeField
  refine .ask_bind h (h.graph.modelOrFail_eq model) fun m _ => .ask_bind h rfl fun old _ => ?_
  refine .change_bind <| .change_bind <| .pure ?_
  exact h.withGraph (h.graph.setFields model (m.fields.eraseIdx old.1)).relinkEnums

theorem setValues_alike (id : String) (values : List String) : Alike (setValues id values) s t := by
  unfold setValues
  refine .ask_bind h (h.graph.enumOrFail_eq id) fun e he => .ask_bind h rfl fun _ _ => ?_
  refine .change_bind <| .pure <| h.withGraph ?_
  exact h.graph.insertValues values (EditError.orNotFound_eq_ok_iff.mp he)

theorem synthesizeEdges_alike (edges : List RelationEdge) : Alike (synthesizeEdges edges) s t := by
  unfold Alike
  rw [run_synthesizeEdges, run_synthesizeEdges, h.graph.models]
  cases synthesizeFields edges s.graph.models with
  | error e => exact ⟨rfl, h⟩
  | ok r =>
      refine ⟨rfl, h.withGraph (Graph.Twin.relinkEnums ?_)⟩
      rw [Graph.setAllFields_eq, Graph.setAllFields_eq]
      exact h.graph.mapModels (Model.foldl_receive_id r.models)

theorem addRelation_alike (source target : Value) (type : Option Value) (id : Option String)
    (attributes : Entries) : Alike (addRelation source target type id attributes) s t := by
  unfold addRelation
  refine .ask_bind h rfl fun _ _ => .ask_bind h (h.graph.checkNewRelation_eq id) fun _ _ => ?_
  refine .idFor_bind h fun s' t' h' _ => .ask_bind h' rfl fun _ _ => ?_
  refine .ask_bind h' rfl fun e _ => .ask_bind h' (h'.graph.checkEdge_eq e) fun _ _ => ?_
  refine .change_bind <| .bind (synthesizeEdges_alike (h'.withGraph ?_) [e]) fun _ _ _ => .pure
  exact h'.graph.insertRelation e

theorem removeRelation_alike (id : String) : Alike (removeRelation id) s t := by
  unfold removeRelation
  refine .get_bind ?_ (.change_bind ?_)
  · simp only [h.graph.relation?_eq]
  · have hpopped := h.graph.popRelation id
    cases s.graph.relation? id with
    | none => exact .throw (h.withGraph hpopped)
    | some e => exact .change_bind <| .pure <| h.withGraph (hpopped.detach e)

theorem setType_alike (id type : String) : Alike (setType id type) s t := by
  unfold setType
  refine .ask_bind h (h.graph.relationOrFail_eq id) fun old _ => ?_
  refine .ask_bind h (h.graph.checkEdge_eq _) fun _ _ => .change_bind <| .change_bind ?_
  have hdrawn := h.graph.insertRelation { old with type }
  refine .bind (synthesizeEdges_alike ?_ _) fun _ _ _ => .pure
  exact h.withGraph (hdrawn.dropDerived id)

theorem synthesize_alike : Alike synthesize s t := by
  unfold synthesize
  refine .get_bind ?_ (.bind (synthesizeEdges_alike h _) fun _ _ _ => .pure)
  simp only [h.graph.relations]

theorem editing_alike {e : Edit} (hfresh : e.IsFresh s) : Alike e.editing s t := by
  cases e with
  | addModel name id => exact addModel_alike h hfresh
  | addEnum name values id => exact addEnum_alike h hfresh
  | rename id name => exact rename_alike h id name
  | delete id => exact delete_alike h id
  | addField model field => exact addField_alike h model field
  | updateField model field changes => exact updateField_alike h model field changes
  | removeField model field => exact removeField_alike h model field
  | setValues id values => exact setValues_alike h id values
  | addRelation source target type id attributes =>
      exact addRelation_alike h source target type id attributes
  | removeRelation id => exact removeRelation_alike h id
  | setType id type => exact setType_alike h id type
  | synthesize => exact synthesize_alike h

end Edits

end Editing

/-- An edit is answered alike in two sessions on twins, and leaves them so. -/
theorem Session.Twin.apply {s t : Session} (h : s.Twin t) {e : Edit} (hfresh : e.IsFresh s) :
    (t.apply e).answer = (s.apply e).answer ∧ (t.apply e).outcomes = (s.apply e).outcomes ∧
      (s.apply e).session.Twin (t.apply e).session := by
  have halike := Editing.editing_alike h hfresh
  unfold Editing.Alike at halike
  unfold Session.apply
  cases hs : e.editing.run s with
  | ok r s' =>
      cases ht : e.editing.run t with
      | ok r' t' =>
          rw [hs, ht] at halike
          obtain ⟨rfl, htwin⟩ := halike
          exact ⟨rfl, rfl, htwin⟩
      | error error t' =>
          rw [hs, ht] at halike
          exact halike.elim
  | error error s' =>
      cases ht : e.editing.run t with
      | ok r' t' =>
          rw [hs, ht] at halike
          exact halike.elim
      | error error' t' =>
          rw [hs, ht] at halike
          obtain ⟨rfl, htwin⟩ := halike
          exact ⟨rfl, rfl, htwin⟩

end DrawnSchema
