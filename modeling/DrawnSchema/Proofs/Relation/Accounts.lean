import DrawnSchema.Proofs.Relation.Provenance

/-!
# What becomes of each field that edges imply

A run meets its demands one after the other, and each meeting has one of three ends: the id of the
field is there, the field is added, or its name is taken and the run warns of it. Fields stay where
they are, so what was found or added at a meeting is still there in the end. No field that an edge
implies is lost without a warning, and the three kinds of meetings add up.
-/

namespace DrawnSchema.Synthesis

variable {edges : List RelationEdge} {models : List Model} {s : Synthesis} {ds : List Demand}

/-! ### Meetings -/

/-- A demand when a run reaches it, and the model of which it is made as it is then. -/
structure Meeting extends Demand where
  owner : Model

namespace Meeting

def outcome (x : Meeting) : Outcome := Synthesis.outcome x.edge x.owner x.field

/-- The model as the meeting leaves it. -/
def result (x : Meeting) : Model := insertInto x.edge x.owner x.field

def isPresent (x : Meeting) : Bool := x.owner.hasId x.field

/-- The three ends of a meeting. -/
theorem ends (x : Meeting) :
    (x.owner.hasId x.field = true ∧ x.result = x.owner ∧
        x.outcome = .present x.edge x.owner.name x.field.name) ∨
      (x.owner.hasId x.field = false ∧ x.owner.hasField x.field.name = true ∧
        x.result = x.owner ∧ x.outcome = .collision x.edge x.owner.name x.field.name) ∨
      (x.owner.hasId x.field = false ∧ x.result = x.owner.withMore [x.field] ∧
        x.outcome = .added x.edge x.owner.name x.field.name) := by
  have hresult : x.result = if x.owner.blocks x.field then x.owner
      else x.owner.withMore [x.field] := insertInto_eq _ _ _
  have houtcome : x.outcome = if x.owner.hasId x.field then
        Outcome.present x.edge x.owner.name x.field.name
      else if x.owner.hasField x.field.name then .collision x.edge x.owner.name x.field.name
      else .added x.edge x.owner.name x.field.name := rfl
  rw [hresult, houtcome, Model.blocks]
  cases x.owner.hasId x.field with
  | true => exact .inl ⟨rfl, rfl, rfl⟩
  | false =>
      cases x.owner.hasField x.field.name with
      | true => exact .inr (.inl ⟨rfl, rfl, rfl, rfl⟩)
      | false => exact .inr (.inr ⟨rfl, rfl, rfl⟩)

end Meeting

/-- The meetings of a run, in order. -/
def meetings (s : Synthesis) : List Demand → List Meeting
  | [] => []
  | d :: ds => (s.models[d.place]?.map (Meeting.mk d)).toList ++ meetings (s.meet d) ds

theorem meet_of_meeting (x : Meeting) (h : s.models[x.place]? = some x.owner) :
    s.meet x.toDemand = ⟨s.models.set x.place x.result, s.outcomes ++ [x.outcome]⟩ :=
  meet_of_some h

theorem meetings_toDemand (h : ∀ d ∈ ds, ∃ owner, s.models[d.place]? = some owner) :
    (meetings s ds).map Meeting.toDemand = ds := by
  induction ds generalizing s with
  | nil => rfl
  | cons d ds ih =>
      obtain ⟨owner, howner⟩ := h d List.mem_cons_self
      have hrest : ∀ d' ∈ ds, ∃ owner, (s.meet d).models[d'.place]? = some owner := by
        intro d' hd'
        obtain ⟨owner', howner'⟩ := h d' (List.mem_cons_of_mem d hd')
        obtain ⟨added, hadded⟩ := (meet_grown s d).withMore _ _ howner'
        exact ⟨_, hadded⟩
      rw [meetings, howner, List.map_append, ih hrest]
      rfl

/-- The log of a run tells its meetings. -/
theorem foldl_meet_outcomes (ds : List Demand) (s : Synthesis) :
    (ds.foldl meet s).outcomes = s.outcomes ++ (meetings s ds).map Meeting.outcome := by
  induction ds generalizing s with
  | nil => exact (List.append_nil _).symm
  | cons d ds ih =>
      rw [List.foldl_cons, ih, meetings]
      cases howner : s.models[d.place]? with
      | none => rw [meet_of_none howner]; rfl
      | some owner =>
          rw [meet_of_some howner, List.append_assoc]
          rfl

/-- What a meeting leaves is still there when the run is over. -/
theorem result_of_mem_meetings {x : Meeting} (hx : x ∈ meetings s ds) :
    ∃ added, (ds.foldl meet s).models[x.place]? = some (x.result.withMore added) := by
  induction ds generalizing s with
  | nil => cases hx
  | cons d ds ih =>
      rw [meetings] at hx
      rw [List.foldl_cons]
      obtain hx | hx := List.mem_append.mp hx
      · obtain ⟨owner, howner, rfl⟩ : ∃ owner, s.models[d.place]? = some owner ∧ ⟨d, owner⟩ = x := by
          simpa using hx
        refine (foldl_meet_grown ds _).withMore _ _ ?_
        rw [getElem?_meet d howner, if_pos rfl]
        rfl
      · exact ih hx

/-! ### The account -/

def fieldCount (models : List Model) : Nat := (models.flatMap (·.fields)).length

theorem fieldCount_set {n : Nat} {m : Model} (hm : models[n]? = some m) (added : List Field) :
    fieldCount (models.set n (m.withMore added)) = fieldCount models + added.length := by
  induction models generalizing n with
  | nil => cases hm
  | cons first models ih =>
      cases n with
      | zero =>
          obtain rfl := Option.some.inj hm
          simp only [fieldCount, List.set_cons_zero, List.flatMap_cons, Model.withMore_fields,
            List.length_append]
          omega
      | succ n =>
          have hrest := ih hm
          simp only [fieldCount, List.set_cons_succ, List.flatMap_cons, List.length_append]
            at hrest ⊢
          omega

/-- A meeting adds a field, warns, or finds the id there. -/
theorem meet_account (x : Meeting) (h : s.models[x.place]? = some x.owner) :
    fieldCount (s.meet x.toDemand).models + (s.meet x.toDemand).warnings.length +
        (if x.isPresent then 1 else 0) =
      fieldCount s.models + s.warnings.length + 1 := by
  have hkept : fieldCount (s.models.set x.place x.owner) = fieldCount s.models := by
    simpa using fieldCount_set h []
  rw [meet_of_meeting x h, Meeting.isPresent, warnings, List.filterMap_append, List.length_append]
  obtain ⟨hid, hresult, houtcome⟩ | ⟨hid, -, hresult, houtcome⟩ | ⟨hid, hresult, houtcome⟩ := x.ends
  · rw [hid, hresult, houtcome, hkept]
    rfl
  · rw [hid, hresult, houtcome, hkept]
    rfl
  · have hadded := fieldCount_set h [x.field]
    rw [hid, hresult, houtcome, hadded]
    simp only [List.length_singleton, Outcome.warning?, List.filterMap_cons, List.filterMap_nil,
      List.length_nil, warnings, Bool.false_eq_true, if_false]
    omega

theorem foldl_meet_account (ds : List Demand) (s : Synthesis) :
    fieldCount (ds.foldl meet s).models + (ds.foldl meet s).warnings.length +
        (meetings s ds).countP Meeting.isPresent =
      fieldCount s.models + s.warnings.length + (meetings s ds).length := by
  induction ds generalizing s with
  | nil => rfl
  | cons d ds ih =>
      cases howner : s.models[d.place]? with
      | none =>
          rw [List.foldl_cons, meetings, howner, meet_of_none howner]
          exact ih s
      | some owner =>
          have hstep : fieldCount (s.meet d).models + (s.meet d).warnings.length +
              (if (Meeting.mk d owner).isPresent then 1 else 0) =
                fieldCount s.models + s.warnings.length + 1 := meet_account ⟨d, owner⟩ howner
          have hrest := ih (s.meet d)
          rw [List.foldl_cons, meetings, howner, Option.map_some, Option.toList_some,
            List.singleton_append, List.countP_cons, List.length_cons]
          omega

/-! ### The fields that edges imply -/

/-- The fields that an edge implies, each with the model that is to own it. -/
def dues (models : List Model) (e : RelationEdge) : List (Model × Field) :=
  match modelById? models e.source, modelById? models e.target with
  | some source, some target =>
    (e.impliedFields source target).map fun implied => (implied.1.own source target, implied.2)
  | _, _ => []

/-- Each due of an edge is demanded, of the model that is to own it. -/
theorem dues_of_joins {e : RelationEdge} (h : e.Joins (models.map (·.id))) :
    (dues models e).map (fun due => (e.id, some due.1, due.2)) =
      (demandsOf models e).map fun d => (d.edge, models[d.place]?, d.field) := by
  obtain ⟨source, target, hsource, htarget, place, hplace, hdemands⟩ := demandsOf_of_joins h
  simp only [dues, hsource, htarget, hdemands, List.map_map, Function.comp_def, hplace]

theorem dues_length {e : RelationEdge} (h : e.Joins (models.map (·.id))) :
    (dues models e).length = (demandsOf models e).length := by
  simpa using congrArg List.length (dues_of_joins h)

theorem demandsOf_length {e : RelationEdge} (h : e.Joins (models.map (·.id))) :
    (demandsOf models e).length = e.owed.length := by
  simpa using congrArg List.length (demandsOf_owed h)

/-- A field was refused: the run has warned that its name is taken, and the field that had the name
at that time has it still. -/
def IsRefused (s : Synthesis) (met : List Meeting) (edge : String) (owner : Model) (f : Field) :
    Prop :=
  s!"Relation {edge}: {owner.name}.{f.name} already exists, derived field not added" ∈ s.warnings ∧
    ∃ x ∈ met, x.edge = edge ∧ x.field = f ∧ s.models[x.place]? = some owner ∧
      ∃ g, x.owner.field? f.name = some g ∧ owner.field? f.name = some g

theorem foldl_meet_settles {d : Demand} {owner : Model} (hd : d ∈ ds)
    (hplaces : ∀ d ∈ ds, ∃ owner, s.models[d.place]? = some owner)
    (howner : (ds.foldl meet s).models[d.place]? = some owner) :
    owner.hasId d.field = true ∨
      IsRefused (ds.foldl meet s) (meetings s ds) d.edge owner d.field := by
  rw [← meetings_toDemand hplaces] at hd
  obtain ⟨x, hx, rfl⟩ := List.mem_map.mp hd
  obtain ⟨added, hadded⟩ := result_of_mem_meetings hx
  obtain rfl := Option.some.inj (howner.symm.trans hadded)
  obtain ⟨hid, hresult, -⟩ | ⟨-, hname, hresult, hcollision⟩ | ⟨-, hresult, -⟩ := x.ends
  · exact .inl (Model.hasId_withMore (hresult ▸ hid) added)
  · refine .inr ⟨?_, x, hx, rfl, rfl, howner, ?_⟩
    · have houtcome : x.outcome ∈ (ds.foldl meet s).outcomes := by
        rw [foldl_meet_outcomes]
        exact List.mem_append_right _ (List.mem_map_of_mem hx)
      refine List.mem_filterMap.mpr ⟨_, houtcome, ?_⟩
      rw [hcollision, hresult]
      rfl
    · obtain ⟨g, hg⟩ := Option.isSome_iff_exists.mp hname
      refine ⟨g, hg, ?_⟩
      rw [hresult, Model.field?, Model.withMore_fields, List.find?_append]
      exact congrArg (Option.or · _) hg
  · refine .inl (Model.hasId_withMore ?_ added)
    rw [hresult]
    simp [Model.hasId]

theorem joins_of_synthesizeFields (hrun : synthesizeFields edges models = .ok s) :
    ∀ e ∈ edges, e.Joins (s.models.map (·.id)) := by
  obtain ⟨hfault, -⟩ := synthesizeFields_eq_ok_iff.mp hrun
  rw [Model.ids_of_headings (synthesizeFields_grown hrun).2]
  exact firstEdgeFault?_eq_none_iff.mp hfault

theorem exists_demand_of_due (hrun : synthesizeFields edges models = .ok s) {e : RelationEdge}
    (he : e ∈ edges) {due : Model × Field} (hdue : due ∈ dues s.models e) :
    ∃ d ∈ demands edges models, d.edge = e.id ∧ s.models[d.place]? = some due.1 ∧
      d.field = due.2 := by
  have hmem := List.mem_map_of_mem (f := fun due => (e.id, some due.1, due.2)) hdue
  rw [dues_of_joins (joins_of_synthesizeFields hrun e he),
    demandsOf_congr (synthesizeFields_grown hrun).2] at hmem
  obtain ⟨d, hd, hsame⟩ := List.mem_map.mp hmem
  exact ⟨d, List.mem_flatMap.mpr ⟨e, he, hd⟩, by simpa using hsame⟩

theorem dues_count (hrun : synthesizeFields edges models = .ok s) :
    (edges.flatMap (dues s.models)).length =
      (meetings { models } (demands edges models)).length := by
  have hmet := congrArg List.length
    (meetings_toDemand (s := { models }) (demands_placed edges models))
  rw [List.length_map] at hmet
  rw [hmet, demands, List.length_flatMap, List.length_flatMap]
  refine congrArg List.sum (List.map_congr_left fun e he => ?_)
  rw [dues_length (joins_of_synthesizeFields hrun e he),
    demandsOf_congr (synthesizeFields_grown hrun).2]

/-- No field that an edge implies is lost silently: the model that is to own it has a field of its id
in the end, or the run has warned and the model has kept the field whose name it was to have. The
fields that were added, the warnings and the fields that were there by their ids when they were
reached are all the fields that the edges imply. -/
theorem synthesizeFields_accounts (hrun : synthesizeFields edges models = .ok s) :
    s.outcomes = (meetings { models } (demands edges models)).map Meeting.outcome ∧
      (∀ e ∈ edges, (dues s.models e).length = e.owed.length ∧
        ∀ due ∈ dues s.models e, due.1.hasId due.2 = true ∨
          IsRefused s (meetings { models } (demands edges models)) e.id due.1 due.2) ∧
      fieldCount s.models + s.warnings.length +
          (meetings { models } (demands edges models)).countP Meeting.isPresent =
        fieldCount models + (edges.flatMap (dues s.models)).length := by
  obtain ⟨-, hs⟩ := synthesizeFields_eq_ok_iff.mp hrun
  refine ⟨?_, fun e he => ⟨?_, fun due hdue => ?_⟩, ?_⟩
  · rw [hs, foldl_meet_outcomes]
    rfl
  · have hjoins := joins_of_synthesizeFields hrun e he
    rw [dues_length hjoins, demandsOf_length hjoins]
  · obtain ⟨d, hd, hedge, howner, hfield⟩ := exists_demand_of_due hrun he hdue
    have hsettled := foldl_meet_settles (s := { models }) hd (demands_placed edges models)
      (hs ▸ howner)
    rwa [← hs, hedge, hfield] at hsettled
  · rw [dues_count hrun, hs]
    exact foldl_meet_account (demands edges models) { models }

/-- The first edge finds a name taken at one end, the second takes one name at both ends, and the
third asks for the fields of the first once more: of eight fields three are added, three are warned
of and two are there. -/
theorem synthesizeFields_accounts_crowded :
    let edges : List RelationEdge := [{ id := "e", source := "u", target := "p" },
      { id := "f", type := "MANY_TO_MANY", source := "p", target := "p" },
      { id := "e", source := "u", target := "p" }]
    ∃ s, synthesizeFields edges crowded = .ok s ∧ fieldCount s.models + 3 + 2 = 1 + 8 ∧
      ∀ e ∈ edges, ∀ due ∈ dues s.models e, due.1.hasId due.2 = true ∨
        IsRefused s (meetings { models := crowded } (demands edges crowded)) e.id due.1 due.2 := by
  intro edges
  have hrun : synthesizeFields edges crowded = .ok _ := rfl
  obtain ⟨-, hsettled, hcount⟩ := synthesizeFields_accounts hrun
  exact ⟨_, hrun, hcount, fun e he => (hsettled e he).2⟩

end DrawnSchema.Synthesis
