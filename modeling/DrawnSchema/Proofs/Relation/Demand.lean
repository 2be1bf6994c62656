import DrawnSchema.Relation.Synthesis
import Mathlib.Data.List.Nodup

/-!
# Synthesis as a list of demands

Which fields the edges imply, and which models are to own them, depends on the ids and the names of
the models alone, and synthesis changes neither. So all that a run asks for is known before it
starts: the demands of the edges, in order. A run meets them one after the other, and each of them
either finds its field there, by its id or by its name, or puts it behind the fields of the owner.
-/

namespace DrawnSchema

namespace Model

/-- What edges know of a model. -/
def heading (m : Model) : String × String := (m.id, m.name)

def withMore (m : Model) (added : List Field) : Model := { m with fields := m.fields ++ added }

@[simp]
theorem withMore_nil (m : Model) : m.withMore [] = m := by
  simp [withMore]

theorem withMore_withMore (m : Model) (first second : List Field) :
    (m.withMore first).withMore second = m.withMore (first ++ second) := by
  simp [withMore]

@[simp]
theorem withMore_fields (m : Model) (added : List Field) :
    (m.withMore added).fields = m.fields ++ added := rfl

@[simp]
theorem withMore_name (m : Model) (added : List Field) : (m.withMore added).name = m.name := rfl

@[simp]
theorem withMore_heading (m : Model) (added : List Field) :
    (m.withMore added).heading = m.heading := rfl

theorem hasField_iff {m : Model} {name : String} :
    m.hasField name = true ↔ ∃ f ∈ m.fields, f.name = name := by
  simp [hasField, field?]

def HasDistinctFields (m : Model) : Prop := (m.fields.map (·.name)).Nodup

def hasId (m : Model) (f : Field) : Bool := m.fields.any fun g => g.id = f.id

/-- A field finds its id or its name taken. -/
def blocks (m : Model) (f : Field) : Bool := m.hasId f || m.hasField f.name

theorem hasId_withMore {m : Model} {f : Field} (h : m.hasId f = true) (added : List Field) :
    (m.withMore added).hasId f = true := by
  simp only [hasId, withMore_fields, List.any_append, Bool.or_eq_true]
  exact Or.inl h

theorem hasId_eq_false_of_withMore {m : Model} {added : List Field} {f : Field}
    (h : (m.withMore added).hasId f = false) : m.hasId f = false := by
  rw [← Bool.not_eq_true] at h ⊢
  exact fun hthere => h (hasId_withMore hthere added)

theorem hasField_withMore {m : Model} {name : String} (h : m.hasField name = true)
    (added : List Field) : (m.withMore added).hasField name = true := by
  obtain ⟨f, hf, hname⟩ := hasField_iff.mp h
  exact hasField_iff.mpr ⟨f, List.mem_append_left added hf, hname⟩

theorem blocks_withMore {m : Model} {f : Field} (h : m.blocks f = true) (added : List Field) :
    (m.withMore added).blocks f = true := by
  simp only [blocks, Bool.or_eq_true] at h ⊢
  exact h.imp (hasId_withMore · added) (hasField_withMore · added)

theorem blocks_of_mem {m : Model} {f : Field} (h : f ∈ m.fields) : m.blocks f = true := by
  simp only [blocks, Bool.or_eq_true]
  exact Or.inl (List.any_eq_true.mpr ⟨f, h, by simp⟩)

end Model

/-- An implied field, and the place of the model that is to own it. -/
structure Demand where
  edge : String
  place : Nat
  field : Field

theorem Model.ids_of_headings {models models' : List Model}
    (h : models'.map heading = models.map heading) : models'.map (·.id) = models.map (·.id) := by
  simpa [Function.comp_def, heading] using congrArg (List.map Prod.fst) h

theorem Model.names_of_headings {models models' : List Model}
    (h : models'.map heading = models.map heading) :
    models'.map (·.name) = models.map (·.name) := by
  simpa [Function.comp_def, heading] using congrArg (List.map Prod.snd) h

/-! ### What edges imply -/

def EdgeEnd.opposite : EdgeEnd → EdgeEnd
  | .source => .target
  | .target => .source

/-- Of what belongs to the two ends, that of this end. -/
def EdgeEnd.own {α : Type} (source target : α) : EdgeEnd → α
  | .source => source
  | .target => target

/-- Of the models at the two ends, the one that is not at this end. -/
def EdgeEnd.other (source target : Model) : EdgeEnd → Model
  | .source => target
  | .target => source

namespace RelationEdge

variable {e : RelationEdge} {source target : Model} {implied : EdgeEnd × Field}

theorem impliedFields_of_type {type : RelationType} (h : e.relationType? = some type) :
    e.impliedFields source target = e.impliedFieldsOf source target type := by
  simp only [impliedFields, h]

/-- An edge that implies a field is of a supported type, and the type tells which it implies. -/
theorem exists_type_of_implied (h : implied ∈ e.impliedFields source target) :
    ∃ type, e.relationType? = some type ∧ implied ∈ e.impliedFieldsOf source target type := by
  cases htype : e.relationType? with
  | none =>
      rw [impliedFields, htype] at h
      cases h
  | some type => exact ⟨type, rfl, impliedFields_of_type htype ▸ h⟩

/-- An edge implies references to the model at the other end, to many or one, and foreign keys. -/
theorem impliedFields_cases (h : implied ∈ e.impliedFields source target) :
    (∃ id, implied.2 = listField id (implied.1.other source target)) ∨
      (∃ id key, implied.2 = e.singleField id (implied.1.other source target) key) ∨
        ∃ key isUnique, implied.2 = e.foreignKeyField key isUnique := by
  obtain ⟨type, -, h⟩ := exists_type_of_implied h
  cases type with
  | oneToMany =>
      simp only [impliedFieldsOf, List.mem_cons, List.not_mem_nil, or_false] at h
      obtain rfl | rfl | rfl := h
      · exact .inl ⟨_, rfl⟩
      · exact .inr (.inl ⟨_, _, rfl⟩)
      · exact .inr (.inr ⟨_, _, rfl⟩)
  | oneToOne =>
      simp only [impliedFieldsOf, List.mem_cons, List.not_mem_nil, or_false] at h
      obtain rfl | rfl := h
      · exact .inr (.inl ⟨_, _, rfl⟩)
      · exact .inr (.inr ⟨_, _, rfl⟩)
  | manyToMany =>
      simp only [impliedFieldsOf, List.mem_cons, List.not_mem_nil, or_false] at h
      obtain rfl | rfl := h
      · exact .inl ⟨_, rfl⟩
      · exact .inl ⟨_, rfl⟩

theorem impliedFields_type (h : implied ∈ e.impliedFields source target) :
    implied.2.type = foreignKeyType ∨ implied.2.type = (implied.1.other source target).name := by
  obtain ⟨id, hlist⟩ | ⟨id, key, hsingle⟩ | ⟨key, isUnique, hkey⟩ := impliedFields_cases h
  · exact .inr (congrArg Field.type hlist)
  · exact .inr (congrArg Field.type hsingle)
  · exact .inl (congrArg Field.type hkey)

theorem impliedFields_derived (h : implied ∈ e.impliedFields source target) :
    implied.2.origin = .derived := by
  obtain ⟨id, hlist⟩ | ⟨id, key, hsingle⟩ | ⟨key, isUnique, hkey⟩ := impliedFields_cases h
  · exact congrArg Field.origin hlist
  · exact congrArg Field.origin hsingle
  · exact congrArg Field.origin hkey

end RelationEdge

namespace Synthesis

/-! ### Where models lie -/

section

variable {models : List Model} {id : String}

theorem modelById?_eq_some {m : Model} (h : modelById? models id = some m) :
    m ∈ models ∧ m.id = id :=
  ⟨List.mem_reverse.mp (List.mem_of_find?_eq_some h), of_decide_eq_true (List.find?_some h :)⟩

theorem place?_eq_some {n : Nat} (h : place? models id = some n) :
    ∃ m, models[n]? = some m ∧ m.id = id := by
  obtain ⟨k, hk, rfl⟩ := Option.map_eq_some_iff.mp h
  obtain ⟨hlt, hid, -⟩ := List.findIdx?_eq_some_iff_getElem.mp hk
  rw [List.length_reverse] at hlt
  refine ⟨models[models.length - 1 - k], List.getElem?_eq_getElem _, ?_⟩
  simpa [List.getElem_reverse] using hid

theorem modelById?_isSome (h : id ∈ models.map (·.id)) :
    ∃ m, modelById? models id = some m := by
  obtain ⟨m, hm, hid⟩ := List.mem_map.mp h
  have hsome : (modelById? models id).isSome = true := by
    simp only [modelById?, List.find?_isSome, List.mem_reverse]
    exact ⟨m, hm, decide_eq_true hid⟩
  exact Option.isSome_iff_exists.mp hsome

/-- The model that goes by an id lies in the place of the id. -/
theorem place?_of_modelById? {m : Model} (h : modelById? models id = some m) :
    ∃ n, place? models id = some n ∧ models[n]? = some m := by
  obtain ⟨hid, k, hk, rfl, hbefore⟩ := List.find?_eq_some_iff_getElem.mp h
  have hfirst : models.reverse.findIdx? (·.id = id) = some k :=
    List.findIdx?_eq_some_iff_getElem.mpr ⟨hk, hid, fun j hj => by simpa using hbefore j hj⟩
  refine ⟨models.length - 1 - k, by rw [place?, hfirst, Option.map_some], ?_⟩
  rw [← List.getElem?_reverse (by simpa using hk), List.getElem?_eq_getElem hk]

end

/-! ### What a demand does -/

theorem insertInto_eq (edge : String) (owner : Model) (f : Field) :
    insertInto edge owner f = if owner.blocks f then owner else owner.withMore [f] := by
  simp only [insertInto, outcome, Model.blocks, Model.hasId, Model.withMore]
  by_cases hid : owner.fields.any fun g => g.id = f.id
  · simp [hid]
  · by_cases hname : owner.hasField f.name <;> simp [hid, hname]

def meet (s : Synthesis) (d : Demand) : Synthesis :=
  match s.models[d.place]? with
  | none => s
  | some owner =>
    { models := s.models.set d.place (insertInto d.edge owner d.field)
      outcomes := s.outcomes ++ [outcome d.edge owner d.field] }

theorem meet_of_none {s : Synthesis} {d : Demand} (h : s.models[d.place]? = none) :
    s.meet d = s := by
  simp only [meet, h]

theorem meet_of_some {s : Synthesis} {d : Demand} {owner : Model}
    (h : s.models[d.place]? = some owner) :
    s.meet d = ⟨s.models.set d.place (insertInto d.edge owner d.field),
      s.outcomes ++ [outcome d.edge owner d.field]⟩ := by
  simp only [meet, h]

/-- A demand changes the model in its place, and no other. -/
theorem getElem?_meet {s : Synthesis} (d : Demand) {n : Nat} {m : Model}
    (hm : s.models[n]? = some m) :
    (s.meet d).models[n]? = some (if d.place = n then insertInto d.edge m d.field else m) := by
  by_cases hn : d.place = n
  · subst hn
    rw [meet_of_some hm, List.getElem?_set_self (List.getElem?_eq_some_iff.mp hm).1, if_pos rfl]
  · rw [if_neg hn]
    cases howner : s.models[d.place]? with
    | none => rw [meet_of_none howner, hm]
    | some owner => rw [meet_of_some howner, List.getElem?_set_ne hn, hm]

theorem insertInto_heading (edge : String) (owner : Model) (f : Field) :
    (insertInto edge owner f).heading = owner.heading := by
  rw [insertInto_eq]
  split <;> rfl

/-- What the owner of a new field shows as before, all models show as before. -/
theorem meet_map {β : Type} {shown : Model → β} {d : Demand}
    (h : ∀ owner, shown (insertInto d.edge owner d.field) = shown owner) (s : Synthesis) :
    (s.meet d).models.map shown = s.models.map shown := by
  cases howner : s.models[d.place]? with
  | none => rw [meet_of_none howner]
  | some owner =>
      have hshown : (s.models.map shown)[d.place]? = some (shown owner) := by
        rw [List.getElem?_map, howner, Option.map_some]
      obtain ⟨hplace, hget⟩ := List.getElem?_eq_some_iff.mp hshown
      rw [meet_of_some howner, List.map_set, h, ← hget, List.set_getElem_self]

theorem foldl_meet_map {β : Type} {shown : Model → β} {ds : List Demand}
    (h : ∀ d ∈ ds, ∀ owner, shown (insertInto d.edge owner d.field) = shown owner)
    (s : Synthesis) : (ds.foldl meet s).models.map shown = s.models.map shown := by
  induction ds generalizing s with
  | nil => rfl
  | cons d ds ih =>
      rw [List.foldl_cons, ih (fun d' hd' => h d' (List.mem_cons_of_mem d hd')),
        meet_map (h d List.mem_cons_self)]

theorem meet_headings (s : Synthesis) (d : Demand) :
    (s.meet d).models.map Model.heading = s.models.map Model.heading :=
  meet_map (fun owner => insertInto_heading d.edge owner d.field) s

/-! ### A run as a list of demands -/

def demandsOf (models : List Model) (e : RelationEdge) : List Demand :=
  match modelById? models e.source, modelById? models e.target with
  | some source, some target =>
    (e.impliedFields source target).filterMap fun implied =>
      (place? models (e.endpoint implied.1)).map fun place => ⟨e.id, place, implied.2⟩
  | _, _ => []

def demands (edges : List RelationEdge) (models : List Model) : List Demand :=
  edges.flatMap (demandsOf models)

/-- A demand is for a field that its edge implies, in the model at one end of the edge. -/
theorem demandsOf_implied {models : List Model} {e : RelationEdge} {d : Demand}
    (h : d ∈ demandsOf models e) :
    ∃ source target end_, modelById? models e.source = some source ∧
      modelById? models e.target = some target ∧
      (end_, d.field) ∈ e.impliedFields source target ∧
      place? models (e.endpoint end_) = some d.place := by
  unfold demandsOf at h
  split at h
  · rename_i source target hsource htarget
    obtain ⟨⟨end_, f⟩, himplied, hplaced⟩ := List.mem_filterMap.mp h
    obtain ⟨place, hplace, rfl⟩ := Option.map_eq_some_iff.mp hplaced
    exact ⟨source, target, end_, hsource, htarget, himplied, hplace⟩
  · cases h

/-- Each demand is made of a model. -/
theorem demands_placed (edges : List RelationEdge) (models : List Model) :
    ∀ d ∈ demands edges models, ∃ owner, models[d.place]? = some owner := by
  intro d hd
  obtain ⟨e, -, hd⟩ := List.mem_flatMap.mp hd
  obtain ⟨_, _, _, -, -, -, hplace⟩ := demandsOf_implied hd
  obtain ⟨owner, howner, -⟩ := place?_eq_some hplace
  exact ⟨owner, howner⟩

theorem place?_congr {models models' : List Model}
    (h : models'.map Model.heading = models.map Model.heading) (id : String) :
    place? models' id = place? models id := by
  have hlength : models'.length = models.length := by simpa using congrArg List.length h
  have hfind (l : List Model) : l.reverse.findIdx? (fun m => m.id = id) =
      (l.map Model.heading).reverse.findIdx? (fun heading => heading.1 = id) := by
    rw [← List.map_reverse, List.findIdx?_map]
    rfl
  simp only [place?, hfind, h, hlength]

theorem modelById?_congr {models models' : List Model}
    (h : models'.map Model.heading = models.map Model.heading) (id : String) :
    (modelById? models id = none ∧ modelById? models' id = none) ∨
      ∃ m m', modelById? models id = some m ∧ modelById? models' id = some m' ∧
        m'.name = m.name := by
  have hfind (l : List Model) : (modelById? l id).map (·.name) =
      ((l.map Model.heading).reverse.find? (fun heading => heading.1 = id)).map Prod.snd := by
    rw [← List.map_reverse, List.find?_map, Option.map_map]
    rfl
  have hname : (modelById? models' id).map (·.name) = (modelById? models id).map (·.name) := by
    rw [hfind, hfind, h]
  cases hm : modelById? models id with
  | none => exact Or.inl ⟨rfl, by simpa [hm] using hname⟩
  | some m =>
      obtain ⟨m', hm', hm'name⟩ : ∃ m', modelById? models' id = some m' ∧ m'.name = m.name := by
        simpa [hm] using hname
      exact Or.inr ⟨m, m', rfl, hm', hm'name⟩

/-- What an edge implies is told by the names of its ends. -/
theorem impliedFields_congr (e : RelationEdge) {source source' target target' : Model}
    (hsource : source'.name = source.name) (htarget : target'.name = target.name) :
    e.impliedFields source' target' = e.impliedFields source target := by
  unfold RelationEdge.impliedFields
  cases e.relationType? with
  | none => rfl
  | some type =>
      cases type <;> simp only [RelationEdge.impliedFieldsOf, RelationEdge.listField,
        RelationEdge.singleField, hsource, htarget]

theorem demandsOf_congr {models models' : List Model}
    (h : models'.map Model.heading = models.map Model.heading) (e : RelationEdge) :
    demandsOf models' e = demandsOf models e := by
  unfold demandsOf
  obtain ⟨hs, hs'⟩ | ⟨source, source', hs, hs', hsource⟩ := modelById?_congr h e.source
  · rw [hs, hs']
  obtain ⟨ht, ht'⟩ | ⟨target, target', ht, ht', htarget⟩ := modelById?_congr h e.target
  · rw [hs, hs', ht, ht']
  · simp only [hs, hs', ht, ht', impliedFields_congr e hsource htarget, place?_congr h]

theorem insert_eq_meet {e : RelationEdge} {s : Synthesis} {implied : EdgeEnd × Field} {place : Nat}
    (h : place? s.models (e.endpoint implied.1) = some place) :
    insert e s implied = s.meet ⟨e.id, place, implied.2⟩ := by
  simp only [insert, h]
  rfl

theorem foldl_insert_eq_foldl_meet (e : RelationEdge) (fields : List (EdgeEnd × Field))
    (s : Synthesis) :
    fields.foldl (insert e) s = (fields.filterMap fun implied =>
      (place? s.models (e.endpoint implied.1)).map fun place =>
        (⟨e.id, place, implied.2⟩ : Demand)).foldl meet s := by
  induction fields generalizing s with
  | nil => rfl
  | cons implied fields ih =>
      cases hplace : place? s.models (e.endpoint implied.1) with
      | none =>
          have hinsert : insert e s implied = s := by simp only [insert, hplace]
          simp only [List.foldl_cons, hinsert, List.filterMap_cons, hplace, Option.map_none, ih]
      | some place =>
          rw [List.foldl_cons, ih, insert_eq_meet hplace]
          simp only [place?_congr (meet_headings s _), List.filterMap_cons, hplace,
            Option.map_some, List.foldl_cons]

theorem step_eq_foldl_meet (s : Synthesis) (e : RelationEdge) :
    s.step e = (demandsOf s.models e).foldl meet s := by
  unfold step demandsOf
  cases modelById? s.models e.source with
  | none => rfl
  | some source =>
      cases modelById? s.models e.target with
      | none => rfl
      | some target => exact foldl_insert_eq_foldl_meet e _ s

theorem foldl_meet_headings (ds : List Demand) (s : Synthesis) :
    (ds.foldl meet s).models.map Model.heading = s.models.map Model.heading :=
  foldl_meet_map (fun d _ owner => insertInto_heading d.edge owner d.field) s

theorem foldl_step_eq_foldl_meet (edges : List RelationEdge) (s : Synthesis) :
    edges.foldl step s = (demands edges s.models).foldl meet s := by
  induction edges generalizing s with
  | nil => rfl
  | cons e edges ih =>
      have hdemands : demands edges (s.step e).models = demands edges s.models := by
        refine List.flatMap_congr fun e' _ => demandsOf_congr ?_ e'
        rw [step_eq_foldl_meet, foldl_meet_headings]
      rw [List.foldl_cons, ih, hdemands, step_eq_foldl_meet, ← List.foldl_append]
      rfl

/-- A run that succeeds has met the demands that the edges make of the models as given. -/
theorem synthesizeFields_eq_ok_iff {edges : List RelationEdge} {models : List Model}
    {s : Synthesis} :
    synthesizeFields edges models = .ok s ↔
      firstEdgeFault? edges models = none ∧ s = (demands edges models).foldl meet { models } := by
  unfold synthesizeFields
  cases firstEdgeFault? edges models with
  | none => simp [foldl_step_eq_foldl_meet, eq_comm]
  | some fault => simp

end Synthesis

end DrawnSchema
