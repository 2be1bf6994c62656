import DrawnSchema.Proofs.Relation.EdgeOrder

/-!
# An edge between models that have nothing in its way

The fields that an edge implies for one model are named after the models that it joins, and the
names come out apart, whatever the models are called: they are one lower case name with different
endings. So a model that has none of the ids and none of the names of what it is to own gets all of
it. The exception is many to many from a model to itself. Both ends are then named alike, the field
of the second finds the name taken by that of the first, and the run warns of it.
-/

namespace DrawnSchema

theorem pluralize_ne_lower (name : String) : pluralize name ≠ Text.lower name := by
  intro h
  exact absurd (String.append_eq_left_iff.mp h) (by decide)

theorem foreignKeyName_ne_lower (name : String) : foreignKeyName name ≠ Text.lower name := by
  intro h
  exact absurd (String.append_eq_left_iff.mp h) (by decide)

theorem pluralize_ne_foreignKeyName (name : String) : pluralize name ≠ foreignKeyName name := by
  intro h
  exact absurd ((String.append_right_inj _).mp h) (by decide)

namespace RelationEdge

variable {e : RelationEdge} {source target : Model}

/-- Of the fields that an edge implies, those that the model of an id is to own. -/
def impliedFor (e : RelationEdge) (source target : Model) (id : String) : List Field :=
  ((e.impliedFields source target).filter fun implied => e.endpoint implied.1 = id).map (·.2)

/-- Both fields of an edge have the same name and the same owner. -/
def DoublesName (e : RelationEdge) : Prop :=
  e.relationType? = some .manyToMany ∧ e.source = e.target

instance (e : RelationEdge) : Decidable e.DoublesName := inferInstanceAs (Decidable (_ ∧ _))

def doubledNameWarning (e : RelationEdge) (m : Model) : String :=
  s!"Relation {e.id}: {m.name}.{pluralize m.name} already exists, derived field not added"

/-- No field at either end has an id that the edge gives, or a name that it implies there. -/
def IsUncluttered (e : RelationEdge) (source target : Model) : Prop :=
  ∀ (end_ : EdgeEnd), ∀ g ∈ (end_.own source target).fields,
    (∀ id ∈ derivedIds e.id, g.id ≠ some id) ∧
      ∀ implied ∈ e.impliedFields source target, implied.1 = end_ → g.name ≠ implied.2.name

theorem impliedFor_names_nodup (hsame : e.source = e.target → source.name = target.name)
    (hdouble : ¬e.DoublesName) (id : String) :
    ((e.impliedFor source target id).map (·.name)).Nodup := by
  unfold impliedFor impliedFields
  cases htype : e.relationType? with
  | none => exact List.nodup_nil
  | some type =>
      cases type with
      | oneToMany =>
          by_cases hs : e.source = id <;> by_cases ht : e.target = id
          · have hname := hsame (hs.trans ht.symm)
            simp [impliedFieldsOf, endpoint, listField, singleField, foreignKeyField, hs, ht, hname,
              pluralize_ne_lower, pluralize_ne_foreignKeyName, (foreignKeyName_ne_lower _).symm]
          · simp [impliedFieldsOf, endpoint, hs, ht]
          · simp [impliedFieldsOf, endpoint, singleField, foreignKeyField, hs, ht,
              (foreignKeyName_ne_lower _).symm]
          · simp [impliedFieldsOf, endpoint, hs, ht]
      | oneToOne =>
          by_cases hs : e.source = id
          · simp [impliedFieldsOf, endpoint, singleField, foreignKeyField, hs,
              (foreignKeyName_ne_lower _).symm]
          · simp [impliedFieldsOf, endpoint, hs]
      | manyToMany =>
          by_cases hs : e.source = id <;> by_cases ht : e.target = id
          · exact absurd ⟨htype, hs.trans ht.symm⟩ hdouble
          all_goals simp [impliedFieldsOf, endpoint, hs, ht]

end RelationEdge

namespace Synthesis

variable {e : RelationEdge} {models : List Model} {source target m : Model} {n : Nat}
  {s : Synthesis}

/-- Of two demands for one name, where nothing is in their way, the first is met. The other finds the
name taken. -/
theorem foldl_meet_pair {edge : String} {first second : Field} (hm : models[n]? = some m)
    (hname : second.name = first.name) (hids : first.id ≠ second.id)
    (hfirst : m.hasId first = false) (hsecond : m.hasId second = false)
    (hfree : m.hasField first.name = false) :
    [⟨edge, n, first⟩, ⟨edge, n, second⟩].foldl meet { models } =
      ⟨models.set n (m.withMore [first]),
        [.added edge m.name first.name, .collision edge m.name first.name]⟩ := by
  have hadded : outcome edge m first = .added edge m.name first.name := by
    change (if m.hasId first = true then _ else _ : Outcome) = _
    rw [hfirst, if_neg Bool.false_ne_true, hfree, if_neg Bool.false_ne_true]
  have hid : (m.withMore [first]).hasId second = false := by
    simp only [Model.hasId, Model.withMore_fields, List.any_append, Bool.or_eq_false_iff]
      at hsecond ⊢
    exact ⟨hsecond, by simp [hids]⟩
  have htaken : (m.withMore [first]).hasField first.name = true :=
    Model.hasField_iff.mpr ⟨first, by simp, rfl⟩
  have hcollision :
      outcome edge (m.withMore [first]) second = .collision edge m.name first.name := by
    change (if (m.withMore [first]).hasId second = true then _ else _ : Outcome) = _
    rw [hid, if_neg Bool.false_ne_true, hname, htaken, if_pos rfl, Model.withMore_name]
  have hlater : (models.set n (m.withMore [first]))[n]? = some (m.withMore [first]) :=
    List.getElem?_set_self (List.getElem?_eq_some_iff.mp hm).1
  have hmeet : meet { models } ⟨edge, n, first⟩ =
      ⟨models.set n (m.withMore [first]), [.added edge m.name first.name]⟩ := by
    rw [meet_of_some (s := { models }) hm, insertInto, hadded]
    rfl
  rw [List.foldl_cons, hmeet, List.foldl_cons, List.foldl_nil, meet_of_some hlater, insertInto,
    hcollision, List.set_set]
  rfl

section

variable (hsource : modelById? models e.source = some source)
  (htarget : modelById? models e.target = some target) (htype : e.relationType?.isSome = true)

include hsource htarget htype

theorem joins_of_modelById? : e.Joins (models.map (·.id)) := by
  obtain ⟨hmem, hid⟩ := modelById?_eq_some hsource
  obtain ⟨hmem', hid'⟩ := modelById?_eq_some htarget
  exact ⟨htype, hid ▸ List.mem_map_of_mem hmem, hid' ▸ List.mem_map_of_mem hmem'⟩

theorem demands_singleton :
    ∃ place : EdgeEnd → Nat,
      (∀ end_, place? models (e.endpoint end_) = some (place end_) ∧
        models[place end_]? = some (end_.own source target)) ∧
      demands [e] models =
        (e.impliedFields source target).map fun implied => ⟨e.id, place implied.1, implied.2⟩ := by
  obtain ⟨source', target', hsource', htarget', place, hplace, hdemands⟩ :=
    demandsOf_of_joins (joins_of_modelById? hsource htarget htype)
  obtain rfl := Option.some.inj (hsource.symm.trans hsource')
  obtain rfl := Option.some.inj (htarget.symm.trans htarget')
  exact ⟨place, hplace, by rw [demands, List.flatMap_singleton, hdemands]⟩

/-- What one edge asks of a model: nothing, unless the model is the one that its id leads to. -/
theorem demandedAt_demands_singleton (hm : models[n]? = some m) :
    demandedAt n (demands [e] models) =
      if place? models m.id = some n then e.impliedFor source target m.id else [] := by
  obtain ⟨place, hplace, hdemands⟩ := demands_singleton hsource htarget htype
  have hat : ∀ end_, place end_ = n ↔ place? models m.id = some n ∧ e.endpoint end_ = m.id := by
    intro end_
    constructor
    · rintro rfl
      obtain ⟨owner, howner, hid⟩ := place?_eq_some (hplace end_).1
      obtain rfl := Option.some.inj (howner.symm.trans hm)
      exact ⟨hid ▸ (hplace end_).1, hid.symm⟩
    · rintro ⟨hn, hend⟩
      exact Option.some.inj ((hplace end_).1.symm.trans (hend ▸ hn))
  rw [demandedAt, hdemands, List.filter_map, List.map_map]
  by_cases hn : place? models m.id = some n
  · rw [if_pos hn, RelationEdge.impliedFor]
    refine congrArg (List.map Prod.snd) (List.filter_congr fun implied _ => ?_)
    simp [hat, hn]
  · have hnone : (e.impliedFields source target).filter
        ((fun d : Demand => decide (d.place = n)) ∘
          fun implied => ⟨e.id, place implied.1, implied.2⟩) = [] := by
      refine List.filter_eq_nil_iff.mpr fun implied _ => ?_
      simp [hat, hn]
    rw [if_neg hn, hnone, List.map_nil]

/-- The demands of an edge that doubles a name are for two fields of that name in one place. -/
theorem demands_of_doubled (hdouble : e.DoublesName) :
    ∃ place, models[place]? = some source ∧
      demands [e] models =
        [⟨e.id, place, RelationEdge.listField (RelationEdge.sourceFieldId e.id) source⟩,
          ⟨e.id, place, RelationEdge.listField (RelationEdge.targetFieldId e.id) source⟩] := by
  obtain ⟨htype', hends⟩ := hdouble
  obtain ⟨place, hplace, hdemands⟩ := demands_singleton hsource htarget htype
  have hsame : place .target = place .source := by
    have hendpoint : e.endpoint .target = e.endpoint .source := hends.symm
    exact Option.some.inj ((hplace .target).1.symm.trans (hendpoint ▸ (hplace .source).1))
  obtain rfl : source = target := by
    rw [hends, htarget] at hsource
    exact (Option.some.inj hsource).symm
  refine ⟨place .source, (hplace .source).2, ?_⟩
  rw [hdemands, RelationEdge.impliedFields_of_type htype']
  simp only [RelationEdge.impliedFieldsOf, List.map_cons, List.map_nil, hsame]

variable (hclear : e.IsUncluttered source target)

include hclear

/-- Between uncluttered models, what an edge asks of a model is new there, by its id and by its
name. -/
theorem demanded_new (hm : models[n]? = some m) :
    ∀ f ∈ demandedAt n (demands [e] models), m.hasId f = false ∧ m.hasField f.name = false := by
  intro f hf
  obtain ⟨place, hplace, hdemands⟩ := demands_singleton hsource htarget htype
  obtain ⟨d, hd, hn, rfl⟩ := mem_demandedAt_iff.mp hf
  obtain ⟨-, id, hid, hfid⟩ : d.field.origin = .derived ∧
      ∃ id ∈ RelationEdge.derivedIds e.id, d.field.id = some id := by
    rw [demands, List.flatMap_singleton] at hd
    exact demandsOf_derived hd
  rw [hdemands] at hd
  obtain ⟨implied, himplied, rfl⟩ := List.mem_map.mp hd
  have howner : models[place implied.1]? = some m := (congrArg (models[·]?) hn).trans hm
  obtain rfl := Option.some.inj ((hplace implied.1).2.symm.trans howner)
  constructor
  · refine List.any_eq_false.mpr fun g hg => ?_
    rw [hfid, decide_eq_true_eq]
    exact (hclear implied.1 g hg).1 id hid
  · rw [← Bool.not_eq_true, Model.hasField_iff]
    rintro ⟨g, hg, hname⟩
    exact (hclear implied.1 g hg).2 implied himplied rfl hname

/-- An edge that does not double a name finds room for all that it implies. -/
theorem additions_of_uncluttered (hdouble : ¬e.DoublesName)
    (hrun : synthesizeFields [e] models = .ok s) :
    s.warnings = [] ∧ ∀ (n : Nat) (m : Model), models[n]? = some m →
      s.models[n]? = some (m.withMore (demandedAt n (demands [e] models))) := by
  have hone : ([e].map (·.id)).Nodup := List.nodup_singleton e.id
  have hmissing : ∀ (n : Nat) (m : Model), models[n]? = some m →
      missing n m (demands [e] models) = demandedAt n (demands [e] models) := by
    intro n m hm
    refine List.filter_eq_self.mpr fun f hf => ?_
    rw [(demanded_new hsource htarget htype hclear hm f hf).1, Bool.not_false]
  have hsame : e.source = e.target → source.name = target.name := by
    intro hends
    rw [hends, htarget] at hsource
    rw [Option.some.inj hsource]
  have hquiet : s.warnings = [] := by
    refine quiet_of_room hone hrun fun n m hm => ?_
    rw [hmissing n m hm]
    refine ⟨?_, fun f hf => (demanded_new hsource htarget htype hclear hm f hf).2⟩
    rw [demandedAt_demands_singleton hsource htarget htype hm]
    split
    · exact RelationEdge.impliedFor_names_nodup hsame hdouble m.id
    · exact List.nodup_nil
  refine ⟨hquiet, fun n m hm => ?_⟩
  rw [← hmissing n m hm]
  exact (additions_of_quiet hone hrun hquiet hm).1

/-- Of two fields that are to have one name, the first is added, and the run warns of the second. -/
theorem additions_of_doubled (hdouble : e.DoublesName)
    (hrun : synthesizeFields [e] models = .ok s) :
    s.warnings = [e.doubledNameWarning source] ∧
      ∀ (n : Nat) (m : Model), models[n]? = some m →
        s.models[n]? = some (m.withMore ((demandedAt n (demands [e] models)).take 1)) := by
  obtain ⟨place, howner, hdemands⟩ := demands_of_doubled hsource htarget htype hdouble
  have hnew := demanded_new hsource htarget htype hclear howner
  obtain ⟨-, hs⟩ := synthesizeFields_eq_ok_iff.mp hrun
  rw [hdemands] at hs hnew ⊢
  set first := RelationEdge.listField (RelationEdge.sourceFieldId e.id) source
  set second := RelationEdge.listField (RelationEdge.targetFieldId e.id) source
  have hname : second.name = first.name := rfl
  have hids : first.id ≠ second.id := fun h =>
    RelationEdge.sourceFieldId_ne_targetFieldId e.id e.id (Option.some.inj h)
  obtain ⟨hfirst, hfree⟩ := hnew first (by simp [demandedAt])
  obtain ⟨hsecond, -⟩ := hnew second (by simp [demandedAt])
  rw [foldl_meet_pair howner hname hids hfirst hsecond hfree] at hs
  subst hs
  refine ⟨rfl, fun n m hm => ?_⟩
  by_cases hn : place = n
  · subst hn
    obtain rfl := Option.some.inj (howner.symm.trans hm)
    rw [List.getElem?_set_self (List.getElem?_eq_some_iff.mp hm).1]
    simp [demandedAt]
  · rw [List.getElem?_set_ne hn, hm]
    simp [demandedAt, hn]

end

/-- Between models that have none of the ids that an edge gives and none of the names that it implies
there, synthesis adds all that the edge implies and warns of nothing. An edge of many to many from a
model to itself is the exception: of its two fields, which have one name, the first is added, and
the run warns of the second. -/
theorem synthesizeFields_uncluttered (hsource : modelById? models e.source = some source)
    (htarget : modelById? models e.target = some target) (htype : e.relationType?.isSome = true)
    (hclear : e.IsUncluttered source target) :
    ∃ s, synthesizeFields [e] models = .ok s ∧ s.models.length = models.length ∧
      (¬e.DoublesName → s.warnings = [] ∧
        ∀ (n : Nat) (m : Model), models[n]? = some m → s.models[n]? = some (m.withMore
          (if place? models m.id = some n then e.impliedFor source target m.id else []))) ∧
      (e.DoublesName →
        s.warnings = [e.doubledNameWarning source] ∧
        ∀ (n : Nat) (m : Model), models[n]? = some m → s.models[n]? = some (m.withMore
          ((if place? models m.id = some n then e.impliedFor source target m.id else []).take
            1))) := by
  have hjoins := joins_of_modelById? hsource htarget htype
  have hfault : firstEdgeFault? [e] models = none :=
    firstEdgeFault?_eq_none_iff.mpr fun e' he' => List.mem_singleton.mp he' ▸ hjoins
  have hrun := synthesizeFields_eq_ok_iff.mpr ⟨hfault, rfl⟩
  refine ⟨_, hrun, (synthesizeFields_grown hrun).1.length_eq, fun hdouble => ?_, fun hdouble => ?_⟩
  · obtain ⟨hquiet, hmodels⟩ :=
      additions_of_uncluttered hsource htarget htype hclear hdouble hrun
    refine ⟨hquiet, fun n m hm => ?_⟩
    rw [hmodels n m hm, demandedAt_demands_singleton hsource htarget htype hm]
  · obtain ⟨hwarned, hmodels⟩ := additions_of_doubled hsource htarget htype hclear hdouble hrun
    refine ⟨hwarned, fun n m hm => ?_⟩
    rw [hmodels n m hm, demandedAt_demands_singleton hsource htarget htype hm]

/-- A model that edges may draw to itself. -/
def category : Model :=
  { id := "c", name := "Category", fields := [{ id := some "f", name := "id", type := "Int" }] }

/-- One to many from categories to categories: the three names are apart. -/
theorem synthesizeFields_uncluttered_category :
    let parent : RelationEdge := { id := "e", source := "c", target := "c" }
    ∃ s added, synthesizeFields [parent] [category] = .ok s ∧ s.warnings = [] ∧
      s.models[0]? = some (category.withMore added) ∧
        added.map (·.name) = ["categorys", "category", "category_id"] := by
  intro parent
  have hclear : parent.IsUncluttered category category := by
    intro end_
    cases end_ <;> decide
  have hcategory : modelById? [category] parent.source = some category := rfl
  obtain ⟨s, hrun, -, hadds, -⟩ :=
    synthesizeFields_uncluttered hcategory hcategory rfl hclear
  obtain ⟨hquiet, hmodels⟩ := hadds (by decide)
  exact ⟨s, _, hrun, hquiet, hmodels 0 category rfl, rfl⟩

/-- Many to many from categories to categories: nothing is in the way, and one field is not
added. -/
theorem synthesizeFields_doubled_category :
    ¬∀ (e : RelationEdge) (models : List Model) (source target : Model),
      modelById? models e.source = some source → modelById? models e.target = some target →
      e.relationType?.isSome = true → e.IsUncluttered source target →
      ∃ s, synthesizeFields [e] models = .ok s ∧ s.warnings = [] ∧
        ∀ (n : Nat) (m : Model), models[n]? = some m → s.models[n]? = some (m.withMore
          (if place? models m.id = some n then e.impliedFor source target m.id else [])) := by
  intro hclaim
  let likeness : RelationEdge :=
    { id := "e", type := "MANY_TO_MANY", source := "c", target := "c" }
  have hclear : likeness.IsUncluttered category category := by
    intro end_
    cases end_ <;> decide
  obtain ⟨s, hrun, hquiet, -⟩ := hclaim likeness [category] category category rfl rfl rfl hclear
  cases hrun
  exact absurd hquiet (by decide)

end Synthesis

end DrawnSchema
