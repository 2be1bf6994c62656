import DrawnSchema.Proofs.Graph.Relatedness
import DrawnSchema.Proofs.Relation.Provenance
import DrawnSchema.Proofs.Schema.Generation

/-!
# Synthesis leaves the report as it is

Fields that synthesis adds refer to models by name, where relations join them by id. Their types are
known, so the report has no new type to complain of. And they refer from one end of a relation to
the other, so they relate no model that was not related before: if the graph has models of both
names, these are the two that the relation joins, since names are not in conflict.
-/

namespace DrawnSchema

def Document.setModels (d : Document) (models : List Model) : Document := { d with models }

variable {d : Document} {s : Synthesis}

/-! ### Types -/

/-- Where the types that synthesis may bring are known, the unknown ones stay the same. -/
theorem Synthesis.synthesizeFields_unknownTypes {edges : List RelationEdge} {models : List Model}
    {known : List String} (hrun : synthesizeFields edges models = .ok s)
    (hkey : foreignKeyType ∈ known) (hmodels : ∀ m ∈ models, m.name ∈ known) :
    s.models.map (fun m => m.fields.filterMap (Document.unknownType? known m)) =
      models.map fun m => m.fields.filterMap (Document.unknownType? known m) := by
  obtain ⟨-, rfl⟩ := synthesizeFields_eq_ok_iff.mp hrun
  refine foldl_meet_map (fun d hd owner => ?_) { models }
  have htype : d.field.type ∈ known := by
    obtain hforeign | hname := demands_type hd
    · exact hforeign ▸ hkey
    · obtain ⟨m, hm, hsame⟩ := List.mem_map.mp hname
      exact hsame ▸ hmodels m hm
  obtain ⟨added, hinsert, hadded⟩ := insertInto_withMore d.edge owner d.field
  have hquiet : added.filterMap (Document.unknownType? known owner) = [] := by
    refine List.filterMap_eq_nil_iff.mpr fun f hf => if_pos ?_
    rw [hadded f hf]
    exact List.contains_iff_mem.mpr htype
  calc (insertInto d.edge owner d.field).fields.filterMap
        (Document.unknownType? known (insertInto d.edge owner d.field))
      = (owner.fields ++ added).filterMap (Document.unknownType? known owner) := by
        rw [hinsert]
        rfl
    _ = owner.fields.filterMap (Document.unknownType? known owner) := by
        rw [List.filterMap_append, hquiet, List.append_nil]

namespace Document

theorem namedNodes_synthesized (hrun : synthesizeFields d.relationEdges d.models = .ok s) :
    (d.setModels s.models).namedNodes = d.namedNodes := by
  have hmodels (models : List Model) : models.map (fun m => (⟨.model, m.id, m.name⟩ : NamedNode)) =
      (models.map Model.heading).map fun heading => ⟨.model, heading.1, heading.2⟩ := by
    rw [List.map_map]
    rfl
  simp only [namedNodes, setModels, hmodels, (Synthesis.synthesizeFields_grown hrun).2]

theorem checkTypes_synthesized (hrun : synthesizeFields d.relationEdges d.models = .ok s) :
    (d.setModels s.models).checkTypes = d.checkTypes := by
  have hnames : (d.setModels s.models).names = d.names := by
    rw [names_eq, names_eq, namedNodes_synthesized hrun]
  have hkey : foreignKeyType ∈ scalarTypes ++ d.names := List.mem_append_left _ (by decide)
  have hmodels : ∀ m ∈ d.models, m.name ∈ scalarTypes ++ d.names := by
    intro m hm
    rw [names]
    exact List.mem_append_right _ (List.mem_append_left _ (List.mem_map_of_mem hm))
  have htypes := Synthesis.synthesizeFields_unknownTypes hrun hkey hmodels
  simp only [checkTypes, hnames, List.flatMap_def]
  exact congrArg (fun issues => Report.mk (issues.flatten ++ d.enums.filterMap emptyEnum?)) htypes

end Document

/-! ### Related models -/

namespace Graph

/-- A relation of a document, with a model of the graph at either end, gives both of them
relations. -/
theorem ofDocument_hasRelations_of_ends {e : RelationEdge} (he : e ∈ d.relationEdges)
    {end_ : EdgeEnd} {near far : Model} (hnear : near ∈ (ofDocument d).models)
    (hfar : far ∈ (ofDocument d).models) (hnearId : near.id = e.endpoint end_)
    (hfarId : far.id = e.endpoint end_.opposite) :
    (ofDocument d).hasRelations near.id = true ∧ (ofDocument d).hasRelations far.id = true := by
  rw [ofDocument_hasRelations_iff, ofDocument_hasRelations_iff]
  have hnear := List.mem_map_of_mem (f := Model.id) hnear
  have hfar := List.mem_map_of_mem (f := Model.id) hfar
  rw [hnearId] at hnear ⊢
  rw [hfarId] at hfar ⊢
  cases end_ with
  | source => exact ⟨⟨e, he, ⟨hnear, hfar⟩, .inl rfl⟩, e, he, ⟨hnear, hfar⟩, .inr rfl⟩
  | target => exact ⟨⟨e, he, ⟨hfar, hnear⟩, .inr rfl⟩, e, he, ⟨hfar, hnear⟩, .inl rfl⟩

variable (hrun : synthesizeFields d.relationEdges d.models = .ok s)
  (hnames : (d.models.map (·.name)).Nodup)

include hnames in
/-- A model that has the name of one in the graph is that one. -/
theorem mem_ofDocument_of_name {m : Model} (hm : m ∈ d.models)
    (hname : m.name ∈ (ofDocument d).models.map (·.name)) : m ∈ (ofDocument d).models := by
  obtain ⟨m', hm', hsame⟩ := List.mem_map.mp hname
  rwa [← List.inj_on_of_nodup_map hnames (mem_of_mem_ofDocument_models hm') hm hsame]

include hrun in
theorem ofDocument_headings_synthesized :
    (ofDocument (d.setModels s.models)).models.map Model.heading =
      (ofDocument d).models.map Model.heading :=
  ofDocument_headings_congr (Document.namedNodes_synthesized hrun)

include hrun hnames in
/-- A model in the graph of the synthesized document has been synthesized from one in the graph of
the document. -/
theorem exists_of_mem_synthesized {m' : Model}
    (hm' : m' ∈ (ofDocument (d.setModels s.models)).models) :
    ∃ (n : Nat) (m : Model), d.models[n]? = some m ∧ s.models[n]? = some m' ∧
      m ∈ (ofDocument d).models ∧ ∃ added, m' = m.withMore added := by
  obtain ⟨n, hn⟩ := List.mem_iff_getElem?.mp (mem_of_mem_ofDocument_models hm')
  obtain ⟨m, added, hm, rfl⟩ := (Synthesis.synthesizeFields_grown hrun).1.of_getElem? hn
  have hname : m.name ∈ (ofDocument d).models.map (·.name) := by
    rw [← Model.names_of_headings (ofDocument_headings_synthesized hrun)]
    exact List.mem_map.mpr ⟨_, hm', rfl⟩
  exact ⟨n, m, hm, hn, mem_ofDocument_of_name hnames (List.mem_of_getElem? hm) hname, added, rfl⟩

include hrun hnames in
theorem exists_synthesized {m : Model} (hm : m ∈ (ofDocument d).models) :
    ∃ added, m.withMore added ∈ (ofDocument (d.setModels s.models)).models := by
  have hheading : m.heading ∈ (ofDocument (d.setModels s.models)).models.map Model.heading := by
    rw [ofDocument_headings_synthesized hrun]
    exact List.mem_map_of_mem hm
  obtain ⟨m', hm', hsame⟩ := List.mem_map.mp hheading
  obtain ⟨n, m₁, -, -, hm₁, added, rfl⟩ := exists_of_mem_synthesized hrun hnames hm'
  obtain rfl : m₁ = m := List.inj_on_of_nodup_map hnames (mem_of_mem_ofDocument_models hm₁)
    (mem_of_mem_ofDocument_models hm) (congrArg Prod.snd hsame)
  exact ⟨added, hm'⟩

include hrun in
theorem hasRelations_synthesized (id : String) :
    (ofDocument (d.setModels s.models)).hasRelations id = (ofDocument d).hasRelations id := by
  have hids : (ofDocument (d.setModels s.models)).modelIds = (ofDocument d).modelIds :=
    Model.ids_of_headings (ofDocument_headings_synthesized hrun)
  have hedges : (d.setModels s.models).relationEdges = d.relationEdges := rfl
  rw [Bool.eq_iff_iff, ofDocument_hasRelations_iff, ofDocument_hasRelations_iff, hedges]
  simp only [Resolves, hids]

include hrun hnames in
/-- A field of a synthesized model that refers to a model in the graph was there before, or it
connects two models that have relations already. -/
theorem mem_fields_or_hasRelations (hkey : ∀ m ∈ d.models, m.name ≠ foreignKeyType) {n : Nat}
    {m m' : Model} {f : Field} (hm : d.models[n]? = some m) (hm' : s.models[n]? = some m')
    (hmem : m ∈ (ofDocument d).models) (hf : f ∈ m'.fields)
    (htype : f.type ∈ (ofDocument d).models.map (·.name)) :
    f ∈ m.fields ∨ (ofDocument d).hasRelations m.id = true ∧
      ∃ other ∈ (ofDocument d).models, f.type = other.name ∧
        (ofDocument d).hasRelations other.id = true := by
  obtain hold | ⟨e, he, end_, other, hend, hother, hforeign | hrefers⟩ :=
    Synthesis.mem_fields_synthesizeFields hrun hm hm' hf
  · exact .inl hold
  · obtain ⟨m₁, hm₁, hsame⟩ := List.mem_map.mp htype
    exact absurd (hsame.trans hforeign) (hkey m₁ (mem_of_mem_ofDocument_models hm₁))
  · obtain ⟨hlisted, hotherEnd⟩ := Synthesis.modelById?_eq_some hother
    have hotherMem : other ∈ (ofDocument d).models :=
      mem_ofDocument_of_name hnames hlisted (hrefers ▸ htype)
    obtain ⟨hnear, hfar⟩ := ofDocument_hasRelations_of_ends he hmem hotherMem hend hotherEnd
    exact .inr ⟨hnear, other, hotherMem, hrefers, hfar⟩

include hrun hnames in
/-- Where no model has the name of the foreign key type, synthesis relates no model that was not
related. -/
theorem isRelated_synthesized (hkey : ∀ m ∈ d.models, m.name ≠ foreignKeyType) {m : Model}
    (hm : m ∈ (ofDocument d).models) :
    (ofDocument (d.setModels s.models)).isRelated m.heading =
      (ofDocument d).isRelated m.heading := by
  have hsynthesizedNames := Model.names_of_headings (ofDocument_headings_synthesized hrun)
  unfold isRelated
  rw [hasRelations_synthesized hrun]
  cases hunrelated : (ofDocument d).hasRelations m.heading.1 with
  | true => rw [Bool.true_or, Bool.true_or]
  | false =>
      -- The name of m is that of no model with relations.
      have hapart : ∀ m₁ ∈ (ofDocument d).models, (ofDocument d).hasRelations m₁.id = true →
          m.name ≠ m₁.name := by
        intro m₁ hm₁ hrelated hname
        obtain rfl := List.inj_on_of_nodup_map hnames (mem_of_mem_ofDocument_models hm)
          (mem_of_mem_ofDocument_models hm₁) hname
        exact absurd (hrelated.symm.trans hunrelated) (by decide)
      rw [Bool.false_or, Bool.false_or, Bool.eq_iff_iff, List.contains_iff_mem,
        List.contains_iff_mem, mem_referencedNames_iff, mem_referencedNames_iff, hsynthesizedNames]
      constructor
      · rintro ⟨m', hm', f, hf, htype, hne, hname⟩
        obtain ⟨n, owner, hget, hget', howner, added, rfl⟩ :=
          exists_of_mem_synthesized hrun hnames hm'
        obtain hold | ⟨hrelated, other, hother, hrefers, hotherRelated⟩ :=
          mem_fields_or_hasRelations hrun hnames hkey hget hget' howner hf htype
        · exact ⟨owner, howner, f, hold, htype, hne, hname⟩
        · obtain hname | hname := hname
          · exact absurd (hname.trans hrefers) (hapart other hother hotherRelated)
          · exact absurd hname (hapart owner howner hrelated)
      · rintro ⟨m₁, hm₁, f, hf, htype, hne, hname⟩
        obtain ⟨added, hm'⟩ := exists_synthesized hrun hnames hm₁
        exact ⟨_, hm', f, List.mem_append_left added hf, htype, hne, hname⟩

end Graph

/-! ### The report -/

namespace Document

theorem check_setModels_errors (hrun : synthesizeFields d.relationEdges d.models = .ok s)
    (hnames : d.nameConflicts = []) (g : Graph) :
    ((d.setModels s.models).check g).errors = [] := by
  obtain ⟨s', hagain, -⟩ := Synthesis.synthesizeFields_settled hrun
  have hnames' := (nameConflicts_synthesized hrun d.enumEdges).trans hnames
  exact check_errors_eq_nil_iff.mpr ⟨hnames', s', hagain⟩

theorem check_issues_of_errors {g : Graph} (h : (d.check g).errors = []) :
    (d.check g).issues = d.checkTypes.issues ++ g.checkOrphans.issues := by
  rw [check_errors] at h
  rw [check_issues, h, List.nil_append]

/-- A document that compiles and that has no model with the name of the foreign key type: its
synthesized document has the same report. -/
theorem check_synthesized (herrors : (d.check (Graph.ofDocument d)).errors = [])
    (hkey : ∀ m ∈ d.models, m.name ≠ foreignKeyType) :
    ∃ s, synthesizeFields d.relationEdges d.models = .ok s ∧
      (d.setModels s.models).check (Graph.ofDocument (d.setModels s.models)) =
        d.check (Graph.ofDocument d) := by
  obtain ⟨hconflicts, s, hrun⟩ := check_errors_eq_nil_iff.mp herrors
  have hnames : (d.models.map (·.name)).Nodup := by
    have hall := nameConflicts_eq_nil_iff.mp hconflicts
    rw [names] at hall
    exact (List.nodup_append.mp hall).1
  have horphans : (Graph.ofDocument (d.setModels s.models)).checkOrphans =
      (Graph.ofDocument d).checkOrphans :=
    Graph.checkOrphans_congr (Graph.ofDocument_headings_synthesized hrun) fun m hm =>
      Graph.isRelated_synthesized hrun hnames hkey hm
  have hissues :
      ((d.setModels s.models).check (Graph.ofDocument (d.setModels s.models))).issues =
        (d.check (Graph.ofDocument d)).issues := by
    rw [check_issues_of_errors herrors,
      check_issues_of_errors (check_setModels_errors hrun hconflicts _),
      checkTypes_synthesized hrun, horphans]
  exact ⟨s, hrun, congrArg Report.mk hissues⟩

/-- Posts belong to users by two relations of one id, and comments stand alone. The colour of a post
is of no type. -/
def blog : Document :=
  { models :=
      [{ id := "u", name := "User" },
        { id := "p", name := "Post", fields := [{ name := "colour", type := "Color" }] },
        { id := "c", name := "Comment" }]
    enums := [{ id := "r", name := "Role", values := [] }]
    relationEdges := [{ id := "e", source := "u", target := "p" },
      { id := "e", source := "p", target := "u", type := "ONE_TO_ONE" }] }

theorem check_synthesized_blog :
    (blog.check (Graph.ofDocument blog)).issues.map (·.code) =
        ["UNKNOWN_TYPE", "EMPTY_ENUM", "ORPHAN_MODEL"] ∧
      ∃ s, synthesizeFields blog.relationEdges blog.models = .ok s ∧
        s.models.map (·.fields.map (·.name)) = [["posts"], ["colour", "user", "user_id"], []] ∧
        (blog.setModels s.models).check (Graph.ofDocument (blog.setModels s.models)) =
          blog.check (Graph.ofDocument blog) := by
  have hcodes : (blog.check (Graph.ofDocument blog)).issues.map (·.code) =
      ["UNKNOWN_TYPE", "EMPTY_ENUM", "ORPHAN_MODEL"] := by
    decide +kernel
  obtain ⟨s, hrun, hsame⟩ := check_synthesized (d := blog) (by decide +kernel) (by decide)
  have hfields : (synthesizeFields blog.relationEdges blog.models).toOption.map
      (·.models.map (·.fields.map (·.name))) =
        some [["posts"], ["colour", "user", "user_id"], []] := by
    decide +kernel
  rw [hrun] at hfields
  exact ⟨hcodes, s, hrun, Option.some.inj hfields, hsame⟩

/-- A model that has the name of the foreign key type. -/
def texts : Document :=
  { models := [{ id := "u", name := "User" }, { id := "p", name := "Post" },
      { id := "s", name := "String" }]
    relationEdges := [{ id := "e", source := "u", target := "p" }] }

/-- It is an orphan until synthesis adds a foreign key. -/
example :
    (texts.check (Graph.ofDocument texts)).issues.map (·.code) = ["ORPHAN_MODEL"] ∧
      (synthesizeFields texts.relationEdges texts.models).toOption.map (fun s =>
        ((texts.setModels s.models).check
          (Graph.ofDocument (texts.setModels s.models))).issues.map (·.code)) = some [] := by
  decide +kernel

end Document

end DrawnSchema
