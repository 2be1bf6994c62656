import DrawnSchema.Canvas
import DrawnSchema.Proofs.Document.Dump
import DrawnSchema.Proofs.Relation.Additions

/-!
# A document is read back from its dump

Reading refuses models that repeat a field name and enums that repeat a value, so what it comes to
has none of these, and synthesis adds none. Nothing else could keep such a document from being read
back: its dump is no canvas, brings the kind of every field, and says every attribute under the key
that is looked at first.
-/

namespace DrawnSchema

/-! ### What a reading that comes to a value has checked -/

theorem readList_eq_value {α : Type} {read : Value → Reading α} {v : Value} {l : List α}
    (h : readList read v = .value l) : ∀ a ∈ l, ∃ w, read w = .value a := by
  obtain ⟨_, -, hitems⟩ := forall₂_of_readList h
  exact fun _ => exists_of_forall₂ hitems

theorem Entries.withDefault_eq_value {α : Type} {m : Entries} {k : Key} {default : α}
    {read : Value → Reading α} {a : α} (h : m.withDefault k default read = .value a) :
    a = default ∨ ∃ v, read v = .value a := by
  unfold Entries.withDefault at h
  split at h
  · exact Or.inr ⟨_, Reading.under_eq_value_iff.mp h⟩
  · exact Or.inl (Reading.value.inj h).symm

theorem Model.hasDistinctFields_of_read {v : Value} {m : Model} (h : read v = .value m) :
    m.HasDistinctFields := by
  obtain ⟨entries, -, hprepared⟩ := readRecord_eq_value_iff.mp h
  obtain ⟨normal, -, hnormal⟩ := readPrepared_eq_value_iff.mp hprepared
  exact complaint_eq_none_iff.mp (Reading.check_eq_value_iff.mp hnormal).2

theorem Enumeration.values_nodup_of_read {v : Value} {e : Enumeration} (h : read v = .value e) :
    e.values.Nodup := by
  obtain ⟨entries, -, hread⟩ := readRecord_eq_value_iff.mp h
  exact complaint_eq_none_iff.mp (Reading.check_eq_value_iff.mp hread).2

namespace Document

/-- No model repeats a field name and no enum a value. -/
structure IsTidy (d : Document) : Prop where
  models : ∀ m ∈ d.models, m.HasDistinctFields
  enums : ∀ e ∈ d.enums, e.values.Nodup

theorem isTidy_of_readNormal {m : Entries} {d : Document} (h : readNormal m = .value d) :
    d.IsTidy := by
  obtain ⟨hmodels, henums⟩ := readNormal_eq_value h
  constructor
  · intro model hmodel
    obtain hnil | ⟨v, hv⟩ := Entries.withDefault_eq_value hmodels
    · rw [hnil] at hmodel
      cases hmodel
    · obtain ⟨w, hw⟩ := readList_eq_value hv model hmodel
      exact Model.hasDistinctFields_of_read hw
  · intro e he
    obtain hnil | ⟨v, hv⟩ := Entries.withDefault_eq_value henums
    · rw [hnil] at he
      cases he
    · obtain ⟨w, hw⟩ := readList_eq_value hv e he
      exact Enumeration.values_nodup_of_read hw

theorem isTidy_of_read {v : Value} {d : Document} (h : read v = .value d) : d.IsTidy := by
  obtain ⟨entries, -, hprepared⟩ := readRecord_eq_value_iff.mp h
  obtain ⟨normal, -, hnormal⟩ := readPrepared_eq_value_iff.mp hprepared
  exact isTidy_of_readNormal hnormal

theorem isTidy_of_parse {data : Value} {d : Document} (h : parse data = .value d) : d.IsTidy := by
  unfold parse at h
  split at h
  · cases h
  · exact isTidy_of_read h
  · split at h
    · cases h
    · exact isTidy_of_read h

theorem IsTidy.synthesizeFields {d : Document} {edges : List RelationEdge} {s : Synthesis}
    (h : d.IsTidy) (hrun : DrawnSchema.synthesizeFields edges d.models = .ok s) :
    { d with models := s.models }.IsTidy :=
  ⟨Synthesis.synthesizeFields_hasDistinctFields hrun h.models, h.enums⟩

/-! ### Reading back -/

variable (detail : Detail)

def members (d : Document) : Members where
  keys := [Key.models, Key.enums, Key.relationEdges, Key.enumEdges, Key.generator, Key.datasource]
  values := [.list (d.models.map Model.toValue), .list (d.enums.map Enumeration.toValue),
    .list (d.relationEdges.map RelationEdge.toValue), .list (d.enumEdges.map EnumEdge.toValue),
    d.generator.toValue, d.datasource.toValue]

theorem toValue_written (d : Document) :
    d.toValue.written detail = .map (d.members.written detail) :=
  d.members.toValue_written detail

theorem namesOf_eq_ok {vs : List Value}
    (h : ∀ v ∈ vs, ∃ (m : Entries) (name : String),
      v = .map m ∧ m.get? "name" = some (.text name)) :
    ∃ names, RawDocument.namesOf vs = .ok names := by
  induction vs with
  | nil => exact ⟨[], rfl⟩
  | cons v vs ih =>
      obtain ⟨names, hnames⟩ := ih fun w hw => h w (List.mem_cons_of_mem v hw)
      obtain ⟨m, name, rfl, hname⟩ := h v List.mem_cons_self
      refine ⟨.text name :: names, ?_⟩
      rw [RawDocument.namesOf, Value.exposed_map]
      simp only [Entries.getD, hname, hnames]
      rfl

theorem knownNames_written (d : Document) :
    ∃ known, RawDocument.knownNames (d.models.map (Value.written detail ∘ Model.toValue))
      (.list (d.enums.map (Value.written detail ∘ Enumeration.toValue))) = .ok known := by
  obtain ⟨modelNames, hmodels⟩ :
      ∃ names, RawDocument.namesOf (d.models.map (Value.written detail ∘ Model.toValue)) =
        .ok names := by
    refine namesOf_eq_ok fun v hv => ?_
    obtain ⟨m, -, rfl⟩ := List.mem_map.mp hv
    exact ⟨_, _, m.toValue_written detail, m.get?_name_written detail⟩
  obtain ⟨enumNames, henums⟩ :
      ∃ names, RawDocument.namesOf (d.enums.map (Value.written detail ∘ Enumeration.toValue)) =
        .ok names := by
    refine namesOf_eq_ok fun v hv => ?_
    obtain ⟨e, -, rfl⟩ := List.mem_map.mp hv
    exact ⟨_, _, e.toValue_written detail, e.get?_name_written detail⟩
  refine ⟨{ models := modelNames, enums := enumNames }, ?_⟩
  unfold RawDocument.knownNames
  rw [hmodels, RawDocument.itemsOrNone_of_list (Value.exposed_list _)]
  change (RawDocument.namesOf _ >>= _) = _
  rw [henums]
  rfl

theorem classify_written (d : Document) :
    RawDocument.classify (d.members.written detail) = .ok (d.members.written detail) := by
  have hmodels := (d.members.shows detail 0 rfl rfl).get?_plain rfl
  have henums := (d.members.shows detail 1 rfl rfl).get?_plain rfl
  rw [Value.written_list, List.map_map] at hmodels henums
  obtain ⟨known, hknown⟩ := d.knownNames_written detail
  have hnormal :
      (d.models.map (Value.written detail ∘ Model.toValue)).mapM (RawModel.normalizeValue known) =
        .ok (d.models.map (Value.written detail ∘ Model.toValue)) := by
    refine mapM_eq_ok_self fun v hv => ?_
    obtain ⟨m, -, rfl⟩ := List.mem_map.mp hv
    exact m.normalizeValue_written detail known
  unfold RawDocument.classify
  simp only [Entries.getD, hmodels, henums, Option.map_some, Option.getD_some, Value.exposed_list,
    hknown, bind, Except.bind, hnormal]
  exact congrArg Except.ok (Entries.insert_of_get? hmodels)

theorem read_written {d : Document} (h : d.IsTidy) :
    read (d.toValue.written detail) = .value d := by
  have hmodels := (d.members.shows detail 0 rfl rfl).withDefault_list
    (fun m hm => Model.read_written detail (h.models m hm)) []
  have henums := (d.members.shows detail 1 rfl rfl).withDefault_list
    (fun e he => Enumeration.read_written detail (h.enums e he)) []
  have hrelationEdges := (d.members.shows detail 2 rfl rfl).withDefault_list
    (fun e _ => RelationEdge.read_written detail e) []
  have henumEdges := (d.members.shows detail 3 rfl rfl).withDefault_list
    (fun e _ => EnumEdge.read_written detail e) []
  have hgenerator := (d.members.shows detail 4 rfl rfl).withDefault rfl
    (Generator.read_written detail _) {}
  have hdatasource := (d.members.shows detail 5 rfl rfl).withDefault rfl
    (Datasource.read_written detail _) {}
  have hnormal : readNormal (d.members.written detail) = .value d := by
    unfold readNormal
    rw [hmodels, henums, hrelationEdges, henumEdges, hgenerator, hdatasource]
    rfl
  change readRecord _ _ (d.members.toValue.written detail) = _
  rw [Members.readRecord_written, classify_written]
  exact hnormal

/-- A dump has no nodes, so it is not taken for a canvas. -/
theorem isCanvas_written (d : Document) :
    Canvas.isCanvas (.map (d.members.written detail)) = .ok false := by
  have hnodes : (d.members.written detail).get? "nodes" = none :=
    d.members.get?_eq_none detail (by simp [members]; decide)
  unfold Canvas.isCanvas Canvas.mentions
  simp only [Value.exposed_map, Entries.has, hnodes]
  rfl

theorem parse_written {d : Document} (h : d.IsTidy) :
    parse (d.toValue.written detail) = .value d := by
  have hread := read_written detail h
  rw [toValue_written] at hread ⊢
  unfold parse
  rw [isCanvas_written]
  exact hread

/-- Whatever a document was parsed from, parsing its dump gives it again, and so does parsing the
brief dump, which leaves out null members at every depth. The same is true of the document with the
fields that its relations imply, if synthesis succeeds. -/
theorem parse_dump {data : Value} {d : Document} (hparse : parse data = .value d) :
    (parse d.toValue = .value d ∧ parse d.toValue.brief = .value d) ∧
      ∀ s, synthesizeFields d.relationEdges d.models = .ok s →
        parse { d with models := s.models }.toValue = .value { d with models := s.models } ∧
          parse { d with models := s.models }.toValue.brief =
            .value { d with models := s.models } := by
  have htidy : d.IsTidy := isTidy_of_parse hparse
  refine ⟨⟨parse_written .full htidy, parse_written .brief htidy⟩, fun s hrun => ?_⟩
  have hsynthesized := htidy.synthesizeFields hrun
  exact ⟨parse_written .full hsynthesized, parse_written .brief hsynthesized⟩

/-- A canvas with two models, an enum and a relation. -/
def blogCanvas : Value :=
  .record [
    ("nodes", .list [
      .record [("id", .text "u"), ("type", .text "model"), ("data", .record [
        ("label", .text "User"), ("fields", .list [.record [
          ("name", .text "role"), ("type", .text "Role"), ("default_value", .text "READER")]])])],
      .record [("id", .text "p"), ("type", .text "model"), ("data", .record [
        ("label", .text "Post"), ("fields", .list [.record [
          ("name", .text "title"), ("type", .text "String"), ("nativeType", .record [
            ("type", .text "VarChar"), ("args", .list [.int 80, .bool true])])]])])],
      .record [("id", .text "r"), ("type", .text "enum"), ("data", .record [
        ("label", .text "Role"), ("values", .texts ["READER", "WRITER"])])]]),
    ("edges", .list [.record [
      ("id", .text "e"), ("source", .text "u"), ("target", .text "p"), ("data", .record [
        ("onDelete", .text "CASCADE")])]]),
    ("datasource", .record [("provider", .text "mysql")])]

def blogDocument : Document :=
  { models := [
      { id := "u", name := "User", fields := [
        { name := "role", type := "Role", content := .enum { defaultValue := some "READER" } }] },
      { id := "p", name := "Post", fields := [
        { name := "title", type := "String"
          content := .scalar { nativeType := some ⟨"VarChar", [.int 80, .int 1]⟩ } }] }]
    enums := [{ id := "r", name := "Role", values := ["READER", "WRITER"] }]
    relationEdges := [{ id := "e", source := "u", target := "p", onDelete := some .cascade }]
    datasource := { provider := .mysql } }

theorem parse_dump_blogCanvas :
    parse blogCanvas = .value blogDocument ∧ parse blogDocument.toValue = .value blogDocument ∧
      parse blogDocument.toValue.brief = .value blogDocument ∧
      ∃ s : Synthesis, synthesizeFields blogDocument.relationEdges blogDocument.models = .ok s ∧
        (s.models.map fun m => m.fields.map (·.name)) =
          [["role", "posts"], ["title", "user", "user_id"]] ∧
        parse { blogDocument with models := s.models }.toValue.brief =
          .value { blogDocument with models := s.models } := by
  have hparse : parse blogCanvas = .value blogDocument :=
    Reading.value?_eq_some_iff.mp (by decide +kernel)
  have hrun : synthesizeFields blogDocument.relationEdges blogDocument.models = .ok _ := rfl
  obtain ⟨⟨hfull, hbrief⟩, hsynthesized⟩ := parse_dump hparse
  exact ⟨hparse, hfull, hbrief, _, hrun, rfl, (hsynthesized _ hrun).2⟩

end Document

end DrawnSchema
