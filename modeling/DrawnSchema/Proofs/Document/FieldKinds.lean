import DrawnSchema.Canvas
import DrawnSchema.Proofs.Document.Classification
import DrawnSchema.Proofs.Document.Names
import DrawnSchema.Proofs.Document.Records
import DrawnSchema.Proofs.Relation.EnumEdges

/-!
# The kinds of the fields of a document

A field that says its kind is of that kind. Any other is of the kind that its type names, wherever
in the document the model or the enum stands, and if its type names nothing it is a relation or a
scalar by whether it has a relation. The names are looked up as they are given, before they are
read: octets are read as a text, but a text does not name what is named in octets. Where all are
texts, the fields of kind enum are those that have an enum edge, unless names are in conflict.
-/

namespace DrawnSchema

theorem FieldKind.name_inj {kind kind' : FieldKind} : kind.name = kind'.name ↔ kind = kind' := by
  cases kind <;> cases kind' <;> simp [name]

theorem FieldKind.name_of_lookup {tag : String} {kind : FieldKind}
    (h : table.lookup tag = some kind) : tag = kind.name := by
  obtain ⟨before, after, htable, -⟩ := List.lookup_eq_some_iff.mp h
  have hmem : (tag, kind) ∈ table := by simp [htable]
  revert hmem
  simp only [table, List.mem_cons, Prod.mk.injEq, List.not_mem_nil, or_false]
  rintro (⟨rfl, rfl⟩ | ⟨rfl, rfl⟩ | ⟨rfl, rfl⟩) <;> rfl

/-! ### How a kind follows -/

namespace RawField

variable {field folded normal : Entries} {known : KnownNames} {kind : FieldKind} {text : String}

/-- A field says of what kind it is. -/
def SaysKind (field : Entries) : Prop := (field.getD "kind").truthy = true

/-- A field has a relation that is not empty, once its flat keys are folded into it. -/
def HasRelation (field : Entries) : Prop :=
  ∃ folded, foldRelation field = .ok folded ∧ (folded.getD "relation").truthy = true

/-- The kind that follows for a field from what it says itself, then from what its type names, and
then from its relation. -/
inductive KindFollows (field : Entries) (namesModel namesEnum : Prop) : FieldKind → Prop
  | own {kind : FieldKind} (said : SaysKind field) (agrees : field.getD "kind" = .text kind.name) :
      KindFollows field namesModel namesEnum kind
  | ofModel (unsaid : ¬SaysKind field) (model : namesModel) :
      KindFollows field namesModel namesEnum .relation
  | ofEnum (unsaid : ¬SaysKind field) (model : ¬namesModel) (enum : namesEnum) :
      KindFollows field namesModel namesEnum .enum
  | ofRelation (unsaid : ¬SaysKind field) (model : ¬namesModel) (enum : ¬namesEnum)
      (relation : HasRelation field) : KindFollows field namesModel namesEnum .relation
  | scalar (unsaid : ¬SaysKind field) (model : ¬namesModel) (enum : ¬namesEnum)
      (relation : ¬HasRelation field) : KindFollows field namesModel namesEnum .scalar

theorem KindFollows.eq_enum_iff {namesModel namesEnum : Prop}
    (h : KindFollows field namesModel namesEnum kind) (hunsaid : ¬SaysKind field) :
    kind = .enum ↔ ¬namesModel ∧ namesEnum := by
  cases h with
  | own said => exact absurd said hunsaid
  | ofModel _ model => simp [model]
  | ofEnum _ model enum => simp [model, enum]
  | ofRelation _ _ enum => simp [enum]
  | scalar _ _ enum => simp [enum]

/-- What is read as a text is among names if it is there as it is given. -/
theorem mentions_of_readText {type : Value} (h : readText type = .value text)
    (names : List Scalar) :
    ∃ named, mentions names type = .ok named ∧ (named = true ↔ type ∈ names.map .scalar) := by
  have hscalar : ∃ s, type = .scalar s ∧ ∀ n : Scalar, n.sameKey s = true ↔ n = s := by
    obtain rfl | ⟨octets, rfl⟩ := eq_text_of_readText h
    · exact ⟨_, rfl, fun _ => Scalar.sameKey_text⟩
    · exact ⟨_, rfl, fun _ => Scalar.sameKey_bytes⟩
  obtain ⟨s, rfl, hsame⟩ := hscalar
  refine ⟨names.any fun n => n.sameKey s, ?_, ?_⟩
  · cases names <;> rfl
  · simp [hsame]

theorem kindFollows_of_kindOf (hunsaid : ¬SaysKind field) (hfold : foldRelation field = .ok folded)
    (htype : readText (field.getD "type") = .value text) (h : kindOf folded known = .ok kind) :
    KindFollows field (field.getD "type" ∈ known.models.map .scalar)
      (field.getD "type" ∈ known.enums.map .scalar) kind := by
  have hfolded : folded.getD "type" = field.getD "type" := by
    rw [Entries.getD, Entries.getD, get?_foldRelation hfold (by decide) (by decide)]
  have hrelation : HasRelation field ↔ (folded.getD "relation").truthy = true := by
    simp [HasRelation, hfold]
  obtain ⟨isModel, hisModel, hmodel⟩ := mentions_of_readText htype known.models
  obtain ⟨isEnum, hisEnum, henum⟩ := mentions_of_readText htype known.enums
  simp only [kindOf, hfolded, hisModel, hisEnum, bind, Except.bind] at h
  rw [← hmodel, ← henum]
  split_ifs at h with h₁ h₂ h₃ <;> obtain rfl := Except.ok.inj h
  · exact .ofModel hunsaid h₁
  · exact .ofEnum hunsaid h₁ h₂
  · exact .ofRelation hunsaid h₁ h₂ (hrelation.mpr h₃)
  · exact .scalar hunsaid h₁ h₂ (mt hrelation.mp h₃)

theorem kindFollows_of_normalize (h : normalize field known = .ok normal)
    (htype : readText (field.getD "type") = .value text)
    (hkind : normal.getD "kind" = .text kind.name) :
    KindFollows field (field.getD "type" ∈ known.models.map .scalar)
      (field.getD "type" ∈ known.enums.map .scalar) kind := by
  obtain ⟨folded, hfold, hrest⟩ := bind_eq_ok_iff.mp h
  have hfolded : folded.getD "kind" = field.getD "kind" := by
    rw [Entries.getD, Entries.getD, get?_foldRelation hfold (by decide) (by decide)]
  by_cases htruthy : (folded.getD "kind").truthy = true
  · rw [if_pos htruthy] at hrest
    obtain rfl := Except.ok.inj hrest
    rw [hfolded] at htruthy hkind
    exact .own htruthy hkind
  · rw [if_neg htruthy] at hrest
    obtain ⟨kind', hkind', hrest⟩ := bind_eq_ok_iff.mp hrest
    obtain rfl := Except.ok.inj hrest
    rw [Entries.getD, Entries.get?_insert_self, Option.getD_some] at hkind
    obtain rfl : kind' = kind := by simpa [FieldKind.name_inj] using hkind
    rw [hfolded] at htruthy
    exact kindFollows_of_kindOf htruthy hfold htype hkind'

end RawField

/-! ### What is read -/

theorem Field.read_map_eq_value {m : Entries} {f : Field} (h : read (.map m) = .value f) :
    m.getD "kind" = .text f.kind.name ∧ readText (m.getD "type") = .value f.type := by
  rw [read, Value.exposed_map] at h
  dsimp only at h
  split at h
  next tag htag =>
    split at h
    next kind hkind =>
      have hread := Reading.under_eq_value_iff.mp h
      obtain rfl := kind_of_readAs hread
      rw [← FieldKind.name_of_lookup hkind]
      exact ⟨htag, readText_getD_of_required (readAs_eq_value_iff.mp hread).2.2.1⟩
    next => cases h
  next => cases h

/-- The fields of a model that is put in order and read. -/
theorem RawModel.forall₂_kinds {known : KnownNames} {model normal : Entries} {m : Model}
    (hnormal : normalizeFields known model = .ok normal)
    (hread : Model.readNormal normal = .value m) :
    List.Forall₂ (fun field f => readText (field.getD "type") = .value f.type ∧
        RawField.KindFollows field (field.getD "type" ∈ known.models.map .scalar)
          (field.getD "type" ∈ known.enums.map .scalar) f.kind)
      (model.records "fields") m.fields := by
  have hfields := forall₂_records readsRecords_field (Model.readNormal_eq_value hread).2
  refine forall₂_trans (RawModel.forall₂_fields hnormal) hfields fun field field' f hfield hf => ?_
  obtain ⟨hkind, htype⟩ := Field.read_map_eq_value hf
  obtain hfield | rfl := hfield
  · have hsame : field'.getD "type" = field.getD "type" := by
      rw [Entries.getD, Entries.getD,
        RawField.get?_normalize hfield (by decide) (by decide) (by decide)]
    rw [hsame] at htype
    exact ⟨htype, RawField.kindFollows_of_normalize hfield htype hkind⟩
  -- Fields that are not put in order are accepted only with kinds of their own.
  · refine ⟨htype, .own ?_ hkind⟩
    rw [RawField.SaysKind, hkind]
    exact FieldKind.truthy_name f.kind

/-! ### The fields of a document -/

namespace RawDocument

variable {raw classified : Entries} {d : Document}

/-- Each model and each field of a document is read from the raw one in its place, and the field is
of the kind that follows. -/
def FieldKinds (raw : Entries) (d : Document) (namesModel namesEnum : Entries → Field → Prop) :
    Prop :=
  List.Forall₂ (fun model m => readText (model.getD "name") = .value m.name ∧
      List.Forall₂ (fun field f => readText (field.getD "type") = .value f.type ∧
          RawField.KindFollows field (namesModel field f) (namesEnum field f) f.kind)
        (model.records "fields") m.fields)
    (raw.records "models") d.models

/-- A type names what has been given the same name. -/
def KindsByGivenNames (raw : Entries) (d : Document) : Prop :=
  FieldKinds raw d (fun field _ => field.getD "type" ∈ raw.names "models")
    (fun field _ => field.getD "type" ∈ raw.names "enums")

/-- A type names what has the same name in the document that is read. -/
def KindsByReadNames (raw : Entries) (d : Document) : Prop :=
  FieldKinds raw d (fun _ f => f.type ∈ d.models.map (·.name))
    (fun _ f => f.type ∈ d.enums.map (·.name))

/-- No raw field of the document says its kind. -/
def SaysNoKind (raw : Entries) : Prop :=
  ∀ model ∈ raw.records "models", ∀ field ∈ model.records "fields", ¬RawField.SaysKind field

instance (raw : Entries) : Decidable (SaysNoKind raw) :=
  inferInstanceAs (Decidable (∀ model ∈ raw.records "models", ∀ field ∈ model.records "fields",
    ¬(field.getD "kind").truthy = true))

/-- The ids of the enum edges are those of the fields of kind enum, each with the enum of the name
that is its type. -/
def EdgesByKind (d : Document) : Prop :=
  ∀ id, id ∈ (deriveEnumEdges d.models d.enums).map (·.id) ↔
    ∃ m ∈ d.models, ∃ f ∈ m.fields, ∃ e ∈ d.enums, f.kind = .enum ∧ e.name = f.type ∧
      enumEdgeId m.id f.key e.id = id

theorem classified_of_parse {data : Value} (hraw : data.exposed = .map raw)
    (hdocument : Canvas.isCanvas data = .ok false) (hparse : Document.parse data = .value d) :
    ∃ classified, classify raw = .ok classified ∧ Document.readNormal classified = .value d := by
  rw [Document.parse, hdocument] at hparse
  obtain ⟨raw', hraw', hread⟩ := readRecord_eq_value_iff.mp hparse
  obtain rfl := Value.map.inj (hraw.symm.trans hraw')
  exact readPrepared_eq_value_iff.mp hread

theorem kindsByGivenNames_of_readNormal (hclassify : classify raw = .ok classified)
    (hread : Document.readNormal classified = .value d)
    (hmodels : ∀ a b, (raw.getD "models").exposed ≠ .pair a b) : KindsByGivenNames raw d := by
  have hall := forall₂_records readsRecords_model (Document.readNormal_eq_value hread).1
  unfold KindsByGivenNames FieldKinds
  obtain ⟨hnil, rfl⟩ | ⟨known, hmodelNames, henumNames, hnormal⟩ := forall₂_models hclassify hmodels
  · rw [hnil] at hall ⊢
    rw [List.forall₂_nil_left_iff.mp hall]
    exact .nil
  · rw [← hmodelNames, ← henumNames]
    refine forall₂_trans hnormal hall fun model normal m hmodel hm => ?_
    -- The model puts its fields in order again, by no names, and leaves them as they are.
    rw [RawModel.read_of_normalizeFields hmodel] at hm
    refine ⟨?_, RawModel.forall₂_kinds hmodel hm⟩
    have hname := (Model.readNormal_eq_value hm).1
    rwa [Entries.getD, RawModel.get?_normalizeFields hmodel (by decide)] at hname

theorem enums_of_readNormal (hclassify : classify raw = .ok classified)
    (hread : Document.readNormal classified = .value d) :
    List.Forall₂ (fun entries e => readText (entries.getD "name") = .value e.name)
      (raw.records "enums") d.enums := by
  have hall := forall₂_records readsRecords_enumeration (Document.readNormal_eq_value hread).2
  have hsame : classified.records "enums" = raw.records "enums" := by
    obtain ⟨_, _, _, -, -, -, rfl⟩ | ⟨-, rfl⟩ := classify_eq_ok hclassify
    · exact Entries.records_congr (Entries.get?_insert_of_ne (by decide))
    · rfl
  rw [hsame] at hall
  exact hall.imp fun _ _ => Enumeration.read_map_eq_value

/-! ### Names that are texts -/

/-- No name of a model or an enum and no type of a field is given in octets. -/
structure GivesTexts (raw : Entries) : Prop where
  models : ∀ v ∈ raw.names "models", v.isOctets = false
  enums : ∀ v ∈ raw.names "enums", v.isOctets = false
  types : ∀ model ∈ raw.records "models", ∀ field ∈ model.records "fields",
    (field.getD "type").isOctets = false

theorem names_eq_of_texts {α : Type} {records : List Entries} {l : List α} {name : α → String}
    (h : List.Forall₂ (fun entries a => readText (entries.getD "name") = .value (name a)) records l)
    (htexts : ∀ v ∈ records.map fun entries => entries.getD "name", v.isOctets = false) :
    (records.map fun entries => entries.getD "name") = l.map fun a => .text (name a) := by
  induction h with
  | nil => rfl
  | cons hname _ ih =>
      rw [List.map_cons, List.forall_mem_cons] at htexts
      rw [List.map_cons, List.map_cons, ih htexts.2, text_of_readText hname htexts.1]

theorem KindsByGivenNames.of_texts (h : KindsByGivenNames raw d)
    (henums : List.Forall₂ (fun entries e => readText (entries.getD "name") = .value e.name)
      (raw.records "enums") d.enums) (htexts : GivesTexts raw) : KindsByReadNames raw d := by
  have hmodelNames : raw.names "models" = d.models.map fun m => .text m.name :=
    names_eq_of_texts (h.imp fun _ _ => And.left) htexts.models
  have henumNames : raw.names "enums" = d.enums.map fun e => .text e.name :=
    names_eq_of_texts henums htexts.enums
  refine ((List.forall₂_and_left _ _).mpr ⟨htexts.types, h⟩).imp ?_
  rintro model m ⟨htypes, hname, hfields⟩
  refine ⟨hname, ((List.forall₂_and_left _ _).mpr ⟨htypes, hfields⟩).imp ?_⟩
  rintro field f ⟨htype, hread, hkind⟩
  have hmodel : field.getD "type" ∈ raw.names "models" ↔ f.type ∈ d.models.map (·.name) := by
    rw [hmodelNames, text_of_readText hread htype]
    simp
  have henum : field.getD "type" ∈ raw.names "enums" ↔ f.type ∈ d.enums.map (·.name) := by
    rw [henumNames, text_of_readText hread htype]
    simp
  exact ⟨hread, by simpa only [hmodel, henum] using hkind⟩

/-! ### Kinds and edges -/

/-- Where no field says its kind and no names are in conflict, the fields whose types name enums are
of kind enum, and no others are. -/
theorem KindsByReadNames.eq_enum_iff (h : KindsByReadNames raw d) (hunsaid : SaysNoKind raw)
    (hnames : d.nameConflicts = []) {m : Model} (hm : m ∈ d.models) {f : Field}
    (hf : f ∈ m.fields) : f.kind = .enum ↔ f.type ∈ d.enums.map (·.name) := by
  obtain ⟨model, hunsaid, -, hfields⟩ :=
    exists_of_forall₂ ((List.forall₂_and_left _ _).mpr ⟨hunsaid, h⟩) hm
  obtain ⟨field, hunsaid, -, hkind⟩ :=
    exists_of_forall₂ ((List.forall₂_and_left _ _).mpr ⟨hunsaid, hfields⟩) hf
  rw [hkind.eq_enum_iff hunsaid, and_iff_right_iff_imp]
  -- A type that names a model as well would be a name in conflict.
  intro henum hmodel
  exact List.disjoint_of_nodup_append (Document.nameConflicts_eq_nil_iff.mp hnames) hmodel henum

theorem KindsByReadNames.edgesByKind (h : KindsByReadNames raw d) (hunsaid : SaysNoKind raw)
    (hnames : d.nameConflicts = []) : EdgesByKind d := by
  have henums : (d.enums.map (·.name)).Nodup :=
    (List.nodup_append.mp (Document.nameConflicts_eq_nil_iff.mp hnames)).2.1
  intro id
  simp only [mem_deriveEnumEdges_ids_iff, find?_key_eq_some_iff henums]
  constructor
  · rintro ⟨m, hm, f, hf, e, ⟨he, htype⟩, hid⟩
    have hkind := (h.eq_enum_iff hunsaid hnames hm hf).mpr (List.mem_map.mpr ⟨e, he, htype⟩)
    exact ⟨m, hm, f, hf, e, he, hkind, htype, hid⟩
  · rintro ⟨m, hm, f, hf, e, he, -, htype, hid⟩
    exact ⟨m, hm, f, hf, e, ⟨he, htype⟩, hid⟩

/-- Every field of a document that is accepted is of the kind that it says, or else of the kind that
its type names among all models and enums as they are given, or else a relation or a scalar by what
its relation is when it is folded. With names and types in text, these are the names in the document
that is read. If then no field says its kind and no names are in conflict, the fields of kind enum
are those whose types name enums, and the ids of enum edges are theirs. -/
theorem parse_fieldKinds {data : Value} (hraw : data.exposed = .map raw)
    (hdocument : Canvas.isCanvas data = .ok false)
    (hmodels : ∀ a b, (raw.getD "models").exposed ≠ .pair a b)
    (hparse : Document.parse data = .value d) :
    KindsByGivenNames raw d ∧
      (GivesTexts raw →
        KindsByReadNames raw d ∧
          (SaysNoKind raw → d.nameConflicts = [] →
            (∀ m ∈ d.models, ∀ f ∈ m.fields, f.kind = .enum ↔ f.type ∈ d.enums.map (·.name)) ∧
              EdgesByKind d)) := by
  obtain ⟨classified, hclassify, hread⟩ := classified_of_parse hraw hdocument hparse
  have hgiven := kindsByGivenNames_of_readNormal hclassify hread hmodels
  refine ⟨hgiven, fun htexts => ?_⟩
  have hkinds := hgiven.of_texts (enums_of_readNormal hclassify hread) htexts
  refine ⟨hkinds, fun hunsaid hnames => ⟨?_, hkinds.edgesByKind hunsaid hnames⟩⟩
  exact fun m hm f hf => hkinds.eq_enum_iff hunsaid hnames hm hf

/-- A raw field with a type, and more to it. -/
def typedField (name : String) (type : Value) (more : Entries) : Value :=
  .map ([(.text "name", .text name), (.text "type", type)] ++ more)

/-- Posts with a field for each way to a kind. Their author comes after them. -/
def postsData : Entries := [
  (.text "models", .list [
    .map [(.text "id", .text "p"), (.text "name", .text "Post"),
      (.text "fields", .list [
        typedField "author" (.text "User") [],
        typedField "role" (.text "Role") [(.text "relation", .map [(.text "name", .text "Roles")])],
        typedField "tags" (.text "Tag") [(.text "relationName", .text "PostTags")],
        typedField "title" (.text "String") []])],
    .map [(.text "id", .text "u"), (.text "name", .text "User")]]),
  (.text "enums", .list [
    .map [(.text "id", .text "r"), (.text "name", .text "Role"),
      (.text "values", .texts ["READER"])]])]

def posts : Document :=
  { models := [
      { id := "p", name := "Post"
        fields := [
          { name := "author", type := "User", content := .relation none },
          { name := "role", type := "Role", content := .enum {} },
          { name := "tags", type := "Tag"
            content := .relation (some ⟨some "PostTags", [], [], none, none⟩) },
          { name := "title", type := "String" }] },
      { id := "u", name := "User" }]
    enums := [{ id := "r", name := "Role", values := ["READER"] }] }

theorem parse_fieldKinds_posts :
    Document.parse (.map postsData) = .value posts ∧ KindsByReadNames postsData posts ∧
      (∀ m ∈ posts.models, ∀ f ∈ m.fields, f.kind = .enum ↔ f.type ∈ ["Role"]) ∧
      EdgesByKind posts := by
  have hparse : Document.parse (.map postsData) = .value posts :=
    Reading.value?_eq_some_iff.mp (by decide +kernel)
  have hmodels : ∀ a b, (postsData.getD "models").exposed ≠ .pair a b := by
    intro a b h
    cases h
  have htexts : GivesTexts postsData := ⟨by decide, by decide, by decide⟩
  obtain ⟨-, hall⟩ := parse_fieldKinds rfl rfl hmodels hparse
  obtain ⟨hkinds, hedges⟩ := hall htexts
  exact ⟨hparse, hkinds, hedges (by decide) rfl⟩

/-- Posts with a role of some type, users, and the enum of roles. -/
def roleData (models : Value → Value → Value) (type : Value) : Entries := [
  (.text "models", models
    (.map [(.text "id", .text "p"), (.text "name", .text "Post"),
      (.text "fields", .list [typedField "role" type []])])
    (.map [(.text "id", .text "u"), (.text "name", .text "User")])),
  (.text "enums", .list [
    .map [(.text "id", .text "r"), (.text "name", .text "Role"),
      (.text "values", .texts ["READER"])]])]

/-- The role is a scalar, and of the type that the enum has for a name. -/
def scalarRole : Document :=
  { models := [
      { id := "p", name := "Post", fields := [{ name := "role", type := "Role" }] },
      { id := "u", name := "User" }]
    enums := [{ id := "r", name := "Role", values := ["READER"] }] }

theorem not_kindsByReadNames_scalarRole {raw : Entries} (hunsaid : SaysNoKind raw) :
    ¬KindsByReadNames raw scalarRole := by
  intro h
  have hkind := (h.eq_enum_iff hunsaid rfl List.mem_cons_self List.mem_cons_self).mpr (by decide)
  cases hkind

/-- A type in octets is read as the name of the enum and does not name it. Models in a pair are read
as those in a list are, and are not put in order by their names. -/
theorem parse_scalarRole :
    (¬∀ (data : Value) (raw : Entries) (d : Document), data.exposed = .map raw →
      Canvas.isCanvas data = .ok false → Document.parse data = .value d → GivesTexts raw →
      KindsByReadNames raw d) ∧
    (¬∀ (data : Value) (raw : Entries) (d : Document), data.exposed = .map raw →
      Canvas.isCanvas data = .ok false → Document.parse data = .value d →
      (∀ a b, (raw.getD "models").exposed ≠ .pair a b) → KindsByReadNames raw d) ∧
    ¬∀ (data : Value) (raw : Entries) (d : Document), data.exposed = .map raw →
      Canvas.isCanvas data = .ok false → Document.parse data = .value d →
      (∀ a b, (raw.getD "models").exposed ≠ .pair a b) → SaysNoKind raw →
      d.nameConflicts = [] → EdgesByKind d := by
  let inPair : Entries := roleData .pair (.text "Role")
  let inOctets : Entries :=
    roleData (fun a b => .list [a, b]) (.scalar (.bytes [0x52, 0x6f, 0x6c, 0x65]))
  have hpair : Document.parse (.map inPair) = .value scalarRole :=
    Reading.value?_eq_some_iff.mp (by decide +kernel)
  have hoctets : Document.parse (.map inOctets) = .value scalarRole :=
    Reading.value?_eq_some_iff.mp (by decide +kernel)
  have hlist : ∀ a b, (inOctets.getD "models").exposed ≠ .pair a b := by
    intro a b h
    cases h
  refine ⟨fun hall => ?_, fun hall => ?_, fun hall => ?_⟩
  · have htexts : GivesTexts inPair := ⟨by decide, by decide, by decide⟩
    have hkinds := hall _ _ _ rfl rfl hpair htexts
    exact not_kindsByReadNames_scalarRole (by decide) hkinds
  · have hkinds := hall _ _ _ rfl rfl hoctets hlist
    exact not_kindsByReadNames_scalarRole (by decide) hkinds
  · have hedges := hall _ _ _ rfl rfl hoctets hlist (by decide) rfl "enum-edge-p-role-r"
    revert hedges
    decide

end RawDocument

end DrawnSchema
