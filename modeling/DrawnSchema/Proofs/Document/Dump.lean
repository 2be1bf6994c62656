import DrawnSchema.Proofs.Document.Names
import DrawnSchema.Proofs.Document.Reading
import DrawnSchema.Proofs.Relation.Demand
import DrawnSchema.Proofs.Value.Record

/-!
# Records are read back from what is written of them

Each record by itself: its members, and that reading what is written of them comes to the record
again, whether members that are null were written or left out.
-/

namespace DrawnSchema

variable (detail : Detail)

/-! ### Names from tables -/

theorem Origin.read_name (o : Origin) : Origin.read (.text o.name) = .value o := by
  cases o <;> rfl

theorem ReferentialAction.read_name (a : ReferentialAction) :
    ReferentialAction.read (.text a.name) = .value a := by
  cases a <;> rfl

theorem Provider.read_name (p : Provider) : Provider.read (.text p.name) = .value p := by
  cases p <;> rfl

/-! ### Texts and actions -/

theorem readTexts_written (ss : List String) :
    readTexts ((Value.texts ss).written detail) = .value ss := by
  refine readList_written detail ss fun s _ => ?_
  rw [Value.written_scalar]
  rfl

theorem readTextLists_written (lists : List (List String)) :
    readList readTexts ((Value.textLists lists).written detail) = .value lists :=
  readList_written detail lists fun ss _ => readTexts_written detail ss

theorem ReferentialAction.optional_shown {m : Entries} {k : Key} {action : Option ReferentialAction}
    (h : m.Shows detail k (.optional toValue action)) :
    m.optional k ReferentialAction.read = .value action := by
  refine h.optional fun a _ => ⟨rfl, ?_⟩
  rw [toValue, Value.written_scalar, read_name]

theorem Origin.withDefault_shown {m : Entries} {k : Key} {o : Origin}
    (h : m.Shows detail k (.text o.name)) (default : Origin) :
    m.withDefault k default Origin.read = .value o :=
  h.withDefault_scalar rfl o.read_name default

theorem withDefault_truth {m : Entries} {k : Key} {b : Bool} (h : m.Shows detail k (.bool b))
    (default : Bool) : m.withDefault k default readTruth = .value b := by
  have hread : readTruth (.bool b) = .value b := rfl
  exact h.withDefault_scalar rfl hread default

/-! ### Fields -/

theorem NativeArg.read_written (a : NativeArg) :
    NativeArg.read (a.toValue.written detail) = .value a := by
  cases a with
  | text s => rw [toValue, Value.written_scalar]; rfl
  | int n => rw [toValue, Value.written_scalar]; rfl
  | float x => rw [toValue, Value.written_scalar]; rfl

namespace NativeType

def members (t : NativeType) : Members where
  keys := [Key.type, Key.args]
  values := [.text t.type, .list (t.args.map NativeArg.toValue)]

theorem read_written (t : NativeType) : read (t.toValue.written detail) = .value t := by
  have htype := (t.members.shows detail 0 rfl rfl).required_text
  have hargs := (t.members.shows detail 1 rfl rfl).withDefault_list
    (fun a _ => a.read_written detail) []
  change readRecord _ _ (t.members.toValue.written detail) = _
  rw [Members.readRecord_written, htype, hargs]
  rfl

end NativeType

namespace RelationInfo

def members (r : RelationInfo) : Members where
  keys := [Key.name, Key.relationFields, Key.references, Key.onDelete, Key.onUpdate]
  values := [.optionText r.name, .texts r.fields, .texts r.references,
    .optional ReferentialAction.toValue r.onDelete, .optional ReferentialAction.toValue r.onUpdate]

theorem read_written (r : RelationInfo) :
    read ((r.toValue .camel).written detail) = .value r := by
  have hname := (r.members.shows detail 0 rfl rfl).optional_text
  have hfields := (r.members.shows detail 1 rfl rfl).withDefault rfl (readTexts_written detail _) []
  have hreferences :=
    (r.members.shows detail 2 rfl rfl).withDefault rfl (readTexts_written detail _) []
  have honDelete := ReferentialAction.optional_shown detail (r.members.shows detail 3 rfl rfl)
  have honUpdate := ReferentialAction.optional_shown detail (r.members.shows detail 4 rfl rfl)
  change readRecord _ _ (r.members.toValue.written detail) = _
  rw [Members.readRecord_written, hname, hfields, hreferences, honDelete, honUpdate]
  rfl

end RelationInfo

def FieldKind.keys : FieldKind → List Key
  | .scalar => [Key.isId, Key.isUnique, Key.isUpdatedAt, Key.defaultValue, Key.nativeType]
  | .enum => [Key.isId, Key.isUnique, Key.defaultValue]
  | .relation => [Key.relation]

def FieldContent.values : FieldContent → List Value
  | .scalar c =>
    [.bool c.isId, .bool c.isUnique, .bool c.isUpdatedAt, .optionText c.defaultValue,
      .optional NativeType.toValue c.nativeType]
  | .enum c => [.bool c.isId, .bool c.isUnique, .optionText c.defaultValue]
  | .relation info => [.optional (RelationInfo.toValue .camel) info]

theorem FieldKind.table_lookup_name (kind : FieldKind) :
    FieldKind.table.lookup kind.name = some kind := by
  cases kind <;> rfl

namespace Field

def sharedKeys : List Key :=
  [Key.id, Key.name, Key.type, Key.isOptional, Key.isArray, Key.mapName, Key.ignore, Key.origin,
    Key.kind]

def sharedValues (f : Field) : List Value :=
  [.optionText f.id, .text f.name, .text f.type, .bool f.isOptional, .bool f.isArray,
    .optionText f.mapName, .bool f.ignore, .text f.origin.name, .text f.kind.name]

theorem keys_distinct (kind : FieldKind) : Key.Distinct (sharedKeys ++ kind.keys) := by
  cases kind <;> decide

theorem values_length (f : Field) :
    (f.sharedValues ++ f.content.values).length = (sharedKeys ++ f.kind.keys).length := by
  obtain ⟨id, name, type, isOptional, isArray, mapName, ignore, origin, content⟩ := f
  cases content <;> rfl

def members (f : Field) : Members where
  keys := sharedKeys ++ f.kind.keys
  values := f.sharedValues ++ f.content.values
  distinct := keys_distinct f.kind
  length_eq := f.values_length

theorem toValue_written (f : Field) :
    f.toValue.written detail = .map (f.members.written detail) := by
  have hrecord : f.toValue = f.members.toValue := by
    obtain ⟨id, name, type, isOptional, isArray, mapName, ignore, origin, content⟩ := f
    cases content <;> rfl
  rw [hrecord, Members.toValue_written]

theorem readContent_written (f : Field) :
    FieldContent.read (f.members.written detail) f.kind = .value f.content := by
  obtain ⟨id, name, type, isOptional, isArray, mapName, ignore, origin, content⟩ := f
  cases content with
  | scalar c =>
      let f : Field := ⟨id, name, type, isOptional, isArray, mapName, ignore, origin, .scalar c⟩
      have hisId := withDefault_truth detail (f.members.shows detail 9 rfl rfl) false
      have hisUnique := withDefault_truth detail (f.members.shows detail 10 rfl rfl) false
      have hisUpdatedAt := withDefault_truth detail (f.members.shows detail 11 rfl rfl) false
      have hdefaultValue := (f.members.shows detail 12 rfl rfl).optional_text
      have hnativeType := (f.members.shows detail 13 rfl rfl).optional
        fun t _ => ⟨rfl, NativeType.read_written detail t⟩
      change FieldContent.scalar <$> ScalarContent.read (f.members.written detail) = _
      unfold ScalarContent.read
      rw [hisId, hisUnique, hisUpdatedAt, hdefaultValue, hnativeType]
      rfl
  | enum c =>
      let f : Field := ⟨id, name, type, isOptional, isArray, mapName, ignore, origin, .enum c⟩
      have hisId := withDefault_truth detail (f.members.shows detail 9 rfl rfl) false
      have hisUnique := withDefault_truth detail (f.members.shows detail 10 rfl rfl) false
      have hdefaultValue := (f.members.shows detail 11 rfl rfl).optional_text
      change FieldContent.enum <$> EnumContent.read (f.members.written detail) = _
      unfold EnumContent.read
      rw [hisId, hisUnique, hdefaultValue]
      rfl
  | relation info =>
      let f : Field :=
        ⟨id, name, type, isOptional, isArray, mapName, ignore, origin, .relation info⟩
      have hrelation := (f.members.shows detail 9 rfl rfl).optional
        fun r _ => ⟨rfl, RelationInfo.read_written detail r⟩
      change FieldContent.relation <$> (f.members.written detail).optional Key.relation _ = _
      rw [hrelation]
      rfl

theorem readAs_written (f : Field) : readAs f.kind (f.members.written detail) = .value f := by
  refine readAs_eq_value_iff.mpr ⟨?_, ?_, ?_, ?_, ?_, ?_, ?_, ?_, f.readContent_written detail⟩
  · exact (f.members.shows detail 0 rfl rfl).optional_text
  · exact (f.members.shows detail 1 rfl rfl).required_text
  · exact (f.members.shows detail 2 rfl rfl).required_text
  · exact withDefault_truth detail (f.members.shows detail 3 rfl rfl) false
  · exact withDefault_truth detail (f.members.shows detail 4 rfl rfl) false
  · exact (f.members.shows detail 5 rfl rfl).optional_text
  · exact withDefault_truth detail (f.members.shows detail 6 rfl rfl) false
  · exact Origin.withDefault_shown detail (f.members.shows detail 7 rfl rfl) .user

theorem get?_kind_written (f : Field) :
    (f.members.written detail).get? "kind" = some (.text f.kind.name) := by
  have hkind := (f.members.shows detail 8 rfl rfl).get?_plain rfl
  rwa [Value.written_scalar] at hkind

theorem read_written (f : Field) : read (f.toValue.written detail) = .value f := by
  rw [toValue_written]
  unfold read
  simp only [Value.exposed_map, Entries.getD, get?_kind_written, Option.getD_some,
    FieldKind.table_lookup_name, readAs_written, Reading.under_value]

end Field

/-! ### Raw fields and raw models

What is written of a field brings its kind and no key beside its relation, so nothing is put in
order when it is read. -/

theorem mapM_eq_ok_self {ε α : Type} {f : α → Except ε α} {l : List α}
    (h : ∀ a ∈ l, f a = .ok a) : l.mapM f = .ok l := by
  induction l with
  | nil => rfl
  | cons a l ih =>
      rw [List.mapM_cons, h a List.mem_cons_self, ih fun b hb => h b (List.mem_cons_of_mem a hb)]
      rfl

theorem RawField.normalizeValue_written (known : KnownNames) (f : Field) :
    normalizeValue known (f.toValue.written detail) = .ok (f.toValue.written detail) := by
  have hflat : hasFlatKey (f.members.written detail) = false := by
    refine List.any_eq_false.mpr fun k hk => ?_
    have habsent : ∀ key ∈ Field.sharedKeys ++ f.kind.keys, key.camel ≠ k.flat := by
      revert k
      cases f.kind <;> decide
    rw [Entries.has, f.members.get?_eq_none detail habsent]
    simp
  have hkind : ((f.members.written detail).getD "kind").truthy = true := by
    rw [Entries.getD, f.get?_kind_written detail]
    exact f.kind.truthy_name
  have hnormal : normalize (f.members.written detail) known = .ok (f.members.written detail) := by
    unfold normalize foldRelation
    rw [if_neg (by simp [hflat])]
    change (if _ then _ else _ : Except ShapeError Entries) = _
    rw [if_pos hkind]
  rw [f.toValue_written, normalizeValue, Value.exposed_map]
  simp only [hnormal]
  rfl

namespace Model

def members (m : Model) : Members where
  keys := [Key.id, Key.name, Key.fields, Key.mapName, Key.ignore, Key.compositeId,
    Key.compositeUnique, Key.compositeIndex, Key.fulltextIndex, Key.schema]
  values := [.text m.id, .text m.name, .list (m.fields.map Field.toValue), .optionText m.mapName,
    .bool m.ignore, .optional .texts m.compositeId, .textLists m.compositeUnique,
    .textLists m.compositeIndex, .textLists m.fulltextIndex, .optionText m.schema]

theorem toValue_written (m : Model) : m.toValue.written detail = .map (m.members.written detail) :=
  m.members.toValue_written detail

theorem get?_name_written (m : Model) :
    (m.members.written detail).get? "name" = some (.text m.name) := by
  have hname := (m.members.shows detail 1 rfl rfl).get?_plain rfl
  rwa [Value.written_scalar] at hname

theorem normalizeFields_written (known : KnownNames) (m : Model) :
    RawModel.normalizeFields known (m.members.written detail) = .ok (m.members.written detail) := by
  have hfields := (m.members.shows detail 2 rfl rfl).get?_plain rfl
  rw [Value.written_list, List.map_map] at hfields
  have hnormal :
      (m.fields.map (Value.written detail ∘ Field.toValue)).mapM (RawField.normalizeValue known) =
        .ok (m.fields.map (Value.written detail ∘ Field.toValue)) := by
    refine mapM_eq_ok_self fun v hv => ?_
    obtain ⟨f, -, rfl⟩ := List.mem_map.mp hv
    exact RawField.normalizeValue_written detail known f
  unfold RawModel.normalizeFields
  simp only [hfields, Option.map_some, Value.exposed_list, hnormal]
  exact congrArg Except.ok (Entries.insert_of_get? hfields)

theorem normalizeValue_written (known : KnownNames) (m : Model) :
    RawModel.normalizeValue known (m.toValue.written detail) = .ok (m.toValue.written detail) := by
  rw [toValue_written, RawModel.normalizeValue, Value.exposed_map]
  simp only [normalizeFields_written]
  rfl

theorem complaint_eq_none_iff {m : Model} : m.complaint = none ↔ m.HasDistinctFields := by
  simp [complaint, HasDistinctFields, Document.firstRepeated_eq_none_iff]

theorem read_written {m : Model} (h : m.HasDistinctFields) :
    read (m.toValue.written detail) = .value m := by
  have hid := (m.members.shows detail 0 rfl rfl).required_text
  have hname := (m.members.shows detail 1 rfl rfl).required_text
  have hfields := (m.members.shows detail 2 rfl rfl).withDefault_list
    (fun f _ => Field.read_written detail f) []
  have hmapName := (m.members.shows detail 3 rfl rfl).optional_text
  have hignore := withDefault_truth detail (m.members.shows detail 4 rfl rfl) false
  have hcompositeId := (m.members.shows detail 5 rfl rfl).optional
    fun ss _ => ⟨rfl, readTexts_written detail ss⟩
  have hcompositeUnique := (m.members.shows detail 6 rfl rfl).withDefault rfl
    (readTextLists_written detail _) []
  have hcompositeIndex := (m.members.shows detail 7 rfl rfl).withDefault rfl
    (readTextLists_written detail _) []
  have hfulltextIndex := (m.members.shows detail 8 rfl rfl).withDefault rfl
    (readTextLists_written detail _) []
  have hschema := (m.members.shows detail 9 rfl rfl).optional_text
  have hnormal : readNormal (m.members.written detail) = .value m := by
    refine Reading.check_eq_value_iff.mpr ⟨?_, complaint_eq_none_iff.mpr h⟩
    rw [hid, hname, hfields, hmapName, hignore, hcompositeId, hcompositeUnique, hcompositeIndex,
      hfulltextIndex, hschema]
    rfl
  change readRecord _ _ (m.members.toValue.written detail) = _
  rw [Members.readRecord_written, normalizeFields_written]
  exact hnormal

end Model

/-! ### The other records of a document -/

namespace Enumeration

theorem repeated_eq_nil_iff {values : List String} : repeated values = [] ↔ values.Nodup := by
  have hsorted (l : List String) : l.mergeSort Text.notAfter = [] ↔ l = [] := by
    rw [← List.length_eq_zero_iff, List.length_mergeSort, List.length_eq_zero_iff]
  have hdups (l : List String) : l.eraseDups = [] ↔ l = [] := by
    cases l <;> simp [List.eraseDups_cons]
  rw [repeated, hsorted, hdups, List.filter_eq_nil_iff, List.nodup_iff_count_le_one]
  constructor
  · intro h v
    by_cases hv : v ∈ values
    · simpa using h v hv
    · simp [List.count_eq_zero_of_not_mem hv]
  · intro h v _
    simpa using h v

theorem complaint_eq_none_iff {e : Enumeration} : e.complaint = none ↔ e.values.Nodup := by
  rw [← repeated_eq_nil_iff, complaint]
  cases repeated e.values <;> simp

def members (e : Enumeration) : Members where
  keys := [Key.id, Key.name, Key.values, Key.mapName]
  values := [.text e.id, .text e.name, .texts e.values, .optionText e.mapName]

theorem toValue_written (e : Enumeration) :
    e.toValue.written detail = .map (e.members.written detail) :=
  e.members.toValue_written detail

theorem get?_name_written (e : Enumeration) :
    (e.members.written detail).get? "name" = some (.text e.name) := by
  have hname := (e.members.shows detail 1 rfl rfl).get?_plain rfl
  rwa [Value.written_scalar] at hname

theorem read_written {e : Enumeration} (h : e.values.Nodup) :
    read (e.toValue.written detail) = .value e := by
  have hid := (e.members.shows detail 0 rfl rfl).required_text
  have hname := (e.members.shows detail 1 rfl rfl).required_text
  have hvalues := (e.members.shows detail 2 rfl rfl).withDefault rfl (readTexts_written detail _) []
  have hmapName := (e.members.shows detail 3 rfl rfl).optional_text
  change readRecord _ _ (e.members.toValue.written detail) = _
  rw [Members.readRecord_written]
  refine Reading.check_eq_value_iff.mpr ⟨?_, complaint_eq_none_iff.mpr h⟩
  rw [hid, hname, hvalues, hmapName]
  rfl

end Enumeration

namespace RelationEdge

def members (e : RelationEdge) : Members where
  keys := [Key.id, Key.type, Key.source, Key.target, Key.name, Key.onDelete, Key.onUpdate,
    Key.isOptional, Key.origin]
  values := [.text e.id, .text e.type, .text e.source, .text e.target, .optionText e.name,
    .optional ReferentialAction.toValue e.onDelete, .optional ReferentialAction.toValue e.onUpdate,
    .bool e.isOptional, .text e.origin.name]

theorem read_written (e : RelationEdge) : read (e.toValue.written detail) = .value e := by
  have hid := (e.members.shows detail 0 rfl rfl).required_text
  have htype := (e.members.shows detail 1 rfl rfl).withDefault_text RelationType.oneToMany.name
  have hsource := (e.members.shows detail 2 rfl rfl).required_text
  have htarget := (e.members.shows detail 3 rfl rfl).required_text
  have hname := (e.members.shows detail 4 rfl rfl).optional_text
  have honDelete := ReferentialAction.optional_shown detail (e.members.shows detail 5 rfl rfl)
  have honUpdate := ReferentialAction.optional_shown detail (e.members.shows detail 6 rfl rfl)
  have hisOptional := withDefault_truth detail (e.members.shows detail 7 rfl rfl) true
  have horigin := Origin.withDefault_shown detail (e.members.shows detail 8 rfl rfl) .user
  change readRecord _ _ (e.members.toValue.written detail) = _
  rw [Members.readRecord_written, readEntries, hid, htype, hsource, htarget, hname, honDelete,
    honUpdate, hisOptional, horigin]
  rfl

end RelationEdge

namespace EnumEdge

def members (e : EnumEdge) : Members where
  keys := [Key.id, Key.enumId, Key.modelId, Key.fieldId, Key.fieldName, Key.origin]
  values := [.text e.id, .text e.enumId, .text e.modelId, .text e.fieldId, .text e.fieldName,
    .text e.origin.name]

theorem read_written (e : EnumEdge) : read (e.toValue.written detail) = .value e := by
  have hid := (e.members.shows detail 0 rfl rfl).required_text
  have henumId := (e.members.shows detail 1 rfl rfl).required_text
  have hmodelId := (e.members.shows detail 2 rfl rfl).required_text
  have hfieldId := (e.members.shows detail 3 rfl rfl).required_text
  have hfieldName := (e.members.shows detail 4 rfl rfl).required_text
  have horigin := Origin.withDefault_shown detail (e.members.shows detail 5 rfl rfl) .derived
  change readRecord _ _ (e.members.toValue.written detail) = _
  rw [Members.readRecord_written, hid, henumId, hmodelId, hfieldId, hfieldName, horigin]
  rfl

end EnumEdge

namespace Generator

def members (g : Generator) : Members where
  keys := [Key.provider, Key.previewFeatures, Key.output, Key.engineType]
  values := [.text g.provider, .texts g.previewFeatures, .optionText g.output,
    .optionText g.engineType]

theorem read_written (g : Generator) : read (g.toValue.written detail) = .value g := by
  have hprovider := (g.members.shows detail 0 rfl rfl).withDefault_text "prisma-client"
  have hpreviewFeatures :=
    (g.members.shows detail 1 rfl rfl).withDefault rfl (readTexts_written detail _) []
  have houtput := (g.members.shows detail 2 rfl rfl).optional_text
  have hengineType := (g.members.shows detail 3 rfl rfl).optional_text
  change readRecord _ _ (g.members.toValue.written detail) = _
  rw [Members.readRecord_written, hprovider, hpreviewFeatures, houtput, hengineType]
  rfl

end Generator

namespace Datasource

def members (d : Datasource) : Members where
  keys := [Key.provider]
  values := [.text d.provider.name]

theorem read_written (d : Datasource) : read (d.toValue.written detail) = .value d := by
  have hprovider := (d.members.shows detail 0 rfl rfl).withDefault_scalar rfl
    d.provider.read_name .postgresql
  change readRecord _ _ (d.members.toValue.written detail) = _
  rw [Members.readRecord_written, hprovider]
  rfl

end Datasource

end DrawnSchema
