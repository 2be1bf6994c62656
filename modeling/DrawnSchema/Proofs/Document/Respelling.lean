import DrawnSchema.Canvas
import DrawnSchema.Proofs.Document.Dump
import DrawnSchema.Proofs.Document.Records
import DrawnSchema.Proofs.Document.Spelling

/-!
# A document reads alike under any spelling

The attributes of a document may be respelled at any depth, its records in whichever lists they are.
Putting the raw data in order looks at attributes that have one spelling only, so what it makes of a
respelled document is still one that is alike, and it is read to the same, or refused for the same
reasons in the same order.
-/

namespace DrawnSchema

/-! ### The attributes of each record -/

def RelationInfo.slots : List Slot :=
  [Key.name, Key.relationFields, Key.references, Key.onDelete, Key.onUpdate].map .plain

def RelationInfo.Respelled : Value → Value → Prop := RespelledRecord fun _ => slots

namespace Field

def plainKeys : List Key := sharedKeys ++ FieldKind.scalar.keys

/-- The attributes of a field of any kind, and what may stand in the place of its relation. A native
type has attributes of one spelling only. -/
def slots (relation : Value → Value → Prop) : List Slot :=
  plainKeys.map .plain ++ [{ key := Key.relation, respelled := relation }]

/-- The relation of a field that has keys of it beside it as well is left as it is. -/
def Respelled : Value → Value → Prop :=
  RespelledRecord fun m => slots fun v v' =>
    RawField.hasFlatKey m = false ∧ RelationInfo.Respelled v v'

end Field

namespace Model

def plainKeys : List Key :=
  [Key.id, Key.name, Key.mapName, Key.ignore, Key.compositeId, Key.compositeUnique,
    Key.compositeIndex, Key.fulltextIndex, Key.schema]

/-- The attributes of a model, and what may stand in the place of its fields. -/
def slots (fields : Value → Value → Prop) : List Slot :=
  plainKeys.map .plain ++ [{ key := Key.fields, respelled := fields }]

def Respelled : Value → Value → Prop :=
  RespelledRecord fun _ => slots (RespelledList Field.Respelled)

end Model

def Enumeration.slots : List Slot := [Key.id, Key.name, Key.values, Key.mapName].map .plain

def Enumeration.Respelled : Value → Value → Prop := RespelledRecord fun _ => slots

def RelationEdge.slots : List Slot :=
  [Key.id, Key.type, Key.source, Key.target, Key.name, Key.onDelete, Key.onUpdate, Key.isOptional,
    Key.origin].map .plain

def RelationEdge.Respelled : Value → Value → Prop := RespelledRecord fun _ => slots

def EnumEdge.slots : List Slot :=
  [Key.id, Key.enumId, Key.modelId, Key.fieldId, Key.fieldName, Key.origin].map .plain

def EnumEdge.Respelled : Value → Value → Prop := RespelledRecord fun _ => slots

def Generator.slots : List Slot :=
  [Key.provider, Key.previewFeatures, Key.output, Key.engineType].map .plain

def Generator.Respelled : Value → Value → Prop := RespelledRecord fun _ => slots

namespace Document

/-- The attributes of a document, and what may stand in the place of its models. A datasource has
one attribute, which has one spelling. -/
def slots (models : Value → Value → Prop) : List Slot :=
  [{ key := Key.enums, respelled := RespelledList Enumeration.Respelled },
    { key := Key.relationEdges, respelled := RespelledList RelationEdge.Respelled },
    { key := Key.enumEdges, respelled := RespelledList EnumEdge.Respelled },
    { key := Key.generator, respelled := Generator.Respelled },
    .plain Key.datasource] ++ [{ key := Key.models, respelled := models }]

def Respelled : Value → Value → Prop :=
  RespelledRecord fun _ => slots (RespelledList Model.Respelled)

end Document

/-! ### Records without records -/

section Reading

variable {m m' : Entries} {v v' : Value}

theorem RelationInfo.readsAlike (h : Respelled v v') : ReadsAlike read v v' := by
  refine RespelledRecord.readsAlike h (fun _ => by decide) fun m m' halike => ?_
  simp (disch := simp [slots]) only [Reading.unplaced_seq, Reading.unplaced_map,
    halike.withDefault_plain, halike.optional_plain]

theorem Enumeration.readsAlike (h : Respelled v v') : ReadsAlike read v v' := by
  refine RespelledRecord.readsAlike h (fun _ => by decide) fun m m' halike => ?_
  simp (disch := simp [slots]) only [Reading.unplaced_check, Reading.unplaced_seq,
    Reading.unplaced_map, halike.required_plain, halike.withDefault_plain, halike.optional_plain]

theorem RelationEdge.readsAlike (h : Respelled v v') : ReadsAlike read v v' := by
  refine RespelledRecord.readsAlike h (fun _ => by decide) fun m m' halike => ?_
  simp (disch := simp [slots]) only [readEntries, Reading.unplaced_seq, Reading.unplaced_map,
    halike.required_plain, halike.withDefault_plain, halike.optional_plain]

theorem EnumEdge.readsAlike (h : Respelled v v') : ReadsAlike read v v' := by
  refine RespelledRecord.readsAlike h (fun _ => by decide) fun m m' halike => ?_
  simp (disch := simp [slots]) only [Reading.unplaced_seq, Reading.unplaced_map,
    halike.required_plain, halike.withDefault_plain]

theorem Generator.readsAlike (h : Respelled v v') : ReadsAlike read v v' := by
  refine RespelledRecord.readsAlike h (fun _ => by decide) fun m m' halike => ?_
  simp (disch := simp [slots]) only [Reading.unplaced_seq, Reading.unplaced_map,
    halike.withDefault_plain, halike.optional_plain]

end Reading

/-! ### Fields -/

namespace RespelledRecord

variable {slots : Entries → List Slot} {v v' : Value}

theorem truthy_eq (h : RespelledRecord slots v v') : v'.truthy = v.truthy := by
  obtain @⟨m, m', hv, hv', hm, heach⟩ := h
  have hm' : m' ≠ [] := fun heq => hm (List.forall₂_nil_right_iff.mp (heq ▸ heach))
  rw [Value.truthy_of_exposed_map hv hm, Value.truthy_of_exposed_map hv' hm']

theorem isNull_eq_false (h : RespelledRecord slots v v') :
    v.isNull = false ∧ v'.isNull = false := by
  obtain ⟨hv, hv', -, -⟩ := h
  exact ⟨Value.isNull_of_exposed_map hv, Value.isNull_of_exposed_map hv'⟩

end RespelledRecord

namespace Field

variable {m m' : Entries} {relation : Value → Value → Prop}

theorem slots_distinct (relation : Value → Value → Prop) :
    Key.Distinct ((slots relation).map (·.key)) := by
  change Key.Distinct (plainKeys ++ [Key.relation])
  decide

theorem plain_mem {k : Key} (hk : k ∈ plainKeys) : .plain k ∈ slots relation :=
  List.mem_append_left _ (List.mem_map_of_mem hk)

theorem relation_mem : { key := Key.relation, respelled := relation } ∈ slots relation :=
  List.mem_append_right _ (List.mem_singleton_self _)

theorem kind_mem : Key.kind ∈ plainKeys := List.mem_of_getElem? (i := 8) rfl

theorem type_mem : Key.type ∈ plainKeys := List.mem_of_getElem? (i := 2) rfl

theorem key_mem {s : Slot} (hs : s ∈ slots relation) : s.key ∈ plainKeys ++ [Key.relation] :=
  List.mem_map_of_mem (f := (·.key)) hs

/-- A relation and a kind are given under one spelling. -/
theorem single_of_mem {s : Slot} (name : String) (hname : name ∈ ["relation", "kind"])
    (hs : s ∈ slots relation) (haccepted : name ∈ s.key.accepted) : s.key.accepted = [name] := by
  have hkeys : ∀ name ∈ ["relation", "kind"], ∀ k ∈ plainKeys ++ [Key.relation],
      name ∈ k.accepted → k.accepted = [name] := by decide
  exact hkeys name hname s.key (key_mem hs) haccepted

theorem alike_imp {R S : Value → Value → Prop} (h : m.Alike (slots R) m')
    (himp : ∀ v v', R v v' → S v v') : m.Alike (slots S) m' := by
  have hrelation : Entries.AgreeOn (fun v v' => v = v' ∨ R v v') Key.relation m m' :=
    h.agree _ relation_mem
  exact h.respell rfl (hrelation.imp fun v v' hv => hv.imp_right (himp v v'))

theorem readAs_unplaced (h : m.Alike (slots RelationInfo.Respelled) m') (kind : FieldKind) :
    (readAs kind m').unplaced = (readAs kind m).unplaced := by
  have hcontent : (FieldContent.read m' kind).unplaced = (FieldContent.read m kind).unplaced := by
    cases kind with
    | scalar =>
        simp (disch := simp [slots, plainKeys, FieldKind.keys]) only [FieldContent.read,
          ScalarContent.read, Reading.unplaced_seq, Reading.unplaced_map, h.withDefault_plain,
          h.optional_plain]
    | enum =>
        simp (disch := simp [slots, plainKeys, FieldKind.keys]) only [FieldContent.read,
          EnumContent.read, Reading.unplaced_seq, Reading.unplaced_map, h.withDefault_plain,
          h.optional_plain]
    | relation =>
        have hrelation : (m'.optional Key.relation RelationInfo.read).unplaced =
            (m.optional Key.relation RelationInfo.read).unplaced := by
          refine h.withDefault relation_mem none fun v v' hv => ?_
          exact readsAlike_optional hv.isNull_eq_false.1 hv.isNull_eq_false.2
            (RelationInfo.readsAlike hv)
        simp only [FieldContent.read, Reading.unplaced_map, hrelation]
  simp (disch := simp [slots, plainKeys, sharedKeys]) only [readAs, Reading.unplaced_seq,
    Reading.unplaced_map, h.required_plain, h.withDefault_plain, h.optional_plain, hcontent]

theorem readsAlike (h : m.Alike (slots RelationInfo.Respelled) m') :
    ReadsAlike read (.map m) (.map m') := by
  have hkind : Entries.getD m' "kind" = Entries.getD m "kind" :=
    h.getD_eq (plain_mem kind_mem)
  simp only [ReadsAlike, read, Value.exposed_map, hkind]
  split
  next tag _ =>
    cases FieldKind.table.lookup tag with
    | some kind => simp only [Reading.unplaced_under, readAs_unplaced h]
    | none => rfl
  next => rfl

end Field

namespace RawField

variable {slots : List Slot} {field field' : Entries} {known : KnownNames}

theorem foldl_foldKey_alike (keys : List FlatKey) (relation : Entries)
    (hkeys : ∀ k ∈ keys, ∀ s ∈ slots, k.flat ∉ s.key.accepted) (h : field.Alike slots field') :
    Entries.Alike slots (keys.foldl foldKey (field, relation)).1
        (keys.foldl foldKey (field', relation)).1 ∧
      (keys.foldl foldKey (field', relation)).2 = (keys.foldl foldKey (field, relation)).2 := by
  induction keys generalizing field field' relation with
  | nil => exact ⟨h, rfl⟩
  | cons k keys ih =>
      have hk := hkeys k List.mem_cons_self
      have hrest : ∀ k ∈ keys, ∀ s ∈ slots, k.flat ∉ s.key.accepted :=
        fun k' hk' => hkeys k' (List.mem_cons_of_mem k hk')
      have hget : field'.get? k.flat = field.get? k.flat := h.others k.flat hk
      simp only [List.foldl_cons, foldKey, hget]
      cases field.get? k.flat with
      | none => exact ih relation hrest h
      | some v => exact ih (relation.insertNew k.nested v) hrest (h.erase hk)

theorem flat_not_accepted {R : Value → Value → Prop} :
    ∀ k ∈ flatKeys, ∀ s ∈ Field.slots R, k.flat ∉ s.key.accepted := by
  have hkeys : ∀ k ∈ flatKeys, ∀ key ∈ Field.plainKeys ++ [Key.relation],
      k.flat ∉ key.accepted := by decide
  exact fun k hk s hs => hkeys k hk s.key (Field.key_mem hs)

theorem foldRelation_alike
    (h : field.Alike (Field.slots fun v v' =>
      hasFlatKey field = false ∧ RelationInfo.Respelled v v') field') :
    SameOutcome (Entries.Alike (Field.slots RelationInfo.Respelled)) (foldRelation field)
      (foldRelation field') := by
  have hflat' : hasFlatKey field' = hasFlatKey field := by
    rw [Bool.eq_iff_iff, hasFlatKey, hasFlatKey, List.any_eq_true, List.any_eq_true]
    refine exists_congr fun k => and_congr_right fun hk => ?_
    rw [Entries.has, Entries.has, h.others k.flat (flat_not_accepted k hk)]
  cases hflat : hasFlatKey field with
  | false =>
      -- There is nothing to fold, and the relation may be respelled.
      rw [foldRelation_of_no_flat hflat, foldRelation_of_no_flat (hflat'.trans hflat)]
      exact .ok (Field.alike_imp h fun v v' hv => hv.2)
  | true =>
      -- Beside flat keys the relation is the same, so that both folds start from the same entries.
      have hsame : field.Alike (Field.slots fun _ _ => False) field' :=
        Field.alike_imp h fun v v' hv => absurd (hflat.symm.trans hv.1) (by decide)
      have hstart : startOfRelation field' = startOfRelation field := by
        rw [startOfRelation, startOfRelation, hsame.getD_eq Field.relation_mem]
      rw [foldRelation, foldRelation, if_pos hflat, if_pos (hflat'.trans hflat), hstart]
      refine (SameOutcome.refl (fun _ => rfl) (startOfRelation field)).bind ?_
      rintro start _ rfl
      obtain ⟨hfield, hrelation⟩ := foldl_foldKey_alike flatKeys start flat_not_accepted hsame
      generalize flatKeys.foldl foldKey (field, start) = folded at hfield hrelation ⊢
      generalize flatKeys.foldl foldKey (field', start) = folded' at hfield hrelation ⊢
      obtain ⟨folded, _⟩ := folded
      obtain ⟨folded', relation⟩ := folded'
      obtain rfl := hrelation
      have hinserted := hfield.insert_same (.map relation) fun s hs =>
        Field.single_of_mem "relation" (by decide) hs
      exact .ok (Field.alike_imp hinserted fun _ _ => False.elim)

theorem truthy_relation (h : field.Alike (Field.slots RelationInfo.Respelled) field') :
    (field'.getD "relation").truthy = (field.getD "relation").truthy := by
  have hrel := h.get?_single Field.relation_mem rfl
  rw [Entries.getD, Entries.getD]
  generalize field.get? "relation" = a at hrel ⊢
  generalize field'.get? "relation" = b at hrel ⊢
  cases hrel with
  | some hv =>
      obtain rfl | hv := hv
      · rfl
      · exact hv.truthy_eq
  | none => rfl

theorem normalize_alike (known : KnownNames)
    (h : field.Alike (Field.slots fun v v' =>
      hasFlatKey field = false ∧ RelationInfo.Respelled v v') field') :
    SameOutcome (Entries.Alike (Field.slots RelationInfo.Respelled)) (normalize field known)
      (normalize field' known) := by
  refine (foldRelation_alike h).bind fun m m' hm => ?_
  have hkind : m'.getD "kind" = m.getD "kind" := hm.getD_eq (Field.plain_mem Field.kind_mem)
  have htype : m'.getD "type" = m.getD "type" := hm.getD_eq (Field.plain_mem Field.type_mem)
  have hkindOf : kindOf m' known = kindOf m known := by
    simp only [kindOf, htype, truthy_relation hm]
  rw [hkind, hkindOf]
  split
  · exact .ok hm
  · refine (SameOutcome.refl (fun _ => rfl) (kindOf m known)).bind ?_
    rintro kind _ rfl
    exact .ok (hm.insert_same _ fun s hs => Field.single_of_mem "kind" (by decide) hs)

theorem normalizeValue_alike {v v' : Value} (known : KnownNames)
    (h : v = v' ∨ Field.Respelled v v') :
    SameOutcome (ReadsAlike Field.read) (normalizeValue known v) (normalizeValue known v') := by
  obtain rfl | h := h
  · exact .refl (.refl Field.read) _
  · obtain ⟨m, m', hv, hv', halike⟩ := h.exists_alike fun _ => Field.slots_distinct _
    simp only [normalizeValue, hv, hv']
    exact (normalize_alike known halike).bind fun _ _ hm => .ok (Field.readsAlike hm)

end RawField

theorem Field.build_alike {field field' : Entries} (known : KnownNames)
    (h : Respelled (.map field) (.map field')) :
    SameOutcome (fun built built' => built'.1 = built.1 ∧ built'.2.unplaced = built.2.unplaced)
      (build field known) (build field' known) := by
  obtain ⟨m, m', hm, hm', halike⟩ := h.exists_alike fun _ => slots_distinct _
  obtain rfl := Value.map.inj hm
  obtain rfl := Value.map.inj hm'
  refine (RawField.normalize_alike {} halike).bind fun normal normal' hnormal => ?_
  have htype : normal'.get? "type" = normal.get? "type" :=
    hnormal.get?_eq (plain_mem type_mem)
  rw [htype]
  cases normal.get? "type" with
  | none => exact .error _
  | some type =>
      refine (SameOutcome.refl (fun _ => rfl) (RawField.kindForType type known)).bind ?_
      rintro kind _ rfl
      exact .ok ⟨rfl, readAs_unplaced hnormal kind⟩

/-! ### Models -/

theorem Model.readNormal_unplaced {m m' : Entries}
    (h : m.Alike (slots (ReadsAlike (readList Field.read))) m') :
    (readNormal m').unplaced = (readNormal m).unplaced := by
  have hfields : (m'.withDefault Key.fields [] (readList Field.read)).unplaced =
      (m.withDefault Key.fields [] (readList Field.read)).unplaced := by
    refine h.withDefault (s := ⟨Key.fields, ReadsAlike (readList Field.read)⟩) ?_ [] fun _ _ h => h
    simp [slots]
  simp (disch := simp [slots, plainKeys]) only [readNormal, Reading.unplaced_check,
    Reading.unplaced_seq, Reading.unplaced_map, h.required_plain, h.withDefault_plain,
    h.optional_plain, hfields]

namespace RawModel

variable {model model' : Entries}

theorem normalizeFields_alike (known : KnownNames)
    (h : model.Alike (Model.slots (RespelledList Field.Respelled)) model') :
    SameOutcome (Entries.Alike (Model.slots (ReadsAlike (readList Field.read))))
      (normalizeFields known model) (normalizeFields known model') := by
  have hslot : ⟨Key.fields, RespelledList Field.Respelled⟩ ∈
      Model.slots (RespelledList Field.Respelled) := by simp [Model.slots]
  obtain ⟨vs, vs', hvs, hvs', heach⟩ | ⟨hlist, heq⟩ := h.items hslot rfl rfl
  · simp only [normalizeFields, hvs, hvs']
    have hfields := SameOutcome.mapM heach fun v v' hv => RawField.normalizeValue_alike known hv
    refine hfields.bind fun fields fields' hread => .ok ?_
    refine h.insert_last rfl rfl (by decide) (Or.inr ?_)
    exact readsAlike_list (Value.exposed_list fields) (Value.exposed_list fields') hread
  · rw [normalizeFields_of_not_list hlist, normalizeFields_of_not_list (heq ▸ hlist)]
    exact .ok (h.respell_same rfl rfl heq)

theorem normalizeValue_alike {v v' : Value} (known : KnownNames)
    (h : v = v' ∨ Model.Respelled v v') :
    SameOutcome (ReadsAlike Model.read) (normalizeValue known v) (normalizeValue known v') := by
  obtain rfl | h := h
  · exact .refl (.refl Model.read) _
  · obtain ⟨m, m', hv, hv', halike⟩ := h.exists_alike fun _ => by decide
    simp only [normalizeValue, hv, hv']
    refine (normalizeFields_alike known halike).attach.bind fun n n' hn => .ok ?_
    obtain ⟨hn, hm, hm'⟩ := hn
    rw [ReadsAlike, read_of_normalizeFields hm, read_of_normalizeFields hm']
    exact Model.readNormal_unplaced hn

end RawModel

/-! ### Documents -/

theorem Document.readNormal_unplaced {m m' : Entries}
    (h : m.Alike (slots (ReadsAlike (readList Model.read))) m') :
    (readNormal m').unplaced = (readNormal m).unplaced := by
  have hmodels := h.withDefault (s := ⟨Key.models, ReadsAlike (readList Model.read)⟩)
    (by simp [slots]) [] fun _ _ h => h
  have henums := h.withDefault (s := ⟨Key.enums, RespelledList Enumeration.Respelled⟩)
    (by simp [slots]) [] fun _ _ h => h.readsAlike fun _ _ => Enumeration.readsAlike
  have hrelations := h.withDefault (s := ⟨Key.relationEdges, RespelledList RelationEdge.Respelled⟩)
    (by simp [slots]) [] fun _ _ h => h.readsAlike fun _ _ => RelationEdge.readsAlike
  have huses := h.withDefault (s := ⟨Key.enumEdges, RespelledList EnumEdge.Respelled⟩)
    (by simp [slots]) [] fun _ _ h => h.readsAlike fun _ _ => EnumEdge.readsAlike
  have hgenerator := h.withDefault (s := ⟨Key.generator, Generator.Respelled⟩)
    (by simp [slots]) {} fun _ _ => Generator.readsAlike
  have hdatasource : (m'.withDefault Key.datasource {} Datasource.read).unplaced =
      (m.withDefault Key.datasource {} Datasource.read).unplaced :=
    h.withDefault_plain (List.mem_of_getElem? (i := 4) rfl) _
  simp only [readNormal, Reading.unplaced_seq, Reading.unplaced_map, hmodels, henums, hrelations,
    huses, hgenerator, hdatasource]

namespace RawDocument

variable {document document' : Entries}

/-- Items that are the same or respelled records have the same names. -/
theorem namesOf_respelled {slots : Entries → List Slot} {items items' : List Value}
    (hdistinct : ∀ m, Key.Distinct ((slots m).map (·.key)))
    (hname : ∀ m, .plain Key.name ∈ slots m)
    (h : List.Forall₂ (fun v v' => v = v' ∨ RespelledRecord slots v v') items items') :
    namesOf items' = namesOf items := by
  refine namesOf_congr (h.imp ?_)
  rintro v v' (rfl | hv)
  · exact Or.inl rfl
  · obtain ⟨m, m', hm, hm', halike⟩ := hv.exists_alike hdistinct
    exact Or.inr ⟨m, m', hm, hm', halike.getD_eq (hname m)⟩

/-- A document and a respelled one are known the same names. -/
theorem knownNames_alike {models models' : List Value}
    (h : document.Alike (Document.slots (RespelledList Model.Respelled)) document')
    (hmodels : List.Forall₂ (fun v v' => v = v' ∨ Model.Respelled v v') models models') :
    knownNames models' (document'.getD "enums") = knownNames models (document.getD "enums") := by
  have hmodelNames : namesOf models' = namesOf models :=
    namesOf_respelled (fun _ => by decide) (fun _ => by simp [Model.slots, Model.plainKeys]) hmodels
  have hslot : ⟨Key.enums, RespelledList Enumeration.Respelled⟩ ∈
      Document.slots (RespelledList Model.Respelled) := by simp [Document.slots]
  obtain ⟨vs, vs', hvs, hvs', heach⟩ | ⟨-, heq⟩ := h.items hslot rfl rfl
  · refine knownNames_congr hmodelNames
      (itemsOrNone_of_list (Entries.exposed_getD_eq_list_iff.mpr hvs))
      (itemsOrNone_of_list (Entries.exposed_getD_eq_list_iff.mpr hvs')) ?_
    exact namesOf_respelled (fun _ => by decide) (fun _ => by simp [Enumeration.slots]) heach
  · rw [knownNames, knownNames, hmodelNames, Entries.getD, Entries.getD, heq]

theorem classify_alike
    (h : document.Alike (Document.slots (RespelledList Model.Respelled)) document') :
    SameOutcome (Entries.Alike (Document.slots (ReadsAlike (readList Model.read))))
      (classify document) (classify document') := by
  have hslot : ⟨Key.models, RespelledList Model.Respelled⟩ ∈
      Document.slots (RespelledList Model.Respelled) := by simp [Document.slots]
  obtain ⟨vs, vs', hvs, hvs', heach⟩ | ⟨hlist, heq⟩ := h.items hslot rfl rfl
  · simp only [classify, hvs, hvs', knownNames_alike h heach]
    refine (SameOutcome.refl (fun _ => rfl) (knownNames vs (document.getD "enums"))).bind ?_
    rintro known _ rfl
    have hmodels := SameOutcome.mapM heach fun v v' hv => RawModel.normalizeValue_alike known hv
    refine hmodels.bind fun models models' hread => .ok ?_
    refine h.insert_last rfl rfl (by decide) (Or.inr ?_)
    exact readsAlike_list (Value.exposed_list models) (Value.exposed_list models') hread
  · rw [classify_of_not_list hlist, classify_of_not_list (heq ▸ hlist)]
    exact .ok (h.respell_same rfl rfl heq)

end RawDocument

namespace Document

variable {data data' : Value}

theorem readsAlike (h : Respelled data data') : ReadsAlike read data data' := by
  refine RespelledRecord.readsAlike h (fun _ => by decide) fun m m' halike => ?_
  refine readPrepared_congr Reading.unplaced ?_
  exact (RawDocument.classify_alike halike).imp fun _ _ => readNormal_unplaced

/-- No spelling of an attribute is the key of the nodes, and the models have one spelling. -/
theorem isCanvas_respelled (h : Respelled data data') :
    Canvas.isCanvas data' = Canvas.isCanvas data := by
  obtain ⟨m, m', hm, hm', halike⟩ := h.exists_alike fun _ => by decide
  have hnodes : m'.get? "nodes" = m.get? "nodes" := by
    refine halike.others "nodes" fun s hs => ?_
    have hkeys : ∀ k ∈ (slots (RespelledList Model.Respelled)).map (·.key),
        "nodes" ∉ k.accepted := by decide
    exact hkeys s.key (List.mem_map_of_mem hs)
  have hslot : ⟨Key.models, RespelledList Model.Respelled⟩ ∈
      slots (RespelledList Model.Respelled) := by simp [slots]
  have hmodels : (m'.get? "models").isSome = (m.get? "models").isSome :=
    halike.isSome_get? hslot rfl
  simp only [Canvas.isCanvas, Canvas.mentions, hm, hm', Entries.has, hnodes, hmodels]

/-- A document with attributes under other spellings, at any depth, is read as the same document, or
is refused with the same complaints in the same order. A raw field with attributes under other
spellings is built alike. -/
theorem parse_respelled :
    (∀ data data' : Value, Canvas.isCanvas data = .ok false → Respelled data data' →
      (parse data').unplaced = (parse data).unplaced) ∧
    ∀ (field field' : Entries) (known : KnownNames), Field.Respelled (.map field) (.map field') →
      SameOutcome (fun built built' => built'.1 = built.1 ∧ built'.2.unplaced = built.2.unplaced)
        (Field.build field known) (Field.build field' known) := by
  refine ⟨fun data data' hcanvas h => ?_, fun field field' known h => Field.build_alike known h⟩
  have hcanvas' := (isCanvas_respelled h).trans hcanvas
  simp only [parse, hcanvas, hcanvas']
  exact readsAlike h

/-- The author of a post, with keys of one word and of several. -/
def camelAuthor : Entries := [
  (.text "name", .text "author"), (.text "type", .text "User"), (.text "isOptional", .bool true),
  (.text "relation", .map [
    (.text "name", .text "Authorship"), (.text "fields", .texts ["authorId"]),
    (.text "onDelete", .text "SET_NULL")])]

def snakeAuthor : Entries := [
  (.text "name", .text "author"), (.text "type", .text "User"), (.text "is_optional", .bool true),
  (.text "relation", .map [
    (.text "name", .text "Authorship"), (.text "fk_fields", .texts ["authorId"]),
    (.text "on_delete", .text "SET_NULL")])]

/-- Posts in a schema of their own, with an edge to their author. Whether their number is a key is
said by a value, which need not be a truth value. -/
def camelPosts (isKey : Value) : Entries := [
  (.text "models", .list [
    .map [(.text "id", .text "p"), (.text "name", .text "Post"), (.text "schema", .text "app"),
      (.text "fields", .list [
        .map [(.text "name", .text "id"), (.text "type", .text "Int"),
          (.text "isId", isKey)],
        .map camelAuthor])],
    .map [(.text "id", .text "u"), (.text "name", .text "User")]]),
  (.text "relationEdges", .list [
    .map [(.text "id", .text "e"), (.text "sourceModelId", .text "p"),
      (.text "targetModelId", .text "u")]])]

def snakePosts (isKey : Value) : Entries := [
  (.text "models", .list [
    .map [(.text "id", .text "p"), (.text "name", .text "Post"), (.text "schema_name", .text "app"),
      (.text "fields", .list [
        .map [(.text "name", .text "id"), (.text "type", .text "Int"),
          (.text "is_id", isKey)],
        .map snakeAuthor])],
    .map [(.text "id", .text "u"), (.text "name", .text "User")]]),
  (.text "relation_edges", .list [
    .map [(.text "id", .text "e"), (.text "source", .text "p"),
      (.text "target_model_id", .text "u")]])]

theorem respelled_camelAuthor : Field.Respelled (.map camelAuthor) (.map snakeAuthor) := by
  refine .intro rfl rfl (by simp [camelAuthor]) ?_
  refine .cons (.kept _) (.cons (.kept _) (.cons ?_ (.cons ?_ .nil)))
  · exact .respelled (s := .plain Key.isOptional) (List.mem_of_getElem? (i := 3) rfl) (by decide)
      (by decide) (by decide) (.inl rfl)
  · refine .respelled Field.relation_mem (by decide) (by decide) (by decide)
      (.inr ⟨rfl, .intro rfl rfl (by simp) ?_⟩)
    refine .cons (.kept _) (.cons ?_ (.cons ?_ .nil))
    · exact .respelled (s := .plain Key.relationFields) (List.mem_of_getElem? (i := 1) rfl)
        (by decide) (by decide) (by decide) (.inl rfl)
    · exact .respelled (s := .plain Key.onDelete) (List.mem_of_getElem? (i := 3) rfl) (by decide)
        (by decide) (by decide) (.inl rfl)

/-- What the posts are read as if their number is a key. -/
def keyedPosts : Document :=
  { models := [
      { id := "p", name := "Post", schema := some "app"
        fields := [
          { name := "id", type := "Int", content := .scalar { isId := true } },
          { name := "author", type := "User", isOptional := true
            content := .relation (some
              { name := some "Authorship", fields := ["authorId"], references := []
                onDelete := some .setNull, onUpdate := none }) }] },
      { id := "u", name := "User" }]
    relationEdges := [{ id := "e", source := "p", target := "u" }] }

theorem respelled_camelPosts (isKey : Value) :
    Respelled (.map (camelPosts isKey)) (.map (snakePosts isKey)) := by
  refine .intro rfl rfl (by simp [camelPosts]) (.cons ?_ (.cons ?_ .nil))
  · refine .respelled (List.mem_of_getElem? (i := 5) rfl) (Nat.le_refl 1) (by decide) (by decide)
      (.inr (.intro rfl rfl (.cons (.inr ?_) (.cons (.inl rfl) .nil))))
    refine .intro rfl rfl (by simp) ?_
    refine .cons (.kept _) (.cons (.kept _) (.cons ?_ (.cons ?_ .nil)))
    · exact .respelled (s := .plain Key.schema) (List.mem_of_getElem? (i := 8) rfl) (Nat.le_refl 1)
        (by decide) (by decide) (.inl rfl)
    · refine .respelled (List.mem_of_getElem? (i := 9) rfl) (Nat.le_refl 1) (by decide) (by decide)
        (.inr (.intro rfl rfl (.cons (.inr ?_) (.cons (.inr respelled_camelAuthor) .nil))))
      refine .intro rfl rfl (by simp) (.cons (.kept _) (.cons (.kept _) (.cons ?_ .nil)))
      exact .respelled (s := .plain Key.isId) (List.mem_of_getElem? (i := 9) rfl) (Nat.le_refl 1)
        (by decide) (by decide) (.inl rfl)
  · refine .respelled (List.mem_of_getElem? (i := 1) rfl) (Nat.le_refl 1) (by decide) (by decide)
      (.inr (.intro rfl rfl (.cons (.inr ?_) .nil)))
    refine .intro rfl rfl (by simp) (.cons (.kept _) (.cons ?_ (.cons ?_ .nil)))
    · exact .respelled (s := .plain Key.source) (List.mem_of_getElem? (i := 2) rfl) (by decide)
        (by decide) (by decide) (.inl rfl)
    · exact .respelled (s := .plain Key.target) (List.mem_of_getElem? (i := 3) rfl) (by decide)
        (by decide) (by decide) (.inl rfl)

/-- Posts are refused alike in both spellings where their key is given as null, and read alike where
it is given as a truth value. -/
theorem parse_respelled_posts :
    (∀ isKey, Canvas.isCanvas (.map (camelPosts isKey)) = .ok false) ∧
      (∀ isKey, Respelled (.map (camelPosts isKey)) (.map (snakePosts isKey))) ∧
      Field.Respelled (.map camelAuthor) (.map snakeAuthor) ∧
      (parse (.map (snakePosts .null))).unplaced = (parse (.map (camelPosts .null))).unplaced ∧
      (parse (.map (camelPosts (.bool true)))).unplaced = .value keyedPosts ∧
      (parse (.map (snakePosts (.bool true)))).unplaced = .value keyedPosts ∧
      SameOutcome (fun built built' => built'.1 = built.1 ∧ built'.2.unplaced = built.2.unplaced)
        (Field.build camelAuthor { models := [.text "User"] })
        (Field.build snakeAuthor { models := [.text "User"] }) := by
  have hcanvas (isKey : Value) : Canvas.isCanvas (.map (camelPosts isKey)) = .ok false := rfl
  have hread : (parse (.map (camelPosts (.bool true)))).unplaced = .value keyedPosts :=
    Reading.value?_eq_some_iff.mp (by decide +kernel)
  exact ⟨hcanvas, respelled_camelPosts, respelled_camelAuthor,
    parse_respelled.1 _ _ (hcanvas _) (respelled_camelPosts _), hread,
    (parse_respelled.1 _ _ (hcanvas _) (respelled_camelPosts _)).trans hread,
    parse_respelled.2 _ _ _ respelled_camelAuthor⟩

example : parse (.map (snakePosts .null)) = .faulty
    [⟨[.key "models", .index 0, .key "fields", .index 0, .key "scalar", .key "is_id"],
      .notTruth⟩] := rfl

end Document

end DrawnSchema
