import DrawnSchema.Proofs.Document.RoundTrip
import DrawnSchema.Proofs.Snapshot.Printed

/-!
# The dump of a document as it is printed and read

A dump is made of records of distinct keys, lists, texts and numbers, seven levels deep. Whether it
is brief or not, only its NaNs change when it is printed and read: what is read is the dump of the
document with one NaN for all. That document repeats no name either.
-/

namespace DrawnSchema

open Json (HasForm)

/-! ### The form of a dump -/

theorem Members.camel_nodup (members : Members) : (members.keys.map (·.camel)).Nodup := by
  obtain ⟨hnodup, hcamel⟩ := members.distinct
  generalize members.keys = keys at hnodup hcamel
  induction keys with
  | nil => exact List.nodup_nil
  | cons k keys ih =>
      rw [List.flatMap_cons, List.nodup_append] at hnodup
      obtain ⟨-, hrest, hapart⟩ := hnodup
      have hcamelRest : ∀ k' ∈ keys, k'.camel ∈ k'.accepted :=
        fun k' hk' => hcamel k' (List.mem_cons_of_mem k hk')
      refine List.nodup_cons.mpr ⟨fun hmem => ?_, ih hrest hcamelRest⟩
      obtain ⟨k', hk', heq⟩ := List.mem_map.mp hmem
      refine hapart k.camel (hcamel k List.mem_cons_self) k'.camel ?_ heq.symm
      exact List.mem_flatMap.mpr ⟨k', hk', hcamelRest k' hk'⟩

variable {n : Nat}

theorem Members.hasForm (members : Members) (h : ∀ v ∈ members.values, HasForm n v) :
    HasForm (n + 1) members.toValue := by
  have hkeys : members.pairs.map (fun a => Scalar.text a.1.camel) =
      (members.keys.map (·.camel)).map Scalar.text := by
    have hfst : members.pairs.map Prod.fst = members.keys :=
      List.map_fst_zip (Nat.le_of_eq members.length_eq.symm)
    rw [← hfst, List.map_map, List.map_map]
    rfl
  refine .map ?_ (fun e he => ?_) fun e he => ?_
  · rw [List.map_map, List.map_map]
    change (members.pairs.map fun a => Scalar.text a.1.camel).Nodup
    rw [hkeys]
    exact members.camel_nodup.map fun _ _ => Scalar.text.inj
  · obtain ⟨a, -, rfl⟩ := List.mem_map.mp he
    exact ⟨a.1, rfl⟩
  · obtain ⟨a, ha, rfl⟩ := List.mem_map.mp he
    obtain ⟨b, hb, rfl⟩ := List.mem_map.mp ha
    exact h b.2 (List.of_mem_zip hb).2

theorem hasForm_optionText (o : Option String) : HasForm n (.optionText o) := by
  cases o with
  | none => exact .null
  | some s => exact .text s

theorem hasForm_optional {α : Type} {write : α → Value} (h : ∀ a, HasForm n (write a))
    (o : Option α) : HasForm n (.optional write o) := by
  cases o with
  | none => exact .null
  | some a => exact h a

theorem hasForm_list {α : Type} {write : α → Value} (h : ∀ a, HasForm n (write a)) (l : List α) :
    HasForm (n + 1) (.list (l.map write)) :=
  .list fun v hv => by
    obtain ⟨a, -, rfl⟩ := List.mem_map.mp hv
    exact h a

theorem hasForm_texts (ss : List String) : HasForm (n + 1) (.texts ss) := hasForm_list .text ss

theorem hasForm_textLists (lists : List (List String)) : HasForm (n + 2) (.textLists lists) :=
  hasForm_list hasForm_texts lists

theorem NativeType.hasForm (t : NativeType) : HasForm (n + 2) t.toValue := by
  have harg (a : NativeArg) : HasForm n a.toValue := by
    cases a <;> constructor
  refine Members.hasForm t.members ?_
  simpa [members] using ⟨.text t.type, hasForm_list harg t.args⟩

theorem RelationInfo.hasForm (r : RelationInfo) : HasForm (n + 2) (r.toValue .camel) := by
  refine Members.hasForm r.members ?_
  simpa [members] using ⟨hasForm_optionText r.name, hasForm_texts r.fields,
    hasForm_texts r.references, hasForm_optional (fun a => .text a.name) r.onDelete,
    hasForm_optional (fun a => .text a.name) r.onUpdate⟩

theorem Field.hasForm (f : Field) : HasForm (n + 3) f.toValue := by
  obtain ⟨id, name, type, isOptional, isArray, mapName, ignore, origin, content⟩ := f
  have hshared : ∀ v ∈ sharedValues ⟨id, name, type, isOptional, isArray, mapName, ignore, origin,
      content⟩, HasForm (n + 2) v := by
    simpa [sharedValues] using ⟨hasForm_optionText id, .text name, .text type, .bool isOptional,
      .bool isArray, hasForm_optionText mapName, .bool ignore, .text origin.name, .text _⟩
  have hcontent : ∀ v ∈ content.values, HasForm (n + 2) v := by
    cases content with
    | scalar c =>
        simpa [FieldContent.values] using ⟨.bool c.isId, .bool c.isUnique, .bool c.isUpdatedAt,
          hasForm_optionText c.defaultValue, hasForm_optional NativeType.hasForm c.nativeType⟩
    | enum c =>
        simpa [FieldContent.values] using
          ⟨.bool c.isId, .bool c.isUnique, hasForm_optionText c.defaultValue⟩
    | relation info =>
        simpa [FieldContent.values] using hasForm_optional RelationInfo.hasForm info
  have hmembers := Members.hasForm (members ⟨id, name, type, isOptional, isArray, mapName, ignore,
    origin, content⟩) (List.forall_mem_append.mpr ⟨hshared, hcontent⟩)
  cases content <;> exact hmembers

theorem Model.hasForm (m : Model) : HasForm (n + 5) m.toValue := by
  refine Members.hasForm m.members ?_
  simpa [members] using ⟨.text m.id, .text m.name, hasForm_list Field.hasForm m.fields,
    hasForm_optionText m.mapName, .bool m.ignore, hasForm_optional hasForm_texts m.compositeId,
    hasForm_textLists m.compositeUnique, hasForm_textLists m.compositeIndex,
    hasForm_textLists m.fulltextIndex, hasForm_optionText m.schema⟩

theorem Enumeration.hasForm (e : Enumeration) : HasForm (n + 2) e.toValue := by
  refine Members.hasForm e.members ?_
  simpa [members] using ⟨.text e.id, .text e.name, hasForm_texts e.values,
    hasForm_optionText e.mapName⟩

theorem RelationEdge.hasForm (e : RelationEdge) : HasForm (n + 1) e.toValue := by
  refine Members.hasForm e.members ?_
  simpa [members] using ⟨.text e.id, .text e.type, .text e.source, .text e.target,
    hasForm_optionText e.name, hasForm_optional (fun a => .text a.name) e.onDelete,
    hasForm_optional (fun a => .text a.name) e.onUpdate, .bool e.isOptional, .text e.origin.name⟩

theorem EnumEdge.hasForm (e : EnumEdge) : HasForm (n + 1) e.toValue := by
  refine Members.hasForm e.members ?_
  simpa [members] using ⟨.text e.id, .text e.enumId, .text e.modelId, .text e.fieldId,
    .text e.fieldName, .text e.origin.name⟩

theorem Generator.hasForm (g : Generator) : HasForm (n + 2) g.toValue := by
  refine Members.hasForm g.members ?_
  simpa [members] using ⟨.text g.provider, hasForm_texts g.previewFeatures,
    hasForm_optionText g.output, hasForm_optionText g.engineType⟩

theorem Datasource.hasForm (d : Datasource) : HasForm (n + 1) d.toValue := by
  refine Members.hasForm d.members ?_
  simpa [members] using .text d.provider.name

theorem Document.hasForm (d : Document) : HasForm 7 d.toValue := by
  refine Members.hasForm d.members ?_
  simpa [members] using ⟨hasForm_list Model.hasForm d.models,
    hasForm_list Enumeration.hasForm d.enums, hasForm_list RelationEdge.hasForm d.relationEdges,
    hasForm_list EnumEdge.hasForm d.enumEdges, d.generator.hasForm, d.datasource.hasForm⟩

/-! ### Brief dumps -/

theorem briefMembers_sublist_keys (es : Entries) :
    ((Value.briefMembers es).map Prod.fst).Sublist (es.map Prod.fst) := by
  induction es with
  | nil => exact .slnil
  | cons e es ih =>
      rw [Value.briefMembers]
      split
      · exact ih.cons e.1
      · exact ih.cons_cons e.1

theorem exists_of_mem_briefMembers {es : Entries} {e : Scalar × Value}
    (h : e ∈ Value.briefMembers es) : ∃ v, (e.1, v) ∈ es ∧ e.2 = v.brief := by
  induction es with
  | nil => cases h
  | cons e' es ih =>
      obtain ⟨k, v⟩ := e'
      rw [Value.briefMembers] at h
      have hrest : e ∈ Value.briefMembers es → ∃ w, (e.1, w) ∈ (k, v) :: es ∧ e.2 = w.brief := by
        intro hmem
        obtain ⟨w, hw, heq⟩ := ih hmem
        exact ⟨w, List.mem_cons_of_mem _ hw, heq⟩
      split at h
      · exact hrest h
      · obtain rfl | h := List.mem_cons.mp h
        · exact ⟨v, List.mem_cons_self, rfl⟩
        · exact hrest h

theorem Json.HasForm.brief {v : Value} (h : HasForm n v) : HasForm n v.brief := by
  induction h with
  | null => exact .null
  | bool b => exact .bool b
  | int k => exact .int k
  | float x => exact .float x
  | text s => exact .text s
  | @list n vs items ih =>
      rw [Value.brief, Value.briefItems_eq_map]
      refine .list fun w hw => ?_
      obtain ⟨v, hv, rfl⟩ := List.mem_map.mp hw
      exact ih v hv
  | @map n es distinct keys values ih =>
      rw [Value.brief]
      refine .map (distinct.sublist (briefMembers_sublist_keys es)) (fun e he => ?_) fun e he => ?_
      · obtain ⟨v, hv, -⟩ := exists_of_mem_briefMembers he
        exact keys (e.1, v) hv
      · obtain ⟨v, hv, heq⟩ := exists_of_mem_briefMembers he
        rw [heq]
        exact ih _ hv

/-! ### One NaN for all -/

theorem rereadItems_eq_map (vs : List Value) : Value.rereadItems vs = vs.map Value.reread := by
  induction vs with
  | nil => rfl
  | cons v vs ih => rw [Value.rereadItems, ih, List.map_cons]

theorem rereadMembers_eq_map (es : Entries) :
    Value.rereadMembers es = es.map fun e => (e.1, e.2.reread) := by
  induction es with
  | nil => rfl
  | cons e es ih => rw [Value.rereadMembers, ih, List.map_cons]

theorem isNull_reread (v : Value) : v.reread.isNull = v.isNull := by
  cases v with
  | scalar s => cases s <;> rfl
  | _ => simp only [Value.reread, Value.isNull]

theorem briefMembers_reread {es : Entries}
    (h : ∀ e ∈ es, e.2.reread.brief = e.2.brief.reread) :
    Value.briefMembers (Value.rereadMembers es) = Value.rereadMembers (Value.briefMembers es) := by
  induction es with
  | nil => rfl
  | cons e es ih =>
      have hrest := ih fun x hx => h x (List.mem_cons_of_mem e hx)
      rw [Value.rereadMembers, Value.briefMembers, Value.briefMembers, isNull_reread]
      split
      · exact hrest
      · rw [hrest, h e List.mem_cons_self, Value.rereadMembers]

theorem brief_reread {v : Value} (h : HasForm n v) : v.reread.brief = v.brief.reread := by
  induction h with
  | null | bool b | int k | float x | text s => rfl
  | @list n vs items ih =>
      rw [Value.reread, Value.brief, Value.brief, Value.reread, rereadItems_eq_map,
        Value.briefItems_eq_map, Value.briefItems_eq_map, rereadItems_eq_map, List.map_map,
        List.map_map]
      exact congrArg Value.list (List.map_congr_left ih)
  | @map n es distinct keys values ih =>
      rw [Value.reread, Value.brief, Value.brief, Value.reread, briefMembers_reread ih]

section

variable {α : Type} {write : α → Value}

theorem reread_record (members : List (String × Value)) :
    (Value.record members).reread = .record (members.map fun m => (m.1, m.2.reread)) := by
  rw [Value.record, Value.reread, rereadMembers_eq_map, List.map_map, Value.record, List.map_map]
  rfl

theorem reread_list (l : List α) :
    (Value.list (l.map write)).reread = .list (l.map fun a => (write a).reread) := by
  rw [Value.reread, rereadItems_eq_map, List.map_map]
  rfl

theorem reread_optional (o : Option α) :
    (Value.optional write o).reread = .optional (fun a => (write a).reread) o := by
  cases o <;> rfl

theorem reread_optionText (o : Option String) : (Value.optionText o).reread = .optionText o := by
  cases o <;> rfl

theorem reread_texts (ss : List String) : (Value.texts ss).reread = .texts ss := reread_list ss

theorem reread_textLists (lists : List (List String)) :
    (Value.textLists lists).reread = .textLists lists := by
  rw [Value.textLists, reread_list]
  exact congrArg Value.list (List.map_congr_left fun ss _ => reread_texts ss)

end

namespace NativeArg

def reread : NativeArg → NativeArg
  | .float x => .float x.canonical
  | a => a

theorem toValue_reread (a : NativeArg) : a.reread.toValue = a.toValue.reread := by
  cases a <;> rfl

end NativeArg

namespace NativeType

def reread (t : NativeType) : NativeType := { t with args := t.args.map NativeArg.reread }

theorem toValue_reread (t : NativeType) : t.reread.toValue = t.toValue.reread := by
  simp only [toValue, reread, reread_record, reread_list, List.map_map, List.map_cons, List.map_nil,
    ← NativeArg.toValue_reread]
  rfl

end NativeType

theorem RelationInfo.reread_toValue (r : RelationInfo) :
    (r.toValue .camel).reread = r.toValue .camel := by
  simp only [toValue, reread_record, reread_optional, reread_optionText, reread_texts,
    List.map_cons, List.map_nil]
  rfl

def FieldContent.reread : FieldContent → FieldContent
  | .scalar c => .scalar { c with nativeType := c.nativeType.map NativeType.reread }
  | content => content

namespace Field

def reread (f : Field) : Field := { f with content := f.content.reread }

theorem toValue_reread (f : Field) : f.reread.toValue = f.toValue.reread := by
  obtain ⟨id, name, type, isOptional, isArray, mapName, ignore, origin, content⟩ := f
  have hnative (o : Option NativeType) :
      Value.optional NativeType.toValue (o.map NativeType.reread) =
      .optional (fun t => t.toValue.reread) o := by
    cases o with
    | none => rfl
    | some t => exact t.toValue_reread
  cases content <;>
    simp only [toValue, sharedAttributes, contentAttributes, reread, FieldContent.reread,
      reread_record, reread_optional, reread_optionText, RelationInfo.reread_toValue, hnative,
      List.map_append, List.map_cons, List.map_nil]
  all_goals rfl

end Field

namespace Model

def reread (m : Model) : Model := { m with fields := m.fields.map Field.reread }

theorem toValue_reread (m : Model) : m.reread.toValue = m.toValue.reread := by
  simp only [toValue, reread, reread_record, reread_list, reread_optional, reread_optionText,
    reread_texts, reread_textLists, List.map_map, List.map_cons, List.map_nil,
    ← Field.toValue_reread]
  rfl

end Model

/-! ### What is told by names and ids -/

namespace Model

theorem blocks_reread (m : Model) (f : Field) : m.reread.blocks f = m.blocks f := by
  have hid : m.reread.hasId f = m.hasId f := by
    simp only [hasId, reread, List.any_map]
    rfl
  have hname : m.reread.hasField f.name = m.hasField f.name := by
    simp only [hasField, field?, reread, List.find?_map, Option.isSome_map]
    rfl
  rw [blocks, blocks, hid, hname]

end Model

theorem Synthesis.Settled.reread {models : List Model} {d : Demand} (h : Settled models d) :
    Settled (models.map Model.reread) d := by
  intro owner' howner'
  rw [List.getElem?_map, Option.map_eq_some_iff] at howner'
  obtain ⟨owner, howner, rfl⟩ := howner'
  rw [Model.blocks_reread]
  exact h owner howner

theorem deriveEnumEdges_reread (models : List Model) (enums : List Enumeration) :
    deriveEnumEdges (models.map Model.reread) enums = deriveEnumEdges models enums := by
  have hmodel (m : Model) : m.reread.fields.filterMap (enumEdge? enums m.reread) =
      m.fields.filterMap (enumEdge? enums m) := by
    simp only [Model.reread, List.filterMap_map]
    rfl
  simp only [deriveEnumEdges, List.flatMap_map, hmodel]

/-! ### Documents -/

theorem Enumeration.reread_toValue (e : Enumeration) : e.toValue.reread = e.toValue := by
  simp only [toValue, reread_record, reread_optionText, reread_texts, List.map_cons, List.map_nil]
  rfl

theorem RelationEdge.reread_toValue (e : RelationEdge) : e.toValue.reread = e.toValue := by
  simp only [toValue, reread_record, reread_optional, reread_optionText, List.map_cons,
    List.map_nil]
  rfl

theorem EnumEdge.reread_toValue (e : EnumEdge) : e.toValue.reread = e.toValue := by
  simp only [toValue, reread_record, List.map_cons, List.map_nil]
  rfl

theorem Generator.reread_toValue (g : Generator) : g.toValue.reread = g.toValue := by
  simp only [toValue, reread_record, reread_optionText, reread_texts, List.map_cons, List.map_nil]
  rfl

theorem Datasource.reread_toValue (d : Datasource) : d.toValue.reread = d.toValue := by
  simp only [toValue, reread_record, List.map_cons, List.map_nil]
  rfl

namespace Document

/-- A document with one NaN for all. -/
def reread (d : Document) : Document := { d with models := d.models.map Model.reread }

theorem toValue_reread (d : Document) : d.reread.toValue = d.toValue.reread := by
  simp only [toValue, reread, reread_record, reread_list, Enumeration.reread_toValue,
    RelationEdge.reread_toValue, EnumEdge.reread_toValue, Generator.reread_toValue,
    Datasource.reread_toValue, List.map_map, List.map_cons, List.map_nil, ← Model.toValue_reread]
  rfl

theorem brief_toValue_reread (d : Document) : d.reread.toValue.brief = d.toValue.brief.reread := by
  rw [toValue_reread, brief_reread d.hasForm]

theorem IsTidy.reread {d : Document} (h : d.IsTidy) : d.reread.IsTidy := by
  refine ⟨fun m' hm' => ?_, h.enums⟩
  obtain ⟨m, hm, rfl⟩ := List.mem_map.mp hm'
  have hnames : m.reread.fields.map (·.name) = m.fields.map (·.name) := List.map_map
  rw [Model.HasDistinctFields, hnames]
  exact h.models m hm

/-- A document whose brief dump is printed into a file is loaded from it, with one NaN for all. -/
theorem load_printed {d : Document} (htidy : d.IsTidy)
    (htexts : ∀ s ∈ d.toValue.brief.strings, Text.HasNoPair s)
    (hwritable : d.toValue.brief.isWritable = true) {files : FileTree} {path : String}
    (hname : Snapshot.isJson (Path.ofText path) = true)
    (hfile : files.entry? (Path.ofText path) =
      some (.ofText (CommandLine.printed (Json.pretty d.toValue.brief)))) :
    load files path = .ok d.reread := by
  have hbrief := d.reread.toValue_written .brief
  have hparse := parse_written .brief htidy.reread
  rw [hbrief] at hparse
  have hload := Snapshot.load_printed d.hasForm.brief (by decide) htexts hwritable
    (d.brief_toValue_reread.symm.trans hbrief) hname hfile
  unfold load
  rw [hload]
  simp only [ofSnapshot, hparse]

end Document

end DrawnSchema
