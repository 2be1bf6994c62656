import DrawnSchema.Proofs.Text.Lines
import DrawnSchema.Proofs.Schema.Frame
import DrawnSchema.Schema.Rendering

/-!
# Schemas whose names and values have no line breaks

Where names and values are lines by themselves, so is each line that a block is rendered to. What is
quoted need not be.
-/

namespace DrawnSchema

open Text (IsLine quote isLine_append isLine_quote isLine_intercalate)

def NativeArg.InLine : NativeArg → Prop
  | .text s => IsLine s
  | .int _ => True
  | .float _ => True

instance : (a : NativeArg) → Decidable a.InLine
  | .text s => inferInstanceAs (Decidable (IsLine s))
  | .int _ | .float _ => .isTrue trivial

def NativeType.InLine (t : NativeType) : Prop := IsLine t.type ∧ ∀ a ∈ t.args, a.InLine

instance (t : NativeType) : Decidable t.InLine := inferInstanceAs (Decidable (_ ∧ _))

def FieldContent.InLine : FieldContent → Prop
  | .scalar c => (∀ v ∈ c.defaultValue, IsLine v) ∧ ∀ t ∈ c.nativeType, t.InLine
  | .enum c => ∀ v ∈ c.defaultValue, IsLine v
  | .relation info => ∀ r ∈ info, ∀ name ∈ r.fields ++ r.references, IsLine name

instance : (c : FieldContent) → Decidable c.InLine
  | .scalar _ => inferInstanceAs (Decidable (_ ∧ _))
  | .enum c => inferInstanceAs (Decidable (∀ v ∈ c.defaultValue, _))
  | .relation info => inferInstanceAs (Decidable (∀ r ∈ info, _))

def Field.InLine (f : Field) : Prop := IsLine f.name ∧ IsLine f.type ∧ f.content.InLine

instance (f : Field) : Decidable f.InLine := inferInstanceAs (Decidable (_ ∧ _))

namespace Model

/-- The lists of fields that a model names for keys and indices. -/
def fieldLists (m : Model) : List (List String) :=
  m.compositeId.toList ++ m.compositeUnique ++ m.compositeIndex ++ m.fulltextIndex

def InLines (m : Model) : Prop :=
  IsLine m.name ∧ (∀ f ∈ m.fields, f.InLine) ∧ ∀ names ∈ m.fieldLists, ∀ name ∈ names, IsLine name

instance (m : Model) : Decidable m.InLines := inferInstanceAs (Decidable (_ ∧ _))

end Model

namespace Document

/-- No model has a line break in a name or a value that is not quoted, and no enum has one in a
value. -/
def InLines (d : Document) : Prop :=
  (∀ m ∈ d.models, m.InLines) ∧ ∀ e ∈ d.enums, ∀ v ∈ e.values, IsLine v

instance (d : Document) : Decidable d.InLines := inferInstanceAs (Decidable (_ ∧ _))

def NamesEnumsInLine (d : Document) : Prop := ∀ e ∈ d.enums, IsLine e.name

instance (d : Document) : Decidable d.NamesEnumsInLine :=
  inferInstanceAs (Decidable (∀ e ∈ d.enums, _))

end Document

/-! ### Lines of a schema -/

def Attribute.InLine (a : Attribute) : Prop :=
  IsLine a.name ∧ ∀ args ∈ a.args, ∀ s ∈ args, IsLine s

theorem isLine_identifierList {names : List String} (h : ∀ name ∈ names, IsLine name) :
    IsLine (identifierList names) := by
  have hlist : IsLine (String.intercalate ", " names) := isLine_intercalate (by decide) h
  simp [identifierList, hlist, show IsLine "[" by decide, show IsLine "]" by decide]

theorem isLine_stringList (values : List String) : IsLine (stringList values) := by
  refine isLine_identifierList fun s hs => ?_
  obtain ⟨v, -, rfl⟩ := List.mem_map.mp hs
  exact isLine_quote v

theorem Attribute.InLine.render {a : Attribute} (h : a.InLine) : IsLine a.render := by
  obtain ⟨name, args, blockLevel⟩ := a
  have hhead : IsLine ((if blockLevel then "@@" else "@") ++ name) := by
    refine isLine_append.mpr ⟨?_, h.1⟩
    cases blockLevel <;> decide
  cases args with
  | none => exact hhead
  | some args =>
      have hargs : IsLine (String.intercalate ", " args) :=
        isLine_intercalate (by decide) (h.2 args rfl)
      simp only [Attribute.render, isLine_append]
      exact ⟨⟨⟨isLine_append.mp hhead, by decide⟩, hargs⟩, by decide⟩

theorem nonEmpty?_eq_some {value : Option String} {s : String} (h : nonEmpty? value = some s) :
    value = some s := by
  unfold nonEmpty? at h
  split at h
  · split at h
    · cases h
    · exact h
  · cases h

theorem NativeArg.InLine.render {a : NativeArg} (h : a.InLine) : IsLine a.render := by
  cases a with
  | text s => exact h
  | int n => exact Text.isLine_toString n
  | float x => exact Text.isLine_toText x

section Attributes

variable {a : Attribute}

theorem inLine_of_flag {name : String} {b : Bool} (hname : IsLine name) (h : a ∈ flag name b) :
    a.InLine := by
  cases b with
  | true =>
      obtain rfl := List.mem_singleton.mp h
      exact ⟨hname, fun _ hargs => nomatch hargs⟩
  | false => cases h

theorem inLine_of_quotedAttribute {name : String} {blockLevel : Bool} {value : Option String}
    (hname : IsLine name) (h : a ∈ quotedAttribute name blockLevel value) : a.InLine := by
  obtain ⟨s, -, rfl⟩ := List.mem_map.mp h
  refine ⟨hname, fun args hargs t ht => ?_⟩
  obtain rfl := Option.some.inj hargs
  obtain rfl := List.mem_singleton.mp ht
  exact isLine_quote s

theorem inLine_of_defaultAttribute {value : Option String} (hvalue : ∀ v ∈ value, IsLine v)
    (h : a ∈ defaultAttribute value) : a.InLine := by
  obtain ⟨s, hs, rfl⟩ := List.mem_map.mp h
  refine ⟨(by decide : IsLine "default"), fun args hargs t ht => ?_⟩
  obtain rfl := Option.some.inj hargs
  obtain rfl := List.mem_singleton.mp ht
  exact hvalue _ (nonEmpty?_eq_some (Option.mem_toList.mp hs))

theorem NativeType.InLine.attribute {t : NativeType} (h : t.InLine) : t.attribute.InLine := by
  refine ⟨isLine_append.mpr ⟨by decide, h.1⟩, fun args hargs s hs => ?_⟩
  simp only [NativeType.attribute] at hargs
  split at hargs
  · cases hargs
  · obtain rfl := Option.some.inj hargs
    obtain ⟨arg, harg, rfl⟩ := List.mem_map.mp hs
    exact (h.2 arg harg).render

theorem RelationInfo.isLine_args {r : RelationInfo}
    (h : ∀ name ∈ r.fields ++ r.references, IsLine name) : ∀ s ∈ r.args, IsLine s := by
  have hfields := isLine_identifierList fun name hname => h name (List.mem_append_left _ hname)
  have hreferences := isLine_identifierList fun name hname => h name (List.mem_append_right _ hname)
  have hkeyword (x : ReferentialAction) : IsLine x.keyword := by cases x <;> decide
  intro s hs
  simp only [RelationInfo.args, List.mem_append, List.mem_map, List.mem_ite_nil_left,
    List.mem_singleton, or_assoc] at hs
  obtain ⟨name, -, rfl⟩ | ⟨-, rfl⟩ | ⟨-, rfl⟩ | ⟨x, -, rfl⟩ | ⟨x, -, rfl⟩ := hs
  · exact isLine_append.mpr ⟨by decide, isLine_quote name⟩
  · exact isLine_append.mpr ⟨by decide, hfields⟩
  · exact isLine_append.mpr ⟨by decide, hreferences⟩
  · exact isLine_append.mpr ⟨by decide, hkeyword x⟩
  · exact isLine_append.mpr ⟨by decide, hkeyword x⟩

theorem FieldContent.InLine.attributes {c : FieldContent} (h : c.InLine) (ha : a ∈ c.attributes) :
    a.InLine := by
  cases c with
  | scalar c =>
      simp only [FieldContent.attributes, List.mem_append, List.mem_map, Option.mem_toList,
        or_assoc] at ha
      obtain ha | ha | ha | ha | ⟨t, ht, rfl⟩ := ha
      · exact inLine_of_flag (by decide) ha
      · exact inLine_of_flag (by decide) ha
      · exact inLine_of_flag (by decide) ha
      · exact inLine_of_defaultAttribute h.1 ha
      · exact (h.2 t ht).attribute
  | «enum» c =>
      simp only [FieldContent.attributes, List.mem_append, or_assoc] at ha
      obtain ha | ha | ha := ha
      · exact inLine_of_flag (by decide) ha
      · exact inLine_of_flag (by decide) ha
      · exact inLine_of_defaultAttribute h ha
  | relation info =>
      obtain ⟨r, hr, ha⟩ := List.mem_flatMap.mp ha
      unfold RelationInfo.attributes at ha
      split at ha
      · cases ha
      · obtain rfl := List.mem_singleton.mp ha
        refine ⟨(by decide : IsLine "relation"), fun args hargs => ?_⟩
        obtain rfl := Option.some.inj hargs
        exact RelationInfo.isLine_args (h r (Option.mem_toList.mp hr))

theorem Field.InLine.line {f : Field} (h : f.InLine) : IsLine f.line.render := by
  have hmodifier : IsLine f.modifier := by
    unfold Field.modifier
    split
    · decide
    · split <;> decide
  refine isLine_intercalate (by decide) fun s hs => ?_
  obtain rfl | hs := List.mem_cons.mp hs
  · simp only [Field.line, isLine_append]
    exact ⟨⟨⟨h.1, by decide⟩, h.2.1⟩, hmodifier⟩
  · obtain ⟨a, ha, rfl⟩ := List.mem_map.mp hs
    obtain ha | ha := List.mem_append.mp ha
    · exact (h.2.2.attributes ha).render
    · exact (inLine_of_quotedAttribute (by decide) ha).render

theorem Model.InLines.blockAttributes {m : Model} (h : m.InLines) (ha : a ∈ m.blockAttributes) :
    a.InLine := by
  have hlist {name : String} {names : List String} (hname : IsLine name)
      (hnames : names ∈ m.fieldLists) : (Model.listAttribute name names).InLine := by
    refine ⟨hname, fun args hargs s hs => ?_⟩
    obtain rfl := Option.some.inj hargs
    obtain rfl := List.mem_singleton.mp hs
    exact isLine_identifierList (h.2.2 names hnames)
  simp only [Model.blockAttributes, List.mem_append, List.mem_map, or_assoc] at ha
  simp only [Model.fieldLists, List.mem_append, Option.mem_toList] at hlist
  obtain ha | ⟨names, hnames, rfl⟩ | ⟨names, hnames, rfl⟩ | ⟨names, hnames, rfl⟩ | ha | ha := ha
  · unfold Model.idAttribute at ha
    split at ha
    · split at ha
      · cases ha
      · obtain rfl := List.mem_singleton.mp ha
        rename_i hid _
        exact hlist (by decide) (by simp [hid])
    · cases ha
  · exact hlist (by decide) (by simp [hnames])
  · exact hlist (by decide) (by simp [hnames])
  · exact hlist (by decide) (by simp [hnames])
  · exact inLine_of_quotedAttribute (by decide) ha
  · exact inLine_of_quotedAttribute (by decide) ha

end Attributes

/-! ### Blocks of a schema -/

def Frame.InLines : Frame → Prop
  | .block header body attributes =>
    IsLine header ∧ (∀ s ∈ body, IsLine s) ∧ ∀ s ∈ attributes, IsLine s
  | .remark text => IsLine text

theorem Frame.InLines.lines {frame : Frame} (h : frame.InLines) : ∀ s ∈ frame.lines, IsLine s := by
  intro s hs
  have hinset {l : List String} (hl : ∀ t ∈ l, IsLine t) (hmem : s ∈ l.map inset) : IsLine s := by
    obtain ⟨t, ht, rfl⟩ := List.mem_map.mp hmem
    exact isLine_append.mpr ⟨by decide, hl t ht⟩
  cases frame with
  | remark text =>
      obtain rfl := List.mem_singleton.mp hs
      exact isLine_append.mpr ⟨by decide, h⟩
  | block header body attributes =>
      simp only [Frame.lines, blockLines, List.cons_append, List.mem_cons, List.mem_append,
        List.mem_ite_nil_left, List.not_mem_nil, or_false] at hs
      obtain rfl | (hs | ⟨-, rfl | hs⟩) | rfl := hs
      · exact isLine_append.mpr ⟨h.1, by decide⟩
      · exact hinset h.2.1 hs
      · decide
      · exact hinset h.2.2 hs
      · decide

theorem isLine_of_mem_frames {frames : List Frame} (h : ∀ f ∈ frames, f.InLines) :
    ∀ s ∈ List.intercalate [""] (frames.map Frame.lines), IsLine s := by
  induction frames with
  | nil => simp
  | cons f frames ih =>
      have hfirst := (h f List.mem_cons_self).lines
      have hrest := ih fun f' hf' => h f' (List.mem_cons_of_mem f hf')
      cases frames with
      | nil => simpa using hfirst
      | cons next frames =>
          intro s hs
          rw [List.map_cons, List.map_cons, List.intercalate_cons_cons, ← List.map_cons,
            List.mem_append, List.mem_append, List.mem_singleton, or_assoc] at hs
          obtain hs | rfl | hs := hs
          · exact hfirst s hs
          · decide
          · exact hrest s hs

theorem inLines_config {keyword name : String} {settings : List (String × String)}
    (hkeyword : IsLine keyword) (hname : IsLine name)
    (hsettings : ∀ x ∈ settings, IsLine x.1 ∧ IsLine x.2) :
    (Block.config keyword name settings).frame.InLines := by
  refine ⟨?_, fun s hs => ?_, fun s hs => nomatch hs⟩
  · exact isLine_append.mpr ⟨isLine_append.mpr ⟨hkeyword, by decide⟩, hname⟩
  · obtain ⟨x, hx, rfl⟩ := List.mem_map.mp hs
    obtain ⟨hfirst, hsecond⟩ := hsettings x hx
    exact isLine_append.mpr ⟨isLine_append.mpr ⟨hfirst, by decide⟩, hsecond⟩

theorem Generator.frame_inLines (g : Generator) : g.block.frame.InLines := by
  refine inLines_config (by decide) (by decide) fun x hx => ?_
  simp only [List.mem_append, List.mem_map, List.mem_singleton, List.mem_ite_nil_left,
    or_assoc] at hx
  obtain rfl | ⟨-, rfl⟩ | ⟨s, -, rfl⟩ | ⟨s, -, rfl⟩ := hx
  · exact ⟨(by decide : IsLine "provider"), isLine_quote g.provider⟩
  · exact ⟨(by decide : IsLine "previewFeatures"), isLine_stringList g.previewFeatures⟩
  · exact ⟨(by decide : IsLine "output"), isLine_quote s⟩
  · exact ⟨(by decide : IsLine "engineType"), isLine_quote s⟩

theorem Datasource.frame_inLines (d : Datasource) : d.block.frame.InLines := by
  refine inLines_config (by decide) (by decide) fun x hx => ?_
  obtain rfl := List.mem_singleton.mp hx
  exact ⟨(by decide : IsLine "provider"), isLine_quote _⟩

theorem Enumeration.frame_inLines {e : Enumeration} (hname : IsLine e.name)
    (hvalues : ∀ v ∈ e.values, IsLine v) : e.block.frame.InLines := by
  refine ⟨isLine_append.mpr ⟨by decide, hname⟩, hvalues, fun s hs => ?_⟩
  obtain ⟨a, ha, rfl⟩ := List.mem_map.mp hs
  exact (inLine_of_quotedAttribute (by decide) ha).render

theorem Model.InLines.frame {m : Model} (h : m.InLines) : m.block.frame.InLines := by
  unfold Model.block
  split
  · exact isLine_append.mpr ⟨h.1, by decide⟩
  · refine ⟨isLine_append.mpr ⟨by decide, h.1⟩, fun s hs => ?_, fun s hs => ?_⟩
    · rw [List.map_map] at hs
      obtain ⟨f, hf, rfl⟩ := List.mem_map.mp hs
      exact (h.2.1 f (List.mem_filter.mp hf).1).line
    · obtain ⟨a, ha, rfl⟩ := List.mem_map.mp hs
      exact (h.blockAttributes ha).render

theorem Document.InLines.frames {d : Document} (h : d.InLines) (hnames : d.NamesEnumsInLine) :
    ∀ b ∈ d.blocks, b.frame.InLines := by
  intro b hb
  simp only [Document.blocks, List.mem_append, List.mem_cons, List.not_mem_nil, or_false,
    List.mem_map, or_assoc] at hb
  obtain rfl | rfl | ⟨e, he, rfl⟩ | ⟨m, hm, rfl⟩ := hb
  · exact d.generator.frame_inLines
  · exact d.datasource.frame_inLines
  · exact Enumeration.frame_inLines (hnames e he) (h.2 e he)
  · exact (h.1 m hm).frame

end DrawnSchema
