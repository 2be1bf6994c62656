import DrawnSchema.Proofs.Schema.OneLine

/-!
# Reading a rendered schema back

A reader of lines makes of a schema what it is to show: the enums with their values, the models with
the lines of their fields and their attributes. Names and values may look like anything but a line
break. The names of enums are no exception to that.
-/

namespace DrawnSchema

structure EnumOutline where
  name : String
  values : List String
  mapName : Option String
deriving DecidableEq, Repr

/-- What a schema shows of a model: of one that is ignored the name, of another one each field and
each attribute as it is written. -/
inductive ModelOutline where
  | ignored (name : String)
  | shown (name : String) (fields attributes : List String)
deriving DecidableEq, Repr

structure Outline where
  enums : List EnumOutline
  models : List ModelOutline
deriving DecidableEq, Repr

def Enumeration.outline (e : Enumeration) : EnumOutline :=
  { name := e.name, values := e.values, mapName := nonEmpty? e.mapName }

def Model.outline (m : Model) : ModelOutline :=
  if m.ignore then .ignored m.name
  else .shown m.name (m.shownFields.map fun f => f.line.render)
    (m.blockAttributes.map Attribute.render)

def Document.outline (d : Document) : Outline :=
  { enums := d.enums.map Enumeration.outline, models := d.models.map Model.outline }

/-- The text that an attribute of the whole block is mapped to. -/
def mapName? (line : String) : Option String := do
  let rest ← Text.after? "@@map(" line
  let literal ← Json.readLiteral rest.toList
  return String.ofList literal.1

def EnumOutline.ofFrame? : Frame → Option EnumOutline
  | .block header body attributes =>
    (Text.after? "enum " header).map fun name =>
      { name, values := body, mapName := attributes.findSome? mapName? }
  | .remark _ => none

def ModelOutline.ofFrame? : Frame → Option ModelOutline
  | .block header body attributes =>
    (Text.after? "model " header).map fun name => .shown name body attributes
  | .remark text => (Text.before? text " model is ignored").map .ignored

/-- What a reader of lines makes of a schema. -/
def Outline.ofText? (text : String) : Option Outline :=
  (Frame.ofLines? (Text.lines text)).map fun frames =>
    { enums := frames.filterMap EnumOutline.ofFrame?
      models := frames.filterMap ModelOutline.ofFrame? }

/-! ### What is read of a document -/

theorem mapName?_render (s : String) :
    mapName? (Attribute.render { name := "map", args := some [Text.quote s], blockLevel := true }) =
      some s := by
  have hline : Attribute.render { name := "map", args := some [Text.quote s], blockLevel := true } =
      "@@map(" ++ (Text.quote s ++ ")") := by
    simp [Attribute.render, ← String.append_assoc]
  have hliteral : Json.readLiteral (Text.quote s ++ ")").toList = some (s.toList, [')']) := by
    rw [String.toList_append]
    exact Json.readLiteral_quote s [')']
  rw [mapName?, hline, Text.after?_append]
  simp only [Option.bind_eq_bind, Option.bind_some, hliteral]
  simp

theorem findSome?_mapName? (value : Option String) :
    ((quotedAttribute "map" true value).map Attribute.render).findSome? mapName? =
      nonEmpty? value := by
  unfold quotedAttribute
  cases nonEmpty? value with
  | none => rfl
  | some s => simp [mapName?_render]

theorem Document.frames_legible (d : Document) : ∀ b ∈ d.blocks, b.frame.IsLegible := by
  intro b hb
  simp only [Document.blocks, List.mem_append, List.mem_cons, List.not_mem_nil, or_false,
    List.mem_map, or_assoc] at hb
  obtain rfl | rfl | ⟨e, -, rfl⟩ | ⟨m, -, rfl⟩ := hb
  · exact (by decide : Text.after? "// " ("generator" ++ " " ++ "client" ++ " \x7b") = none)
  · exact (by decide : Text.after? "// " ("datasource" ++ " " ++ "db" ++ " \x7b") = none)
  · simp [Enumeration.block, Block.frame, Frame.IsLegible, Text.after?, List.dropPrefix?]
  · unfold Model.block
    split
    · exact trivial
    · simp [Block.frame, Frame.IsLegible, Text.after?, List.dropPrefix?]

theorem EnumOutline.ofFrame?_enum (e : Enumeration) :
    EnumOutline.ofFrame? e.block.frame = some e.outline := by
  simp [Enumeration.block, Block.frame, EnumOutline.ofFrame?, Enumeration.outline,
    findSome?_mapName?]

theorem EnumOutline.ofFrame?_model (m : Model) : EnumOutline.ofFrame? m.block.frame = none := by
  unfold Model.block
  split
  · rfl
  · simp [Block.frame, EnumOutline.ofFrame?, Text.after?, List.dropPrefix?]

theorem ModelOutline.ofFrame?_enum (e : Enumeration) :
    ModelOutline.ofFrame? e.block.frame = none := by
  simp [Enumeration.block, Block.frame, ModelOutline.ofFrame?, Text.after?, List.dropPrefix?]

theorem ModelOutline.ofFrame?_model (m : Model) :
    ModelOutline.ofFrame? m.block.frame = some m.outline := by
  unfold Model.block Model.outline
  split
  · simp [Block.frame, ModelOutline.ofFrame?]
  · simp [Block.frame, ModelOutline.ofFrame?, Function.comp_def]

theorem Document.ofFrame?_enums (d : Document) :
    (d.blocks.map Block.frame).filterMap EnumOutline.ofFrame? = d.enums.map Enumeration.outline := by
  have hgenerator : EnumOutline.ofFrame? d.generator.block.frame = none := rfl
  have hdatasource : EnumOutline.ofFrame? d.datasource.block.frame = none := rfl
  simp [Document.blocks, hgenerator, hdatasource, List.filterMap_map, Function.comp_def,
    EnumOutline.ofFrame?_enum, EnumOutline.ofFrame?_model]

theorem Document.ofFrame?_models (d : Document) :
    (d.blocks.map Block.frame).filterMap ModelOutline.ofFrame? = d.models.map Model.outline := by
  have hgenerator : ModelOutline.ofFrame? d.generator.block.frame = none := rfl
  have hdatasource : ModelOutline.ofFrame? d.datasource.block.frame = none := rfl
  simp [Document.blocks, hgenerator, hdatasource, List.filterMap_map, Function.comp_def,
    ModelOutline.ofFrame?_enum, ModelOutline.ofFrame?_model]

theorem Outline.ofText?_render {d : Document} (h : d.InLines) (hnames : d.NamesEnumsInLine) :
    Outline.ofText? d.render = some d.outline := by
  have hblocks : d.blocks.map Block.frame ≠ [] := by simp [Document.blocks]
  have hframes : ∀ f ∈ d.blocks.map Block.frame, f.InLines := by
    simpa using h.frames hnames
  have hlegible : ∀ f ∈ d.blocks.map Block.frame, f.IsLegible := by
    simpa using d.frames_legible
  have hlines : Text.lines d.render =
      List.intercalate [""] ((d.blocks.map Block.frame).map Frame.lines) := by
    rw [Document.render, renderBlocks_eq, List.map_map]
    refine Text.lines_intercalate ?_ ?_
    · have hmem := isLine_of_mem_frames hframes
      rwa [List.map_map] at hmem
    · simp [Document.blocks, List.intercalate_cons_cons]
  rw [Outline.ofText?, hlines, Frame.ofLines?_lines hblocks hlegible, Option.map_some,
    d.ofFrame?_enums, d.ofFrame?_models]
  rfl

namespace Document

/-- Where nothing that stands in a schema without quotes has a line break, a reader of lines
recovers what the schema shows of enums and models. So two documents that are rendered to one text
show the same. -/
theorem render_tells_outline {d d' : Document} (h : d.InLines) (hnames : d.NamesEnumsInLine)
    (h' : d'.InLines) (hnames' : d'.NamesEnumsInLine) :
    Outline.ofText? d.render = some d.outline ∧ (d.render = d'.render → d.outline = d'.outline) := by
  refine ⟨Outline.ofText?_render h hnames, fun hsame => ?_⟩
  have hread := Outline.ofText?_render h hnames
  rw [hsame, Outline.ofText?_render h' hnames'] at hread
  exact (Option.some.inj hread).symm

/-- Values that look like the end of a block, like nothing and like inset lines, and quoted texts
that look like blocks. -/
def disguised : Document :=
  { enums := [{ id := "r", name := "Role \x7b", values := ["", "\x7d", "  READER"]
                mapName := some "a\"\n\x7d\n\nenum B \x7b\n" }]
    models := [{ id := "u", name := "\x7d", mapName := some "",
                 fields := [{ name := "", type := "", mapName := some "\n\n" }] },
      { id := "p", name := "enum Post model is ignored", ignore := true }] }

/-- The same document with a relation, which is not rendered. -/
def disguisedRelated : Document :=
  { disguised with relationEdges := [{ id := "e", source := "u", target := "p" }] }

theorem render_tells_outline_disguised :
    disguised.InLines ∧ disguised.NamesEnumsInLine ∧
      Outline.ofText? disguised.render = some
        { enums := [{ name := "Role \x7b", values := ["", "\x7d", "  READER"]
                      mapName := some "a\"\n\x7d\n\nenum B \x7b\n" }]
          models := [.shown "\x7d" ["  @map(\"\\n\\n\")"] [],
            .ignored "enum Post model is ignored"] } ∧
      disguised.render = disguisedRelated.render ∧
      disguised.outline = disguisedRelated.outline := by
  have hlines : disguised.InLines := by decide
  have hnames : disguised.NamesEnumsInLine := by decide
  have hlines' : disguisedRelated.InLines := hlines
  have hnames' : disguisedRelated.NamesEnumsInLine := hnames
  have htext : disguised.render = disguisedRelated.render := rfl
  obtain ⟨hread, hsame⟩ := render_tells_outline hlines hnames hlines' hnames'
  refine ⟨hlines, hnames, hread.trans (congrArg some ?_), htext, hsame htext⟩
  decide +kernel

/-- One enum whose name goes on to be a block with the beginning of another, and the two enums that
it looks like. -/
def enclosed : Document :=
  { enums := [{ id := "r", name := "Role \x7b\n  ADMIN\n\x7d\n\nenum Kind", values := ["NEW"] }] }

def parted : Document :=
  { enums := [{ id := "r", name := "Role", values := ["ADMIN"] },
      { id := "k", name := "Kind", values := ["NEW"] }] }

/-- With line breaks in the names of enums, one text stands for documents that show different
enums. -/
theorem render_confuses_enclosed :
    ¬ ∀ d d' : Document, d.InLines → d'.InLines → d.render = d'.render → d.outline = d'.outline := by
  intro hall
  have hsame := hall enclosed parted (by decide) (by decide) (by decide +kernel)
  have hdiffer : enclosed.outline ≠ parted.outline := by decide
  exact hdiffer hsame

end Document

end DrawnSchema
