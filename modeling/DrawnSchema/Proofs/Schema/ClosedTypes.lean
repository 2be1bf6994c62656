import DrawnSchema.Proofs.Report.Synthesized

/-!
# Schemas with closed types

The report looks at the types of a document, and the schema shows those of its synthesized document.
But synthesis brings no type that the report does not know, so a report with no unknown type speaks
for the schema as well: each type in it is a scalar or is declared by a block. An ignored model is
known by its name and declared nowhere.
-/

namespace DrawnSchema

/-- The type that a block declares. -/
def Block.declared? : Block → Option String
  | .enum name _ _ => some name
  | .model name _ _ => some name
  | .config _ _ _ => none
  | .ignored _ => none

def Block.fieldLines : Block → List FieldLine
  | .model _ fields _ => fields
  | .enum _ _ _ => []
  | .config _ _ _ => []
  | .ignored _ => []

/-- Each field line has a scalar type or the type that one of the blocks declares. -/
def HasClosedTypes (blocks : List Block) : Prop :=
  ∀ b ∈ blocks, ∀ line ∈ b.fieldLines,
    line.type ∈ Document.scalarTypes ∨ line.type ∈ blocks.filterMap Block.declared?

instance (blocks : List Block) : Decidable (HasClosedTypes blocks) :=
  inferInstanceAs (Decidable (∀ b ∈ blocks, ∀ line ∈ b.fieldLines, _))

namespace Document

variable {d : Document}

def HasKnownTypes (d : Document) : Prop :=
  ∀ m ∈ d.models, ∀ f ∈ m.fields, f.type ∈ scalarTypes ∨ f.type ∈ d.names

/-! ### Types in the report -/

theorem unknownType?_eq_none_iff {known : List String} {m : Model} {f : Field} :
    unknownType? known m f = none ↔ f.type ∈ known := by
  rw [← List.contains_iff_mem]
  unfold unknownType?
  cases known.contains f.type <;> simp

theorem unknownType?_code {known : List String} {m : Model} {f : Field} {i : Issue}
    (h : unknownType? known m f = some i) : i.code = "UNKNOWN_TYPE" := by
  unfold unknownType? at h
  split at h
  · cases h
  · obtain rfl := Option.some.inj h
    rfl

theorem emptyEnum?_code {e : Enumeration} {i : Issue} (h : emptyEnum? e = some i) :
    i.code = "EMPTY_ENUM" := by
  unfold emptyEnum? at h
  split at h
  · obtain rfl := Option.some.inj h
    rfl
  · cases h

/-- All types are known if and only if the report names no unknown one. -/
theorem hasKnownTypes_iff :
    d.HasKnownTypes ↔ ∀ i ∈ d.checkTypes.issues, i.code ≠ "UNKNOWN_TYPE" := by
  constructor
  · intro hknown i hi
    obtain hi | hi := List.mem_append.mp hi
    · obtain ⟨m, hm, hi⟩ := List.mem_flatMap.mp hi
      obtain ⟨f, hf, hissue⟩ := List.mem_filterMap.mp hi
      rw [unknownType?_eq_none_iff.mpr (List.mem_append.mpr (hknown m hm f hf))] at hissue
      cases hissue
    · obtain ⟨e, -, hissue⟩ := List.mem_filterMap.mp hi
      simp [emptyEnum?_code hissue]
  · intro hquiet m hm f hf
    have hnone : unknownType? (scalarTypes ++ d.names) m f = none := by
      refine Option.eq_none_iff_forall_ne_some.mpr fun i hissue => ?_
      have hlisted : i ∈ d.checkTypes.issues := List.mem_append_left _
        (List.mem_flatMap.mpr ⟨m, hm, List.mem_filterMap.mpr ⟨f, hf, hissue⟩⟩)
      exact hquiet i hlisted (unknownType?_code hissue)
    exact List.mem_append.mp (unknownType?_eq_none_iff.mp hnone)

/-! ### Types in the schema -/

theorem mem_fieldLines_blocks {b : Block} {line : FieldLine} (hb : b ∈ d.blocks)
    (hline : line ∈ b.fieldLines) : ∃ m ∈ d.models, ∃ f ∈ m.fields, line = f.line := by
  simp only [blocks, List.mem_append, List.mem_cons, List.not_mem_nil, or_false,
    List.mem_map] at hb
  obtain ((rfl | rfl) | ⟨e, -, rfl⟩) | ⟨m, hm, rfl⟩ := hb
  · cases hline
  · cases hline
  · cases hline
  · unfold Model.block at hline
    split at hline
    · cases hline
    · obtain ⟨f, hf, rfl⟩ := List.mem_map.mp hline
      exact ⟨m, hm, f, (List.mem_filter.mp hf).1, rfl⟩

theorem blocks_declared (hshown : ∀ m ∈ d.models, m.ignore = false) :
    d.blocks.filterMap Block.declared? = d.enums.map (·.name) ++ d.models.map (·.name) := by
  have hmodels : d.models.filterMap (fun m => m.block.declared?) = d.models.map (·.name) := by
    rw [← List.filterMap_eq_map]
    refine List.filterMap_congr fun m hm => ?_
    rw [Model.block, hshown m hm]
    rfl
  have henums : d.enums.filterMap (fun e => e.block.declared?) = d.enums.map (·.name) := by
    rw [← List.filterMap_eq_map]
    rfl
  rw [blocks, List.filterMap_append, List.filterMap_append, List.filterMap_map,
    List.filterMap_map]
  exact congrArg₂ (· ++ ·) henums hmodels

theorem HasKnownTypes.blocks (h : d.HasKnownTypes) (hshown : ∀ m ∈ d.models, m.ignore = false) :
    HasClosedTypes d.blocks := by
  intro b hb line hline
  obtain ⟨m, hm, f, hf, rfl⟩ := mem_fieldLines_blocks hb hline
  refine (h m hm f hf).imp_right fun hname => ?_
  rw [blocks_declared hshown]
  exact List.mem_append.mpr (List.mem_append.mp hname).symm

/-- A document that compiles, with a report that names no unknown type, and with no model that is
ignored: all types in its schema are closed. -/
theorem generate_hasClosedTypes (herrors : (d.check (Graph.ofDocument d)).errors = [])
    (hquiet : ∀ i ∈ (d.check (Graph.ofDocument d)).issues, i.code ≠ "UNKNOWN_TYPE")
    (hshown : ∀ m ∈ d.models, m.ignore = false) :
    ∃ s, synthesizeFields d.relationEdges d.models = .ok s ∧
      (∃ g, d.generate = .ok g ∧ g.text = renderBlocks (d.setModels s.models).blocks) ∧
      d.schemaText? = (d.setModels s.models).text? ∧
      HasClosedTypes (d.setModels s.models).blocks := by
  obtain ⟨hconflicts, s, hrun⟩ := check_errors_eq_nil_iff.mp herrors
  have hknown : (d.setModels s.models).HasKnownTypes := by
    rw [hasKnownTypes_iff, checkTypes_synthesized hrun]
    intro i hi
    refine hquiet i ?_
    rw [check_issues]
    exact List.mem_append_left _ (List.mem_append_right _ hi)
  have hshown' : ∀ m ∈ (d.setModels s.models).models, m.ignore = false := by
    intro m hm
    obtain ⟨n, hn⟩ := List.mem_iff_getElem?.mp hm
    obtain ⟨old, added, hold, rfl⟩ := (Synthesis.synthesizeFields_grown hrun).1.of_getElem? hn
    exact hshown old (List.mem_of_getElem? hold)
  exact ⟨s, hrun, generate_text hrun hconflicts,
    (schemaText?_synthesized hrun hconflicts d.enumEdges).1, hknown.blocks hshown'⟩

/-- A user has posts and a role. -/
def membership : Document :=
  { models :=
      [{ id := "u", name := "User", fields := [{ name := "role", type := "Role" }] },
        { id := "p", name := "Post", fields := [{ name := "title", type := "String" }] }]
    enums := [{ id := "r", name := "Role", values := ["READER"] }]
    relationEdges := [{ id := "e", source := "u", target := "p" }] }

theorem generate_hasClosedTypes_membership :
    (∀ m ∈ membership.models, m.ignore = false) ∧
      ∃ s, synthesizeFields membership.relationEdges membership.models = .ok s ∧
        (membership.setModels s.models).blocks.flatMap
            (fun b => b.fieldLines.map (·.type)) =
          ["Role", "Post", "String", "User", "String"] ∧
        membership.schemaText? = (membership.setModels s.models).text? ∧
        HasClosedTypes (membership.setModels s.models).blocks := by
  have hshown : ∀ m ∈ membership.models, m.ignore = false := by decide
  obtain ⟨s, hrun, -, htext, hclosed⟩ :=
    generate_hasClosedTypes (d := membership) (by decide +kernel) (by decide +kernel) hshown
  have htypes : (synthesizeFields membership.relationEdges membership.models).toOption.map (fun s =>
      (membership.setModels s.models).blocks.flatMap fun b => b.fieldLines.map (·.type)) =
        some ["Role", "Post", "String", "User", "String"] := by
    decide +kernel
  rw [hrun] at htypes
  exact ⟨hshown, s, hrun, Option.some.inj htypes, htext, hclosed⟩

/-- A user has posts, which are ignored. -/
def withoutPosts : Document :=
  { models := [{ id := "u", name := "User" }, { id := "p", name := "Post", ignore := true }]
    relationEdges := [{ id := "e", source := "u", target := "p" }] }

/-- The report has no issue, but the type of the posts is not declared. -/
example :
    (withoutPosts.check (Graph.ofDocument withoutPosts)).issues.length = 0 ∧
      (synthesizeFields withoutPosts.relationEdges withoutPosts.models).toOption.any (fun s =>
        !decide (HasClosedTypes (withoutPosts.setModels s.models).blocks)) = true := by
  decide +kernel

end Document

end DrawnSchema
