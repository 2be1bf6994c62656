import DrawnSchema.Report.Checks
import DrawnSchema.Schema.Generation

/-!
# What the report foretells of generation

Generation stops at the first thing that is wrong; the report collects all of them, by checks of its
own. The two agree edge by edge: an edge has issues exactly when it is at fault, and the issues tell
which fault it is. So the error of generation can be read off the report alone.
-/

namespace DrawnSchema

def Issue.conflict? (i : Issue) : Option String :=
  if i.code = "NAME_CONFLICT" then i.model else none

/-- The id that an issue of a missing endpoint gives. -/
def Issue.missing? (i : Issue) : Option String :=
  if i.code = "MISSING_ENDPOINT" then
    match i.detail? "model_id" with
    | some (.text id) => some id
    | _ => none
  else none

namespace Report

def conflictNames (r : Report) : List String := r.issues.filterMap Issue.conflict?

end Report

namespace Document

/-- The error that the issues of an edge foretell. -/
def edgeError (d : Document) (e : RelationEdge) : CompileError :=
  match ((d.edgeIssues e).filterMap Issue.missing?).eraseDups with
  | [] => .unsupportedRelationType e.id e.type
  | missing => .missingEndpoint e.id missing

/-- The error that the report of a document foretells: that of the names in conflict, or else that
of the first edge with issues. -/
def foretold? (d : Document) : Option CompileError :=
  match (d.check (Graph.ofDocument d)).conflictNames with
  | [] => (d.relationEdges.find? fun e => !(d.edgeIssues e).isEmpty).map d.edgeError
  | names => some (.nameConflict names)

/-! ### The report in parts -/

theorem check_issues (d : Document) (g : Graph) :
    (d.check g).issues = d.checkNames.issues ++ d.relationEdges.flatMap d.edgeIssues ++
      d.checkTypes.issues ++ g.checkOrphans.issues := rfl

theorem edgeIssues_severity {d : Document} {e : RelationEdge} {i : Issue}
    (h : i ∈ d.edgeIssues e) : i.severity = .error ∧ i.code ≠ "NAME_CONFLICT" := by
  simp only [edgeIssues, checkEndpoint, checkRelationType, List.mem_append] at h
  obtain (h | h) | h := h
  all_goals
    split at h
    · cases h
    · obtain rfl := List.mem_singleton.mp h
      exact ⟨rfl, by simp⟩

theorem checkNames_severity {d : Document} {i : Issue} (h : i ∈ d.checkNames.issues) :
    i.severity = .error := by
  obtain ⟨name, -, rfl⟩ := List.mem_map.mp h
  rfl

theorem checkTypes_severity {d : Document} {i : Issue} (h : i ∈ d.checkTypes.issues) :
    i.severity = .warning ∧ i.code ≠ "NAME_CONFLICT" := by
  obtain h | h := List.mem_append.mp h
  · obtain ⟨m, -, hm⟩ := List.mem_flatMap.mp h
    obtain ⟨f, -, hf⟩ := List.mem_filterMap.mp hm
    unfold unknownType? at hf
    split at hf
    · cases hf
    · obtain rfl := Option.some.inj hf
      exact ⟨rfl, by simp⟩
  · obtain ⟨e, -, he⟩ := List.mem_filterMap.mp h
    unfold emptyEnum? at he
    split at he
    · obtain rfl := Option.some.inj he
      exact ⟨rfl, by simp⟩
    · cases he

theorem checkOrphans_severity {g : Graph} {i : Issue} (h : i ∈ g.checkOrphans.issues) :
    i.severity = .warning ∧ i.code ≠ "NAME_CONFLICT" := by
  obtain ⟨m, -, hm⟩ := List.mem_filterMap.mp h
  split at hm
  · cases hm
  · obtain rfl := Option.some.inj hm
    exact ⟨rfl, by simp⟩

/-- The errors of a report are those of the names, then those of the edges in order. -/
theorem check_errors (d : Document) (g : Graph) :
    (d.check g).errors = d.checkNames.issues ++ d.relationEdges.flatMap d.edgeIssues := by
  have hkept : ∀ i ∈ d.checkNames.issues ++ d.relationEdges.flatMap d.edgeIssues,
      i.severity = .error := by
    intro i hi
    obtain hi | hi := List.mem_append.mp hi
    · exact checkNames_severity hi
    · obtain ⟨e, -, he⟩ := List.mem_flatMap.mp hi
      exact (edgeIssues_severity he).1
  have hdropped : ∀ i ∈ d.checkTypes.issues ++ g.checkOrphans.issues, i.severity ≠ .error := by
    intro i hi
    obtain hi | hi := List.mem_append.mp hi
    · simp [(checkTypes_severity hi).1]
    · simp [(checkOrphans_severity hi).1]
  rw [Report.errors, Report.withSeverity, check_issues, List.append_assoc, List.filter_append]
  rw [List.filter_eq_self.mpr (by simpa using hkept),
    List.filter_eq_nil_iff.mpr (by simpa using hdropped), List.append_nil]

theorem conflict?_eq_none {i : Issue} (h : i.code ≠ "NAME_CONFLICT") : i.conflict? = none :=
  if_neg h

/-- The names of the conflicts stand in the report as generation finds them. -/
theorem check_conflictNames (d : Document) (g : Graph) :
    (d.check g).conflictNames = d.nameConflicts := by
  have hnames : d.checkNames.issues.filterMap Issue.conflict? = d.nameConflicts := by
    simp [checkNames, List.filterMap_map, Function.comp_def, Issue.conflict?]
  have hedges : (d.relationEdges.flatMap d.edgeIssues).filterMap Issue.conflict? = [] := by
    refine List.filterMap_eq_nil_iff.mpr fun i hi => conflict?_eq_none ?_
    obtain ⟨e, -, he⟩ := List.mem_flatMap.mp hi
    exact (edgeIssues_severity he).2
  have htypes : d.checkTypes.issues.filterMap Issue.conflict? = [] :=
    List.filterMap_eq_nil_iff.mpr fun i hi => conflict?_eq_none (checkTypes_severity hi).2
  have horphans : g.checkOrphans.issues.filterMap Issue.conflict? = [] :=
    List.filterMap_eq_nil_iff.mpr fun i hi => conflict?_eq_none (checkOrphans_severity hi).2
  rw [Report.conflictNames, check_issues]
  simp only [List.filterMap_append, hnames, hedges, htypes, horphans, List.append_nil]

/-! ### The issues of an edge -/

theorem lastModel?_isSome (d : Document) (id : String) :
    (d.lastModel? id).isSome = (d.models.map (·.id)).contains id := by
  rw [lastModel?, Bool.eq_iff_iff, List.find?_isSome]
  simp [eq_comm]

theorem missing_checkEndpoint (d : Document) (e : RelationEdge) (role id : String) :
    (d.checkEndpoint e role id).filterMap Issue.missing? =
      [id].filter fun id => !(d.models.map (·.id)).contains id := by
  unfold checkEndpoint
  rw [lastModel?_isSome]
  cases hid : (d.models.map (·.id)).contains id with
  | true => simp only [if_true, List.filterMap_nil, List.filter_cons, hid, Bool.not_true]; rfl
  | false => simp only [List.filter_cons, hid]; rfl

theorem missing_checkRelationType (d : Document) (e : RelationEdge) :
    (d.checkRelationType e).filterMap Issue.missing? = [] := by
  unfold checkRelationType
  split
  · rfl
  · simp [Issue.missing?]

theorem edgeIssues_of_missing_nil {d : Document} {e : RelationEdge}
    (h : e.missingEndpoints (d.models.map (·.id)) = []) :
    d.edgeIssues e = d.checkRelationType e := by
  have hends : ∀ id ∈ [e.source, e.target], (d.models.map (·.id)).contains id = true := by
    simpa [RelationEdge.missingEndpoints, List.filter_eq_nil_iff] using h
  have hsource := lastModel?_isSome d e.source
  have htarget := lastModel?_isSome d e.target
  rw [hends e.source (by simp)] at hsource
  rw [hends e.target (by simp)] at htarget
  simp [edgeIssues, checkEndpoint, hsource, htarget]

/-- The ids that the issues of an edge give are its missing endpoints. An edge from a model to
itself has two issues, which give the same id. -/
theorem missing_edgeIssues (d : Document) (e : RelationEdge) :
    ((d.edgeIssues e).filterMap Issue.missing?).eraseDups =
      e.missingEndpoints (d.models.map (·.id)) := by
  have hissues : (d.edgeIssues e).filterMap Issue.missing? =
      [e.source, e.target].filter fun id => !(d.models.map (·.id)).contains id := by
    rw [edgeIssues, List.filterMap_append, List.filterMap_append, missing_checkEndpoint,
      missing_checkEndpoint, missing_checkRelationType, List.append_nil, ← List.filter_append]
    rfl
  rw [hissues, RelationEdge.missingEndpoints]
  generalize (fun id => !(d.models.map (·.id)).contains id) = missing
  by_cases hends : e.source = e.target
  · cases hsource : missing e.target <;> simp [hends, hsource, List.eraseDups_cons]
  · cases hsource : missing e.source <;> cases htarget : missing e.target <;>
      simp [hsource, htarget, List.eraseDups_cons, Ne.symm hends]

theorem fault?_eq (d : Document) (e : RelationEdge) :
    e.fault? (d.models.map (·.id)) =
      if (d.edgeIssues e).isEmpty then none else some (d.edgeError e) := by
  have hissues := missing_edgeIssues d e
  unfold RelationEdge.fault? edgeError
  cases hmissing : e.missingEndpoints (d.models.map (·.id)) with
  | nil =>
      rw [hissues, hmissing, edgeIssues_of_missing_nil hmissing, checkRelationType]
      cases e.relationType? <;> rfl
  | cons id ids =>
      have hne : (d.edgeIssues e).isEmpty = false := by
        rw [List.isEmpty_eq_false_iff]
        intro hnil
        rw [hnil, hmissing] at hissues
        cases hissues
      rw [hissues, hmissing, hne]
      rfl

theorem firstEdgeFault?_eq (d : Document) :
    firstEdgeFault? d.relationEdges d.models =
      (d.relationEdges.find? fun e => !(d.edgeIssues e).isEmpty).map d.edgeError := by
  unfold firstEdgeFault?
  induction d.relationEdges with
  | nil => rfl
  | cons e edges ih =>
      rw [List.findSome?_cons, List.find?_cons, fault?_eq]
      cases (d.edgeIssues e).isEmpty with
      | true => simpa using ih
      | false => rfl

/-! ### Agreement -/

theorem generate_eq_error_iff {d : Document} {error : CompileError} :
    d.generate = .error error ↔ d.foretold? = some error := by
  unfold generate foretold? synthesizeFields
  rw [check_conflictNames, firstEdgeFault?_eq]
  cases d.nameConflicts with
  | cons name names => simp
  | nil =>
      cases d.relationEdges.find? fun e => !(d.edgeIssues e).isEmpty with
      | none => simp
      | some e => simp

theorem foretold?_eq_none_iff {d : Document} :
    d.foretold? = none ↔ (d.check (Graph.ofDocument d)).errors = [] := by
  rw [check_errors, List.append_eq_nil_iff, List.flatMap_eq_nil_iff]
  unfold foretold? checkNames
  rw [check_conflictNames]
  cases d.nameConflicts with
  | cons name names => simp
  | nil => simp

theorem generate_eq_ok_iff {d : Document} :
    (∃ g, d.generate = .ok g) ↔ d.foretold? = none := by
  cases hgenerate : d.generate with
  | ok g =>
      have hnone : d.foretold? = none := by
        refine Option.eq_none_iff_forall_ne_some.mpr fun error herror => ?_
        rw [generate_eq_error_iff.mpr herror] at hgenerate
        cases hgenerate
      simp [hnone]
  | error error => simp [generate_eq_error_iff.mp hgenerate]

/-- No errors: that is what the names and the edges come to, whatever graph is checked with them. -/
theorem check_errors_eq_nil_iff {d : Document} {g : Graph} :
    (d.check g).errors = [] ↔
      d.nameConflicts = [] ∧ ∃ s, synthesizeFields d.relationEdges d.models = .ok s := by
  have hnames : d.checkNames.issues = [] ↔ d.nameConflicts = [] := List.map_eq_nil_iff
  have hedges : d.relationEdges.flatMap d.edgeIssues = [] ↔
      firstEdgeFault? d.relationEdges d.models = none := by
    simp [firstEdgeFault?_eq, List.flatMap_eq_nil_iff]
  rw [check_errors, List.append_eq_nil_iff, hnames, hedges, synthesizeFields]
  cases firstEdgeFault? d.relationEdges d.models with
  | none => simp
  | some fault => simp

theorem schemaText?_isSome_iff {d : Document} :
    d.schemaText?.isSome = true ↔ (∃ g, d.generate = .ok g) ∧ d.isWritable = true := by
  unfold schemaText?
  cases d.generate with
  | error error => simp
  | ok g => cases d.isWritable <;> simp

/-- The report of a document has no errors exactly when the document compiles. Then there is a
schema text, unless it is to show a number that is too long to be written. A document that does not
compile ends in the error that the report foretells, whose errors are those of the names in conflict
and those of the edges, in the order of the document. -/
theorem check_foretells_generate (d : Document) :
    (d.check (Graph.ofDocument d)).errors =
        d.checkNames.issues ++ d.relationEdges.flatMap d.edgeIssues ∧
      ((d.check (Graph.ofDocument d)).errors = [] ↔ ∃ g, d.generate = .ok g) ∧
      (d.schemaText?.isSome = true ↔
        (d.check (Graph.ofDocument d)).errors = [] ∧ d.isWritable = true) ∧
      ∀ error, d.generate = .error error ↔ d.foretold? = some error := by
  have hagree : (d.check (Graph.ofDocument d)).errors = [] ↔ ∃ g, d.generate = .ok g :=
    foretold?_eq_none_iff.symm.trans generate_eq_ok_iff.symm
  refine ⟨check_errors d _, hagree, ?_, fun error => generate_eq_error_iff⟩
  rw [schemaText?_isSome_iff, hagree]

/-- A column whose type has an argument of 4301 digits. -/
def overlongColumn : Field :=
  { name := "key", type := "Int"
    content := .scalar { nativeType := some ⟨"Int", [.int (Nat.pow 10 Text.digitLimit)]⟩ } }

def overlongDocument : Document :=
  { models := [{ id := "u", name := "User", fields := [overlongColumn] }] }

/-- No check looks at the numbers of a schema. -/
theorem overlongDocument_not_foretold :
    ¬ ∀ d : Document,
      (d.check (Graph.ofDocument d)).errors = [] ↔ d.schemaText?.isSome = true := by
  intro hall
  have herrors : (overlongDocument.check (Graph.ofDocument overlongDocument)).errors = [] := by
    rw [check_errors]
    rfl
  have hwritable : overlongDocument.isWritable = false := by decide +kernel
  have htext := (schemaText?_isSome_iff.mp ((hall overlongDocument).mp herrors)).2
  rw [hwritable] at htext
  cases htext

end Document

end DrawnSchema
