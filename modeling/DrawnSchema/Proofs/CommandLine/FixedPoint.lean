import DrawnSchema.Proofs.CommandLine.AllOrNothing
import DrawnSchema.Proofs.Document.Rereading
import DrawnSchema.Proofs.Graph.Synthesis

/-!
# Synthesizing what synthesis has written

Ids may repeat in a document, but not in its graph. So the document of a synthesized graph has
distinct ids, and its own graph shows it as it is. All implied fields are there by then, and a
second synthesis comes to the same document. It does so as well when it reads the document from what
was printed of the first one, where NaNs have become one: synthesis goes by ids and names. But a
text in which the two halves of a surrogate pair meet is read as another one.
-/

namespace DrawnSchema

open DrawnSchema.Graph (ofDocument)

namespace Document

/-- A synthesized document: its ids are distinct, it has the enum edges that its fields give, and
its relations imply no more. -/
structure IsSynthesized (d : Document) (warnings : List String) : Prop where
  ids : d.HasDistinctIds
  linked : d.linked = d
  settled : ∃ s, synthesizeFields d.relationEdges d.models = .ok s ∧ s.models = d.models ∧
    s.warnings = warnings

variable {d : Document} {warnings : List String}

/-- Synthesis leaves a synthesized document as it is. -/
theorem IsSynthesized.synthesizeEdges (h : d.IsSynthesized warnings) :
    ∃ again : Graph × List Outcome,
      (ofDocument d).synthesizeEdges (ofDocument d).relations = .ok again ∧
        again.1.toDocument = d ∧ again.2.filterMap Outcome.warning? = warnings := by
  obtain ⟨hids, hlinked, s, hrun, hsame, hwarnings⟩ := h
  have hopened : synthesizeFields (ofDocument d).relations (ofDocument d).models = .ok s := by
    rw [hids.ofDocument_relations, hids.ofDocument_models]
    exact hrun
  obtain ⟨done, hdone, -, hdocument⟩ := (Graph.ofDocument_anchored d).synthesizeEdges hopened
  refine ⟨_, hdone, ?_, hwarnings⟩
  calc done.toDocument
      = (ofDocument d).toDocument.withModels d.models := by rw [hdocument, hsame]
    _ = d.linked.withModels d.models := by rw [hids.ofDocument_toDocument]
    _ = d.linked := rfl
    _ = d := hlinked

end Document

namespace Graph

variable {g : Graph} {s : Synthesis}

/-- Whatever has the headings of the models that a run came to, and settles the demands of the run,
makes a synthesized document. -/
theorem Anchored.isSynthesized (h : g.Anchored) (models : List Model)
    (hrelations : (g.relations.map (·.id)).Nodup)
    (hrun : synthesizeFields g.relations g.models = .ok s)
    (hheadings : models.map Model.heading = s.models.map Model.heading)
    (hsettled : ∀ d ∈ Synthesis.demands g.relations g.models, Synthesis.Settled models d) :
    (g.toDocument.withModels models).IsSynthesized
      (Synthesis.warningsOn models (Synthesis.demands g.relations g.models)) := by
  have hgrown := hheadings.trans (Synthesis.synthesizeFields_grown hrun).2
  refine ⟨⟨?_, hrelations⟩, rfl, Synthesis.synthesizeFields_of_settled hrun hgrown hsettled⟩
  change (models.map (·.id) ++ g.enums.map (·.id)).Nodup
  rw [Model.ids_of_headings hgrown]
  exact h.nodup

end Graph

namespace CommandLine

/-- Where nothing is told in detail, only warnings are logged. -/
theorem logOutcomes_false (outcomes : List Outcome) :
    logOutcomes false outcomes =
      (outcomes.filterMap Outcome.warning?).map (logLine "WARNING" .synthesis) := by
  induction outcomes with
  | nil => rfl
  | cons o outcomes ih =>
      have hcons : logOutcomes false (o :: outcomes) =
          outcomeLines false o ++ logOutcomes false outcomes := List.flatMap_cons
      rw [hcons, ih]
      cases o <;> rfl

end CommandLine

namespace Document

theorem IsTidy.ofDocument {d : Document} (h : d.IsTidy) : (Graph.ofDocument d).toDocument.IsTidy :=
  ⟨fun m hm => h.models m (Graph.mem_of_mem_ofDocument_models hm),
    fun e he => h.enums e (Graph.mem_of_mem_ofDocument_enums he)⟩

theorem IsTidy.withModels {d : Document} {models : List Model} (h : d.IsTidy)
    (hmodels : ∀ m ∈ models, m.HasDistinctFields) : (d.withModels models).IsTidy :=
  ⟨hmodels, h.enums⟩

/-- What reading leaves of the models leaves of their enum edges what it leaves of the document. -/
theorem withModels_reread (d : Document) (models : List Model) :
    (d.withModels models).reread = d.withModels (models.map Model.reread) := by
  simp only [reread, withModels, linked, deriveEnumEdges_reread]

theorem load_of_faulty {files : FileTree} {path : String} {m : Entries} {faults : List Fault}
    (hread : Snapshot.load files path = .ok m) (hparse : parse (.map m) = .faulty faults) :
    load files path = .error (.invalid faults) := by
  unfold load
  rw [hread]
  simp only [ofSnapshot, hparse]

end Document

namespace CommandLine

theorem synthesize_of_ok {d : Document} {done : Graph × List Outcome}
    (hdone : (ofDocument d).synthesizeEdges (ofDocument d).relations = .ok done)
    (files : FileTree) (verbose : Bool) :
    synthesize files verbose d =
      if done.1.toDocument.toValue.brief.isWritable then
        { stdout := printed (Json.pretty done.1.toDocument.toValue.brief)
          stderr := log (logOutcomes verbose done.2), files }
      else { exit := 1, stderr := log (logOutcomes verbose done.2)
             failure := some .overlongNumber, files } := by
  unfold synthesize
  simp only [hdone]

/-- What the command prints of a document that it reads, and whether it prints it at all. -/
theorem run_synthesize {d : Document} {done : Graph × List Outcome}
    (hdone : (ofDocument d).synthesizeEdges (ofDocument d).relations = .ok done) {i : Invocation}
    {files : FileTree} (hcommand : i.command = .synthesize)
    (hload : Document.load files i.input = .ok d) :
    if done.1.toDocument.toValue.brief.isWritable then
      (i.run files).exit = 0 ∧
        (i.run files).stdout = printed (Json.pretty done.1.toDocument.toValue.brief)
    else (i.run files).exit = 1 := by
  have hrun : i.run files = (synthesize files i.verbose d).encoded := by
    unfold Invocation.run
    simp only [hload, hcommand]
  have hlines : Json.PrintableLines (Json.pretty done.1.toDocument.toValue.brief).toList :=
    Json.printableLines_indented done.1.toDocument.hasForm.brief 0
  have hwhole : Text.isWhole (printed (Json.pretty done.1.toDocument.toValue.brief)) = true := by
    rw [isWhole_printed, hlines.isWhole]
  rw [hrun, synthesize_of_ok hdone]
  split
  · simp [Completion.encoded, hwhole]
  · rfl

/-- From what was printed of a document the command prints the same, if the document is synthesized
with one NaN for all. -/
theorem run_printed {d : Document} {warnings : List String} (htidy : d.IsTidy)
    (hreread : d.reread.IsSynthesized warnings)
    (htexts : ∀ s ∈ d.toValue.brief.strings, Text.HasNoPair s)
    (hwritable : d.toValue.brief.isWritable = true) {i : Invocation} {files : FileTree}
    (hcommand : i.command = .synthesize) (hname : Snapshot.isJson (Path.ofText i.input) = true)
    (hfile : files.entry? (Path.ofText i.input) =
      some (.ofText (printed (Json.pretty d.toValue.brief)))) :
    (i.run files).exit = 0 ∧ (i.run files).stdout = printed (Json.pretty d.toValue.brief) := by
  have hform := d.hasForm.brief
  obtain ⟨done, hdone, hsame, -⟩ := hreread.synthesizeEdges
  have hrun := run_synthesize hdone hcommand
    (Document.load_printed htidy htexts hwritable hname hfile)
  rw [hsame, Document.brief_toValue_reread, Json.isWritable_reread hform, if_pos hwritable,
    Json.pretty, Json.indented_reread hform] at hrun
  exact hrun

/-- What synthesis makes of a document is a fixed point: it is read back from its dump, full or
brief, and synthesis makes the same of it. So the command makes the same of both documents, to the
warnings it logs. Saved in a file whose name ends in `.json`, what it prints of the first one makes
it print the same again, if no text of the document has the first half of a surrogate pair directly
before a second half. -/
theorem synthesize_again {data : Value} {d : Document} (hparse : Document.parse data = .value d)
    {done : Graph × List Outcome}
    (hdone : (ofDocument d).synthesizeEdges (ofDocument d).relations = .ok done) :
    Document.parse done.1.toDocument.toValue = .value done.1.toDocument ∧
      Document.parse done.1.toDocument.toValue.brief = .value done.1.toDocument ∧
      (∃ again : Graph × List Outcome,
        (ofDocument done.1.toDocument).synthesizeEdges (ofDocument done.1.toDocument).relations =
            .ok again ∧
          again.1.toDocument = done.1.toDocument) ∧
      (∀ files, synthesize files false done.1.toDocument = synthesize files false d) ∧
      ((∀ s ∈ done.1.toDocument.toValue.brief.strings, Text.HasNoPair s) →
        ∀ (files own : FileTree) (first again : Invocation), first.command = .synthesize →
          Document.load files first.input = .ok d → (first.run files).exit = 0 →
          again.command = .synthesize → Snapshot.isJson (Path.ofText again.input) = true →
          own.entry? (Path.ofText again.input) = some (.ofText (first.run files).stdout) →
            (again.run own).exit = 0 ∧ (again.run own).stdout = (first.run files).stdout) := by
  have hanchored := Graph.ofDocument_anchored d
  have hrelations := Graph.ofDocument_relationIds d
  obtain ⟨s, hrun, houtcomes, hdocument⟩ := hanchored.synthesizeEdges_eq_ok hdone
  have htidy : done.1.toDocument.IsTidy := by
    have hopened := (Document.isTidy_of_parse hparse).ofDocument
    rw [hdocument]
    exact hopened.withModels (Synthesis.synthesizeFields_hasDistinctFields hrun hopened.models)
  have hsettled := Synthesis.demands_settled hrun
  have hsynthesized := hanchored.isSynthesized s.models hrelations hrun rfl hsettled
  rw [← hdocument] at hsynthesized
  obtain ⟨again, hagain, hsame, hwarnings⟩ := hsynthesized.synthesizeEdges
  refine ⟨Document.parse_written .full htidy, Document.parse_written .brief htidy,
    ⟨again, hagain, hsame⟩, fun files => ?_, ?_⟩
  · have hlog : logOutcomes false again.2 = logOutcomes false done.2 := by
      rw [logOutcomes_false, logOutcomes_false, hwarnings, houtcomes]
      exact congrArg _ (Synthesis.synthesizeFields_warnings hrun hrelations).symm
    rw [synthesize_of_ok hagain, synthesize_of_ok hdone, hsame, hlog]
  · intro htexts files own first again hfirst hload hexit hcommand hname hfile
    have hprinted := run_synthesize hdone hfirst hload
    have hwritable : done.1.toDocument.toValue.brief.isWritable = true := by
      by_contra hoverlong
      rw [if_neg hoverlong, hexit] at hprinted
      cases hprinted
    rw [if_pos hwritable] at hprinted
    rw [hprinted.2] at hfile ⊢
    have hreread := hanchored.isSynthesized (s.models.map Model.reread) hrelations hrun
      (by rw [List.map_map]; rfl) fun d hd => (hsettled d hd).reread
    rw [← Document.withModels_reread, ← hdocument] at hreread
    exact run_printed htidy hreread htexts hwritable hcommand hname hfile

def synthesizing (input : String) : Invocation :=
  { verbose := false, command := .synthesize, input }

/-- A folder with nothing in it but one text. -/
def holding (name text : String) : FileTree := ({} : FileTree).put [name] (.ofText text)

theorem entry?_holding {name text : String}
    (hfollow : ({} : FileTree).follow (Path.ofText name) = .ok [name])
    (hname : FileTree.isGround [name] = false) :
    FileTree.entry? (holding name text) (Path.ofText name) = some (.ofText text) := by
  refine FileTree.entry?_put ?_ hfollow
  rw [FileTree.entry?_of_follow hfollow]
  simp [FileTree.at?, hname]

/-- An enum has the id of a model, and two relations share one. One value of the enum lies beyond
sixteen bits, another is half of a surrogate pair. -/
def crossed : Document :=
  { models := [
      { id := "u", name := "User", fields := [{ name := "role", type := "Role" }] },
      { id := "p", name := "Post", fields := [{ name := "state", type := "State" }] },
      { id := "x", name := "User" }]
    enums := [{ id := "r", name := "Role" },
      { id := "x", name := "State", values := ["😀", String.ofList (Text.ofCode 0xd83d)] }]
    relationEdges := [{ id := "e", source := "u", target := "p" },
      { id := "f", type := "MANY_TO_MANY", source := "p", target := "p" },
      { id := "e", type := "ONE_TO_ONE", source := "p", target := "u" }] }

def crossedFiles : FileTree :=
  holding "crossed.json" (printed (Json.pretty crossed.toValue.brief))

theorem synthesize_again_crossed :
    ∃ done : Graph × List Outcome,
      (ofDocument crossed).synthesizeEdges (ofDocument crossed).relations = .ok done ∧
      done.1.toDocument.enums.map (·.id) = ["x", "r"] ∧
      done.1.toDocument.enumEdges.map (·.id) = ["enum-edge-p-state-x", "enum-edge-u-role-r"] ∧
      done.1.toDocument.relationEdges.map (·.type) = ["ONE_TO_ONE", "MANY_TO_MANY"] ∧
      Document.parse done.1.toDocument.toValue.brief = .value done.1.toDocument ∧
      synthesize {} false done.1.toDocument = synthesize {} false crossed ∧
      ∃ stdout, ((synthesizing "crossed.json").run crossedFiles).exit = 0 ∧
        ((synthesizing "crossed.json").run crossedFiles).stdout = stdout ∧
        ((synthesizing "again.json").run (holding "again.json" stdout)).exit = 0 ∧
        ((synthesizing "again.json").run (holding "again.json" stdout)).stdout = stdout := by
  have hparse : Document.parse crossed.toValue = .value crossed :=
    Reading.value?_eq_some_iff.mp (by decide +kernel)
  have hdone : (ofDocument crossed).synthesizeEdges (ofDocument crossed).relations = .ok _ := rfl
  obtain ⟨-, hbrief, -, hprinted, hread⟩ := synthesize_again hparse hdone
  have hload : Document.load crossedFiles "crossed.json" = .ok crossed :=
    Document.load_printed (Document.isTidy_of_parse hparse) (by decide +kernel) (by decide +kernel)
      (by decide +kernel) (entry?_holding (by decide +kernel) (by decide +kernel))
  have hexit : ((synthesizing "crossed.json").run crossedFiles).exit = 0 := by
    have hrun := run_synthesize hdone (i := synthesizing "crossed.json") rfl hload
    rw [if_pos (by decide +kernel)] at hrun
    exact hrun.1
  obtain ⟨hagain, hsame⟩ := hread (by decide +kernel) crossedFiles _ (synthesizing "crossed.json")
    (synthesizing "again.json") rfl hload hexit rfl (by decide +kernel)
    (entry?_holding (by decide +kernel) (by decide +kernel))
  exact ⟨_, hdone, rfl, rfl, rfl, hbrief, hprinted {}, _, hexit, rfl, hagain, hsame⟩

/-- A half of a surrogate pair and the other one behind it. -/
def splitPair : String := String.ofList (Text.ofCodes [0xd83d, 0xde00])

/-- An enum with two values. -/
def faces (first second : String) : Document :=
  { enums := [{ id := "e", name := "Face", values := [first, second] }] }

def facesFiles : FileTree :=
  holding "faces.yaml"
    "enums: [\x7bid: e, name: Face, values: [\"\\uD83D\\uDE00\", \"\\U0001F600\"]\x7d]"

/-- What is printed of an enum that has one value twice. -/
def sameFaces : List (String × Value) := [
  ("models", .list []),
  ("enums", .list [
    .record [("id", .text "e"), ("name", .text "Face"), ("values", .texts ["😀", "😀"])]]),
  ("relationEdges", .list []), ("enumEdges", .list []),
  ("generator", .record [("provider", .text "prisma-client"), ("previewFeatures", .list [])]),
  ("datasource", .record [("provider", .text "POSTGRESQL")])]

/-- Apart, the halves of a pair are not the character that they would make up, but they are printed
like it. So the values of an enum may differ, and yet be refused as the same where they are read
from what was printed. -/
theorem synthesize_again_split_pair :
    ¬ ∀ (files own : FileTree) (first again : Invocation), first.command = .synthesize →
      (first.run files).exit = 0 → again.command = .synthesize →
      Snapshot.isJson (Path.ofText again.input) = true →
      own.entry? (Path.ofText again.input) = some (.ofText (first.run files).stdout) →
        (again.run own).exit = 0 ∧ (again.run own).stdout = (first.run files).stdout := by
  intro hall
  have hload : Document.load facesFiles "faces.yaml" = .ok (faces splitPair "😀") := by
    decide +kernel
  have hdone : (ofDocument (faces splitPair "😀")).synthesizeEdges
      (ofDocument (faces splitPair "😀")).relations = .ok (ofDocument (faces splitPair "😀"), []) :=
    rfl
  have hrun := run_synthesize hdone (i := synthesizing "faces.yaml") rfl hload
  rw [if_pos (by decide +kernel)] at hrun
  have halike : Json.pretty (ofDocument (faces splitPair "😀")).toDocument.toValue.brief =
      Json.pretty (faces "😀" "😀").toValue.brief := by
    decide +kernel
  rw [halike] at hrun
  obtain ⟨hexit, hstdout⟩ := hrun
  let own := holding "own.json" (printed (Json.pretty (faces "😀" "😀").toValue.brief))
  have hfile : own.entry? (Path.ofText "own.json") = some (.ofText _) :=
    entry?_holding (by decide +kernel) (by decide +kernel)
  have hread : Snapshot.load own "own.json" =
      .ok (sameFaces.map fun m => (.text m.1, m.2)) :=
    Snapshot.load_printed (faces "😀" "😀").hasForm.brief (by decide) (by decide +kernel)
      (by decide +kernel) rfl (by decide +kernel) hfile
  obtain ⟨faults, hfaulty⟩ : ∃ faults, Document.parse (.record sameFaces) = .faulty faults :=
    Reading.isFaulty_iff.mp (by decide +kernel)
  have hrefused : Document.load own "own.json" = .error (.invalid faults) :=
    Document.load_of_faulty hread hfaulty
  obtain ⟨stderr, hagain⟩ := run_of_refused (i := synthesizing "own.json") hrefused rfl
  obtain ⟨hzero, -⟩ := hall facesFiles own (synthesizing "faces.yaml") (synthesizing "own.json") rfl
    hexit rfl (by decide +kernel) (hstdout ▸ hfile)
  rw [hagain] at hzero
  cases hzero

-- Under any other name the text is read as YAML, where a number without a point is a text.
example : Json.floatText (Binary64.ofDecimal false 1 16) = "1e+16" ∧
    Yaml.Tag.ofPlain "1e+16" = .text := by
  decide +kernel

end CommandLine

end DrawnSchema
