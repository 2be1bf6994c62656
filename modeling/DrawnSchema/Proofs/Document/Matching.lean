import DrawnSchema.Proofs.Document.Complaints
import DrawnSchema.Proofs.Document.Records

/-!
# Raw records with the same entries

The entries of a record are looked up by their keys. Where two records have the same under every
key, in whichever order, they are read the same, down to the places of their faults. So are raw
documents whose models, enums and relations match one by one.
-/

namespace DrawnSchema

/-! ### Records -/

namespace Entries

variable {α : Type} {m m' : Entries} {k : Key} {read : Value → Reading α}

/-- Maps with the same under every key. -/
def Matches (m m' : Entries) : Prop := ∀ key, m'.get? key = m.get? key

theorem Matches.required (h : m.Matches m') : m'.required k read = m.required k read :=
  required_congr (pick_congr fun name _ => h name)

theorem Matches.withDefault (h : m.Matches m') (default : α) :
    m'.withDefault k default read = m.withDefault k default read :=
  withDefault_congr (pick_congr fun name _ => h name)

theorem Matches.optional (h : m.Matches m') : m'.optional k read = m.optional k read :=
  h.withDefault none

theorem Matches.insert (h : m.Matches m') (key : String) (v : Value) :
    (m.insert key v).Matches (m'.insert key v) := by
  intro other
  by_cases heq : other = key
  · subst heq
    rw [get?_insert_self, get?_insert_self]
  · rw [get?_insert_of_ne heq, get?_insert_of_ne heq, h other]

end Entries

/-- Values that are records with the same under every key. -/
def Value.Matches (v v' : Value) : Prop :=
  ∃ m m' : Entries, v.exposed = .map m ∧ v'.exposed = .map m' ∧ m.Matches m'

section Reading

variable {α : Type} {v v' : Value} {vs vs' : List Value}

theorem Value.Matches.readRecord_eq {type : RecordType} {read : Entries → Reading α}
    (h : v.Matches v') (hread : ∀ m m' : Entries, m.Matches m' → read m' = read m) :
    readRecord type read v' = readRecord type read v := by
  obtain ⟨m, m', hv, hv', hm⟩ := h
  simp only [readRecord, hv, hv', hread m m' hm]

theorem readItems_congr {read : Value → Reading α}
    (h : List.Forall₂ (fun v v' => read v' = read v) vs vs') (start : Nat) :
    readItems read start vs' = readItems read start vs := by
  induction h generalizing start with
  | nil => rfl
  | cons hv _ ih => rw [readItems, readItems, hv, ih]

theorem readList_congr {read : Value → Reading α}
    (h : List.Forall₂ (fun v v' => read v' = read v) vs vs') :
    readList read (.list vs') = readList read (.list vs) :=
  readItems_congr h 0

end Reading

/-! ### Models, enums and relations -/

section Records

variable {v v' : Value} {m m' : Entries}

theorem Enumeration.read_of_matches (h : v.Matches v') : read v' = read v :=
  h.readRecord_eq fun m m' hm => by simp only [hm.required, hm.withDefault, hm.optional]

theorem RelationEdge.read_of_matches (h : v.Matches v') : read v' = read v :=
  h.readRecord_eq fun m m' hm => by
    simp only [readEntries, hm.required, hm.withDefault, hm.optional]

theorem Model.readNormal_of_matches (h : m.Matches m') : readNormal m' = readNormal m := by
  simp only [readNormal, h.required, h.withDefault, h.optional]

theorem RawModel.normalizeFields_matches (h : m.Matches m') (known : KnownNames) :
    SameOutcome Entries.Matches (normalizeFields known m) (normalizeFields known m') := by
  unfold normalizeFields
  rw [h "fields"]
  split
  next fields _ =>
    refine (SameOutcome.refl (fun _ => rfl) _).bind ?_
    rintro fields' _ rfl
    exact .ok (h.insert "fields" (.list fields'))
  next => exact .ok h

/-- Models that match are read the same once they are in order. -/
theorem RawModel.normalizeValue_matches (h : v.Matches v') (known : KnownNames) :
    SameOutcome (fun w w' => Model.read w' = Model.read w) (normalizeValue known v)
      (normalizeValue known v') := by
  obtain ⟨m, m', hv, hv', hm⟩ := h
  simp only [normalizeValue, hv, hv']
  refine (normalizeFields_matches hm known).attach.bind fun n n' hn => .ok ?_
  obtain ⟨hn, hok, hok'⟩ := hn
  rw [read_of_normalizeFields hok, read_of_normalizeFields hok', Model.readNormal_of_matches hn]

end Records

/-! ### Documents -/

namespace RawDocument

variable {document document' : Entries}

/-- The list under a key on both sides, with items that match one by one. -/
def ListsMatch (key : String) (document document' : Entries) : Prop :=
  ∃ vs vs', document.get? key = some (.list vs) ∧ document'.get? key = some (.list vs') ∧
    List.Forall₂ Value.Matches vs vs'

/-- Raw documents with models, enums and relations that match, and with the same under every other
key. -/
structure Matches (document document' : Entries) : Prop where
  models : ListsMatch "models" document document'
  enums : ListsMatch "enums" document document'
  relations : ListsMatch "relationEdges" document document'
  others : ∀ key ∉ ["models", "enums", "relationEdges"], document'.get? key = document.get? key

theorem namesOf_matches {vs vs' : List Value} (h : List.Forall₂ Value.Matches vs vs') :
    namesOf vs' = namesOf vs := by
  refine namesOf_congr (h.imp fun v v' hmatch => ?_)
  obtain ⟨m, m', hv, hv', hm⟩ := hmatch
  refine Or.inr ⟨m, m', hv, hv', ?_⟩
  rw [Entries.getD, Entries.getD, hm "name"]

theorem ListsMatch.insert {key : String} (h : ListsMatch key document document') (other : String)
    (hne : key ≠ other) (v v' : Value) :
    ListsMatch key (document.insert other v) (document'.insert other v') := by
  obtain ⟨vs, vs', hvs, hvs', hmatch⟩ := h
  exact ⟨vs, vs', by rwa [Entries.get?_insert_of_ne hne], by rwa [Entries.get?_insert_of_ne hne],
    hmatch⟩

theorem ListsMatch.withDefault {α : Type} {name : String} {k : Key} {others : List String}
    {read : Value → Reading α} (h : ListsMatch name document document')
    (hk : k.accepted = name :: others) (hread : ∀ v v', v.Matches v' → read v' = read v)
    (default : List α) :
    document'.withDefault k default (readList read) =
      document.withDefault k default (readList read) := by
  obtain ⟨vs, vs', hvs, hvs', hmatch⟩ := h
  have hlist : readList read (.list vs') = readList read (.list vs) :=
    readList_congr (hmatch.imp hread)
  rw [Entries.withDefault_of_head hk hvs, Entries.withDefault_of_head hk hvs', hlist]

theorem Matches.readNormal_insert (h : Matches document document') {models models' : List Value}
    (hmodels : List.Forall₂ (fun v v' => Model.read v' = Model.read v) models models') :
    Document.readNormal (document'.insert "models" (.list models')) =
      Document.readNormal (document.insert "models" (.list models)) := by
  have hpick {k : Key} (hk : ∀ name ∈ k.accepted, name ∉ ["models", "enums", "relationEdges"]) :
      (document'.insert "models" (.list models')).pick k =
        (document.insert "models" (.list models)).pick k := by
    refine Entries.pick_congr fun name hname => ?_
    have hne : name ≠ "models" := fun heq => hk name hname (by simp [heq])
    rw [Entries.get?_insert_of_ne hne, Entries.get?_insert_of_ne hne, h.others name (hk name hname)]
  have hmodel (document : Entries) (models : List Value) :
      (document.insert "models" (.list models)).withDefault Key.models [] (readList Model.read) =
        (readList Model.read (.list models)).under (.key "models") :=
    Entries.withDefault_of_head rfl Entries.get?_insert_self []
  have henums := (h.enums.insert "models" (by decide) (.list models) (.list models')).withDefault
    (k := Key.enums) rfl (fun _ _ => Enumeration.read_of_matches) []
  have hrelations :=
    (h.relations.insert "models" (by decide) (.list models) (.list models')).withDefault
      (k := Key.relationEdges) rfl (fun _ _ => RelationEdge.read_of_matches) []
  simp only [Document.readNormal, hmodel, readList_congr hmodels, henums, hrelations]
  rw [Entries.withDefault_congr (k := Key.enumEdges) (hpick (by decide)),
    Entries.withDefault_congr (k := Key.generator) (hpick (by decide)),
    Entries.withDefault_congr (k := Key.datasource) (hpick (by decide))]

theorem Matches.classify (h : Matches document document') :
    SameOutcome (fun n n' => Document.readNormal n' = Document.readNormal n)
      (classify document) (classify document') := by
  obtain ⟨vs, vs', hvs, hvs', hmodels⟩ := h.models
  obtain ⟨es, es', hes, hes', henums⟩ := h.enums
  have hitems : itemsOrNone (document.getD "enums") = .ok es := by
    rw [Entries.getD, hes]
    exact itemsOrNone_of_list (Value.exposed_list es)
  have hitems' : itemsOrNone (document'.getD "enums") = .ok es' := by
    rw [Entries.getD, hes']
    exact itemsOrNone_of_list (Value.exposed_list es')
  have hknown := knownNames_congr (namesOf_matches hmodels) hitems hitems' (namesOf_matches henums)
  simp only [RawDocument.classify, hvs, hvs', Option.map_some, Value.exposed_list, hknown]
  refine (SameOutcome.refl (fun _ => rfl) (knownNames vs (document.getD "enums"))).bind ?_
  rintro known _ rfl
  have hnormal := SameOutcome.mapM hmodels fun v v' hv => RawModel.normalizeValue_matches hv known
  exact hnormal.bind fun models models' hread => .ok (h.readNormal_insert hread)

end RawDocument

theorem Document.read_of_matches {document document' : Entries}
    (h : RawDocument.Matches document document') :
    read (.map document') = read (.map document) :=
  readPrepared_congr id h.classify

end DrawnSchema
