import DrawnSchema.Proofs.Document.Dump

/-!
# Attributes of a field by their names with underscores

A field that is edited is taken apart into attributes under the names that its changes use, and built
from them again. Reading accepts these names as it does the others, so an attribute that is shown
under such a name is read as the value that it had.
-/

namespace DrawnSchema

/-- A key as it is written with underscores. It accepts what it did. -/
def Key.underscored (k : Key) : Key := { k with camel := k.snake }

namespace Entries

variable {m : Entries} {k : Key}

theorem optional_underscored {α : Type} (read : Value → Reading α) :
    m.optional k.underscored read = m.optional k read := rfl

theorem Shows.truth_eq {b b' : Bool} (hshown : m.Shows .full k.underscored (.bool b))
    (hread : m.withDefault k false readTruth = .value b') : b' = b :=
  Reading.value.inj (hread.symm.trans (withDefault_truth .full hshown false))

theorem Shows.optionText_eq {o o' : Option String}
    (hshown : m.Shows .full k.underscored (.optionText o))
    (hread : m.optional k readText = .value o') : o' = o :=
  Reading.value.inj (hread.symm.trans hshown.optional_text)

theorem Shows.optional_eq {α : Type} {write : α → Value} {read : Value → Reading α}
    {o o' : Option α} (hshown : m.Shows .full k.underscored (.optional write o))
    (hback : ∀ a, (write a).isNull = false ∧ read (write a) = .value a)
    (hread : m.optional k read = .value o') : o' = o :=
  Reading.value.inj (hread.symm.trans (hshown.optional fun a _ => hback a))

end Entries

/-! ### Relations -/

namespace RelationInfo

def underscored (r : RelationInfo) : Members where
  keys := [Key.name, Key.relationFields, Key.references, Key.onDelete.underscored,
    Key.onUpdate.underscored]
  values := [.optionText r.name, .texts r.fields, .texts r.references,
    .optional ReferentialAction.toValue r.onDelete, .optional ReferentialAction.toValue r.onUpdate]
  length_eq := r.members.length_eq

theorem read_underscored (r : RelationInfo) : read (r.toValue .snake) = .value r := by
  have hshows := r.underscored.shows .full
  have hname := (hshows 0 rfl rfl).optional_text
  have hfields := (hshows 1 rfl rfl).withDefault rfl (readTexts_written .full _) []
  have hreferences := (hshows 2 rfl rfl).withDefault rfl (readTexts_written .full _) []
  have honDelete := ReferentialAction.optional_shown .full (hshows 3 rfl rfl)
  have honUpdate := ReferentialAction.optional_shown .full (hshows 4 rfl rfl)
  rw [Entries.optional_underscored] at honDelete honUpdate
  change readRecord _ _ (r.underscored.toValue.written .full) = _
  rw [Members.readRecord_written, hname, hfields, hreferences, honDelete, honUpdate]
  rfl

end RelationInfo

/-! ### What the contents of a field are read from -/

theorem ScalarContent.read_eq_value_iff {m : Entries} {c : ScalarContent} :
    read m = .value c ↔
      m.withDefault Key.isId false readTruth = .value c.isId ∧
      m.withDefault Key.isUnique false readTruth = .value c.isUnique ∧
      m.withDefault Key.isUpdatedAt false readTruth = .value c.isUpdatedAt ∧
      m.optional Key.defaultValue readText = .value c.defaultValue ∧
      m.optional Key.nativeType NativeType.read = .value c.nativeType := by
  unfold read
  constructor
  · intro h
    obtain ⟨_, nativeType, h4, hnativeType, rfl⟩ := Reading.exists_of_seq_eq_value h
    obtain ⟨_, defaultValue, h3, hdefaultValue, rfl⟩ := Reading.exists_of_seq_eq_value h4
    obtain ⟨_, isUpdatedAt, h2, hisUpdatedAt, rfl⟩ := Reading.exists_of_seq_eq_value h3
    obtain ⟨_, isUnique, h1, hisUnique, rfl⟩ := Reading.exists_of_seq_eq_value h2
    obtain ⟨isId, hisId, rfl⟩ := Reading.map_eq_value_iff.mp h1
    exact ⟨hisId, hisUnique, hisUpdatedAt, hdefaultValue, hnativeType⟩
  · rintro ⟨hisId, hisUnique, hisUpdatedAt, hdefaultValue, hnativeType⟩
    rw [hisId, hisUnique, hisUpdatedAt, hdefaultValue, hnativeType]
    rfl

theorem EnumContent.read_eq_value_iff {m : Entries} {c : EnumContent} :
    read m = .value c ↔
      m.withDefault Key.isId false readTruth = .value c.isId ∧
      m.withDefault Key.isUnique false readTruth = .value c.isUnique ∧
      m.optional Key.defaultValue readText = .value c.defaultValue := by
  unfold read
  constructor
  · intro h
    obtain ⟨_, defaultValue, h2, hdefaultValue, rfl⟩ := Reading.exists_of_seq_eq_value h
    obtain ⟨_, isUnique, h1, hisUnique, rfl⟩ := Reading.exists_of_seq_eq_value h2
    obtain ⟨isId, hisId, rfl⟩ := Reading.map_eq_value_iff.mp h1
    exact ⟨hisId, hisUnique, hdefaultValue⟩
  · rintro ⟨hisId, hisUnique, hdefaultValue⟩
    rw [hisId, hisUnique, hdefaultValue]
    rfl

/-! ### Attributes that are read back -/

/-- The keys of the attributes of a field, but for its kind. -/
def FieldKind.attributeKeys (kind : FieldKind) : List Key :=
  [Key.id, Key.name, Key.type, Key.isOptional, Key.isArray, Key.mapName, Key.ignore, Key.origin] ++
    kind.keys

def FieldContent.pairs : FieldContent → List (Key × Value)
  | .scalar c => [
    (Key.isId, .bool c.isId), (Key.isUnique, .bool c.isUnique),
    (Key.isUpdatedAt, .bool c.isUpdatedAt), (Key.defaultValue, .optionText c.defaultValue),
    (Key.nativeType, .optional NativeType.toValue c.nativeType)]
  | .enum c => [
    (Key.isId, .bool c.isId), (Key.isUnique, .bool c.isUnique),
    (Key.defaultValue, .optionText c.defaultValue)]
  | .relation info => [(Key.relation, .optional (RelationInfo.toValue .snake) info)]

namespace Field

def sharedPairs (f : Field) : List (Key × Value) := [
  (Key.id, .optionText f.id), (Key.name, .text f.name), (Key.type, .text f.type),
  (Key.isOptional, .bool f.isOptional), (Key.isArray, .bool f.isArray),
  (Key.mapName, .optionText f.mapName), (Key.ignore, .bool f.ignore),
  (Key.origin, .text f.origin.name)]

/-- The attributes of a field, each by its key. -/
def pairs (f : Field) : List (Key × Value) := f.sharedPairs ++ f.content.pairs

theorem sharedAttributes_eq (f : Field) :
    f.sharedAttributes .snake = f.sharedPairs.map fun p => (p.1.snake, p.2) := rfl

theorem attributes_eq (f : Field) :
    f.attributes .snake = f.pairs.map fun p => (p.1.snake, p.2) := by
  obtain ⟨id, name, type, isOptional, isArray, mapName, ignore, origin, content⟩ := f
  cases content <;> rfl

theorem pairs_keys (f : Field) : f.pairs.map Prod.fst = f.kind.attributeKeys := by
  obtain ⟨id, name, type, isOptional, isArray, mapName, ignore, origin, content⟩ := f
  cases content <;> rfl

theorem underscored_distinct (f : Field) :
    Key.Distinct (f.pairs.map fun p => p.1.underscored) := by
  have hkinds : ∀ kind : FieldKind, Key.Distinct (kind.attributeKeys.map Key.underscored) := by
    intro kind
    cases kind <;> decide
  have hkeys := hkinds f.kind
  rwa [← pairs_keys, List.map_map] at hkeys

def underscored (f : Field) : Members where
  keys := f.pairs.map fun p => p.1.underscored
  values := f.pairs.map Prod.snd
  distinct := f.underscored_distinct
  length_eq := by rw [List.length_map, List.length_map]

theorem entriesOfField_eq (f : Field) : Graph.entriesOfField f = f.underscored.written .full := by
  have hpairs : f.underscored.pairs = f.pairs.map fun p => (p.1.underscored, p.2) :=
    List.zip_map'
  rw [Members.written, hpairs, Graph.entriesOfField, attributes_eq, List.map_map, Entries.written,
    List.filterMap_map, ← List.filterMap_eq_map]
  rfl

theorem entriesOfField_shows {f : Field} {p : Key × Value} (hp : p ∈ f.pairs) :
    (Graph.entriesOfField f).Shows .full p.1.underscored p.2 := by
  obtain ⟨n, hn⟩ := List.mem_iff_getElem?.mp hp
  have hkey : f.underscored.keys[n]? = some p.1.underscored := by
    change (f.pairs.map fun p => p.1.underscored)[n]? = _
    rw [List.getElem?_map, hn, Option.map_some]
  have hvalue : f.underscored.values[n]? = some p.2 := by
    change (f.pairs.map Prod.snd)[n]? = _
    rw [List.getElem?_map, hn, Option.map_some]
  rw [entriesOfField_eq]
  exact f.underscored.shows .full n hkey hvalue

/-- A field taken apart has nothing under a name that is not one of an attribute. -/
theorem get?_entriesOfField_eq_none {f : Field} {name : String}
    (h : name ∉ Graph.fieldAttributes) : (Graph.entriesOfField f).get? name = none := by
  have hknown : ∀ kind : FieldKind, ∀ k ∈ kind.attributeKeys, k.snake ∈ Graph.fieldAttributes := by
    intro kind
    cases kind <;> decide
  rw [entriesOfField_eq]
  refine f.underscored.get?_eq_none .full fun k hk heq => h ?_
  obtain ⟨p, hp, rfl⟩ := List.mem_map.mp hk
  rw [← heq]
  exact hknown f.kind p.1 (f.pairs_keys ▸ List.mem_map_of_mem hp)

variable {m : Entries} {old new : Field} {p : Key × Value}

theorem mem_sharedPairs_of_readAs {kind : FieldKind} (hread : readAs kind m = .value new)
    (hp : p ∈ old.sharedPairs) (hshown : m.Shows .full p.1.underscored p.2) :
    p ∈ new.sharedPairs := by
  obtain ⟨hid, hname, htype, hisOptional, hisArray, hmapName, hignore, horigin, -⟩ :=
    readAs_eq_value_iff.mp hread
  simp only [sharedPairs, List.mem_cons, List.not_mem_nil, or_false] at hp ⊢
  obtain rfl | rfl | rfl | rfl | rfl | rfl | rfl | rfl := hp
  · simp [hshown.optionText_eq hid]
  · have hkept : new.name = old.name := Reading.value.inj (hname.symm.trans hshown.required_text)
    simp [hkept]
  · have hkept : new.type = old.type := Reading.value.inj (htype.symm.trans hshown.required_text)
    simp [hkept]
  · simp [hshown.truth_eq hisOptional]
  · simp [hshown.truth_eq hisArray]
  · simp [hshown.optionText_eq hmapName]
  · simp [hshown.truth_eq hignore]
  · have hkept : new.origin = old.origin :=
      Reading.value.inj (horigin.symm.trans (Origin.withDefault_shown .full hshown .user))
    simp [hkept]

/-- What is read as the kind that a field had has the attributes of that kind. -/
theorem mem_contentPairs_of_read {old new : FieldContent}
    (hread : FieldContent.read m old.kind = .value new) (hp : p ∈ old.pairs)
    (hshown : m.Shows .full p.1.underscored p.2) : p ∈ new.pairs := by
  cases old with
  | scalar c =>
      obtain ⟨c', hc', rfl⟩ := Reading.map_eq_value_iff.mp hread
      obtain ⟨hisId, hisUnique, hisUpdatedAt, hdefaultValue, hnativeType⟩ :=
        ScalarContent.read_eq_value_iff.mp hc'
      simp only [FieldContent.pairs, List.mem_cons, List.not_mem_nil, or_false] at hp ⊢
      obtain rfl | rfl | rfl | rfl | rfl := hp
      · simp [hshown.truth_eq hisId]
      · simp [hshown.truth_eq hisUnique]
      · simp [hshown.truth_eq hisUpdatedAt]
      · simp [hshown.optionText_eq hdefaultValue]
      · have hback (t : NativeType) := NativeType.read_written .full t
        simp [hshown.optional_eq (fun t => ⟨rfl, hback t⟩) hnativeType]
  | enum c =>
      obtain ⟨c', hc', rfl⟩ := Reading.map_eq_value_iff.mp hread
      obtain ⟨hisId, hisUnique, hdefaultValue⟩ := EnumContent.read_eq_value_iff.mp hc'
      simp only [FieldContent.pairs, List.mem_cons, List.not_mem_nil, or_false] at hp ⊢
      obtain rfl | rfl | rfl := hp
      · simp [hshown.truth_eq hisId]
      · simp [hshown.truth_eq hisUnique]
      · simp [hshown.optionText_eq hdefaultValue]
  | relation info =>
      obtain ⟨info', hinfo', rfl⟩ := Reading.map_eq_value_iff.mp hread
      obtain rfl := List.mem_singleton.mp hp
      have hkept : info' = info :=
        hshown.optional_eq (fun r => ⟨rfl, r.read_underscored⟩) hinfo'
      rw [hkept]
      exact List.mem_singleton_self _

end Field

end DrawnSchema
