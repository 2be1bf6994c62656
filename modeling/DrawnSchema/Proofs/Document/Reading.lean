import DrawnSchema.Graph.Change
import DrawnSchema.Proofs.Value.Entries
import Mathlib.Data.List.Forall2

/-!
# What a reading that comes to a value has read

A record is read attribute by attribute, so a value at the end means that each attribute came to the
one that the record has.
-/

namespace DrawnSchema

namespace Reading

variable {α β : Type}

def value? : Reading α → Option α
  | .value a => some a
  | _ => none

theorem value?_eq_some_iff {r : Reading α} {a : α} : r.value? = some a ↔ r = .value a := by
  cases r <;> simp [value?]

def isFaulty : Reading α → Bool
  | .faulty _ => true
  | _ => false

theorem isFaulty_iff {r : Reading α} : r.isFaulty = true ↔ ∃ faults, r = .faulty faults := by
  cases r <;> simp [isFaulty]

theorem map_eq_value_iff {f : α → β} {r : Reading α} {b : β} :
    f <$> r = .value b ↔ ∃ a, r = .value a ∧ f a = b := by
  change r.map f = .value b ↔ _
  cases r <;> simp [Reading.map]

/-- Two readings that come to a value together each come to one. -/
theorem exists_of_seq_eq_value {f : Reading (α → β)} {r : Reading α} {b : β}
    (h : f <*> r = .value b) : ∃ g a, f = .value g ∧ r = .value a ∧ g a = b := by
  change f.seq (fun _ => r) = .value b at h
  cases f with
  | value g =>
      obtain ⟨a, ha, hb⟩ := map_eq_value_iff.mp h
      exact ⟨g, a, rfl, ha, hb⟩
  | faulty faults => cases r <;> cases h
  | broken e => cases h

@[simp]
theorem under_eq_value_iff {step : Step} {r : Reading α} {a : α} :
    r.under step = .value a ↔ r = .value a := by
  cases r <;> simp [Reading.under]

theorem check_eq_value_iff {complaint : α → Option Complaint} {r : Reading α} {a : α} :
    r.check complaint = .value a ↔ r = .value a ∧ complaint a = none := by
  cases r with
  | value b =>
      simp only [check]
      cases hb : complaint b with
      | none =>
          simp only [Reading.value.injEq, iff_self_and]
          rintro rfl
          exact hb
      | some c =>
          simp only [reduceCtorEq, Reading.value.injEq, false_iff, not_and]
          rintro rfl
          simp [hb]
  | faulty faults => simp [check]
  | broken e => simp [check]

@[simp]
theorem orRefuse_eq_ok_iff {type : RecordType} {r : Reading α} {a : α} :
    r.orRefuse type = .ok a ↔ r = .value a := by
  cases r <;> simp [Reading.orRefuse]

end Reading

theorem bind_eq_ok_iff {ε α β : Type} {x : Except ε α} {f : α → Except ε β} {b : β} :
    x >>= f = .ok b ↔ ∃ a, x = .ok a ∧ f a = .ok b := by
  cases x <;> simp [bind, Except.bind]

theorem Entries.required_plain_eq_value_iff {α : Type} {m : Entries} {name : String}
    {read : Value → Reading α} {a : α} :
    m.required (.plain name) read = .value a ↔ ∃ v, m.get? name = some v ∧ read v = .value a := by
  unfold Entries.required
  rw [Entries.pick_plain]
  cases m.get? name <;> simp [Reading.faultAt]

theorem Entries.withDefault_plain_eq_value_iff {α : Type} {m : Entries} {name : String}
    {default a : α} {read : Value → Reading α} :
    m.withDefault (.plain name) default read = .value a ↔
      (m.get? name).elim (default = a) fun v => read v = .value a := by
  unfold Entries.withDefault
  rw [Entries.pick_plain]
  cases m.get? name <;> simp

theorem Entries.pick_congr {m m' : Entries} {k : Key}
    (h : ∀ name ∈ k.accepted, m'.get? name = m.get? name) : m'.pick k = m.pick k := by
  simp only [Entries.pick, ← List.head?_filterMap]
  refine congrArg List.head? (List.filterMap_congr fun name hname => ?_)
  rw [h name hname]

theorem Entries.required_congr {α : Type} {m m' : Entries} {k : Key} (h : m'.pick k = m.pick k)
    {read : Value → Reading α} : m'.required k read = m.required k read := by
  simp only [required, h]

theorem Entries.withDefault_congr {α : Type} {m m' : Entries} {k : Key}
    (h : m'.pick k = m.pick k) {default : α} {read : Value → Reading α} :
    m'.withDefault k default read = m.withDefault k default read := by
  simp only [withDefault, h]

/-! ### Records and lists -/

theorem readRecord_eq_value_iff {α : Type} {type : RecordType} {read : Entries → Reading α}
    {v : Value} {a : α} :
    readRecord type read v = .value a ↔ ∃ m, v.exposed = .map m ∧ read m = .value a := by
  unfold readRecord
  split
  next m hm => simp [hm]
  next hm =>
    constructor
    · nofun
    · rintro ⟨m, hmap, -⟩
      exact absurd hmap (hm m)

theorem readPrepared_eq_value_iff {α : Type} {prepared : Except ShapeError Entries}
    {read : Entries → Reading α} {a : α} :
    readPrepared prepared read = .value a ↔ ∃ m, prepared = .ok m ∧ read m = .value a := by
  cases prepared with
  | ok m => simp [readPrepared]
  | error e =>
      rw [readPrepared]
      cases e.message? <;> simp [Reading.fault]

theorem forall₂_of_readItems {α : Type} {read : Value → Reading α} {start : Nat}
    {items : List Value} {l : List α} (h : readItems read start items = .value l) :
    List.Forall₂ (fun v a => read v = .value a) items l := by
  induction items generalizing start l with
  | nil =>
      obtain rfl := Reading.value.inj h
      exact .nil
  | cons v items ih =>
      obtain ⟨_, rest, hfirst, hrest, rfl⟩ := Reading.exists_of_seq_eq_value h
      obtain ⟨a, ha, rfl⟩ := Reading.map_eq_value_iff.mp hfirst
      exact .cons (Reading.under_eq_value_iff.mp ha) (ih hrest)

theorem forall₂_of_readList {α : Type} {read : Value → Reading α} {v : Value} {l : List α}
    (h : readList read v = .value l) :
    ∃ items, v.items? = some items ∧ List.Forall₂ (fun v a => read v = .value a) items l := by
  unfold readList at h
  split at h
  next items hitems => exact ⟨items, hitems, forall₂_of_readItems h⟩
  next => cases h

theorem exists_of_forall₂ {α β : Type} {R : α → β → Prop} {l : List α} {l' : List β}
    (h : List.Forall₂ R l l') {b : β} (hb : b ∈ l') : ∃ a, R a b := by
  induction h with
  | nil => cases hb
  | cons hab _ ih =>
      obtain rfl | hb := List.mem_cons.mp hb
      · exact ⟨_, hab⟩
      · exact ih hb

/-! ### Attributes -/

theorem FieldKind.truthy_name (kind : FieldKind) : (Value.text kind.name).truthy = true := by
  cases kind <;> rfl

namespace Field

theorem readAs_eq_value_iff {kind : FieldKind} {m : Entries} {f : Field} :
    readAs kind m = .value f ↔
      m.optional Key.id readText = .value f.id ∧
      m.required Key.name readText = .value f.name ∧
      m.required Key.type readText = .value f.type ∧
      m.withDefault Key.isOptional false readTruth = .value f.isOptional ∧
      m.withDefault Key.isArray false readTruth = .value f.isArray ∧
      m.optional Key.mapName readText = .value f.mapName ∧
      m.withDefault Key.ignore false readTruth = .value f.ignore ∧
      m.withDefault Key.origin .user Origin.read = .value f.origin ∧
      FieldContent.read m kind = .value f.content := by
  unfold readAs
  constructor
  · intro h
    obtain ⟨_, content, h8, hcontent, rfl⟩ := Reading.exists_of_seq_eq_value h
    obtain ⟨_, origin, h7, horigin, rfl⟩ := Reading.exists_of_seq_eq_value h8
    obtain ⟨_, ignore, h6, hignore, rfl⟩ := Reading.exists_of_seq_eq_value h7
    obtain ⟨_, mapName, h5, hmapName, rfl⟩ := Reading.exists_of_seq_eq_value h6
    obtain ⟨_, isArray, h4, hisArray, rfl⟩ := Reading.exists_of_seq_eq_value h5
    obtain ⟨_, isOptional, h3, hisOptional, rfl⟩ := Reading.exists_of_seq_eq_value h4
    obtain ⟨_, type, h2, htype, rfl⟩ := Reading.exists_of_seq_eq_value h3
    obtain ⟨_, name, h1, hname, rfl⟩ := Reading.exists_of_seq_eq_value h2
    obtain ⟨id, hid, rfl⟩ := Reading.map_eq_value_iff.mp h1
    exact ⟨hid, hname, htype, hisOptional, hisArray, hmapName, hignore, horigin, hcontent⟩
  · rintro ⟨hid, hname, htype, hisOptional, hisArray, hmapName, hignore, horigin, hcontent⟩
    rw [hid, hname, htype, hisOptional, hisArray, hmapName, hignore, horigin, hcontent]
    rfl

end Field

theorem readText_getD_of_required {m : Entries} {key s : String}
    (h : m.required (.plain key) readText = .value s) : readText (m.getD key) = .value s := by
  obtain ⟨v, hv, hread⟩ := Entries.required_plain_eq_value_iff.mp h
  rwa [Entries.getD, hv, Option.getD_some]

theorem Model.readNormal_eq_value {m : Entries} {model : Model} (h : readNormal m = .value model) :
    readText (m.getD "name") = .value model.name ∧
      m.withDefault Key.fields [] (readList Field.read) = .value model.fields := by
  obtain ⟨_, _, h9, -, rfl⟩ := Reading.exists_of_seq_eq_value (Reading.check_eq_value_iff.mp h).1
  obtain ⟨_, _, h8, -, rfl⟩ := Reading.exists_of_seq_eq_value h9
  obtain ⟨_, _, h7, -, rfl⟩ := Reading.exists_of_seq_eq_value h8
  obtain ⟨_, _, h6, -, rfl⟩ := Reading.exists_of_seq_eq_value h7
  obtain ⟨_, _, h5, -, rfl⟩ := Reading.exists_of_seq_eq_value h6
  obtain ⟨_, _, h4, -, rfl⟩ := Reading.exists_of_seq_eq_value h5
  obtain ⟨_, _, h3, -, rfl⟩ := Reading.exists_of_seq_eq_value h4
  obtain ⟨_, fields, h2, hfields, rfl⟩ := Reading.exists_of_seq_eq_value h3
  obtain ⟨_, name, h1, hname, rfl⟩ := Reading.exists_of_seq_eq_value h2
  obtain ⟨_, -, rfl⟩ := Reading.map_eq_value_iff.mp h1
  exact ⟨readText_getD_of_required hname, hfields⟩

theorem Enumeration.read_map_eq_value {m : Entries} {e : Enumeration}
    (h : read (.map m) = .value e) : readText (m.getD "name") = .value e.name := by
  obtain ⟨m', hm, h⟩ := readRecord_eq_value_iff.mp h
  obtain rfl := Value.map.inj hm
  obtain ⟨_, _, h3, -, rfl⟩ := Reading.exists_of_seq_eq_value (Reading.check_eq_value_iff.mp h).1
  obtain ⟨_, _, h2, -, rfl⟩ := Reading.exists_of_seq_eq_value h3
  obtain ⟨_, name, h1, hname, rfl⟩ := Reading.exists_of_seq_eq_value h2
  obtain ⟨_, -, rfl⟩ := Reading.map_eq_value_iff.mp h1
  exact readText_getD_of_required hname

theorem Document.readNormal_eq_value {m : Entries} {d : Document} (h : readNormal m = .value d) :
    m.withDefault Key.models [] (readList Model.read) = .value d.models ∧
      m.withDefault Key.enums [] (readList Enumeration.read) = .value d.enums := by
  obtain ⟨_, _, h5, -, rfl⟩ := Reading.exists_of_seq_eq_value h
  obtain ⟨_, _, h4, -, rfl⟩ := Reading.exists_of_seq_eq_value h5
  obtain ⟨_, _, h3, -, rfl⟩ := Reading.exists_of_seq_eq_value h4
  obtain ⟨_, _, h2, -, rfl⟩ := Reading.exists_of_seq_eq_value h3
  obtain ⟨_, enums, h1, henums, rfl⟩ := Reading.exists_of_seq_eq_value h2
  obtain ⟨models, hmodels, rfl⟩ := Reading.map_eq_value_iff.mp h1
  exact ⟨hmodels, henums⟩

namespace RelationEdge

theorem readEntries_eq_value_iff {m : Entries} {e : RelationEdge} :
    readEntries m = .value e ↔
      m.required Key.id readText = .value e.id ∧
      m.withDefault Key.type RelationType.oneToMany.name readText = .value e.type ∧
      m.required Key.source readText = .value e.source ∧
      m.required Key.target readText = .value e.target ∧
      m.optional Key.name readText = .value e.name ∧
      m.optional Key.onDelete ReferentialAction.read = .value e.onDelete ∧
      m.optional Key.onUpdate ReferentialAction.read = .value e.onUpdate ∧
      m.withDefault Key.isOptional true readTruth = .value e.isOptional ∧
      m.withDefault Key.origin .user Origin.read = .value e.origin := by
  unfold readEntries
  constructor
  · intro h
    obtain ⟨_, origin, h8, horigin, rfl⟩ := Reading.exists_of_seq_eq_value h
    obtain ⟨_, isOptional, h7, hisOptional, rfl⟩ := Reading.exists_of_seq_eq_value h8
    obtain ⟨_, onUpdate, h6, honUpdate, rfl⟩ := Reading.exists_of_seq_eq_value h7
    obtain ⟨_, onDelete, h5, honDelete, rfl⟩ := Reading.exists_of_seq_eq_value h6
    obtain ⟨_, name, h4, hname, rfl⟩ := Reading.exists_of_seq_eq_value h5
    obtain ⟨_, target, h3, htarget, rfl⟩ := Reading.exists_of_seq_eq_value h4
    obtain ⟨_, source, h2, hsource, rfl⟩ := Reading.exists_of_seq_eq_value h3
    obtain ⟨_, type, h1, htype, rfl⟩ := Reading.exists_of_seq_eq_value h2
    obtain ⟨id, hid, rfl⟩ := Reading.map_eq_value_iff.mp h1
    exact ⟨hid, htype, hsource, htarget, hname, honDelete, honUpdate, hisOptional, horigin⟩
  · rintro ⟨hid, htype, hsource, htarget, hname, honDelete, honUpdate, hisOptional, horigin⟩
    rw [hid, htype, hsource, htarget, hname, honDelete, honUpdate, hisOptional, horigin]
    rfl

/-- A relation is read with the id that it is to have. -/
theorem id_of_readEntries {id : String} {source target : Value} {type : Option Value}
    {attributes : Entries} {e : RelationEdge}
    (h : readEntries (Graph.edgeEntries id source target type attributes) = .value e) :
    e.id = id := by
  have hid := (readEntries_eq_value_iff.mp h).1
  exact (Reading.value.inj hid).symm

theorem pick_edgeEntries {k : Key} (hk : "type" ∉ k.accepted) (id : String) (source target : Value)
    (type type' : Option Value) (attributes : Entries) :
    (Graph.edgeEntries id source target type' attributes).pick k =
      (Graph.edgeEntries id source target type attributes).pick k := by
  refine Entries.pick_congr fun name hname => ?_
  have hother : Scalar.text "type" ≠ .text name := by
    rintro heq
    obtain rfl := Scalar.text.inj heq
    exact hk hname
  simp only [Graph.edgeEntries, List.cons_append, Entries.get?_cons, if_neg hother]

/-- With another type, all else of a relation is read as it was. -/
theorem readEntries_retype {id type : String} {source target : Value} {attributes : Entries}
    {e : RelationEdge} (type' : String)
    (h : readEntries (Graph.edgeEntries id source target (some (.text type)) attributes) =
      .value e) :
    readEntries (Graph.edgeEntries id source target (some (.text type')) attributes) =
      .value { e with type := type' } := by
  have hpick (k : Key) (hk : "type" ∉ k.accepted) :=
    pick_edgeEntries hk id source target (some (.text type)) (some (.text type')) attributes
  obtain ⟨hid, -, hsource, htarget, hname, honDelete, honUpdate, hisOptional, horigin⟩ :=
    readEntries_eq_value_iff.mp h
  refine readEntries_eq_value_iff.mpr ⟨hid, rfl, ?_, ?_, ?_, ?_, ?_, ?_, ?_⟩
  · rwa [Entries.required_congr (hpick _ (by decide))]
  · rwa [Entries.required_congr (hpick _ (by decide))]
  · rwa [Entries.optional, Entries.withDefault_congr (hpick _ (by decide))]
  · rwa [Entries.optional, Entries.withDefault_congr (hpick _ (by decide))]
  · rwa [Entries.optional, Entries.withDefault_congr (hpick _ (by decide))]
  · rwa [Entries.withDefault_congr (hpick _ (by decide))]
  · rwa [Entries.withDefault_congr (hpick _ (by decide))]

/-- A relation is read with the type that it is to have. -/
theorem type_of_readEntries {id type : String} {source target : Value} {attributes : Entries}
    {e : RelationEdge}
    (h : readEntries (Graph.edgeEntries id source target (some (.text type)) attributes) =
      .value e) : e.type = type := by
  have htype := (readEntries_eq_value_iff.mp h).2.1
  exact (Reading.value.inj htype).symm

end RelationEdge

namespace RawField

theorem get?_foldl_foldKey {key : String} (keys : List FlatKey) (state : Entries × Entries)
    (hkeys : ∀ k ∈ keys, key ≠ k.flat) :
    (keys.foldl foldKey state).1.get? key = state.1.get? key := by
  induction keys generalizing state with
  | nil => rfl
  | cons k keys ih =>
      obtain ⟨field, relation⟩ := state
      have hk : key ≠ k.flat := hkeys k List.mem_cons_self
      rw [List.foldl_cons, ih _ fun k' hk' => hkeys k' (List.mem_cons_of_mem k hk')]
      dsimp only [foldKey]
      cases field.get? k.flat with
      | none => rfl
      | some v => exact Entries.get?_erase_of_ne hk

theorem foldRelation_of_no_flat {field : Entries} (h : hasFlatKey field = false) :
    foldRelation field = .ok field := by
  unfold foldRelation
  rw [h]
  rfl

theorem foldRelation_of_flat {field start : Entries} (h : hasFlatKey field = true)
    (hstart : startOfRelation field = .ok start) :
    foldRelation field = .ok ((flatKeys.foldl foldKey (field, start)).1.insert "relation"
      (.map (flatKeys.foldl foldKey (field, start)).2)) := by
  unfold foldRelation
  rw [h, hstart]
  rfl

theorem get?_foldRelation {field folded : Entries} {key : String}
    (hfold : foldRelation field = .ok folded) (hflat : ∀ k ∈ flatKeys, key ≠ k.flat)
    (hrelation : key ≠ "relation") : folded.get? key = field.get? key := by
  cases hhas : hasFlatKey field with
  | true =>
      rw [foldRelation, if_pos hhas] at hfold
      obtain ⟨start, -, hstart⟩ := bind_eq_ok_iff.mp hfold
      obtain rfl := Except.ok.inj hstart
      rw [Entries.get?_insert_of_ne hrelation]
      exact get?_foldl_foldKey flatKeys (field, start) hflat
  | false =>
      rw [foldRelation_of_no_flat hhas] at hfold
      obtain rfl := Except.ok.inj hfold
      rfl

/-- Normalizing a field folds its relation and then says its kind, which no other key shows. -/
theorem normalize_eq_ok {field normal : Entries} {known : KnownNames}
    (h : normalize field known = .ok normal) :
    ∃ folded, foldRelation field = .ok folded ∧
      ∀ key, key ≠ "kind" → normal.get? key = folded.get? key := by
  obtain ⟨folded, hfold, hrest⟩ := bind_eq_ok_iff.mp h
  refine ⟨folded, hfold, fun key hkind => ?_⟩
  by_cases htruthy : (folded.getD "kind").truthy = true
  · rw [if_pos htruthy] at hrest
    obtain rfl := Except.ok.inj hrest
    rfl
  · rw [if_neg htruthy] at hrest
    obtain ⟨kind, -, hkindof⟩ := bind_eq_ok_iff.mp hrest
    obtain rfl := Except.ok.inj hkindof
    exact Entries.get?_insert_of_ne hkind

/-- Normalizing leaves a key alone that says neither of a relation nor of the kind. -/
theorem get?_normalize {field normal : Entries} {known : KnownNames} {key : String}
    (hnormal : normalize field known = .ok normal) (hflat : ∀ k ∈ flatKeys, key ≠ k.flat)
    (hrelation : key ≠ "relation") (hkind : key ≠ "kind") : normal.get? key = field.get? key := by
  obtain ⟨folded, hfold, hget⟩ := normalize_eq_ok hnormal
  rw [hget key hkind, get?_foldRelation hfold hflat hrelation]

/-- Without flat keys there is nothing to fold. -/
theorem get?_normalize_of_no_flat {field normal : Entries} {known : KnownNames} {key : String}
    (hflat : hasFlatKey field = false) (hnormal : normalize field known = .ok normal)
    (hkind : key ≠ "kind") : normal.get? key = field.get? key := by
  obtain ⟨folded, hfold, hget⟩ := normalize_eq_ok hnormal
  rw [foldRelation_of_no_flat hflat] at hfold
  obtain rfl := Except.ok.inj hfold
  exact hget key hkind

end RawField

/-- A map with entries counts as true, if only on following a loop. -/
theorem Value.truthy_of_exposed_map {v : Value} {m : Entries} (hv : v.exposed = .map m)
    (hm : m ≠ []) : v.truthy = true := by
  cases v with
  | map entries =>
      obtain rfl := Value.map.inj hv
      simpa [truthy] using hm
  | loop => rfl
  | scalar => cases hv
  | list => cases hv
  | pair => cases hv
  | set => cases hv

theorem Value.isNull_of_exposed_map {v : Value} {m : Entries} (hv : v.exposed = .map m) :
    v.isNull = false := by
  cases v with
  | scalar => cases hv
  | list => rfl
  | pair => rfl
  | map => rfl
  | set => rfl
  | loop => rfl

/-- A list that counts as false is the empty one. -/
theorem Value.eq_nil_of_exposed_list {v : Value} {vs : List Value} (hv : v.exposed = .list vs)
    (hfalse : ¬v.truthy = true) : v = .list [] := by
  cases v with
  | list items =>
      obtain rfl : items = [] := by simpa [truthy] using hfalse
      rfl
  | loop => exact absurd rfl hfalse
  | scalar => cases hv
  | pair => cases hv
  | map => cases hv
  | set => cases hv

theorem RawDocument.itemsOrNone_of_list {v : Value} {vs : List Value} (hv : v.exposed = .list vs) :
    itemsOrNone v = .ok vs := by
  unfold itemsOrNone
  by_cases htruthy : v.truthy = true
  · rw [if_pos htruthy, Value.iterate, hv]
  · obtain rfl := Value.eq_nil_of_exposed_list hv htruthy
    obtain rfl := Value.list.inj hv
    rfl

theorem Field.build_eq_ok {data : Entries} {known : KnownNames} {kind : FieldKind}
    {reading : Reading Field} (h : Field.build data known = .ok (kind, reading)) :
    ∃ normal, RawField.normalize data {} = .ok normal ∧ reading = Field.readAs kind normal := by
  obtain ⟨normal, hnormal, hrest⟩ := bind_eq_ok_iff.mp h
  refine ⟨normal, hnormal, ?_⟩
  cases htype : normal.get? "type" with
  | none =>
      simp only [htype] at hrest
      cases hrest
  | some type =>
      simp only [htype] at hrest
      obtain ⟨kind', -, hread⟩ := bind_eq_ok_iff.mp hrest
      obtain ⟨rfl, rfl⟩ := Prod.mk.inj (Except.ok.inj hread)
      rfl

theorem Graph.buildField_eq_ok {g : Graph} {data : Entries} {f : Field}
    (h : g.buildField data = .ok f) :
    ∃ kind normal, RawField.normalize data {} = .ok normal ∧
      Field.build data g.knownNames = .ok (kind, .value f) ∧
      Field.readAs kind normal = .value f := by
  unfold Graph.buildField at h
  cases hbuild : Field.build data g.knownNames with
  | error e =>
      rw [hbuild] at h
      cases h
  | ok built =>
      rw [hbuild] at h
      obtain ⟨kind, reading⟩ := built
      obtain ⟨normal, hnormal, rfl⟩ := Field.build_eq_ok hbuild
      have hread := Reading.orRefuse_eq_ok_iff.mp h
      exact ⟨kind, normal, hnormal, by rw [hread], hread⟩

theorem Graph.buildField_name {g : Graph} {data : Entries} {f : Field}
    (h : g.buildField data = .ok f) :
    ∃ v, data.get? "name" = some v ∧ readText v = .value f.name := by
  obtain ⟨kind, normal, hnormal, -, hread⟩ := buildField_eq_ok h
  obtain ⟨v, hv, htext⟩ :=
    Entries.required_plain_eq_value_iff.mp (Field.readAs_eq_value_iff.mp hread).2.1
  refine ⟨v, ?_, htext⟩
  rw [← hv]
  exact (RawField.get?_normalize hnormal (by decide) (by decide) (by decide)).symm

/-- What reads as a text is one, unless it is octets. -/
theorem eq_text_of_readText {v : Value} {s : String} (h : readText v = .value s) :
    v = .text s ∨ ∃ octets, v = .scalar (.bytes octets) := by
  unfold readText at h
  split at h
  · obtain rfl := Reading.value.inj h
    exact Or.inl rfl
  · exact Or.inr ⟨_, rfl⟩
  · cases h

def Value.isOctets : Value → Bool
  | .scalar (.bytes _) => true
  | _ => false

theorem text_of_readText {v : Value} {s : String} (h : readText v = .value s)
    (hoctets : v.isOctets = false) : v = .text s := by
  obtain rfl | ⟨octets, rfl⟩ := eq_text_of_readText h
  · rfl
  · cases hoctets

end DrawnSchema
