import DrawnSchema.Proofs.Relation.Idempotence

/-!
# What demands add to a model

A model changes in a run only in that fields are put behind those that it has. They are among the
fields that are demanded of it, in the order of the demands. Each was new when it came, by its id and
by its name, so the names that are added are apart from each other and from the names that were
there.
-/

namespace DrawnSchema

namespace Model

variable {m : Model} {added first second : List Field} {f : Field}

/-- The names of added fields are apart from each other and from those of the fields of a model. -/
def HasRoomFor (m : Model) (added : List Field) : Prop :=
  (added.map (·.name)).Nodup ∧ ∀ f ∈ added, m.hasField f.name = false

@[simp]
theorem hasRoomFor_nil (m : Model) : m.HasRoomFor [] := by
  simp [HasRoomFor]

theorem hasRoomFor_singleton (h : m.hasField f.name = false) : m.HasRoomFor [f] := by
  simpa [HasRoomFor] using h

theorem hasField_withMore_eq_false_iff {name : String} :
    (m.withMore added).hasField name = false ↔
      m.hasField name = false ∧ ∀ f ∈ added, f.name ≠ name := by
  simp only [Bool.eq_false_iff, ne_eq, hasField_iff, withMore_fields, List.mem_append]
  constructor
  · intro h
    exact ⟨fun ⟨f, hf, hname⟩ => h ⟨f, .inl hf, hname⟩, fun f hf hname => h ⟨f, .inr hf, hname⟩⟩
  · rintro ⟨hold, hnew⟩ ⟨f, hf | hf, hname⟩
    · exact hold ⟨f, hf, hname⟩
    · exact hnew f hf hname

/-- Room for some fields, and then room for others behind them. -/
theorem HasRoomFor.append (hfirst : m.HasRoomFor first)
    (hsecond : (m.withMore first).HasRoomFor second) : m.HasRoomFor (first ++ second) := by
  obtain ⟨hfirst, hnew⟩ := hfirst
  obtain ⟨hsecond, hlater⟩ := hsecond
  refine ⟨?_, fun f hf => ?_⟩
  · rw [List.map_append]
    refine List.nodup_append.mpr ⟨hfirst, hsecond, fun name hname name' hname' heq => ?_⟩
    obtain ⟨f, hf, rfl⟩ := List.mem_map.mp hname
    obtain ⟨g, hg, rfl⟩ := List.mem_map.mp hname'
    exact (hasField_withMore_eq_false_iff.mp (hlater g hg)).2 f hf heq
  · obtain hf | hf := List.mem_append.mp hf
    · exact hnew f hf
    · exact (hasField_withMore_eq_false_iff.mp (hlater f hf)).1

theorem HasRoomFor.hasDistinctFields (h : m.HasRoomFor added) (hm : m.HasDistinctFields) :
    (m.withMore added).HasDistinctFields := by
  unfold HasDistinctFields
  rw [withMore_fields, List.map_append]
  refine List.nodup_append.mpr ⟨hm, h.1, fun name hname name' hname' heq => ?_⟩
  obtain ⟨f, hf, rfl⟩ := List.mem_map.mp hname
  obtain ⟨g, hg, rfl⟩ := List.mem_map.mp hname'
  have htaken : m.hasField g.name = true := hasField_iff.mpr ⟨f, hf, heq⟩
  rw [h.2 g hg] at htaken
  cases htaken

end Model

namespace Synthesis

variable {edges : List RelationEdge} {models : List Model} {s : Synthesis} {n : Nat} {m : Model}

/-- The fields that demands ask of the model in a place. -/
def demandedAt (n : Nat) (ds : List Demand) : List Field :=
  (ds.filter (·.place = n)).map (·.field)

theorem mem_demandedAt_iff {ds : List Demand} {f : Field} :
    f ∈ demandedAt n ds ↔ ∃ d ∈ ds, d.place = n ∧ d.field = f := by
  simp [demandedAt, and_assoc]

theorem insertInto_additions (edge : String) (owner : Model) (f : Field) :
    ∃ added, insertInto edge owner f = owner.withMore added ∧ owner.HasRoomFor added ∧
      added.Sublist [f] ∧ ∀ g ∈ added, owner.hasId g = false := by
  rw [insertInto_eq]
  by_cases hblocks : owner.blocks f = true
  · exact ⟨[], by rw [if_pos hblocks, owner.withMore_nil], owner.hasRoomFor_nil, by simp, by simp⟩
  · simp only [Model.blocks, Bool.or_eq_true, not_or, Bool.not_eq_true] at hblocks
    refine ⟨[f], ?_, Model.hasRoomFor_singleton hblocks.2, .refl _, by simpa using hblocks.1⟩
    rw [if_neg (by simp [Model.blocks, hblocks])]

theorem meet_additions (d : Demand) (hm : s.models[n]? = some m) :
    ∃ added, (s.meet d).models[n]? = some (m.withMore added) ∧ m.HasRoomFor added ∧
      added.Sublist (demandedAt n [d]) ∧ ∀ f ∈ added, m.hasId f = false := by
  rw [getElem?_meet d hm]
  by_cases hn : d.place = n
  · obtain ⟨added, hinsert, hroom, hsublist, hids⟩ := insertInto_additions d.edge m d.field
    exact ⟨added, by rw [if_pos hn, hinsert], hroom, by simpa [demandedAt, hn] using hsublist, hids⟩
  · exact ⟨[], by rw [if_neg hn, m.withMore_nil], m.hasRoomFor_nil, List.nil_sublist _, by simp⟩

/-- What a run adds to a model: some of the fields that are demanded of it, in their order, none of
which had its id or its name there before. -/
theorem foldl_meet_additions (ds : List Demand) (hm : s.models[n]? = some m) :
    ∃ added, (ds.foldl meet s).models[n]? = some (m.withMore added) ∧ m.HasRoomFor added ∧
      added.Sublist (demandedAt n ds) ∧ ∀ f ∈ added, m.hasId f = false := by
  induction ds generalizing s m with
  | nil => exact ⟨[], by rw [m.withMore_nil]; exact hm, m.hasRoomFor_nil, .refl _, by simp⟩
  | cons d ds ih =>
      obtain ⟨first, hfirst, hroom, hsublist, hids⟩ := meet_additions d hm
      obtain ⟨second, hsecond, hroom', hsublist', hids'⟩ := ih hfirst
      refine ⟨first ++ second, ?_, hroom.append hroom', ?_, fun f hf => ?_⟩
      · rw [List.foldl_cons, hsecond, Model.withMore_withMore]
      · have hsplit : demandedAt n (d :: ds) = demandedAt n [d] ++ demandedAt n ds := by
          rw [demandedAt, ← List.singleton_append, List.filter_append, List.map_append]
          rfl
        rw [hsplit]
        exact hsublist.append hsublist'
      · obtain hf | hf := List.mem_append.mp hf
        · exact hids f hf
        · exact Model.hasId_eq_false_of_withMore (hids' f hf)

theorem synthesizeFields_additions (hrun : synthesizeFields edges models = .ok s)
    (hm : models[n]? = some m) :
    ∃ added, s.models[n]? = some (m.withMore added) ∧ m.HasRoomFor added ∧
      added.Sublist (demandedAt n (demands edges models)) ∧ ∀ f ∈ added, m.hasId f = false := by
  obtain ⟨-, rfl⟩ := synthesizeFields_eq_ok_iff.mp hrun
  exact foldl_meet_additions _ hm

/-- Synthesis gives no model a second field of a name. -/
theorem synthesizeFields_hasDistinctFields (hrun : synthesizeFields edges models = .ok s)
    (h : ∀ m ∈ models, m.HasDistinctFields) : ∀ m ∈ s.models, m.HasDistinctFields := by
  intro m' hm'
  obtain ⟨n, hn⟩ := List.mem_iff_getElem?.mp hm'
  obtain ⟨m, -, hm, -⟩ := (synthesizeFields_grown hrun).1.of_getElem? hn
  obtain ⟨added, hadded, hroom, -⟩ := synthesizeFields_additions hrun hm
  obtain rfl := Option.some.inj (hn.symm.trans hadded)
  exact hroom.hasDistinctFields (h m (List.mem_of_getElem? hm))

end Synthesis

end DrawnSchema
