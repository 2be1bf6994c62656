import DrawnSchema.Proofs.Relation.EdgeOrder

/-!
# The fields that synthesized relations refer to

A relation field names the foreign key of its own model that it goes by, and the edge that implies
the one implies the other as well, for the same model. But each is met for itself. A foreign key
that has been renamed counts as being there, by its id, while the relation field that is added
beside it still gives the name that the key would have now. That is the only way in which a
reference can come to lead nowhere.
-/

namespace DrawnSchema

/-- The fields of its own model that a relation field refers to. -/
def Field.referred (f : Field) : List String :=
  match f.content with
  | .relation (some info) => info.fields
  | _ => []

/-- An edge that implies a reference implies the foreign key of that name, at the same end. -/
theorem RelationEdge.impliedFields_foreignKey {e : RelationEdge} {source target : Model}
    {end_ : EdgeEnd} {f : Field} (h : (end_, f) ∈ e.impliedFields source target) {name : String}
    (hname : name ∈ f.referred) :
    ∃ isUnique, (end_, e.foreignKeyField name isUnique) ∈ e.impliedFields source target := by
  obtain ⟨type, htype, h⟩ := exists_type_of_implied h
  rw [impliedFields_of_type htype]
  cases type with
  | oneToMany =>
      simp only [impliedFieldsOf, List.mem_cons, Prod.mk.injEq, List.not_mem_nil,
        or_false] at h ⊢
      obtain ⟨rfl, rfl⟩ | ⟨rfl, rfl⟩ | ⟨rfl, rfl⟩ := h
      · cases hname
      · obtain rfl := List.mem_singleton.mp hname
        exact ⟨false, .inr (.inr ⟨rfl, rfl⟩)⟩
      · cases hname
  | oneToOne =>
      simp only [impliedFieldsOf, List.mem_cons, Prod.mk.injEq, List.not_mem_nil,
        or_false] at h ⊢
      obtain ⟨rfl, rfl⟩ | ⟨rfl, rfl⟩ := h
      · obtain rfl := List.mem_singleton.mp hname
        exact ⟨true, .inr ⟨rfl, rfl⟩⟩
      · cases hname
  | manyToMany =>
      simp only [impliedFieldsOf, List.mem_cons, Prod.mk.injEq, List.not_mem_nil,
        or_false] at h
      obtain ⟨rfl, rfl⟩ | ⟨rfl, rfl⟩ := h <;> cases hname

namespace Synthesis

variable {edges : List RelationEdge} {models : List Model} {s : Synthesis} {n : Nat} {m : Model}
  {f : Field} {name : String}

/-- Whoever demands a reference of a model demands the foreign key of it too. -/
theorem demandedAt_foreignKey (hf : f ∈ demandedAt n (demands edges models))
    (hname : name ∈ f.referred) :
    ∃ e ∈ edges, f.id ∈ (RelationEdge.derivedIds e.id).map some ∧
      ∃ isUnique, e.foreignKeyField name isUnique ∈ demandedAt n (demands edges models) := by
  obtain ⟨d, hd, rfl, rfl⟩ := mem_demandedAt_iff.mp hf
  obtain ⟨e, he, hd⟩ := List.mem_flatMap.mp hd
  obtain ⟨source, target, end_, hsource, htarget, himplied, hplace⟩ := demandsOf_implied hd
  obtain ⟨isUnique, hkey⟩ := RelationEdge.impliedFields_foreignKey himplied hname
  obtain ⟨-, id, hid, hfid⟩ := demandsOf_derived hd
  refine ⟨e, he, hfid ▸ List.mem_map_of_mem hid, isUnique, ?_⟩
  refine mem_demandedAt_iff.mpr ⟨⟨e.id, d.place, e.foreignKeyField name isUnique⟩, ?_, rfl, rfl⟩
  refine List.mem_flatMap.mpr ⟨e, he, ?_⟩
  simp only [demandsOf, hsource, htarget]
  exact List.mem_filterMap.mpr ⟨_, hkey, by rw [hplace, Option.map_some]⟩

/-- What is demanded of a model is there in the end, by its id or by its name. -/
theorem blocks_of_mem_demandedAt (hrun : synthesizeFields edges models = .ok s)
    (hm : s.models[n]? = some m) (hf : f ∈ demandedAt n (demands edges models)) :
    m.blocks f = true := by
  obtain ⟨d, hd, rfl, rfl⟩ := mem_demandedAt_iff.mp hf
  exact demands_settled hrun d hd m hm

/-- The relation fields that synthesis adds refer to fields that are there, unless the foreign key
of the edge was there by its id under another name. Where the ids of edges are distinct, it was there
so before the run. -/
theorem synthesizeFields_references (hrun : synthesizeFields edges models = .ok s)
    (hm : models[n]? = some m) :
    ∃ added, s.models[n]? = some (m.withMore added) ∧
      ∀ f ∈ added, ∀ name ∈ f.referred, (m.withMore added).hasField name = true ∨
        ∃ e ∈ edges, f.id ∈ (RelationEdge.derivedIds e.id).map some ∧
          ∃ key ∈ (m.withMore added).fields,
            key.id = some (RelationEdge.foreignKeyId e.id) ∧ key.name ≠ name ∧
              ((edges.map (·.id)).Nodup → key ∈ m.fields) := by
  obtain ⟨added, hadded, -, hsublist, -⟩ := synthesizeFields_additions hrun hm
  refine ⟨added, hadded, fun f hf name hname => ?_⟩
  obtain ⟨e, he, hid, isUnique, hkey⟩ := demandedAt_foreignKey (hsublist.mem hf) hname
  have hblocks := blocks_of_mem_demandedAt hrun hadded hkey
  by_cases htaken : (m.withMore added).hasField name = true
  · exact .inl htaken
  have hthere : (m.withMore added).hasId (e.foreignKeyField name isUnique) = true := by
    rw [Model.blocks, Bool.or_eq_true] at hblocks
    exact hblocks.resolve_right htaken
  obtain ⟨key, hmem, hkeyid⟩ := List.any_eq_true.mp hthere
  have hother : key.name ≠ name := fun h => htaken (Model.hasField_iff.mpr ⟨key, hmem, h⟩)
  refine .inr ⟨e, he, hid, key, hmem, of_decide_eq_true hkeyid, hother, fun hids => ?_⟩
  obtain hold | hnew := List.mem_append.mp hmem
  · exact hold
  · -- a key that the run has added is the one that this edge demands, and has its name
    have hsame : key = e.foreignKeyField name isUnique :=
      List.inj_on_of_nodup_map (demandedAt_ids_nodup hids n models) (hsublist.mem hnew) hkey
        (of_decide_eq_true hkeyid)
    exact absurd (congrArg Field.name hsame) hother

/-- Posts come to have the key that their authors are referred to by. -/
theorem synthesizeFields_references_roomy :
    let authorship : RelationEdge := { id := "e", source := "u", target := "p" }
    ∃ s post added, synthesizeFields [authorship] roomy = .ok s ∧ roomy[1]? = some post ∧
      s.models[1]? = some (post.withMore added) ∧
        (∃ f ∈ added, f.name = "user" ∧ f.referred = ["user_id"]) ∧
          (post.withMore added).hasField "user_id" = true := by
  intro authorship
  let post : Model :=
    { id := "p", name := "Post", fields := [{ name := "text", type := "String" }] }
  have hrun : synthesizeFields [authorship] roomy = .ok _ := rfl
  have hpost : roomy[1]? = some post := rfl
  obtain ⟨added, hadded, hrefers⟩ := synthesizeFields_references hrun hpost
  have hbrought : ∃ f ∈ added, f.name = "user" ∧ f.referred = ["user_id"] := by
    cases hadded
    exact ⟨_, List.mem_cons_self, rfl, rfl⟩
  refine ⟨_, post, added, hrun, hpost, hadded, hbrought, ?_⟩
  obtain ⟨f, hf, -, hreferred⟩ := hbrought
  obtain hthere | ⟨e, -, -, key, -, hid, -, hbefore⟩ :=
    hrefers f hf "user_id" (hreferred ▸ List.mem_cons_self)
  · exact hthere
  · have hkey := hbefore (List.nodup_singleton authorship.id)
    obtain rfl := List.mem_singleton.mp hkey
    cases hid

/-- Posts whose foreign key goes by another name since. -/
def rekeyed : List Model :=
  [{ id := "u", name := "User" },
    { id := "p", name := "Post", fields := [
      { id := some "fk-e", name := "author_id", type := "String", origin := .derived }] }]

/-- The user of a rekeyed post refers to a field that posts do not have. -/
theorem synthesizeFields_references_rekeyed :
    ¬∀ (edges : List RelationEdge) (models : List Model) (s : Synthesis),
      synthesizeFields edges models = .ok s →
      ∀ (n : Nat) (m : Model) (added : List Field), models[n]? = some m →
        s.models[n]? = some (m.withMore added) →
        ∀ f ∈ added, ∀ name ∈ f.referred, (m.withMore added).hasField name = true := by
  intro hclaim
  let authorship : RelationEdge := { id := "e", source := "u", target := "p" }
  have hdangling := hclaim [authorship] rekeyed _ rfl 1 _
    [authorship.singleField "rel-e-target" { id := "u", name := "User" } "user_id"] rfl rfl _
    List.mem_cons_self "user_id" List.mem_cons_self
  exact absurd hdangling (by decide)

end Synthesis

end DrawnSchema
