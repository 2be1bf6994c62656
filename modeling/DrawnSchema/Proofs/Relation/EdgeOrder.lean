import DrawnSchema.Proofs.Relation.Presence

/-!
# The order of edges

Where the ids of edges are distinct, a run that warns of nothing adds exactly what is missing: the
demanded fields whose ids are not there. And it warns of nothing exactly when each model has room for
what it misses. Both are said of the demands without a word on their order, so a run over the same
edges in another order warns of nothing either, and adds the same fields.
-/

namespace DrawnSchema

theorem Model.HasRoomFor.perm {m : Model} {added added' : List Field} (h : m.HasRoomFor added)
    (hperm : added'.Perm added) : m.HasRoomFor added' :=
  ⟨(hperm.map (·.name)).nodup_iff.mpr h.1, fun f hf => h.2 f (hperm.subset hf)⟩

namespace Synthesis

variable {edges edges' : List RelationEdge} {models : List Model} {s : Synthesis} {n : Nat}
  {m : Model}

/-- What demands ask of the model in a place and the model does not have by its id. -/
def missing (n : Nat) (m : Model) (ds : List Demand) : List Field :=
  (demandedAt n ds).filter fun f => !m.hasId f

theorem mem_missing_iff {ds : List Demand} {f : Field} :
    f ∈ missing n m ds ↔ f ∈ demandedAt n ds ∧ m.hasId f = false := by
  simp [missing]

theorem missing_perm {ds ds' : List Demand} (h : ds'.Perm ds) (n : Nat) (m : Model) :
    (missing n m ds').Perm (missing n m ds) :=
  ((h.filter _).map _).filter _

theorem demands_perm (h : edges'.Perm edges) (models : List Model) :
    (demands edges' models).Perm (demands edges models) :=
  h.flatMap_right _

theorem demandedAt_ids_nodup (hids : (edges.map (·.id)).Nodup) (n : Nat) (models : List Model) :
    ((demandedAt n (demands edges models)).map (·.id)).Nodup := by
  rw [demandedAt, List.map_map]
  exact (demands_ids_nodup hids models).sublist (List.filter_sublist.map _)

/-- A run that warns of nothing adds what is missing, in the order of the demands. -/
theorem additions_of_quiet (hids : (edges.map (·.id)).Nodup)
    (hrun : synthesizeFields edges models = .ok s) (hquiet : s.warnings = [])
    (hm : models[n]? = some m) :
    s.models[n]? = some (m.withMore (missing n m (demands edges models))) ∧
      m.HasRoomFor (missing n m (demands edges models)) := by
  obtain ⟨added, hadded, hroom, hsublist, hnew⟩ := synthesizeFields_additions hrun hm
  have hdemanded := demandedAt_ids_nodup hids n models
  have hmissing : added.Sublist (missing n m (demands edges models)) := by
    have hall : added.filter (fun f => !m.hasId f) = added :=
      List.filter_eq_self.mpr fun f hf => by simp [hnew f hf]
    exact hall ▸ hsublist.filter fun f => !m.hasId f
  have hcover : missing n m (demands edges models) ⊆ added := by
    intro f hf
    obtain ⟨hdemand, hfree⟩ := mem_missing_iff.mp hf
    obtain ⟨d, hd, rfl, rfl⟩ := mem_demandedAt_iff.mp hdemand
    have hthere := (warnings_eq_nil_iff hids hrun).mp hquiet d hd _ hadded
    obtain ⟨g, hg, hgid⟩ := List.any_eq_true.mp hthere
    obtain hold | hg := List.mem_append.mp hg
    · rw [Model.hasId, List.any_eq_false] at hfree
      exact absurd hgid (hfree g hold)
    · have hsame : g = d.field :=
        List.inj_on_of_nodup_map hdemanded (hsublist.mem hg) hdemand (of_decide_eq_true hgid)
      exact hsame ▸ hg
  have hnodup : (missing n m (demands edges models)).Nodup :=
    (hdemanded.of_map _).sublist List.filter_sublist
  obtain rfl := hmissing.eq_of_length_le (hnodup.subperm hcover).length_le
  exact ⟨hadded, hroom⟩

/-- Where each model has room for what it misses, a run warns of nothing: a field whose name is taken
in the end has taken it itself. -/
theorem quiet_of_room (hids : (edges.map (·.id)).Nodup)
    (hrun : synthesizeFields edges models = .ok s)
    (hroom : ∀ (n : Nat) (m : Model), models[n]? = some m →
      m.HasRoomFor (missing n m (demands edges models))) : s.warnings = [] := by
  refine (warnings_eq_nil_iff hids hrun).mpr fun d hd owner howner => ?_
  obtain ⟨m, -, hm, -⟩ := (synthesizeFields_grown hrun).1.of_getElem? howner
  obtain ⟨added, hadded, -, hsublist, hnew⟩ := synthesizeFields_additions hrun hm
  obtain rfl := Option.some.inj (howner.symm.trans hadded)
  by_contra hid
  have hfree : m.hasId d.field = false :=
    Model.hasId_eq_false_of_withMore (by simpa using hid)
  have hmissing : d.field ∈ missing d.place m (demands edges models) :=
    mem_missing_iff.mpr ⟨mem_demandedAt_iff.mpr ⟨d, hd, rfl, rfl⟩, hfree⟩
  have hname : (m.withMore added).hasField d.field.name = true := by
    simpa [Model.blocks, hid] using demands_settled hrun d hd _ howner
  obtain ⟨hnames, hapart⟩ := hroom _ _ hm
  obtain ⟨g, hg, hgname⟩ := Model.hasField_iff.mp hname
  obtain hold | hg := List.mem_append.mp hg
  · have htaken : m.hasField d.field.name = true := Model.hasField_iff.mpr ⟨g, hold, hgname⟩
    rw [hapart _ hmissing] at htaken
    cases htaken
  · have hgmissing := mem_missing_iff.mpr ⟨hsublist.mem hg, hnew g hg⟩
    obtain rfl : g = d.field := List.inj_on_of_nodup_map hnames hgmissing hmissing hgname
    exact hid (List.any_eq_true.mpr ⟨_, List.mem_append_right _ hg, by simp⟩)

/-- Whether a run warns of nothing is told by the demands, whatever their order. -/
theorem quiet_iff_room (hids : (edges.map (·.id)).Nodup)
    (hrun : synthesizeFields edges models = .ok s) :
    s.warnings = [] ↔ ∀ (n : Nat) (m : Model), models[n]? = some m →
      m.HasRoomFor (missing n m (demands edges models)) :=
  ⟨fun hquiet _ _ hm => (additions_of_quiet hids hrun hquiet hm).2, quiet_of_room hids hrun⟩

/-- If a run over edges of distinct ids warns of nothing, then so does a run over these edges in any
other order. The models come out the same, but for the order of the fields that were added. -/
theorem synthesizeFields_perm (hids : (edges.map (·.id)).Nodup) (hperm : edges'.Perm edges)
    (hrun : synthesizeFields edges models = .ok s) (hquiet : s.warnings = []) :
    ∃ s', synthesizeFields edges' models = .ok s' ∧ s'.warnings = [] ∧
      s.models.length = models.length ∧ s'.models.length = models.length ∧
        ∀ (n : Nat) (m : Model), models[n]? = some m → ∃ added added',
          s.models[n]? = some (m.withMore added) ∧ s'.models[n]? = some (m.withMore added') ∧
            added'.Perm added := by
  have hids' : (edges'.map (·.id)).Nodup := (hperm.map _).nodup_iff.mpr hids
  have hdemands := demands_perm hperm models
  obtain ⟨hfault, -⟩ := synthesizeFields_eq_ok_iff.mp hrun
  have hjoins := firstEdgeFault?_eq_none_iff.mp hfault
  have hfault' : firstEdgeFault? edges' models = none :=
    firstEdgeFault?_eq_none_iff.mpr fun e he => hjoins e (hperm.subset he)
  have hrun' := synthesizeFields_eq_ok_iff.mpr ⟨hfault', rfl⟩
  have hquiet' := (quiet_iff_room hids' hrun').mpr fun n m hm =>
    ((quiet_iff_room hids hrun).mp hquiet n m hm).perm (missing_perm hdemands n m)
  refine ⟨_, hrun', hquiet', (synthesizeFields_grown hrun).1.length_eq,
    (synthesizeFields_grown hrun').1.length_eq, fun n m hm => ?_⟩
  exact ⟨_, _, (additions_of_quiet hids hrun hquiet hm).1,
    (additions_of_quiet hids' hrun' hquiet' hm).1, missing_perm hdemands n m⟩

/-- Models with room for all that edges may bring. -/
def roomy : List Model :=
  [{ id := "u", name := "User" },
    { id := "p", name := "Post", fields := [{ name := "text", type := "String" }] },
    { id := "t", name := "Tag" }]

/-- The tags of posts come behind their author if they are drawn later, and before it otherwise. -/
theorem synthesizeFields_perm_roomy :
    let edges : List RelationEdge := [{ id := "e", source := "u", target := "p" },
      { id := "f", type := "MANY_TO_MANY", source := "p", target := "t" }]
    ∃ s s', synthesizeFields edges roomy = .ok s ∧
      synthesizeFields edges.reverse roomy = .ok s' ∧ s'.warnings = [] ∧
        ∃ (post : Model) (added added' : List Field), s.models[1]? = some (post.withMore added) ∧
          s'.models[1]? = some (post.withMore added') ∧ added'.Perm added ∧
            added.map (·.name) = ["user", "user_id", "tags"] ∧
            added'.map (·.name) = ["tags", "user", "user_id"] := by
  intro edges
  have hrun : synthesizeFields edges roomy = .ok _ := rfl
  obtain ⟨s', hrun', hquiet', -, -, hadds⟩ :=
    synthesizeFields_perm (by decide) edges.reverse_perm hrun rfl
  obtain ⟨added, added', hadded, hadded', hperm⟩ := hadds 1 _ rfl
  refine ⟨_, s', hrun, hrun', hquiet', _, added, added', hadded, hadded', hperm, ?_, ?_⟩
  · cases hadded
    rfl
  · cases hrun'
    cases hadded'
    rfl

end Synthesis

end DrawnSchema
