import DrawnSchema.Proofs.Relation.DerivedIds

/-!
# A second synthesis adds nothing

Models only grow in a run. A demand that was met leaves its field there, or met a field of its name,
and both are still so when the run is over. A second run therefore finds every demand settled. It
warns where the name is taken and the id is not there: where the first run warned, less the places
at which another edge of the same id has brought the field since.
-/

namespace DrawnSchema.Synthesis

/-! ### Models grow -/

/-- Models in the same places, with more fields. -/
structure Grown (models models' : List Model) : Prop where
  length_eq : models'.length = models.length
  withMore : ∀ (n : Nat) (m : Model), models[n]? = some m →
    ∃ added, models'[n]? = some (m.withMore added)

theorem Grown.refl (models : List Model) : Grown models models :=
  ⟨rfl, fun _ m hm => ⟨[], by rw [m.withMore_nil, hm]⟩⟩

theorem Grown.trans {models models' models'' : List Model} (h : Grown models models')
    (h' : Grown models' models'') : Grown models models'' := by
  refine ⟨h'.length_eq.trans h.length_eq, fun n m hm => ?_⟩
  obtain ⟨first, hfirst⟩ := h.withMore n m hm
  obtain ⟨second, hsecond⟩ := h'.withMore n _ hfirst
  exact ⟨first ++ second, by rw [hsecond, Model.withMore_withMore]⟩

theorem Grown.of_getElem? {models models' : List Model} (h : Grown models models') {n : Nat}
    {m' : Model} (hm' : models'[n]? = some m') :
    ∃ m added, models[n]? = some m ∧ m' = m.withMore added := by
  have hn : n < models.length := h.length_eq ▸ (List.getElem?_eq_some_iff.mp hm').1
  obtain ⟨added, hadded⟩ := h.withMore n models[n] (List.getElem?_eq_getElem hn)
  exact ⟨models[n], added, List.getElem?_eq_getElem hn, by simpa [hm'] using hadded⟩

theorem insertInto_withMore (edge : String) (owner : Model) (f : Field) :
    ∃ added, insertInto edge owner f = owner.withMore added ∧ ∀ g ∈ added, g = f := by
  rw [insertInto_eq]
  split
  · exact ⟨[], owner.withMore_nil.symm, by simp⟩
  · exact ⟨[f], rfl, by simp⟩

theorem meet_withMore {s : Synthesis} (d : Demand) {n : Nat} {m : Model}
    (hm : s.models[n]? = some m) :
    ∃ added, (s.meet d).models[n]? = some (m.withMore added) ∧ ∀ f ∈ added, f = d.field := by
  rw [getElem?_meet d hm]
  split
  · obtain ⟨added, hinsert, hadded⟩ := insertInto_withMore d.edge m d.field
    exact ⟨added, congrArg some hinsert, hadded⟩
  · exact ⟨[], by rw [m.withMore_nil], by simp⟩

theorem meet_grown (s : Synthesis) (d : Demand) : Grown s.models (s.meet d).models := by
  refine ⟨by simpa using congrArg List.length (meet_headings s d), fun n m hm => ?_⟩
  obtain ⟨added, hadded, -⟩ := meet_withMore d hm
  exact ⟨added, hadded⟩

theorem foldl_meet_grown (ds : List Demand) (s : Synthesis) :
    Grown s.models (ds.foldl meet s).models := by
  induction ds generalizing s with
  | nil => exact .refl _
  | cons d ds ih => exact (meet_grown s d).trans (ih (s.meet d))

/-! ### A demand that was met is settled -/

/-- A demand that finds its field there, by its id or by its name. -/
def Settled (models : List Model) (d : Demand) : Prop :=
  ∀ owner, models[d.place]? = some owner → owner.blocks d.field = true

theorem Settled.grown {models models' : List Model} {d : Demand} (h : Settled models d)
    (hgrown : Grown models models') : Settled models' d := by
  intro owner' howner'
  obtain ⟨owner, added, howner, rfl⟩ := hgrown.of_getElem? howner'
  exact Model.blocks_withMore (h owner howner) added

theorem insertInto_blocks (edge : String) (owner : Model) (f : Field) :
    (insertInto edge owner f).blocks f = true := by
  rw [insertInto_eq]
  split
  · assumption
  · exact Model.blocks_of_mem (by simp)

theorem meet_settled (s : Synthesis) (d : Demand) : Settled (s.meet d).models d := by
  intro owner' howner'
  cases howner : s.models[d.place]? with
  | none =>
      rw [meet_of_none howner, howner] at howner'
      cases howner'
  | some owner =>
      rw [getElem?_meet d howner, if_pos rfl] at howner'
      obtain rfl := Option.some.inj howner'
      exact insertInto_blocks d.edge owner d.field

theorem foldl_meet_settled (ds : List Demand) (s : Synthesis) :
    ∀ d ∈ ds, Settled (ds.foldl meet s).models d := by
  induction ds generalizing s with
  | nil => simp
  | cons d ds ih =>
      intro d' hd'
      obtain rfl | hd' := List.mem_cons.mp hd'
      · exact (meet_settled s d').grown (foldl_meet_grown ds _)
      · exact ih (s.meet d) d' hd'

theorem meet_models_of_settled {s : Synthesis} {d : Demand} (h : Settled s.models d) :
    (s.meet d).models = s.models := by
  cases howner : s.models[d.place]? with
  | none => rw [meet_of_none howner]
  | some owner =>
      obtain ⟨hplace, rfl⟩ := List.getElem?_eq_some_iff.mp howner
      rw [meet_of_some howner, insertInto_eq, if_pos (h _ howner), List.set_getElem_self]

/-! ### Warnings -/

def warningOn? (models : List Model) (d : Demand) : Option String :=
  models[d.place]?.bind fun owner => (outcome d.edge owner d.field).warning?

def warningsOn (models : List Model) (ds : List Demand) : List String :=
  ds.flatMap fun d => (warningOn? models d).toList

@[simp]
theorem warningsOn_nil (models : List Model) : warningsOn models [] = [] := rfl

@[simp]
theorem warningsOn_cons (models : List Model) (d : Demand) (ds : List Demand) :
    warningsOn models (d :: ds) = (warningOn? models d).toList ++ warningsOn models ds :=
  List.flatMap_cons

theorem meet_warnings (s : Synthesis) (d : Demand) :
    (s.meet d).warnings = s.warnings ++ (warningOn? s.models d).toList := by
  unfold warningOn?
  cases howner : s.models[d.place]? with
  | none =>
      rw [meet_of_none howner]
      exact (List.append_nil _).symm
  | some owner =>
      rw [meet_of_some howner, warnings, List.filterMap_append]
      rfl

/-- A demand is warned of where its name is taken and its id is not there. -/
theorem outcome_warning?_eq_some_iff {edge : String} {owner : Model} {f : Field} {w : String} :
    (outcome edge owner f).warning? = some w ↔
      owner.hasId f = false ∧ owner.hasField f.name = true ∧
        (Outcome.collision edge owner.name f.name).warning? = some w := by
  unfold outcome
  change (if owner.hasId f = true then _ else _ : Outcome).warning? = some w ↔ _
  cases hid : owner.hasId f with
  | true => simp [Outcome.warning?]
  | false =>
      cases hname : owner.hasField f.name with
      | true => simp
      | false => simp [Outcome.warning?]

theorem warningOn?_eq_some_iff {models : List Model} {d : Demand} {w : String} :
    warningOn? models d = some w ↔
      ∃ owner, models[d.place]? = some owner ∧ owner.hasId d.field = false ∧
        owner.hasField d.field.name = true ∧
          (Outcome.collision d.edge owner.name d.field.name).warning? = some w := by
  simp only [warningOn?, Option.bind_eq_some_iff, outcome_warning?_eq_some_iff]

/-- Settled demands are warned of nowhere if and only if each of them finds its id. -/
theorem warningsOn_eq_nil_iff {models : List Model} {ds : List Demand}
    (hsettled : ∀ d ∈ ds, Settled models d) :
    warningsOn models ds = [] ↔
      ∀ d ∈ ds, ∀ owner, models[d.place]? = some owner → owner.hasId d.field = true := by
  have hsilent : warningsOn models ds = [] ↔ ∀ d ∈ ds, warningOn? models d = none := by
    simp [warningsOn, List.flatMap_eq_nil_iff]
  rw [hsilent]
  refine forall₂_congr fun d hd => ⟨fun hnone owner howner => ?_, fun hthere => ?_⟩
  · by_contra hid
    have hname : owner.hasField d.field.name = true := by
      simpa [Model.blocks, hid] using hsettled d hd owner howner
    have hwarned := warningOn?_eq_some_iff.mpr ⟨owner, howner, by simpa using hid, hname, rfl⟩
    rw [hnone] at hwarned
    cases hwarned
  · refine Option.eq_none_iff_forall_ne_some.mpr fun w hw => ?_
    obtain ⟨owner, howner, hid, -, -⟩ := warningOn?_eq_some_iff.mp hw
    rw [hthere owner howner] at hid
    cases hid

/-- What is warned of once the models have grown was warned of when it was met: a field that was
added is there by its id. -/
theorem warningOn?_of_grown {s : Synthesis} {d : Demand} {models : List Model}
    (hgrown : Grown (s.meet d).models models) {w : String} (h : warningOn? models d = some w) :
    warningOn? s.models d = some w := by
  obtain ⟨last, hlast, hid, -, htext⟩ := warningOn?_eq_some_iff.mp h
  obtain ⟨met, added, hmet, rfl⟩ := hgrown.of_getElem? hlast
  have hmetid := Model.hasId_eq_false_of_withMore hid
  have hmetname : met.hasField d.field.name = true := by
    simpa [Model.blocks, hmetid] using meet_settled s d met hmet
  have hunmet : s.models[d.place]? = some met := by
    cases howner : s.models[d.place]? with
    | none =>
        rw [meet_of_none howner] at hmet
        exact howner.symm.trans hmet
    | some owner =>
        rw [getElem?_meet d howner, if_pos rfl, insertInto_eq] at hmet
        obtain rfl := Option.some.inj hmet
        by_cases hblocks : owner.blocks d.field = true
        · rw [if_pos hblocks]
        · rw [if_neg hblocks] at hmetid
          simp [Model.hasId] at hmetid
  exact warningOn?_eq_some_iff.mpr ⟨met, hunmet, hmetid, hmetname, htext⟩

/-- An id that is there after some demands was there before them, or one of them brought it. -/
theorem hasId_of_foldl_meet {ds : List Demand} {s : Synthesis} {n : Nat} {m m' : Model} {f : Field}
    (hm : s.models[n]? = some m) (hm' : (ds.foldl meet s).models[n]? = some m')
    (hid : m'.hasId f = true) : m.hasId f = true ∨ ∃ d ∈ ds, d.field.id = f.id := by
  induction ds generalizing s m with
  | nil =>
      obtain rfl := Option.some.inj (hm.symm.trans hm')
      exact Or.inl hid
  | cons d ds ih =>
      obtain ⟨added, hmet, hadded⟩ := meet_withMore d hm
      obtain hthere | ⟨d', hd', heq⟩ := ih hmet hm'
      · obtain ⟨g, hg, hgid⟩ := List.any_eq_true.mp hthere
        obtain hg | hg := List.mem_append.mp hg
        · exact Or.inl (List.any_eq_true.mpr ⟨g, hg, hgid⟩)
        · obtain rfl := hadded g hg
          exact Or.inr ⟨d, List.mem_cons_self, by simpa using hgid⟩
      · exact Or.inr ⟨d', List.mem_cons_of_mem d hd', heq⟩

/-- What was warned of is warned of again if no later demand brings the id. -/
theorem warningOn?_foldl_meet {ds : List Demand} {s : Synthesis} {d : Demand} {w : String}
    (h : warningOn? s.models d = some w) (hfresh : ∀ d' ∈ ds, d'.field.id ≠ d.field.id) :
    warningOn? (ds.foldl meet (s.meet d)).models d = some w := by
  obtain ⟨owner, howner, hid, hname, htext⟩ := warningOn?_eq_some_iff.mp h
  have hmet : (s.meet d).models = s.models := by
    refine meet_models_of_settled fun owner' howner' => ?_
    obtain rfl := Option.some.inj (howner.symm.trans howner')
    simp [Model.blocks, hname]
  have hfirst : (s.meet d).models[d.place]? = some owner := by rw [hmet, howner]
  obtain ⟨added, hlast⟩ := (foldl_meet_grown ds (s.meet d)).withMore _ _ hfirst
  have hlastid : (owner.withMore added).hasId d.field = false := by
    by_contra htaken
    obtain hthere | ⟨d', hd', heq⟩ := hasId_of_foldl_meet hfirst hlast (by simpa using htaken)
    · rw [hid] at hthere
      cases hthere
    · exact hfresh d' hd' heq
  exact warningOn?_eq_some_iff.mpr
    ⟨_, hlast, hlastid, Model.hasField_withMore hname added, htext⟩

theorem warningsOn_sublist_foldl_meet (ds : List Demand) (s : Synthesis) :
    (s.warnings ++ warningsOn (ds.foldl meet s).models ds).Sublist (ds.foldl meet s).warnings := by
  induction ds generalizing s with
  | nil => simp
  | cons d ds ih =>
      have hgrown := foldl_meet_grown ds (s.meet d)
      have hsublist : (warningOn? (ds.foldl meet (s.meet d)).models d).toList.Sublist
          (warningOn? s.models d).toList := by
        cases hlast : warningOn? (ds.foldl meet (s.meet d)).models d with
        | none => exact List.nil_sublist _
        | some w => rw [warningOn?_of_grown hgrown hlast]
      refine .trans ?_ (ih (s.meet d))
      rw [meet_warnings, List.append_assoc, List.foldl_cons, warningsOn_cons]
      exact (List.Sublist.refl _).append (hsublist.append (.refl _))

/-- If no two demands are for the same id, they give the same warnings in the end. -/
theorem foldl_meet_warnings {ds : List Demand} (h : (ds.map fun d => d.field.id).Nodup)
    (s : Synthesis) :
    (ds.foldl meet s).warnings = s.warnings ++ warningsOn (ds.foldl meet s).models ds := by
  induction ds generalizing s with
  | nil => simp
  | cons d ds ih =>
      obtain ⟨hfresh, hrest⟩ := List.nodup_cons.mp h
      have hsame : warningOn? (ds.foldl meet (s.meet d)).models d = warningOn? s.models d := by
        refine Option.ext fun w => ⟨warningOn?_of_grown (foldl_meet_grown ds _), fun hw => ?_⟩
        refine warningOn?_foldl_meet hw fun d' hd' heq => hfresh ?_
        exact List.mem_map.mpr ⟨d', hd', heq⟩
      rw [List.foldl_cons, ih hrest, meet_warnings, warningsOn_cons, hsame, List.append_assoc]

/-! ### The second run -/

/-- Demands that are all settled change nothing, and warn as they would in the end. -/
theorem foldl_meet_of_settled {ds : List Demand} (s : Synthesis)
    (h : ∀ d ∈ ds, Settled s.models d) :
    (ds.foldl meet s).models = s.models ∧
      (ds.foldl meet s).warnings = s.warnings ++ warningsOn s.models ds := by
  induction ds generalizing s with
  | nil => simp
  | cons d ds ih =>
      have hmodels : (s.meet d).models = s.models :=
        meet_models_of_settled (h d List.mem_cons_self)
      have hrest : ∀ d' ∈ ds, Settled (s.meet d).models d' := by
        rw [hmodels]
        exact fun d' hd' => h d' (List.mem_cons_of_mem d hd')
      obtain ⟨hlast, hwarnings⟩ := ih (s.meet d) hrest
      refine ⟨hlast.trans hmodels, ?_⟩
      rw [List.foldl_cons, hwarnings, hmodels, meet_warnings, warningsOn_cons, List.append_assoc]

theorem firstEdgeFault?_congr (edges : List RelationEdge) {models models' : List Model}
    (h : models'.map Model.heading = models.map Model.heading) :
    firstEdgeFault? edges models' = firstEdgeFault? edges models := by
  simp only [firstEdgeFault?, Model.ids_of_headings h]

theorem synthesizeFields_grown {edges : List RelationEdge} {models : List Model} {s : Synthesis}
    (hrun : synthesizeFields edges models = .ok s) :
    Grown models s.models ∧ s.models.map Model.heading = models.map Model.heading := by
  obtain ⟨-, rfl⟩ := synthesizeFields_eq_ok_iff.mp hrun
  exact ⟨foldl_meet_grown _ { models }, foldl_meet_headings _ { models }⟩

theorem demands_settled {edges : List RelationEdge} {models : List Model} {s : Synthesis}
    (hrun : synthesizeFields edges models = .ok s) :
    ∀ d ∈ demands edges models, Settled s.models d := by
  obtain ⟨-, rfl⟩ := synthesizeFields_eq_ok_iff.mp hrun
  exact foldl_meet_settled _ _

/-- A run on models of the same headings changes nothing if it finds all demands settled. -/
theorem synthesizeFields_of_settled {edges : List RelationEdge} {models models' : List Model}
    {s : Synthesis} (hrun : synthesizeFields edges models = .ok s)
    (hheadings : models'.map Model.heading = models.map Model.heading)
    (hsettled : ∀ d ∈ demands edges models, Settled models' d) :
    ∃ s', synthesizeFields edges models' = .ok s' ∧ s'.models = models' ∧
      s'.warnings = warningsOn models' (demands edges models) := by
  obtain ⟨hfault, -⟩ := synthesizeFields_eq_ok_iff.mp hrun
  have hdemands : demands edges models' = demands edges models :=
    List.flatMap_congr fun e _ => demandsOf_congr hheadings e
  refine ⟨_, synthesizeFields_eq_ok_iff.mpr ⟨?_, rfl⟩, ?_⟩
  · rw [firstEdgeFault?_congr edges hheadings, hfault]
  · rw [hdemands]
    exact foldl_meet_of_settled { models := models' } hsettled

/-- A run on the models that a run came to finds all demands settled. -/
theorem synthesizeFields_settled {edges : List RelationEdge} {models : List Model} {s : Synthesis}
    (hrun : synthesizeFields edges models = .ok s) :
    ∃ s', synthesizeFields edges s.models = .ok s' ∧ s'.models = s.models ∧
      s'.warnings = warningsOn s.models (demands edges models) :=
  synthesizeFields_of_settled hrun (synthesizeFields_grown hrun).2 (demands_settled hrun)

theorem synthesizeFields_warnings {edges : List RelationEdge} {models : List Model}
    {s : Synthesis} (hrun : synthesizeFields edges models = .ok s)
    (hids : (edges.map (·.id)).Nodup) :
    s.warnings = warningsOn s.models (demands edges models) := by
  obtain ⟨-, hs⟩ := synthesizeFields_eq_ok_iff.mp hrun
  rw [hs]
  exact foldl_meet_warnings (demands_ids_nodup hids models) { models }

/-- Synthesis that has succeeded succeeds again on its models and leaves them as they are. The
second run warns of nothing that the first did not warn of, and if the ids of the edges are
distinct, it gives the same warnings in the same order. -/
theorem synthesizeFields_again {edges : List RelationEdge} {models : List Model} {s : Synthesis}
    (hrun : synthesizeFields edges models = .ok s) :
    ∃ s', synthesizeFields edges s.models = .ok s' ∧ s'.models = s.models ∧
      s'.warnings.Sublist s.warnings ∧
        ((edges.map (·.id)).Nodup → s'.warnings = s.warnings) := by
  obtain ⟨hfault, hs⟩ := synthesizeFields_eq_ok_iff.mp hrun
  have hheadings : s.models.map Model.heading = models.map Model.heading := by
    rw [hs, foldl_meet_headings]
  have hdemands : demands edges s.models = demands edges models :=
    List.flatMap_congr fun e _ => demandsOf_congr hheadings e
  have hsettled : ∀ d ∈ demands edges models, Settled s.models d := by
    rw [hs]
    exact foldl_meet_settled _ _
  obtain ⟨hmodels, hwarnings⟩ := foldl_meet_of_settled { models := s.models } hsettled
  refine ⟨(demands edges models).foldl meet { models := s.models }, ?_, hmodels, ?_, fun hids => ?_⟩
  · rw [synthesizeFields_eq_ok_iff, firstEdgeFault?_congr edges hheadings, hdemands]
    exact ⟨hfault, rfl⟩
  · rw [hwarnings, hs]
    exact warningsOn_sublist_foldl_meet (demands edges models) { models }
  · rw [hwarnings, hs]
    exact (foldl_meet_warnings (demands_ids_nodup hids models) { models }).symm

/-- Posts have a field of their own where the author is to go. -/
def crowded : List Model :=
  [{ id := "u", name := "User" },
    { id := "p", name := "Post", fields := [{ name := "user", type := "String" }] }]

/-- A name that is taken by a field of the model, and one that the edge takes itself at its other
end: both runs warn of both. -/
theorem synthesizeFields_again_crowded :
    ∃ s s' : Synthesis,
      synthesizeFields [{ id := "e", source := "u", target := "p" },
        { id := "f", type := "MANY_TO_MANY", source := "p", target := "p" }] crowded = .ok s ∧
      synthesizeFields [{ id := "e", source := "u", target := "p" },
        { id := "f", type := "MANY_TO_MANY", source := "p", target := "p" }] s.models = .ok s' ∧
      s'.models = s.models ∧
      s'.warnings = ["Relation e: Post.user already exists, derived field not added",
        "Relation f: Post.posts already exists, derived field not added"] := by
  have hrun : synthesizeFields [{ id := "e", source := "u", target := "p" },
      { id := "f", type := "MANY_TO_MANY", source := "p", target := "p" }] crowded = .ok _ := rfl
  obtain ⟨s', hagain, hmodels, -, hwarnings⟩ := synthesizeFields_again hrun
  refine ⟨_, s', hrun, hagain, hmodels, ?_⟩
  rw [hwarnings (by decide)]
  rfl

/-- Where two edges share an id, the second one may bring it: then only the first run warns. -/
example :
    let models : List Model :=
      [{ id := "u", name := "User" }, { id := "v", name := "Visitor" },
        { id := "p", name := "Post", fields := [{ name := "user", type := "String" }] }]
    let edges : List RelationEdge :=
      [{ id := "e", source := "u", target := "p" }, { id := "e", source := "v", target := "p" }]
    (synthesizeFields edges models).map (·.warnings) =
        .ok ["Relation e: Post.user already exists, derived field not added"] ∧
      (synthesizeFields edges models >>= fun s => synthesizeFields edges s.models).map
        (·.warnings) = .ok [] :=
  ⟨rfl, rfl⟩

end DrawnSchema.Synthesis
