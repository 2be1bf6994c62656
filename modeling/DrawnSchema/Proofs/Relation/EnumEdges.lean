import DrawnSchema.Relation.EnumEdges
import Mathlib.Data.List.Nodup

/-!
# The enum edges of models

A field whose type names an enum is to have an edge from it. An edge goes by an id, in which the ids
of the model, the field and the enum are joined by dashes, and of several edges with one id the
first stays. So a field goes without its edge where dashes in these ids make its edge go by the id
of an edge before it. Otherwise each link between a field and an enum has one edge.
-/

namespace DrawnSchema

/-! ### Edges that are dropped -/

theorem dropSeen_sublist (seen : List String) (edges : List EnumEdge) :
    (dropSeen seen edges).Sublist edges := by
  induction edges generalizing seen with
  | nil => exact .refl _
  | cons e edges ih =>
      rw [dropSeen]
      by_cases he : e.id ∈ seen
      · rw [if_pos he]
        exact (ih seen).cons e
      · rw [if_neg he]
        exact (ih _).cons_cons e

theorem dropSeen_ids (seen : List String) (edges : List EnumEdge) :
    ((dropSeen seen edges).map (·.id)).Nodup ∧ ∀ e ∈ dropSeen seen edges, e.id ∉ seen := by
  induction edges generalizing seen with
  | nil => simp [dropSeen]
  | cons e edges ih =>
      rw [dropSeen]
      by_cases he : e.id ∈ seen
      · rw [if_pos he]
        exact ih seen
      · rw [if_neg he]
        obtain ⟨hnodup, hunseen⟩ := ih (e.id :: seen)
        constructor
        · refine List.nodup_cons.mpr ⟨fun hmem => ?_, hnodup⟩
          obtain ⟨e', he', heq⟩ := List.mem_map.mp hmem
          exact hunseen e' he' (heq ▸ List.mem_cons_self)
        · intro e' he'
          obtain rfl | he' := List.mem_cons.mp he'
          · exact he
          · exact fun hseen => hunseen e' he' (List.mem_cons_of_mem _ hseen)

/-- An edge is dropped only where another one goes by its id. -/
theorem mem_dropSeen_ids_iff {seen : List String} {edges : List EnumEdge} {id : String} :
    id ∈ (dropSeen seen edges).map (·.id) ↔ id ∈ edges.map (·.id) ∧ id ∉ seen := by
  induction edges generalizing seen with
  | nil => simp [dropSeen]
  | cons e edges ih =>
      rw [dropSeen]
      by_cases he : e.id ∈ seen
      · rw [if_pos he, ih, List.map_cons, List.mem_cons]
        constructor
        · rintro ⟨hmem, hseen⟩
          exact ⟨Or.inr hmem, hseen⟩
        · rintro ⟨rfl | hmem, hseen⟩
          · exact absurd he hseen
          · exact ⟨hmem, hseen⟩
      · rw [if_neg he, List.map_cons, List.map_cons, List.mem_cons, List.mem_cons, ih]
        by_cases hid : id = e.id
        · simp [hid, he]
        · simp [hid]

/-! ### Ends of edges -/

/-- Where a key tells items apart, an item is found by its key. -/
theorem find?_key_eq_some_iff {α κ : Type} [DecidableEq κ] {key : α → κ} {l : List α}
    (h : (l.map key).Nodup) {k : κ} {a : α} :
    l.find? (fun b => key b = k) = some a ↔ a ∈ l ∧ key a = k := by
  constructor
  · intro hfind
    exact ⟨List.mem_of_find?_eq_some hfind, of_decide_eq_true (List.find?_some hfind :)⟩
  · rintro ⟨ha, rfl⟩
    cases hfind : l.find? (fun b => key b = key a) with
    | none => exact absurd (decide_eq_true rfl) (List.find?_eq_none.mp hfind a ha)
    | some b =>
        have hb : key b = key a := of_decide_eq_true (List.find?_some hfind :)
        rw [List.inj_on_of_nodup_map h (List.mem_of_find?_eq_some hfind) ha hb]

theorem enumEdge?_eq_some {enums : List Enumeration} {m : Model} {f : Field} {e : EnumEdge}
    (h : enumEdge? enums m f = some e) : e.modelId = m.id ∧ e.enumId ∈ enums.map (·.id) := by
  obtain ⟨found, hfound, rfl⟩ := Option.map_eq_some_iff.mp h
  exact ⟨rfl, List.mem_map_of_mem (List.mem_of_find?_eq_some hfound)⟩

theorem deriveEnumEdges_ends {models : List Model} {enums : List Enumeration} {e : EnumEdge}
    (h : e ∈ deriveEnumEdges models enums) :
    e.modelId ∈ models.map (·.id) ∧ e.enumId ∈ enums.map (·.id) := by
  obtain ⟨m, hm, hfields⟩ := List.mem_flatMap.mp ((dropSeen_sublist _ _).mem h)
  obtain ⟨f, -, hf⟩ := List.mem_filterMap.mp hfields
  obtain ⟨hmodel, henum⟩ := enumEdge?_eq_some hf
  exact ⟨hmodel ▸ List.mem_map_of_mem hm, henum⟩

/-- The ids of edges are those of the links that types make. -/
theorem mem_deriveEnumEdges_ids_iff {models : List Model} {enums : List Enumeration} {id : String} :
    id ∈ (deriveEnumEdges models enums).map (·.id) ↔
      ∃ m ∈ models, ∃ f ∈ m.fields, ∃ e, enums.find? (·.name = f.type) = some e ∧
        enumEdgeId m.id f.key e.id = id := by
  unfold deriveEnumEdges
  rw [mem_dropSeen_ids_iff]
  simp only [List.not_mem_nil, not_false_eq_true, and_true, List.mem_map, List.mem_flatMap,
    List.mem_filterMap, enumEdge?, Option.map_eq_some_iff]
  constructor
  · rintro ⟨_, ⟨m, hm, f, hf, e, he, rfl⟩, rfl⟩
    exact ⟨m, hm, f, hf, e, he, rfl⟩
  · rintro ⟨m, hm, f, hf, e, he, rfl⟩
    exact ⟨_, ⟨m, hm, f, hf, e, he, rfl⟩, rfl⟩

/-- Edges are derived model by model. -/
theorem deriveEnumEdges_sorted {models : List Model} (h : (models.map (·.id)).Nodup)
    (enums : List Enumeration) :
    (deriveEnumEdges models enums).Pairwise fun e e' =>
      (models.map (·.id)).idxOf e.modelId ≤ (models.map (·.id)).idxOf e'.modelId := by
  refine List.Pairwise.sublist (dropSeen_sublist _ _) (List.pairwise_flatMap.mpr ⟨?_, ?_⟩)
  · intro m _
    refine List.pairwise_of_forall_mem_list fun e he e' he' => ?_
    obtain ⟨f, -, hf⟩ := List.mem_filterMap.mp he
    obtain ⟨f', -, hf'⟩ := List.mem_filterMap.mp he'
    exact Nat.le_of_eq (by rw [(enumEdge?_eq_some hf).1, (enumEdge?_eq_some hf').1])
  · refine List.pairwise_iff_getElem.mpr fun i j hi hj hij e he e' he' => ?_
    obtain ⟨f, -, hf⟩ := List.mem_filterMap.mp he
    obtain ⟨f', -, hf'⟩ := List.mem_filterMap.mp he'
    have hplace (k : Nat) (hk : k < models.length) :
        (models.map (·.id)).idxOf models[k].id = k := by
      have hget := h.idxOf_getElem k (by simpa using hk)
      rwa [List.getElem_map] at hget
    rw [(enumEdge?_eq_some hf).1, (enumEdge?_eq_some hf').1, hplace i hi, hplace j hj]
    omega

/-! ### Links -/

/-- What an enum edge joins: a field of a model, and an enum. -/
@[ext]
structure EnumLink where
  modelId : String
  fieldId : String
  enumId : String
deriving DecidableEq, Repr

/-- The id that the edge of a link goes by. -/
def EnumLink.edgeId (l : EnumLink) : String := enumEdgeId l.modelId l.fieldId l.enumId

def EnumEdge.link (e : EnumEdge) : EnumLink := ⟨e.modelId, e.fieldId, e.enumId⟩

/-- The links that the types of fields make, model by model and field by field. -/
def enumLinks (models : List Model) (enums : List Enumeration) : List EnumLink :=
  models.flatMap fun m => m.fields.filterMap fun f =>
    (enums.find? (·.name = f.type)).map fun e => ⟨m.id, f.key, e.id⟩

theorem dropSeen_links {edges : List EnumEdge} (h : ∀ e ∈ edges, e.id = e.link.edgeId)
    (seen : List String) :
    (dropSeen seen edges).map EnumEdge.link =
      ((edges.map EnumEdge.link).filter fun l => l.edgeId ∉ seen).eraseDupsBy
        fun l l' => l.edgeId = l'.edgeId := by
  induction edges generalizing seen with
  | nil => rfl
  | cons e edges ih =>
      have hrest : ∀ e' ∈ edges, e'.id = e'.link.edgeId :=
        fun e' he' => h e' (List.mem_cons_of_mem e he')
      rw [dropSeen, List.map_cons, List.filter_cons, ← h e List.mem_cons_self]
      by_cases he : e.id ∈ seen
      · rw [if_pos he, if_neg (by simpa using he), ih hrest]
      · have hunseen (l : EnumLink) : decide (l.edgeId ∉ e.id :: seen) =
            (decide (decide (l.edgeId = e.link.edgeId) = false) && decide (l.edgeId ∉ seen)) := by
          rw [← h e List.mem_cons_self]
          simp
        rw [if_neg he, if_pos (by simpa using he), List.map_cons, ih hrest, List.eraseDupsBy_cons,
          List.filter_filter]
        simp only [hunseen]

theorem enumEdge_id {models : List Model} {enums : List Enumeration} {e : EnumEdge}
    (h : e ∈ models.flatMap fun m => m.fields.filterMap (enumEdge? enums m)) :
    e.id = e.link.edgeId := by
  obtain ⟨m, -, hfields⟩ := List.mem_flatMap.mp h
  obtain ⟨f, -, hedge⟩ := List.mem_filterMap.mp hfields
  obtain ⟨found, -, rfl⟩ := Option.map_eq_some_iff.mp hedge
  rfl

/-- Of several links whose edges would go by one id, the first has its edge. -/
theorem deriveEnumEdges_map_link (models : List Model) (enums : List Enumeration) :
    (deriveEnumEdges models enums).map EnumEdge.link =
      (enumLinks models enums).eraseDupsBy fun l l' => l.edgeId = l'.edgeId := by
  have hlinks : (models.flatMap fun m => m.fields.filterMap (enumEdge? enums m)).map
      EnumEdge.link = enumLinks models enums := by
    simp only [List.map_flatMap, List.map_filterMap, enumLinks, enumEdge?, Option.map_map]
    rfl
  rw [deriveEnumEdges, dropSeen_links (fun e he => enumEdge_id he), hlinks]
  simp

/-- Where a key tells items apart, those that share a key are the same. -/
theorem eraseDupsBy_key_eq_eraseDups {α : Type} [DecidableEq α] {key : α → String} :
    (items : List α) → (∀ a ∈ items, ∀ b ∈ items, key a = key b → a = b) →
      items.eraseDupsBy (fun a b => key a = key b) = items.eraseDups
  | [], _ => rfl
  | a :: items, h => by
      have hsame : ∀ b ∈ items, decide (decide (key b = key a) = false) = !b == a := by
        intro b hb
        by_cases hba : b = a
        · simp [hba]
        · have hkey : key b ≠ key a := fun hkey =>
            hba (h b (List.mem_cons_of_mem a hb) a List.mem_cons_self hkey)
          simp [hba, hkey]
      have hrest : ∀ b ∈ items.filter (fun b => !b == a), ∀ c ∈ items.filter (fun b => !b == a),
          key b = key c → b = c := fun b hb c hc =>
        h b (List.mem_cons_of_mem a (List.mem_filter.mp hb).1) c
          (List.mem_cons_of_mem a (List.mem_filter.mp hc).1)
      rw [List.eraseDupsBy_cons, List.eraseDups_cons, List.filter_congr hsame,
        eraseDupsBy_key_eq_eraseDups _ hrest]
  termination_by items => items.length
  decreasing_by exact Nat.lt_succ_of_le (List.length_filter_le _ items)

/-- Edges go by ids of their own. Each link has one edge if and only if the edges of no two links
would go by one id. -/
theorem deriveEnumEdges_one_for_each_link (models : List Model) (enums : List Enumeration) :
    ((deriveEnumEdges models enums).map (·.id)).Nodup ∧
      ((deriveEnumEdges models enums).map EnumEdge.link = (enumLinks models enums).eraseDups ↔
        ∀ l ∈ enumLinks models enums, ∀ l' ∈ enumLinks models enums,
          l.edgeId = l'.edgeId → l = l') := by
  have hnodup : ((deriveEnumEdges models enums).map (·.id)).Nodup := (dropSeen_ids [] _).1
  have hids : (deriveEnumEdges models enums).map (·.id) =
      ((deriveEnumEdges models enums).map EnumEdge.link).map EnumLink.edgeId := by
    rw [List.map_map]
    refine List.map_congr_left fun e he => ?_
    exact enumEdge_id ((dropSeen_sublist [] _).mem he)
  refine ⟨hnodup, fun hall l hl l' hl' hid => ?_, fun hapart => ?_⟩
  · rw [hids, hall] at hnodup
    exact List.inj_on_of_nodup_map hnodup (List.mem_eraseDups.mpr hl) (List.mem_eraseDups.mpr hl')
      hid
  · rw [deriveEnumEdges_map_link, eraseDupsBy_key_eq_eraseDups _ hapart]

/-- A user has a role for posts, and a user post has a role. -/
def dashedModels : List Model :=
  [{ id := "user", name := "User"
     fields := [{ id := some "post-role", name := "role", type := "Role" }] },
    { id := "user-post", name := "UserPost"
      fields := [{ id := some "role", name := "role", type := "Role" }] }]

def roles : List Enumeration := [{ id := "r", name := "Role", values := ["READER"] }]

theorem deriveEnumEdges_drops_dashed :
    ¬ ∀ (models : List Model) (enums : List Enumeration),
      (deriveEnumEdges models enums).map EnumEdge.link = (enumLinks models enums).eraseDups ∧
        ((deriveEnumEdges models enums).map (·.id)).Nodup := by
  intro hall
  have hlinks := (hall dashedModels roles).1
  revert hlinks
  decide

/-! ### Ids without dashes -/

theorem append_dash_inj {a a' b b' : List Char} (ha : '-' ∉ a) (ha' : '-' ∉ a')
    (h : a ++ '-' :: b = a' ++ '-' :: b') : a = a' ∧ b = b' := by
  have hlength : a.length = a'.length := by
    have hplace := congrArg (List.idxOf '-') h
    simpa [List.idxOf_append_of_notMem, ha, ha'] using hplace
  obtain ⟨hleft, hright⟩ := List.append_inj h hlength
  exact ⟨hleft, (List.cons.inj hright).2⟩

namespace EnumLink

variable {l l' : EnumLink}

/-- No dash in the ids of the model and the field. That of the enum comes last, so it may have
some. -/
def IsDashless (l : EnumLink) : Prop := '-' ∉ l.modelId.toList ∧ '-' ∉ l.fieldId.toList

theorem edgeId_toList (l : EnumLink) :
    l.edgeId.toList = "enum-edge-".toList ++
      (l.modelId.toList ++ '-' :: (l.fieldId.toList ++ '-' :: l.enumId.toList)) := by
  have hdash : "-".toList = ['-'] := rfl
  unfold edgeId enumEdgeId
  -- Rewriting would look into the literals, so they are named first.
  generalize "enum-edge-" = head
  generalize "-" = dash at hdash ⊢
  simp only [String.toList_append, hdash, List.append_assoc, List.nil_append, List.cons_append]

theorem IsDashless.eq_of_edgeId (h : l.IsDashless) (h' : l'.IsDashless)
    (hid : l.edgeId = l'.edgeId) : l = l' := by
  have hchars := congrArg String.toList hid
  rw [edgeId_toList, edgeId_toList, List.append_right_inj] at hchars
  obtain ⟨hmodel, hrest⟩ := append_dash_inj h.1 h'.1 hchars
  obtain ⟨hfield, henum⟩ := append_dash_inj h.2 h'.2 hrest
  rw [String.toList_inj] at hmodel hfield henum
  exact EnumLink.ext hmodel hfield henum

end EnumLink

/-- Without dashes in the ids of models and the keys of fields, each link has one edge. -/
theorem deriveEnumEdges_of_dashless {models : List Model} (enums : List Enumeration)
    (h : ∀ m ∈ models, ∀ f ∈ m.fields, '-' ∉ m.id.toList ∧ '-' ∉ f.key.toList) :
    (deriveEnumEdges models enums).map EnumEdge.link = (enumLinks models enums).eraseDups := by
  have hdashless : ∀ l ∈ enumLinks models enums, l.IsDashless := by
    intro l hl
    obtain ⟨m, hm, hfields⟩ := List.mem_flatMap.mp hl
    obtain ⟨f, hf, hlink⟩ := List.mem_filterMap.mp hfields
    obtain ⟨e, -, rfl⟩ := Option.map_eq_some_iff.mp hlink
    exact h m hm f hf
  rw [deriveEnumEdges_map_link]
  exact eraseDupsBy_key_eq_eraseDups _ fun l hl l' hl' hid =>
    (hdashless l hl).eq_of_edgeId (hdashless l' hl') hid

end DrawnSchema
