import DrawnSchema.Proofs.Document.RoundTrip
import DrawnSchema.Proofs.Graph.Arcs
import Mathlib.Data.List.Induction

/-!
# What a graph keeps of a document whose ids repeat

Models and enums share their ids in a graph, and so do relations among themselves. Where an id comes
again, the later record takes the place of the earlier one. So a graph shows a document as it was if
and only if ids are distinct in it; else something of it is gone, and what was wrong with it may be
gone as well.
-/

namespace DrawnSchema

/-- Of the items of each key the last one, in the order in which the keys first come. -/
def lastByKey {α : Type} (key : α → String) (items : List α) : List α :=
  (items.map key).eraseDups.filterMap fun k => items.reverse.find? fun a => key a = k

namespace Graph

section PlaceAll

variable {α : Type} {key : α → String}

theorem placeAll_append_singleton (items placed : List α) (a : α) :
    placeAll key (items ++ [a]) placed =
      placeOrAppend (fun b => key b = key a) a (placeAll key items placed) := by
  simp [placeAll, List.foldl_append]

theorem placeOrAppend_keys (a : α) (placed : List α) :
    (placeOrAppend (fun b => key b = key a) a placed).map key =
      placed.map key ++ if key a ∈ placed.map key then [] else [key a] := by
  induction placed with
  | nil => simp [placeOrAppend]
  | cons b placed ih =>
      rw [placeOrAppend]
      by_cases hb : key b = key a
      · simp [hb]
      · simp [hb, ih, Ne.symm hb]

theorem placeAll_keys (items : List α) :
    (placeAll key items []).map key = (items.map key).eraseDups := by
  induction items using List.reverseRecOn with
  | nil => rfl
  | append_singleton items a ih =>
      rw [placeAll_append_singleton, placeOrAppend_keys, ih, List.map_append, List.map_singleton,
        List.eraseDups_append]
      generalize items.map key = keys
      by_cases ha : key a ∈ keys <;> simp [List.removeAll, List.eraseDups_cons, ha]

/-- What is left is the last item of its key. -/
theorem find?_of_mem_placeAll {items : List α} {a : α} (h : a ∈ placeAll key items []) :
    items.reverse.find? (fun b => key b = key a) = some a := by
  induction items using List.reverseRecOn with
  | nil => cases h
  | append_singleton items b ih =>
      have hkeys : ((placeAll key items []).map key).Nodup :=
        placeAll_nodup items List.nodup_nil
      rw [placeAll_append_singleton, mem_placeOrAppend_iff hkeys] at h
      rw [List.reverse_append, List.reverse_singleton, List.singleton_append]
      obtain rfl | ⟨ha, hne⟩ := h
      · exact List.find?_cons_of_pos (decide_eq_true rfl)
      · rw [List.find?_cons_of_neg (by simpa using hne.symm)]
        exact ih ha

theorem placeAll_eq_lastByKey (items : List α) : placeAll key items [] = lastByKey key items := by
  have hfound : (placeAll key items []).filterMap
      (fun a => items.reverse.find? fun b => key b = key a) = placeAll key items [] := by
    conv_rhs => rw [← List.filterMap_some (l := placeAll key items [])]
    exact List.filterMap_congr fun a ha => find?_of_mem_placeAll ha
  rw [lastByKey, ← placeAll_keys, List.filterMap_map]
  exact hfound.symm

end PlaceAll

/-! ### Nothing is gone where ids are distinct, and only there -/

theorem ofDocument_nodes_ids_perm (d : Document) :
    ((ofDocument d).models.map (·.id) ++ (ofDocument d).enums.map (·.id)).Perm
      ((ofDocument d).nodes.map Node.id) :=
  ids_perm (ofDocument d).nodes

/-- The graph of a document shows of each id the record that comes last, in the place where the id
comes first. So it shows all models, enums and relations as they are in the document exactly where
no two models or enums share an id and no two relations do. -/
theorem ofDocument_keeps_iff (d : Document) :
    ((ofDocument d).toDocument.models = (lastByKey Node.id d.nodes).filterMap Node.model? ∧
      (ofDocument d).toDocument.enums = (lastByKey Node.id d.nodes).filterMap Node.enum? ∧
      (ofDocument d).toDocument.relationEdges = lastByKey (·.id) d.relationEdges) ∧
    ((ofDocument d).toDocument.models = d.models ∧
        (ofDocument d).toDocument.enums = d.enums ∧
        (ofDocument d).toDocument.relationEdges = d.relationEdges ↔
      d.HasDistinctIds) := by
  have hnodes : (ofDocument d).nodes = lastByKey Node.id d.nodes := by
    rw [ofDocument_nodes]
    exact placeAll_eq_lastByKey d.nodes
  have hrelations : (ofDocument d).relations = lastByKey (·.id) d.relationEdges := by
    rw [ofDocument_relations]
    exact placeAll_eq_lastByKey d.relationEdges
  refine ⟨⟨?_, ?_, hrelations⟩, fun ⟨hmodels, henums, hedges⟩ => ⟨?_, ?_⟩, fun h => ?_⟩
  · exact congrArg (List.filterMap Node.model?) hnodes
  · exact congrArg (List.filterMap Node.enum?) hnodes
  · have hids := (ofDocument_nodes_ids_perm d).nodup_iff.mpr (by
      rw [ofDocument_nodes]
      exact ofNodes_ids d)
    rwa [show (ofDocument d).models = d.models from hmodels,
      show (ofDocument d).enums = d.enums from henums] at hids
  · have hids := ofDocument_relationIds d
    rwa [show (ofDocument d).relations = d.relationEdges from hedges] at hids
  · exact ⟨h.ofDocument_models, h.ofDocument_enums, h.ofDocument_relations⟩

/-- Two models share an id and a name. Two relations share an id, and the first of them leads
nowhere. -/
def doubled : Document :=
  { models := [{ id := "u", name := "User", fields := [{ name := "email", type := "String" }] },
      { id := "u", name := "User" }]
    relationEdges := [{ id := "e", source := "u", target := "p" },
      { id := "e", source := "u", target := "u" }] }

/-- The first model is gone from the graph, and the first relation. What was wrong with the document
is gone with them: it does not compile, and the document of its graph does. -/
theorem ofDocument_hides_doubled :
    (¬ ∀ (data : Value) (d : Document), Document.parse data = .value d →
        (ofDocument d).toDocument.models = d.models ∧
          (ofDocument d).toDocument.enums = d.enums ∧
          (ofDocument d).toDocument.relationEdges = d.relationEdges) ∧
      doubled.generate = .error (.nameConflict ["User"]) ∧
      ∃ t, (ofDocument doubled).toDocument.generate = .ok t := by
  refine ⟨fun hall => ?_, rfl, _, rfl⟩
  have hparse : Document.parse doubled.toValue = .value doubled :=
    Reading.value?_eq_some_iff.mp (by decide +kernel)
  have hlength := congrArg List.length (hall _ _ hparse).1
  have hdiffer : (ofDocument doubled).toDocument.models.length ≠ doubled.models.length := by decide
  exact hdiffer hlength

end Graph

end DrawnSchema
