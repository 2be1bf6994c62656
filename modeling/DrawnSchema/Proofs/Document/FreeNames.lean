import DrawnSchema.Graph.Edit
import DrawnSchema.Proofs.Document.Names
import Mathlib.Data.Finset.Card
import Mathlib.Order.Bounds.Defs

/-!
# The search for a free name

A free name is searched from a base: while the name at hand is taken, the base with the next number
is tried. Nothing in a round says that there will be a last one. What bounds the search is that no
candidate comes twice, so that each round uses up one of the names of the document.
-/

namespace DrawnSchema

/-- A search for a free name: the name at hand, and the number that comes next. -/
structure NameSearch where
  name : String
  counter : Nat := 1

namespace NameSearch

def next (base : String) (s : NameSearch) : NameSearch :=
  { name := base ++ toString s.counter, counter := s.counter + 1 }

/-- The search ends with a name after so many rounds, each of which has found its name taken. -/
inductive Finds (taken : List String) (base : String) : Nat → NameSearch → String → Prop
  | free {s : NameSearch} (h : s.name ∉ taken) : Finds taken base 0 s s.name
  | round {rounds : Nat} {s : NameSearch} {found : String} (h : s.name ∈ taken)
      (rest : Finds taken base rounds (s.next base) found) : Finds taken base (rounds + 1) s found

variable {taken : List String} {base : String}

/-- A search goes one way: at most one number of rounds and one name are right. -/
theorem Finds.unique {n n' : Nat} {s : NameSearch} {found found' : String}
    (h : Finds taken base n s found) (h' : Finds taken base n' s found') :
    n = n' ∧ found = found' := by
  induction h generalizing n' with
  | free hfree =>
      cases h' with
      | free => exact ⟨rfl, rfl⟩
      | round htaken => exact absurd htaken hfree
  | round htaken _ ih =>
      cases h' with
      | free hfree => exact absurd htaken hfree
      | round _ hrest =>
          obtain ⟨hn, hfound⟩ := ih hrest
          exact ⟨congrArg (· + 1) hn, hfound⟩

/-! ### Candidates -/

/-- The names that are tried, in turn. -/
def candidate (base : String) : Nat → String
  | 0 => base
  | k + 1 => base ++ toString (k + 1)

theorem candidate_injective (base : String) : Function.Injective (candidate base) := by
  have hlonger (k : Nat) : base ≠ base ++ toString (k + 1) := by
    intro heq
    have hempty : toString (k + 1) = "" := by
      rw [← String.append_right_inj base, ← heq, String.append_empty]
    exact Nat.repr_ne_empty hempty
  intro j k hjk
  cases j with
  | zero =>
      cases k with
      | zero => rfl
      | succ k => exact absurd hjk (hlonger k)
  | succ j =>
      cases k with
      | zero => exact absurd hjk.symm (hlonger j)
      | succ k => exact Document.append_toString_injective base hjk

/-- The search goes through the candidates up to the first that is free. -/
theorem finds_candidate (start rounds : Nat)
    (hbelow : ∀ j < rounds, candidate base (start + j) ∈ taken)
    (hfree : candidate base (start + rounds) ∉ taken) :
    Finds taken base rounds ⟨candidate base start, start + 1⟩
      (candidate base (start + rounds)) := by
  induction rounds generalizing start with
  | zero => exact .free hfree
  | succ rounds ih =>
      have hnext (j : Nat) : start + 1 + j = start + (j + 1) := by omega
      have hrest := ih (start + 1)
        (fun j hj => hnext j ▸ hbelow (j + 1) (Nat.succ_lt_succ hj)) (hnext rounds ▸ hfree)
      rw [hnext rounds] at hrest
      exact .round (hbelow 0 (Nat.succ_pos rounds)) hrest

/-- As many candidates as are taken one after the other, there are names. -/
theorem le_card_of_taken {k : Nat} (hbelow : ∀ j < k, candidate base j ∈ taken) :
    k ≤ taken.toFinset.card := by
  have hsubset : (Finset.range k).image (candidate base) ⊆ taken.toFinset := by
    intro name hname
    obtain ⟨j, hj, rfl⟩ := Finset.mem_image.mp hname
    exact List.mem_toFinset.mpr (hbelow j (Finset.mem_range.mp hj))
  calc k = ((Finset.range k).image (candidate base)).card := by
        rw [Finset.card_image_of_injective _ (candidate_injective base), Finset.card_range]
    _ ≤ taken.toFinset.card := Finset.card_le_card hsubset

end NameSearch

namespace Document

open NameSearch

theorem freeSuffix_eq_candidate (taken : List String) (base : String) (tries counter : Nat) :
    ∃ k, freeSuffix taken base tries (counter + 1) = candidate base (counter + 1 + k) ∧
      ∀ j < k, candidate base (counter + 1 + j) ∈ taken := by
  induction tries generalizing counter with
  | zero => exact ⟨0, rfl, fun j hj => absurd hj (Nat.not_lt_zero j)⟩
  | succ tries ih =>
      rw [freeSuffix]
      by_cases htaken : base ++ toString (counter + 1) ∈ taken
      · obtain ⟨k, hk, hbelow⟩ := ih (counter + 1)
        have hnext (j : Nat) : counter + 1 + 1 + j = counter + 1 + (j + 1) := by omega
        refine ⟨k + 1, ?_, fun j hj => ?_⟩
        · rw [if_pos htaken, hk, hnext]
        · cases j with
          | zero => exact htaken
          | succ j =>
              rw [← hnext]
              exact hbelow j (Nat.lt_of_succ_lt_succ hj)
      · exact ⟨0, if_neg htaken, fun j hj => absurd hj (Nat.not_lt_zero j)⟩

/-- The name that is found is the first candidate that is free. -/
theorem uniqueName_eq_candidate (d : Document) (base : String) :
    ∃ k, d.uniqueName base = candidate base k ∧ ∀ j < k, candidate base j ∈ d.names := by
  unfold uniqueName
  by_cases hbase : base ∈ d.names
  · obtain ⟨k, hk, hbelow⟩ := freeSuffix_eq_candidate d.names base d.names.length 0
    refine ⟨0 + 1 + k, by rw [if_pos hbase, hk], fun j hj => ?_⟩
    cases j with
    | zero => exact hbase
    | succ j =>
        rw [show j + 1 = 0 + 1 + j by omega]
        exact hbelow j (by omega)
  · exact ⟨0, if_neg hbase, fun j hj => absurd hj (Nat.not_lt_zero j)⟩

end Document

namespace Session

variable (s : Session)

theorem checkNewId_eq_ok_or (g : Graph) (id : Option String) :
    g.checkNewId id = .ok () ∨
      ∃ used, id = some used ∧ g.hasNode used = true ∧
        g.checkNewId id = .error (.nodeExists used) := by
  cases id with
  | none => exact Or.inl rfl
  | some id =>
      cases hnode : g.hasNode id with
      | false => simp [Graph.checkNewId, hnode]
      | true => simp [Graph.checkNewId, EditError.refuseUnless, hnode]

/-- A model without a name is added, unless its id is in use. -/
theorem apply_addModel_unnamed (id : Option String) :
    (∃ m, (s.apply (.addModel none id)).answer = .ok (.model m)) ∨
      ∃ used, id = some used ∧ s.graph.hasNode used = true ∧
        (s.apply (.addModel none id)).answer = .error (.nodeExists used) := by
  unfold apply Edit.editing Editing.addModel
  obtain hnew | ⟨used, rfl, hused, herror⟩ := checkNewId_eq_ok_or s.graph id
  · left
    simp only [EStateM.run_bind, Editing.run_ask, hnew, Graph.newName, Editing.run_idFor]
    exact ⟨_, rfl⟩
  · refine Or.inr ⟨used, rfl, hused, ?_⟩
    simp only [EStateM.run_bind, Editing.run_ask, herror]

/-- An enum without a name is added, unless its id is in use or its values repeat one. -/
theorem apply_addEnum_unnamed (values : Option (List String)) (id : Option String) :
    (∃ e, (s.apply (.addEnum none values id)).answer = .ok (.enum e)) ∨
      (∃ used, id = some used ∧ s.graph.hasNode used = true ∧
        (s.apply (.addEnum none values id)).answer = .error (.nodeExists used)) ∨
      ∃ name value, firstRepeated [] (values.getD Graph.defaultValues) = some value ∧
        (s.apply (.addEnum none values id)).answer = .error (.duplicateValue name value) := by
  unfold apply Edit.editing Editing.addEnum
  obtain hnew | ⟨used, rfl, hused, herror⟩ := checkNewId_eq_ok_or s.graph id
  · cases hvalues : firstRepeated [] (values.getD Graph.defaultValues) with
    | none =>
        left
        simp only [EStateM.run_bind, Editing.run_ask, hnew, Graph.newName, Graph.checkValues,
          hvalues]
        exact ⟨_, rfl⟩
    | some value =>
        refine Or.inr (Or.inr ⟨s.graph.namesDocument.uniqueName "NewEnum", value, rfl, ?_⟩)
        simp only [EStateM.run_bind, Editing.run_ask, hnew, Graph.newName, Graph.checkValues,
          hvalues]
        rfl
  · refine Or.inr (Or.inl ⟨used, rfl, hused, ?_⟩)
    simp only [EStateM.run_bind, Editing.run_ask, herror]

end Session

/-- The search for a free name ends, after no more rounds than there are names, and with the first
free one: the base, or the base with the least number that makes it free. So models and enums
without a name get one, and nothing but their ids and values can have them refused. -/
theorem Document.uniqueName_is_first_free (d : Document) (base : String) :
    (∃ rounds ≤ d.names.toFinset.card, ∀ n found,
      NameSearch.Finds d.names base n { name := base } found ↔
        n = rounds ∧ found = d.uniqueName base) ∧
      (base ∉ d.names → d.uniqueName base = base) ∧
      (base ∈ d.names → ∃ k, IsLeast {k : Nat | 0 < k ∧ base ++ toString k ∉ d.names} k ∧
        d.uniqueName base = base ++ toString k) ∧
      d.nameFree (d.uniqueName base) none = true ∧
      ∀ (s : Session) (id : Option String) (values : Option (List String)),
        ((∃ m, (s.apply (.addModel none id)).answer = .ok (.model m)) ∨
          ∃ used, id = some used ∧ s.graph.hasNode used = true ∧
            (s.apply (.addModel none id)).answer = .error (.nodeExists used)) ∧
        ((∃ e, (s.apply (.addEnum none values id)).answer = .ok (.enum e)) ∨
          (∃ used, id = some used ∧ s.graph.hasNode used = true ∧
            (s.apply (.addEnum none values id)).answer = .error (.nodeExists used)) ∨
          ∃ name value, firstRepeated [] (values.getD Graph.defaultValues) = some value ∧
            (s.apply (.addEnum none values id)).answer = .error (.duplicateValue name value)) := by
  obtain ⟨k, hk, hbelow⟩ := d.uniqueName_eq_candidate base
  have hfree : NameSearch.candidate base k ∉ d.names := hk ▸ d.uniqueName_not_mem base
  refine ⟨⟨k, NameSearch.le_card_of_taken hbelow, fun n found => ?_⟩, fun hbase => if_neg hbase,
    fun hbase => ?_, nameFree_none_iff.mpr (d.uniqueName_not_mem base), fun s id values =>
      ⟨s.apply_addModel_unnamed id, s.apply_addEnum_unnamed values id⟩⟩
  · have hfinds : NameSearch.Finds d.names base k { name := base } (d.uniqueName base) := by
      rw [hk]
      have hstart : ∀ j < k, NameSearch.candidate base (0 + j) ∈ d.names := by
        simpa only [Nat.zero_add] using hbelow
      have hsearch := NameSearch.finds_candidate 0 k hstart (by rwa [Nat.zero_add])
      simp only [Nat.zero_add] at hsearch
      exact hsearch
    constructor
    · exact fun h => h.unique hfinds
    · rintro ⟨rfl, rfl⟩
      exact hfinds
  · cases k with
    | zero => exact absurd hbase hfree
    | succ k =>
        refine ⟨k + 1, ⟨⟨Nat.succ_pos k, hfree⟩, ?_⟩, hk⟩
        rintro j ⟨hpos, hj⟩
        by_contra hlt
        obtain ⟨j, rfl⟩ := Nat.exists_eq_succ_of_ne_zero (Nat.ne_of_gt hpos)
        exact hj (hbelow (j + 1) (Nat.lt_of_not_le hlt))

/-- Models of the name that a new one gets, without a number and with the first, and an enum with
the third. -/
def numberedModels : Document :=
  { models := [{ id := "a", name := "NewModel" }, { id := "b", name := "NewModel1" }]
    enums := [{ id := "c", name := "NewModel3" }] }

/-- Of the numbers that are free the least is taken, between those of a model and of an enum. -/
theorem uniqueName_is_first_free_numbered :
    numberedModels.uniqueName "NewModel" = "NewModel2" ∧
      IsLeast {k : Nat | 0 < k ∧ "NewModel" ++ toString k ∉ numberedModels.names} 2 := by
  have hname : numberedModels.uniqueName "NewModel" = "NewModel2" := by decide
  obtain ⟨-, -, htaken, -⟩ := Document.uniqueName_is_first_free numberedModels "NewModel"
  obtain ⟨k, hk, hnumber⟩ := htaken (by decide)
  have hsame : "NewModel" ++ toString k = "NewModel" ++ toString 2 := hnumber.symm.trans hname
  obtain rfl := Document.append_toString_injective "NewModel" hsame
  exact ⟨hname, hk⟩

end DrawnSchema
