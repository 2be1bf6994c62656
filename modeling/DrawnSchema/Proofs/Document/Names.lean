import DrawnSchema.Document.Names
import DrawnSchema.Document.Reader
import Mathlib.Data.List.Nodup
import Mathlib.Data.List.Perm.Subperm
import Mathlib.Tactic.Tauto

/-!
# Names of a document

Names are in conflict unless they are distinct. A name that is free is the name of no node, and
there is always a free name to be found: among the first numbers, as many as there are names and one
more, not every one can be taken.
-/

namespace DrawnSchema.Document

/-! ### Conflicts -/

/-- The names still to come are distinct and unseen: what that means for the first of them. -/
theorem nodup_unseen_cons_iff {seen names : List String} {name : String} :
    ((name :: names).Nodup ∧ ∀ n ∈ name :: names, n ∉ seen) ↔
      name ∉ seen ∧ names.Nodup ∧ ∀ n ∈ names, n ∉ name :: seen := by
  simp only [List.nodup_cons, List.mem_cons, not_or]
  constructor
  · rintro ⟨⟨hfresh, hnodup⟩, hnames⟩
    refine ⟨hnames name (Or.inl rfl), hnodup, fun n hn => ⟨?_, hnames n (Or.inr hn)⟩⟩
    rintro rfl
    exact hfresh hn
  · rintro ⟨hseen, hnodup, hnames⟩
    refine ⟨⟨fun hmem => (hnames name hmem).1 rfl, hnodup⟩, ?_⟩
    rintro n (rfl | hn)
    · exact hseen
    · exact (hnames n hn).2

theorem repeatedNames_eq_nil_iff {seen conflicts names : List String} :
    repeatedNames seen conflicts names = [] ↔
      conflicts = [] ∧ names.Nodup ∧ ∀ name ∈ names, name ∉ seen := by
  induction names generalizing seen conflicts with
  | nil => simp [repeatedNames]
  | cons name names ih =>
      rw [repeatedNames, ih, nodup_unseen_cons_iff]
      by_cases hseen : name ∈ seen
      · by_cases hconflict : name ∈ conflicts
        · have hne : conflicts ≠ [] := List.ne_nil_of_mem hconflict
          simp [hseen, hconflict, hne]
        · simp [hseen, hconflict]
      · simp [hseen]

theorem firstRepeated_eq_none_iff {seen values : List String} :
    firstRepeated seen values = none ↔ values.Nodup ∧ ∀ v ∈ values, v ∉ seen := by
  induction values generalizing seen with
  | nil => simp [firstRepeated]
  | cons v values ih =>
      rw [firstRepeated, nodup_unseen_cons_iff]
      by_cases hv : v ∈ seen
      · simp [hv]
      · rw [if_neg hv, ih]
        simp [hv]

theorem nameConflicts_eq_nil_iff {d : Document} : d.nameConflicts = [] ↔ d.names.Nodup := by
  simp [nameConflicts, repeatedNames_eq_nil_iff]

/-! ### Other names for items -/

section Renamed

variable {α : Type} {key name : α → String} {l : List α} {k new : String}

/-- Where names and keys are distinct, the item of a key may take a name that no other item has. -/
theorem nodup_renamed (hkeys : (l.map key).Nodup) (hnames : (l.map name).Nodup)
    (hfree : ∀ a ∈ l, name a = new → key a = k) :
    (l.map fun a => if key a = k then new else name a).Nodup := by
  refine (List.Nodup.of_map key hkeys).map_on fun a ha b hb hab => ?_
  by_cases hak : key a = k
  · by_cases hbk : key b = k
    · exact List.inj_on_of_nodup_map hkeys ha hb (hak.trans hbk.symm)
    · rw [if_pos hak, if_neg hbk] at hab
      exact absurd (hfree b hb hab.symm) hbk
  · by_cases hbk : key b = k
    · rw [if_neg hak, if_pos hbk] at hab
      exact absurd (hfree a ha hab) hak
    · rw [if_neg hak, if_neg hbk] at hab
      exact List.inj_on_of_nodup_map hnames ha hb hab

theorem nodup_renamed_iff (hkeys : (l.map key).Nodup) (hnames : (l.map name).Nodup)
    (hk : k ∈ l.map key) :
    (l.map fun a => if key a = k then new else name a).Nodup ↔
      ∀ a ∈ l, name a = new → key a = k := by
  refine ⟨fun hnodup a ha hname => ?_, nodup_renamed hkeys hnames⟩
  obtain ⟨b, hb, hbk⟩ := List.mem_map.mp hk
  by_contra hak
  have hsame := List.inj_on_of_nodup_map hnodup ha hb
  simp only [if_neg hak, if_pos hbk] at hsame
  exact hak (hsame hname ▸ hbk)

end Renamed

/-! ### Free names -/

theorem names_eq (d : Document) : d.names = d.namedNodes.map (·.name) := by
  simp [names, namedNodes, Function.comp_def]

theorem nameFree_iff {d : Document} {name : String} {exclude : Option String} :
    d.nameFree name exclude = true ↔
      ∀ n ∈ d.namedNodes, n.name = name → some n.id = exclude := by
  simp only [nameFree, List.all_eq_true, Bool.or_eq_true, decide_eq_true_eq]
  refine forall₂_congr fun n _ => ?_
  tauto

theorem nameFree_none_iff {d : Document} {name : String} :
    d.nameFree name none = true ↔ name ∉ d.names := by
  simp [nameFree_iff, names_eq]

/-- A number that is not free leaves no number before it free. -/
theorem mem_of_freeSuffix_mem {taken : List String} {base : String} {tries counter : Nat}
    (h : freeSuffix taken base tries counter ∈ taken) {k : Nat} (hk : k ≤ tries) :
    base ++ toString (counter + k) ∈ taken := by
  induction tries generalizing counter k with
  | zero =>
      obtain rfl : k = 0 := by omega
      exact h
  | succ tries ih =>
      rw [freeSuffix] at h
      by_cases hfirst : base ++ toString counter ∈ taken
      · cases k with
        | zero => exact hfirst
        | succ k =>
            rw [if_pos hfirst] at h
            have hrest := ih h (by omega : k ≤ tries)
            rwa [Nat.add_assoc, Nat.add_comm 1 k] at hrest
      · rw [if_neg hfirst] at h
        exact absurd h hfirst

theorem append_toString_injective (base : String) :
    Function.Injective fun k : Nat => base ++ toString k := by
  intro j k hjk
  have hnumeral : Nat.repr j = Nat.repr k := (String.append_right_inj base).mp hjk
  have hdigits : Nat.toDigits 10 j = Nat.toDigits 10 k := by
    rw [← Nat.toList_repr, ← Nat.toList_repr, hnumeral]
  have hnumber := congrArg (Nat.ofDigitChars 10 · 0) hdigits
  simpa only [Nat.ofDigitChars_ten_toDigits] using hnumber

theorem freeSuffix_not_mem {taken : List String} {base : String} {tries counter : Nat}
    (h : taken.length ≤ tries) : freeSuffix taken base tries counter ∉ taken := by
  intro hmem
  let candidates := (List.range (tries + 1)).map fun k => base ++ toString (counter + k)
  have hinjective : Function.Injective fun k => base ++ toString (counter + k) :=
    (append_toString_injective base).comp fun _ _ => Nat.add_left_cancel
  have hnodup : candidates.Nodup := List.nodup_range.map hinjective
  have hsubset : candidates ⊆ taken := by
    intro name hname
    obtain ⟨k, hk, rfl⟩ := List.mem_map.mp hname
    exact mem_of_freeSuffix_mem hmem (by have := List.mem_range.mp hk; omega)
  have hlength := (hnodup.subperm hsubset).length_le
  simp only [candidates, List.length_map, List.length_range] at hlength
  omega

theorem uniqueName_not_mem (d : Document) (base : String) : d.uniqueName base ∉ d.names := by
  unfold uniqueName
  by_cases hbase : base ∈ d.names
  · rw [if_pos hbase]
    exact freeSuffix_not_mem (Nat.le_refl _)
  · rwa [if_neg hbase]

end DrawnSchema.Document
