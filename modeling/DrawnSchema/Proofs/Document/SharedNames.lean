import DrawnSchema.Proofs.Document.Names
import DrawnSchema.Schema.Generation
import Mathlib.Data.List.Basic
import Mathlib.Data.List.Induction

/-!
# Names that several nodes bear

The conflicts of a document are the names that more than one model or enum bears, each listed once.
The pass that lists them puts a name on the list when it comes up again. So they stand in the order
in which names appear for the second time, and this need not be the order of first appearance: of
two names, the one that begins may be the later one to return.
-/

namespace DrawnSchema

/-! ### The second appearance of a name -/

/-- The place at which a name appears for the second time. -/
def secondPlace (names : List String) (name : String) : Nat :=
  names.idxOf name + 1 + (names.drop (names.idxOf name + 1)).idxOf name

/-- After its first appearance a name is sought again in the rest. -/
theorem secondPlace_append_cons {before : List String} {name : String} (h : name ∉ before)
    (after : List String) :
    secondPlace (before ++ name :: after) name = before.length + 1 + after.idxOf name := by
  have hfirst : (before ++ name :: after).idxOf name = before.length := by
    rw [List.idxOf_append_of_notMem h, List.idxOf_cons_self, Nat.add_zero]
  have hrest : (before ++ name :: after).drop (before.length + 1) = after := by
    rw [List.drop_append, List.drop_eq_nil_of_le (by omega)]
    simp
  rw [secondPlace, hfirst, hrest]

theorem exists_of_two_le_count {names : List String} {name : String}
    (h : 2 ≤ names.count name) :
    ∃ before after, names = before ++ name :: after ∧ name ∉ before ∧ name ∈ after := by
  have hmem : name ∈ names := List.count_pos_iff.mp (by omega)
  obtain ⟨before, after, rfl, hbefore⟩ := List.eq_append_cons_of_mem hmem
  rw [List.count_append, List.count_eq_zero_of_not_mem hbefore, List.count_cons_self] at h
  exact ⟨before, after, rfl, hbefore, List.count_pos_iff.mp (by omega)⟩

theorem secondPlace_append {names : List String} {name : String} (h : 2 ≤ names.count name)
    (more : List String) : secondPlace (names ++ more) name = secondPlace names name := by
  obtain ⟨before, after, rfl, hbefore, hafter⟩ := exists_of_two_le_count h
  rw [List.append_assoc, List.cons_append, secondPlace_append_cons hbefore,
    secondPlace_append_cons hbefore, List.idxOf_append_of_mem hafter]

theorem secondPlace_lt_length {names : List String} {name : String} (h : 2 ≤ names.count name) :
    secondPlace names name < names.length := by
  obtain ⟨before, after, rfl, hbefore, hafter⟩ := exists_of_two_le_count h
  have hplace := List.idxOf_lt_length_iff.mpr hafter
  rw [secondPlace_append_cons hbefore, List.length_append, List.length_cons]
  omega

/-- A name that has appeared once and comes up again does so now. -/
theorem secondPlace_append_singleton {names : List String} {name : String}
    (h : names.count name = 1) : secondPlace (names ++ [name]) name = names.length := by
  have hmem : name ∈ names := List.count_pos_iff.mp (by omega)
  obtain ⟨before, after, rfl, hbefore⟩ := List.eq_append_cons_of_mem hmem
  have hafter : name ∉ after := by
    rw [List.count_append, List.count_cons_self] at h
    exact List.count_eq_zero.mp (by omega)
  rw [List.append_assoc, List.cons_append, secondPlace_append_cons hbefore,
    List.idxOf_append_of_notMem hafter, List.idxOf_cons_self, List.length_append, List.length_cons]
  omega

/-- A name that appears before another returns before it. -/
def KeepsLead (names : List String) (a b : String) : Prop :=
  names.idxOf a < names.idxOf b → secondPlace names a < secondPlace names b

theorem keepsLead_of_returns {names : List String} {a b : String}
    (h : secondPlace names a < secondPlace names b) : KeepsLead names a b :=
  fun _ => h

/-- A name that has no lead has none to lose. -/
theorem keepsLead_of_follows {names : List String} {a b : String}
    (h : names.idxOf b ≤ names.idxOf a) : KeepsLead names a b :=
  fun hlead => absurd hlead (Nat.not_lt.mpr h)

/-- Each name once, in the order of first appearance. -/
theorem eraseDups_sorted (names : List String) :
    names.eraseDups.Pairwise fun a b => names.idxOf a < names.idxOf b := by
  induction names using List.reverseRecOn with
  | nil => exact List.Pairwise.nil
  | append_singleton names name ih =>
      have hold : names.eraseDups.Pairwise fun a b =>
          (names ++ [name]).idxOf a < (names ++ [name]).idxOf b := by
        refine ih.imp_of_mem fun ha hb hab => ?_
        rwa [List.idxOf_append_of_mem (List.mem_eraseDups.mp ha),
          List.idxOf_append_of_mem (List.mem_eraseDups.mp hb)]
      rw [List.eraseDups_append]
      by_cases hname : name ∈ names
      · simpa [List.removeAll, hname] using hold
      · have hnew : ([name].removeAll names).eraseDups = [name] := by
          simp [List.removeAll, hname, List.eraseDups_cons]
        rw [hnew]
        refine List.pairwise_append.mpr ⟨hold, List.pairwise_singleton _ _, fun a ha b hb => ?_⟩
        obtain rfl := List.mem_singleton.mp hb
        have ha' := List.mem_eraseDups.mp ha
        rw [List.idxOf_append_of_mem ha', List.idxOf_append_of_notMem hname]
        exact Nat.lt_add_right _ (List.idxOf_lt_length_iff.mpr ha')

namespace Document

/-! ### The pass over the names -/

theorem repeatedNames_append_singleton (seen conflicts names : List String) (name : String) :
    repeatedNames seen conflicts (names ++ [name]) =
      if name ∈ seen ++ names ∧ name ∉ repeatedNames seen conflicts names then
        repeatedNames seen conflicts names ++ [name]
      else repeatedNames seen conflicts names := by
  induction names generalizing seen conflicts with
  | nil => simp [repeatedNames]
  | cons first names ih =>
      have hseen : name ∈ first :: seen ++ names ↔ name ∈ seen ++ first :: names := by
        simp [or_left_comm]
      rw [List.cons_append, repeatedNames, repeatedNames, ih]
      simp only [hseen]

theorem mem_repeatedNames_iff {names : List String} {name : String} :
    name ∈ repeatedNames [] [] names ↔ 2 ≤ names.count name := by
  induction names using List.reverseRecOn with
  | nil => simp [repeatedNames]
  | append_singleton names last ih =>
      rw [repeatedNames_append_singleton, List.nil_append, List.count_append, List.count_singleton]
      by_cases hname : name = last
      · subst hname
        have hagain : 2 ≤ names.count name + 1 ↔ name ∈ names := by
          rw [← List.count_pos_iff]
          omega
        rw [beq_self_eq_true, if_pos rfl, hagain]
        by_cases hlisted : name ∈ repeatedNames [] [] names
        · have hseen : name ∈ names := List.count_pos_iff.mp (Nat.lt_of_succ_lt (ih.mp hlisted))
          simp [hlisted, hseen]
        · by_cases hseen : name ∈ names <;> simp [hlisted, hseen]
      · have hlast : (last == name) = false := beq_false_of_ne (Ne.symm hname)
        rw [hlast, if_neg Bool.false_ne_true, Nat.add_zero, ← ih]
        split_ifs <;> simp [hname]

/-- A name gets onto the list when it comes up for the second time. -/
theorem repeatedNames_append_singleton_of_count (names : List String) (name : String) :
    repeatedNames [] [] (names ++ [name]) =
      if names.count name = 1 then repeatedNames [] [] names ++ [name]
      else repeatedNames [] [] names := by
  rw [repeatedNames_append_singleton]
  refine if_congr ?_ rfl rfl
  rw [List.nil_append, mem_repeatedNames_iff, ← List.count_pos_iff]
  omega

theorem repeatedNames_sorted (names : List String) :
    (repeatedNames [] [] names).Pairwise fun a b =>
      secondPlace names a < secondPlace names b := by
  induction names using List.reverseRecOn with
  | nil => exact List.Pairwise.nil
  | append_singleton names name ih =>
      have hold : (repeatedNames [] [] names).Pairwise fun a b =>
          secondPlace (names ++ [name]) a < secondPlace (names ++ [name]) b := by
        refine ih.imp_of_mem fun ha hb hab => ?_
        rwa [secondPlace_append (mem_repeatedNames_iff.mp ha),
          secondPlace_append (mem_repeatedNames_iff.mp hb)]
      rw [repeatedNames_append_singleton_of_count]
      by_cases hone : names.count name = 1
      · rw [if_pos hone]
        refine List.pairwise_append.mpr ⟨hold, List.pairwise_singleton _ _, fun a ha b hb => ?_⟩
        obtain rfl := List.mem_singleton.mp hb
        have htwo := mem_repeatedNames_iff.mp ha
        rw [secondPlace_append htwo, secondPlace_append_singleton hone]
        exact secondPlace_lt_length htwo
      · rwa [if_neg hone]

/-! ### Conflicts of a document -/

variable {d : Document}

/-- The names that several models and enums bear, in the order of first appearance. -/
def sharedNames (d : Document) : List String :=
  d.names.eraseDups.filter fun name => 2 ≤ d.names.count name

theorem mem_sharedNames_iff {name : String} : name ∈ d.sharedNames ↔ 2 ≤ d.names.count name := by
  rw [sharedNames, List.mem_filter, List.mem_eraseDups, decide_eq_true_iff, and_iff_right_iff_imp]
  exact fun h => List.count_pos_iff.mp (by omega)

theorem sharedNames_sorted (d : Document) :
    d.sharedNames.Pairwise fun a b => d.names.idxOf a < d.names.idxOf b :=
  (eraseDups_sorted d.names).filter _

theorem mem_nameConflicts_iff {name : String} :
    name ∈ d.nameConflicts ↔ 2 ≤ d.names.count name :=
  mem_repeatedNames_iff

theorem nameConflicts_sorted (d : Document) :
    d.nameConflicts.Pairwise fun a b => secondPlace d.names a < secondPlace d.names b :=
  repeatedNames_sorted d.names

theorem nodup_of_sorted {names : List String} {place : String → Nat}
    (h : names.Pairwise fun a b => place a < place b) : names.Nodup :=
  h.imp fun hlt heq => Nat.ne_of_lt hlt (congrArg place heq)

theorem nameConflicts_nodup (d : Document) : d.nameConflicts.Nodup :=
  nodup_of_sorted (nameConflicts_sorted d)

theorem nameConflicts_perm (d : Document) : d.nameConflicts.Perm d.sharedNames := by
  refine (List.perm_ext_iff_of_nodup (nameConflicts_nodup d)
    (nodup_of_sorted (sharedNames_sorted d))).mpr fun name => ?_
  rw [mem_nameConflicts_iff, mem_sharedNames_iff]

/-- The conflicts stand in the order of first appearance exactly when the names come up again in the
order in which they came up. -/
theorem nameConflicts_eq_sharedNames_iff :
    d.nameConflicts = d.sharedNames ↔
      ∀ a ∈ d.sharedNames, ∀ b ∈ d.sharedNames, KeepsLead d.names a b := by
  constructor
  · intro hsame a ha b hb
    have hsecond : d.sharedNames.Pairwise fun a b =>
        secondPlace d.names a < secondPlace d.names b := hsame ▸ nameConflicts_sorted d
    have hkept : d.sharedNames.Pairwise (KeepsLead d.names) := hsecond.imp keepsLead_of_returns
    have hswapped : d.sharedNames.Pairwise (flip (KeepsLead d.names)) :=
      (sharedNames_sorted d).imp fun hab => keepsLead_of_follows (Nat.le_of_lt hab)
    exact List.Pairwise.forall_of_forall_of_flip
      (fun name _ => keepsLead_of_follows (Nat.le_refl _)) hkept hswapped ha hb
  · intro hsame
    refine (nameConflicts_perm d).eq_of_pairwise
      (fun a b _ _ hab hba => absurd hab (Nat.lt_asymm hba)) (nameConflicts_sorted d) ?_
    exact (sharedNames_sorted d).imp_of_mem fun ha hb hab => hsame _ ha _ hb hab

theorem fault?_ne_nameConflict (e : RelationEdge) (ids names : List String) :
    e.fault? ids ≠ some (.nameConflict names) := by
  unfold RelationEdge.fault?
  cases e.missingEndpoints ids with
  | cons id missing => simp
  | nil => cases e.relationType? <;> simp

/-- Names in conflict stop generation before anything else does, and the error has all of them. -/
theorem generate_eq_nameConflict_iff {names : List String} :
    d.generate = .error (.nameConflict names) ↔ names ≠ [] ∧ names = d.nameConflicts := by
  unfold generate
  cases hnames : d.nameConflicts with
  | cons name conflicts =>
      simp only [Except.error.injEq, CompileError.nameConflict.injEq]
      constructor
      · rintro rfl
        exact ⟨List.cons_ne_nil _ _, rfl⟩
      · exact fun h => h.2.symm
  | nil =>
      have hedges : synthesizeFields d.relationEdges d.models ≠ .error (.nameConflict names) := by
        unfold synthesizeFields
        cases hfault : firstEdgeFault? d.relationEdges d.models with
        | none => simp
        | some fault =>
            obtain ⟨e, -, he⟩ := List.exists_of_findSome?_eq_some hfault
            intro hsame
            rw [Except.error.inj hsame] at he
            exact fault?_ne_nameConflict e _ _ he
      cases hrun : synthesizeFields d.relationEdges d.models with
      | ok s => simp
      | error fault =>
          rw [hrun] at hedges
          simpa using hedges

/-- The conflicts of a document are the names that two or more of its models and enums bear, each
once, in the order of second appearance. This is the order of first appearance only where no name
overtakes another. The error of generation has them in the order of the conflicts. -/
theorem nameConflicts_by_second_appearance (d : Document) :
    (∀ name, name ∈ d.nameConflicts ↔ 2 ≤ d.names.count name) ∧ d.nameConflicts.Nodup ∧
      (d.nameConflicts.Pairwise fun a b => secondPlace d.names a < secondPlace d.names b) ∧
      (d.nameConflicts = d.sharedNames ↔
        ∀ a ∈ d.sharedNames, ∀ b ∈ d.sharedNames, KeepsLead d.names a b) ∧
      ∀ names, d.generate = .error (.nameConflict names) ↔ names ≠ [] ∧ names = d.nameConflicts :=
  ⟨fun _ => mem_nameConflicts_iff, nameConflicts_nodup d, nameConflicts_sorted d,
    nameConflicts_eq_sharedNames_iff, fun _ => generate_eq_nameConflict_iff⟩

/-- `Post` comes up before `User`, and comes up again after it. -/
def crossedNames : Document :=
  { models := [{ id := "p", name := "Post" }, { id := "u", name := "User" },
      { id := "v", name := "User" }]
    enums := [{ id := "q", name := "Post", values := ["DRAFT"] }] }

theorem nameConflicts_crossed :
    ¬ ∀ d : Document, d.nameConflicts = d.sharedNames ∧
      ∀ names, d.generate = .error (.nameConflict names) → names = d.sharedNames := by
  intro hall
  have hsame := (hall crossedNames).1
  revert hsame
  decide

end Document

end DrawnSchema
