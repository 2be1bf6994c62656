import DrawnSchema.Graph.Basic
import DrawnSchema.Proofs.Document.Names

/-!
# Free names keep a document free of conflicts

Whether a name is free is asked before a node is added or renamed, and looks for one other node of
the name. Whether names are in conflict is found out by a pass over all names. The answers agree:
where nothing was wrong before, a name is free exactly when nothing is wrong after.
-/

namespace DrawnSchema.Document

/-- A document with one more model or enum, somewhere among those that it has. -/
def withNode (d : Document) (place : Nat) : Node → Document
  | .model m => { d with models := d.models.take place ++ m :: d.models.drop place }
  | .enum e => { d with enums := d.enums.take place ++ e :: d.enums.drop place }

/-- A document in which the model or the enum that goes by an id has another name. -/
def withName (d : Document) (id name : String) : Document :=
  { d with
    models := d.models.map fun m => if m.id = id then { m with name } else m
    enums := d.enums.map fun e => if e.id = id then { e with name } else e }

variable {d : Document}

theorem withNode_names_perm (d : Document) (place : Nat) (n : Node) :
    (d.withNode place n).names.Perm (n.name :: d.names) := by
  have hinserted {α : Type} (shown : α → String) (a : α) (l : List α) :
      ((l.take place ++ a :: l.drop place).map shown).Perm (shown a :: l.map shown) := by
    have hperm : (l.take place ++ a :: l.drop place).Perm (a :: (l.take place ++ l.drop place)) :=
      List.perm_middle
    rw [List.take_append_drop] at hperm
    exact hperm.map shown
  cases n with
  | model m => exact (hinserted (·.name) m d.models).append_right _
  | enum e =>
      exact ((hinserted (·.name) e d.enums).append_left _).trans List.perm_middle

theorem withName_names (d : Document) (id name : String) :
    (d.withName id name).names =
      d.namedNodes.map fun n => if n.id = id then name else n.name := by
  simp only [names, withName, namedNodes, List.map_append, List.map_map]
  congr 1
  all_goals
    refine List.map_congr_left fun n _ => ?_
    simp only [Function.comp_apply]
    split <;> rfl

/-- In a document without conflicts, a name is free for one more node, of whatever kind and in
whatever place, exactly when the document with that node has no conflicts. It is free for a node of
the document exactly when the document in which that node has it has no conflicts. -/
theorem nameFree_iff_no_conflicts (hids : (d.namedNodes.map (·.id)).Nodup)
    (hnames : d.nameConflicts = []) :
    (∀ (n : Node) (place : Nat),
      d.nameFree n.name none = true ↔ (d.withNode place n).nameConflicts = []) ∧
      ∀ id ∈ d.namedNodes.map (·.id), ∀ name,
        d.nameFree name (some id) = true ↔ (d.withName id name).nameConflicts = [] := by
  rw [nameConflicts_eq_nil_iff] at hnames
  refine ⟨fun n place => ?_, fun id hid name => ?_⟩
  · rw [nameFree_none_iff, nameConflicts_eq_nil_iff, (withNode_names_perm d place n).nodup_iff,
      List.nodup_cons]
    exact (and_iff_left hnames).symm
  · rw [names_eq] at hnames
    rw [nameFree_iff, nameConflicts_eq_nil_iff, withName_names, nodup_renamed_iff hids hnames hid]
    simp only [Option.some.injEq]

/-- Posts of users with roles. -/
def readership : Document :=
  { models := [{ id := "u", name := "User" }, { id := "p", name := "Post" }]
    enums := [{ id := "r", name := "Role", values := ["READER"] }] }

/-- No model may take the name of the enum, by being added or by being renamed. The enum may keep
it, and one that is put before it may not have that of a model. -/
theorem nameFree_iff_no_conflicts_readership :
    (readership.namedNodes.map (·.id)).Nodup ∧ readership.nameConflicts = [] ∧
      (readership.withNode 1 (.model { id := "m", name := "Role" })).nameConflicts = ["Role"] ∧
      readership.nameFree "Role" none = false ∧
      readership.nameFree "User" none = false ∧
      readership.nameFree "Role" (some "p") = false ∧
      readership.nameFree "Role" (some "r") = true := by
  have hids : (readership.namedNodes.map (·.id)).Nodup := by decide
  obtain ⟨hadded, hrenamed⟩ := nameFree_iff_no_conflicts hids rfl
  have hmodel := hadded (.model { id := "m", name := "Role" }) 1
  have henum := hadded (.enum { id := "q", name := "User" }) 0
  have hpost := hrenamed "p" (by decide) "Role"
  have hrole := hrenamed "r" (by decide) "Role"
  refine ⟨hids, rfl, rfl, ?_, ?_, ?_, hrole.mpr rfl⟩
  · exact Bool.eq_false_iff.mpr (mt hmodel.mp (by decide))
  · exact Bool.eq_false_iff.mpr (mt henum.mp (by decide))
  · exact Bool.eq_false_iff.mpr (mt hpost.mp (by decide))

end DrawnSchema.Document
