import DrawnSchema.Schema.Block
import Mathlib.Data.List.Basic

/-!
# Reading lines back block by block

Lines in a block are inset, the line that closes it is not, and an empty line divides it. So blocks
come out of the lines as they went in, whatever stands in them, as long as the header of none is
taken for a remark.
-/

namespace DrawnSchema

namespace Text

def after? (lead line : String) : Option String :=
  (line.toList.dropPrefix? lead.toList).map String.ofList

def before? (line tail : String) : Option String :=
  (line.toList.dropSuffix? tail.toList).map String.ofList

end Text

/-- A block as its lines show it: the text above the brace, the lines up to an empty one, and those
after it. -/
inductive Frame where
  | block (header : String) (body attributes : List String)
  | remark (text : String)
deriving DecidableEq, Repr

/-- Where a reader of lines is: where a block may begin, in one of the two parts of a block, or
behind one. -/
inductive Place where
  | between
  | body (header : String) (lines : List String)
  | attributes (header : String) (body lines : List String)
  | closed
deriving DecidableEq, Repr

structure FrameReader where
  frames : List Frame := []
  place : Place := .between
deriving DecidableEq, Repr

def FrameReader.closing (r : FrameReader) (frame : Frame) : FrameReader :=
  { frames := r.frames ++ [frame], place := .closed }

def FrameReader.step (r : FrameReader) (line : String) : Option FrameReader :=
  match r.place with
  | .between =>
    match Text.after? "// " line with
    | some text => some (r.closing (.remark text))
    | none => (Text.before? line " \x7b").map fun header => { r with place := .body header [] }
  | .body header body =>
    match Text.after? "  " line with
    | some inner => some { r with place := .body header (body ++ [inner]) }
    | none =>
      if line = "" then some { r with place := .attributes header body [] }
      else if line = "\x7d" then some (r.closing (.block header body []))
      else none
  | .attributes header body attributes =>
    match Text.after? "  " line with
    | some inner => some { r with place := .attributes header body (attributes ++ [inner]) }
    | none => if line = "\x7d" then some (r.closing (.block header body attributes)) else none
  | .closed => if line = "" then some { r with place := .between } else none

def Frame.ofLines? (lines : List String) : Option (List Frame) :=
  (lines.foldlM FrameReader.step {}).bind fun r =>
    if r.place = .closed then some r.frames else none

/-! ### What is read -/

namespace Text

@[simp]
theorem after?_append (lead s : String) : after? lead (lead ++ s) = some s := by
  simp [after?, List.dropPrefix?_append_of_beq]

@[simp]
theorem before?_append (s tail : String) : before? (s ++ tail) tail = some s := by
  have hdrop : (s.toList ++ tail.toList).dropSuffix? tail.toList = some s.toList :=
    List.dropSuffix?_eq_some_iff.mpr ⟨tail.toList, rfl, beq_self_eq_true _⟩
  simp [before?, hdrop]

end Text

namespace Frame

def lines : Frame → List String
  | .block header body attributes => blockLines header body attributes
  | .remark text => ["// " ++ text]

/-- The header of a block is not taken for a remark. -/
def IsLegible : Frame → Prop
  | .block header _ _ => Text.after? "// " (header ++ " \x7b") = none
  | .remark _ => True

end Frame

namespace FrameReader

theorem foldlM_body (frames : List Frame) (header : String) (body lines : List String) :
    (lines.map inset).foldlM step { frames, place := .body header body } =
      some { frames, place := .body header (body ++ lines) } := by
  induction lines generalizing body with
  | nil => simp
  | cons line lines ih =>
      have hstep : step { frames, place := .body header body } (inset line) =
          some { frames, place := .body header (body ++ [line]) } := by
        simp [step, inset]
      rw [List.map_cons, List.foldlM_cons, hstep]
      simpa using ih (body ++ [line])

theorem foldlM_attributes (frames : List Frame) (header : String)
    (body attributes lines : List String) :
    (lines.map inset).foldlM step { frames, place := .attributes header body attributes } =
      some { frames, place := .attributes header body (attributes ++ lines) } := by
  induction lines generalizing attributes with
  | nil => simp
  | cons line lines ih =>
      have hstep : step { frames, place := .attributes header body attributes } (inset line) =
          some { frames, place := .attributes header body (attributes ++ [line]) } := by
        simp [step, inset]
      rw [List.map_cons, List.foldlM_cons, hstep]
      simpa using ih (attributes ++ [line])

theorem step_header {header : String} (h : Text.after? "// " (header ++ " \x7b") = none)
    (frames : List Frame) : step { frames, place := .between } (header ++ " \x7b") =
      some { frames, place := .body header [] } := by
  simp [step, h]

/-- The lines of a block are read as that block. -/
theorem foldlM_frame {frame : Frame} (h : frame.IsLegible) (frames : List Frame) :
    frame.lines.foldlM step { frames, place := .between } =
      some { frames := frames ++ [frame], place := .closed } := by
  have hnotInset : Text.after? "  " "\x7d" = none ∧ Text.after? "  " "" = none := by decide
  cases frame with
  | remark text => simp [Frame.lines, step, closing]
  | block header body attributes =>
      simp only [Frame.lines, blockLines, List.cons_append, List.foldlM_cons, step_header h,
        Option.bind_eq_bind, Option.bind_some, List.foldlM_append, foldlM_body, List.nil_append]
      cases attributes with
      | nil => simp [step, closing, hnotInset]
      | cons line attributes =>
          have hblank : step { frames, place := .body header body } "" =
              some { frames, place := .attributes header body [] } := by
            simp [step, hnotInset]
          simp only [List.isEmpty_cons, Bool.false_eq_true, if_false, List.foldlM_cons, hblank,
            Option.bind_eq_bind, Option.bind_some, foldlM_attributes, List.nil_append]
          simp [step, closing, hnotInset]

/-- Blocks with an empty line between each two of them are read one by one. -/
theorem foldlM_frames {frames : List Frame} (hne : frames ≠ []) (h : ∀ f ∈ frames, f.IsLegible)
    (before : List Frame) :
    (List.intercalate [""] (frames.map Frame.lines)).foldlM step
        { frames := before, place := .between } =
      some { frames := before ++ frames, place := .closed } := by
  induction frames generalizing before with
  | nil => exact absurd rfl hne
  | cons frame frames ih =>
      have hframe := foldlM_frame (h frame List.mem_cons_self) before
      cases frames with
      | nil => simpa using hframe
      | cons next frames =>
          have hrest := ih (by simp) (fun f hf => h f (List.mem_cons_of_mem frame hf))
            (before ++ [frame])
          rw [List.map_cons, List.map_cons, List.intercalate_cons_cons, List.append_assoc,
            List.foldlM_append, hframe]
          simpa [step] using hrest

end FrameReader

theorem Frame.ofLines?_lines {frames : List Frame} (hne : frames ≠ [])
    (h : ∀ f ∈ frames, f.IsLegible) :
    Frame.ofLines? (List.intercalate [""] (frames.map Frame.lines)) = some frames := by
  rw [Frame.ofLines?, FrameReader.foldlM_frames hne h []]
  rfl

/-! ### What lines show of a schema -/

def Block.frame : Block → Frame
  | .config keyword name settings =>
    .block (keyword ++ " " ++ name) (settings.map fun s => s.1 ++ " = " ++ s.2) []
  | .enum name values attributes =>
    .block ("enum " ++ name) values (attributes.map Attribute.render)
  | .model name fields attributes =>
    .block ("model " ++ name) (fields.map FieldLine.render) (attributes.map Attribute.render)
  | .ignored name => .remark (name ++ " model is ignored")

theorem Block.frame_lines (b : Block) : b.frame.lines = b.lines := by
  cases b with
  | ignored name => simp [Block.frame, Frame.lines, Block.lines, String.append_assoc]
  | _ => rfl

theorem Block.lines_ne_nil (b : Block) : b.lines ≠ [] := by
  cases b <;> simp [Block.lines, blockLines]

/-- All lines of a schema, the empty ones between blocks among them. -/
theorem renderBlocks_eq (blocks : List Block) :
    renderBlocks blocks =
      String.intercalate "\n" (List.intercalate [""] (blocks.map fun b => b.frame.lines)) := by
  simp only [Block.frame_lines]
  induction blocks with
  | nil => rfl
  | cons b blocks ih =>
      cases blocks with
      | nil => simp [renderBlocks, Block.render]
      | cons next blocks =>
          have hrest : List.intercalate [""] ((next :: blocks).map Block.lines) ≠ [] := by
            cases blocks with
            | nil => simpa using next.lines_ne_nil
            | cons _ _ => simp [List.intercalate_cons_cons]
          calc renderBlocks (b :: next :: blocks)
              = b.render ++ "\n\n" ++ renderBlocks (next :: blocks) := by
                simp [renderBlocks, String.intercalate_cons_cons]
            _ = b.render ++ "\n\n" ++ String.intercalate "\n"
                  (List.intercalate [""] ((next :: blocks).map Block.lines)) := by rw [ih]
            _ = String.intercalate "\n"
                  (List.intercalate [""] ((b :: next :: blocks).map Block.lines)) := by
                rw [List.map_cons] at hrest ⊢
                rw [List.map_cons, List.map_cons, List.intercalate_cons_cons,
                  String.intercalate_append_of_ne_nil (by simp) hrest,
                  String.intercalate_append_of_ne_nil b.lines_ne_nil (by simp)]
                simp [Block.render, String.append_assoc]

end DrawnSchema
