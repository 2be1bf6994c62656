import DrawnSchema.Proofs.CommandLine.Printing
import DrawnSchema.Proofs.Json.Structure
import DrawnSchema.Proofs.Snapshot.FileTree
import DrawnSchema.Snapshot.Load

/-!
# A file that holds what was printed

A printed value is printable ASCII in lines. So nothing is left out when it is printed, it takes one
octet a character, and nothing of it changes when it is decoded: the file is loaded as the value.
-/

namespace DrawnSchema

namespace Json

variable {cs : List Char} {s : String}

theorem PrintableLines.toNat_lt (h : PrintableLines cs) : ∀ c ∈ cs, c.toNat < 0xd800 := by
  intro c hc
  obtain rfl | hprintable := h c hc
  · decide
  · exact Nat.lt_trans hprintable.2 (by decide)

theorem PrintableLines.isWhole (h : PrintableLines s.toList) : Text.isWhole s = true := by
  rw [← Text.held_of_lt h.toNat_lt]
  exact Text.isWhole_held s

/-- No control sequence begins in printable lines. -/
theorem PrintableLines.isPlain (h : PrintableLines s.toList) : CommandLine.IsPlain s := by
  intro l hl
  have hescape : '\x1b' ∉ l := fun hmem =>
    absurd (h _ (((List.mem_tails _ _).mp hl).mem hmem)) (by decide)
  unfold CommandLine.sequenceLength
  split
  · exact absurd List.mem_cons_self hescape
  · rfl

theorem PrintableLines.unifyLines (h : PrintableLines cs) : Snapshot.unifyLines cs = cs := by
  induction cs with
  | nil => rfl
  | cons c cs ih =>
      have hc : c ≠ '\r' := by
        rintro rfl
        exact absurd (h _ List.mem_cons_self) (by decide)
      rw [Snapshot.unifyLines, ih fun d hd => h d (List.mem_cons_of_mem c hd)]
      · rintro d rfl
        exact absurd rfl hc
      · exact hc

end Json

namespace Snapshot

open Json (PrintableLines HasForm)

variable {s : String}

theorem fromUTF8?_toUTF8 (s : String) : String.fromUTF8? s.toUTF8 = some s :=
  dif_pos s.isValidUTF8

/-- Printable lines are decoded as they were encoded. -/
theorem decode_octets (h : PrintableLines s.toList) : decode (Text.octets s) = .ok s := by
  have hoctets : Text.octets s = s.toUTF8.data.toList := by
    rw [← Text.octets_held s, Text.held_of_lt h.toNat_lt]
  have htext : textOf? (Text.octets s) = some s.toList := by
    have hdecoded : String.fromUTF8? ⟨s.toUTF8.data.toList.toArray⟩ = some s := by
      rw [Array.toArray_toList]
      exact fromUTF8?_toUTF8 s
    rw [hoctets, textOf?, hdecoded, Option.map_some, h.unifyLines]
  simp only [decode, htext]
  rw [Text.hold_of_lt h.toNat_lt, String.ofList_toList]

theorem find_eq_ok {t : FileTree} {p : Path} {e : FileEntry} (h : t.entry? p = some e) :
    t.find p = .ok (some e) := by
  unfold FileTree.entry? at h
  split at h
  · next found hfound => rw [hfound, h]
  · cases h

theorem load_of_json {files : FileTree} {path text : String} {octets : List UInt8} {v : Value}
    (hname : isJson (Path.ofText path) = true)
    (hfind : files.find (Path.ofText path) = .ok (some (.file octets)))
    (hdecode : decode octets = .ok text) (hread : readJson text = .ok v) :
    load files path = asSnapshot v := by
  unfold load
  simp only [hfind, hname, if_true, hdecode, hread, bind, Except.bind]

/-- A value that is printed into a file is loaded from it. -/
theorem load_printed {v : Value} {m : Entries} {n : Nat} (hform : HasForm n v)
    (hlevels : n ≤ Json.levelLimit) (htexts : ∀ s ∈ v.strings, Text.HasNoPair s)
    (hwritable : v.isWritable = true) (hmap : v.reread = .map m) {files : FileTree} {path : String}
    (hname : isJson (Path.ofText path) = true)
    (hfile : files.entry? (Path.ofText path) =
      some (.ofText (CommandLine.printed (Json.pretty v)))) :
    load files path = .ok m := by
  have hpretty : PrintableLines (Json.pretty v).toList := Json.printableLines_indented hform 0
  have hlines : PrintableLines (Json.pretty v ++ "\n").toList := by
    rw [String.toList_append]
    exact Json.printableLines_append.mpr ⟨hpretty, by decide⟩
  rw [hpretty.isPlain.printed] at hfile
  have hparse := Json.parse_pretty hform hlevels htexts hwritable
  rw [hmap] at hparse
  have hread : readJson (Json.pretty v ++ "\n") = .ok (.map m) := by
    simp only [readJson, hparse]
  exact load_of_json hname (find_eq_ok hfile) (decode_octets hlines) hread

end Snapshot

end DrawnSchema
