import DrawnSchema.Text.Surrogate
import DrawnSchema.Yaml.Cursor
import DrawnSchema.Yaml.Error

namespace DrawnSchema.Yaml

def isPrintable (c : Char) : Bool :=
  c == '\t' || c == '\n' || c == '\r' || c == '\u0085' || (0x20 ≤ c.toNat && c.toNat ≤ 0x7e) ||
  (0xa0 ≤ c.toNat && c.toNat ≠ 0xfffe && c.toNat ≠ 0xffff)

/-- The characters of a text to be read. If it does not end by itself, what stops the reading at its
end. -/
structure Source where
  chars : List Char
  stop : Option Error := none

namespace Source

/-- A text at hand as a whole, in which a half or a character that may not stand in it is met at
once. -/
def ofText (s : String) : Source :=
  let cs := Text.release s.toList
  if Text.isWhole s && cs.all isPrintable then { chars := cs }
  else { chars := [], stop := some .malformed }

def pieceSize : Nat := 4096

/-- Where the piece of a text begins that holds a character. The first two pieces are read
together. -/
def pieceStart (n : Nat) : Nat :=
  if n < 2 * pieceSize then 0 else n / pieceSize * pieceSize

/-- A text that is read in pieces. It may break off, as it cannot be decoded any further. What is
wrong with a piece shows when the piece is reached. -/
def ofPieces (cs : List Char) (breaksOff : Bool) : Source :=
  let sound := (cs.takeWhile isPrintable).length
  if breaksOff && pieceStart cs.length ≤ pieceStart sound then
    { chars := cs.take (pieceStart cs.length), stop := some .notUnicode }
  else if sound < cs.length then
    { chars := cs.take (pieceStart sound), stop := some .malformed }
  else { chars := cs }

def start (s : Source) : Cursor :=
  let c : Cursor := { rest := s.chars }
  if c.peek == some '\ufeff' then c.next else c

end Source

end DrawnSchema.Yaml
