namespace DrawnSchema.Text

/-! A text is a row of codes below `0x110000`. Half of a surrogate pair is such a code, as an escape
can name one by itself, but it is no character. A row of characters holds a text as follows: a half
stands as the character that lies `halfShift` further on; a character that would be taken for a half
stands behind the mark, `markShift` further on; the mark itself stands twice; every other character
stands for itself. So no half shares with a character what holds it. -/

def halfShift : Nat := 0x100000

def isHighHalf (n : Nat) : Bool := 0xd800 ≤ n && n < 0xdc00

def isLowHalf (n : Nat) : Bool := 0xdc00 ≤ n && n < 0xe000

def isHalfCode (n : Nat) : Bool := isHighHalf n || isLowHalf n

/-- Whether a character stands for a half where no mark is before it. -/
def isHalf (c : Char) : Bool := isHalfCode (c.toNat - halfShift)

def mark : Char := Char.ofNat 0x10ffff

def markShift : Nat := 0x800

/-- What holds a code, be it that of a character or of half of a pair. -/
def ofCode (n : Nat) : List Char :=
  if isHalfCode n then [Char.ofNat (n + halfShift)]
  else if isHalf (Char.ofNat n) then [mark, Char.ofNat (n + markShift)]
  else if n = mark.toNat then [mark, mark]
  else [Char.ofNat n]

def ofCodes (ns : List Nat) : List Char := ns.flatMap ofCode

/-- The code of what stands by itself. -/
def codePoint (c : Char) : Nat := if isHalf c then c.toNat - halfShift else c.toNat

/-- The code of what stands behind the mark. -/
def markedCode? (c : Char) : Option Nat :=
  if c = mark then some mark.toNat
  else if isHalf (Char.ofNat (c.toNat - markShift)) then some (c.toNat - markShift)
  else none

/-- The codes of the text that characters hold. -/
def codes : List Char → List Nat
  | [] => []
  | [c] => [codePoint c]
  | c :: d :: cs =>
    match if c = mark then markedCode? d else none with
    | some n => n :: codes cs
    | none => codePoint c :: codes (d :: cs)

/-- What holds a text that is made of characters only. -/
def hold (cs : List Char) : List Char := ofCodes (cs.map Char.toNat)

def held (s : String) : String := String.ofList (hold s.toList)

/-- The characters of the text that is held, which has no halves in it. -/
def release (cs : List Char) : List Char := (codes cs).map Char.ofNat

def released (s : String) : String := String.ofList (release s.toList)

/-- Whether a text is free of halves, so that it can be encoded. -/
def isWhole (s : String) : Bool := !s.toList.any isHalf

def octets (s : String) : List UInt8 := (released s).toUTF8.data.toList

def ofOctets? (octets : List UInt8) : Option String :=
  (String.fromUTF8? ⟨octets.toArray⟩).map held

def notAfter (a b : String) : Bool := !(codes b.toList).lex (codes a.toList)

/-- A text as it is shown where halves cannot be: each becomes as many replacement characters as it
would take octets. -/
def withoutHalves (s : String) : String :=
  String.ofList (s.toList.flatMap fun c =>
    if isHalf c then ['\ufffd', '\ufffd', '\ufffd'] else [c])

end DrawnSchema.Text
