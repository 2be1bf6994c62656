import DrawnSchema.Text.CaseTable

namespace DrawnSchema.Text

def CapitalRun.covers (run : CapitalRun) (n : Nat) : Bool :=
  run.first ≤ n && n ≤ run.last && (n - run.first) % run.step == 0

def inRanges (ranges : List (Nat × Nat)) (c : Char) : Bool :=
  ranges.any fun r => r.1 ≤ c.toNat && c.toNat ≤ r.2

def isPassive (c : Char) : Bool := inRanges passiveRanges c

def isCased (c : Char) : Bool := inRanges casedRanges c

/-- The small form of a character by itself. A dotted capital I keeps its dot as an accent. -/
def smallForm (c : Char) : List Char :=
  if c == 'İ' then ['i', '\u0307']
  else
    match capitalRuns.find? (·.covers c.toNat) with
    | some run => [Char.ofNat ((c.toNat : Int) + run.shift).toNat]
    | none => [c]

/-- Whether the first character that counts is a letter with case. -/
def facesLetter (cs : List Char) : Bool :=
  match cs.dropWhile isPassive with
  | c :: _ => isCased c
  | [] => false

/-- Small letters for the text after `before`, which is held in reverse. A sigma that has a letter
on its left only is written in its final form. -/
def lowerFrom (before : List Char) : List Char → List Char
  | [] => []
  | c :: after =>
    let small :=
      if c == 'Σ' then [if facesLetter before && !facesLetter after then 'ς' else 'σ']
      else smallForm c
    small ++ lowerFrom (c :: before) after

def lower (s : String) : String := String.ofList (lowerFrom [] s.toList)

/-- The capital form of a character, where that is written in ASCII letters; the character itself
otherwise. Names made of ASCII capitals can be recognised by it. -/
def asciiCapitals (c : Char) : List Char :=
  match c with
  | 'ı' => ['I']
  | 'ſ' => ['S']
  | 'ß' => ['S', 'S']
  | 'ﬀ' => ['F', 'F']
  | 'ﬁ' => ['F', 'I']
  | 'ﬂ' => ['F', 'L']
  | 'ﬃ' => ['F', 'F', 'I']
  | 'ﬄ' => ['F', 'F', 'L']
  | 'ﬅ' => ['S', 'T']
  | 'ﬆ' => ['S', 'T']
  | c => [c.toUpper]

/-- The form of a character that ignores case, where that is written in ASCII letters; the
character itself otherwise. -/
def asciiFolding (c : Char) : List Char :=
  match c with
  | 'ſ' => ['s']
  | '\u212a' => ['k']
  | 'ß' => ['s', 's']
  | 'ẞ' => ['s', 's']
  | 'ﬀ' => ['f', 'f']
  | 'ﬁ' => ['f', 'i']
  | 'ﬂ' => ['f', 'l']
  | 'ﬃ' => ['f', 'f', 'i']
  | 'ﬄ' => ['f', 'f', 'l']
  | 'ﬅ' => ['s', 't']
  | 'ﬆ' => ['s', 't']
  | c => [c.toLower]

def capitals (s : String) : String := String.ofList (s.toList.flatMap asciiCapitals)

def folded (s : String) : String := String.ofList (s.toList.flatMap asciiFolding)

end DrawnSchema.Text
