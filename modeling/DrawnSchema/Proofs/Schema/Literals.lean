import DrawnSchema.Json.Reader
import DrawnSchema.Proofs.Text.Lines
import DrawnSchema.Schema.Block
import Mathlib.Algebra.Ring.Parity
import Mathlib.Data.List.Basic

/-!
# String literals in schema text

A quoted text is read back from its first quote to its last one, whatever comes after it. No quote
within it ends it, since each stands behind an odd number of backslashes, the last of which is then
not escaped itself. Quoted texts in brackets are read back as a list of texts.
-/

namespace DrawnSchema

namespace Text

/-! ### What a character is escaped to -/

theorem le_of_mem_quote (s : String) : ∀ c ∈ (quote s).toList, 0x20 ≤ c.toNat := by
  intro c hc
  simp only [quote, quoteChars, String.toList_ofList, List.cons_append, List.mem_cons,
    List.mem_append, List.mem_flatMap, List.not_mem_nil, or_false] at hc
  obtain rfl | ⟨x, -, hx⟩ | rfl := hc
  · decide
  · exact le_of_mem_escapeChar x c hx
  · decide

/-- How many backslashes characters end in. -/
def trailingBackslashes (cs : List Char) : Nat := (cs.reverse.takeWhile (· = '\\')).length

theorem trailingBackslashes_append_backslash (cs : List Char) :
    trailingBackslashes (cs ++ ['\\']) = trailingBackslashes cs + 1 := by
  simp [trailingBackslashes]

theorem trailingBackslashes_append_of_ne (cs : List Char) {c : Char} (h : c ≠ '\\') :
    trailingBackslashes (cs ++ [c]) = 0 := by
  simp [trailingBackslashes, h]

/-- An escape is that of a quote, or it is two backslashes, or it has no quote and does not end in a
backslash. -/
theorem escapeChar_cases (c : Char) :
    escapeChar c = ['\\', '"'] ∨ escapeChar c = ['\\', '\\'] ∨
      '"' ∉ escapeChar c ∧ ∃ init last, escapeChar c = init ++ [last] ∧ last ≠ '\\' := by
  unfold escapeChar
  split_ifs with hquote hbackslash
  · exact .inl rfl
  · exact .inr (.inl rfl)
  rotate_right 2
  · have hquote : ∀ x ∈ hexQuad c.toNat, x ≠ '"' := forall_mem_hexQuad (by decide) _
    have hbackslash : ∀ x ∈ hexQuad c.toNat, x ≠ '\\' := forall_mem_hexQuad (by decide) _
    refine .inr (.inr ⟨?_, '\\' :: 'u' :: (hexQuad c.toNat).dropLast, hexDigit (c.toNat % 16), rfl,
      hbackslash _ (by simp [hexQuad])⟩)
    simpa [unicodeEscape] using fun hmem => hquote _ hmem rfl
  · exact .inr (.inr ⟨by simpa using Ne.symm hquote, [], c, rfl, hbackslash⟩)
  all_goals exact .inr (.inr ⟨by decide, ['\\'], _, rfl, by decide⟩)

theorem even_trailingBackslashes_append_escapeChar {cs : List Char}
    (h : Even (trailingBackslashes cs)) (c : Char) :
    Even (trailingBackslashes (cs ++ escapeChar c)) := by
  obtain hescape | hescape | ⟨-, init, last, hescape, hlast⟩ := escapeChar_cases c
  · rw [hescape, ← List.singleton_append, ← List.append_assoc,
      trailingBackslashes_append_of_ne _ (by decide)]
    exact Even.zero
  · rw [hescape, ← List.singleton_append, ← List.append_assoc,
      trailingBackslashes_append_backslash, trailingBackslashes_append_backslash]
    exact h.add_one.add_one
  · rw [hescape, ← List.append_assoc, trailingBackslashes_append_of_ne _ hlast]
    exact Even.zero

/-- Behind an even number of backslashes no escape is open. What is escaped of a character keeps the
number even, apart from the backslash before a quote, which makes it odd. -/
theorem odd_trailingBackslashes_of_escaped {cs before after : List Char} (start : List Char)
    (hstart : Even (trailingBackslashes start))
    (h : cs.flatMap escapeChar = before ++ '"' :: after) :
    Odd (trailingBackslashes (start ++ before)) := by
  induction cs generalizing start before with
  | nil => simp at h
  | cons c cs ih =>
      rw [List.flatMap_cons, List.append_eq_append_iff] at h
      obtain ⟨more, rfl, hrest⟩ | ⟨more, hescape, hafter⟩ := h
      · rw [← List.append_assoc]
        exact ih _ (even_trailingBackslashes_append_escapeChar hstart c) hrest
      · cases more with
        | nil =>
            rw [List.append_nil] at hescape
            have hnone : cs.flatMap escapeChar = [] ++ '"' :: after := hafter.symm
            have hrest := ih _ (even_trailingBackslashes_append_escapeChar hstart c) hnone
            rwa [List.append_nil, hescape] at hrest
        | cons quote more =>
            obtain ⟨rfl, rfl⟩ := List.cons.inj hafter
            have hmem : '"' ∈ escapeChar c := by simp [hescape]
            obtain hquote | hbackslash | ⟨hnone, -⟩ := escapeChar_cases c
            · rw [hquote] at hescape
              obtain rfl : before = ['\\'] := by
                cases before with
                | nil => simp at hescape
                | cons a rest =>
                    obtain ⟨rfl, hrest⟩ := List.cons.inj hescape
                    obtain ⟨rfl, -⟩ | ⟨-, hnil⟩ := List.singleton_eq_append_iff.mp hrest
                    · rfl
                    · cases hnil
              rw [trailingBackslashes_append_backslash]
              exact hstart.add_one
            · simp [hbackslash] at hmem
            · exact absurd hmem hnone

/-- A double quote between the first and the last one of a quoted text is escaped. -/
theorem odd_trailingBackslashes_of_quote {s : String} {before after : List Char}
    (h : (quote s).toList = before ++ '"' :: after) (hbefore : before ≠ []) (hafter : after ≠ []) :
    Odd (trailingBackslashes before) := by
  obtain ⟨c, before, rfl⟩ := List.exists_cons_of_ne_nil hbefore
  rw [quote, quoteChars, String.toList_ofList, List.cons_append, List.cons_append] at h
  obtain ⟨rfl, h⟩ := List.cons.inj h
  have hbody : s.toList.flatMap escapeChar = before ++ '"' :: after.dropLast := by
    have hinit := congrArg List.dropLast h
    simpa [List.dropLast_append_of_ne_nil, List.dropLast_cons_of_ne_nil, hafter] using hinit
  exact odd_trailingBackslashes_of_escaped ['"'] Even.zero hbody

end Text

namespace Json

/-! ### Lists of texts -/

theorem toList_quote_append (s : String) (rest : List Char) :
    (Text.quote s).toList ++ rest = '"' :: (s.toList.flatMap Text.escapeChar ++ '"' :: rest) := by
  simp [Text.quote, Text.quoteChars]

theorem readAtom_quote (s : String) (rest : List Char) :
    readAtom ((Text.quote s).toList ++ rest) = .ok (.text s, rest) := by
  have hread := readBody_escaped s.toList rest
  have hconstant (cs : List Char) : readConstant ('"' :: cs) = none := rfl
  simp only [toList_quote_append, readAtom, hconstant, readString, hread]
  simp [Except.map]

theorem readValue_quote (levels fuel : Nat) (s : String) (rest : List Char) :
    readValue levels (fuel + 1) ((Text.quote s).toList ++ rest) = .ok (.text s, rest) := by
  rw [← readAtom_quote, toList_quote_append, readValue]
  all_goals nofun

theorem exists_quoted_eq_cons (s : String) (ss : List String) (rest : List Char) :
    ∃ cs, (String.intercalate ", " ((s :: ss).map Text.quote)).toList ++ rest = '"' :: cs := by
  cases ss <;> exact ⟨_, by simp [Text.quote, Text.quoteChars, String.intercalate_cons_cons]; rfl⟩

theorem length_le_quoted (values : List String) :
    values.length ≤ (String.intercalate ", " (values.map Text.quote)).toList.length := by
  induction values with
  | nil => exact Nat.zero_le _
  | cons s ss ih =>
      cases ss with
      | nil => simp [Text.quote, Text.quoteChars]
      | cons t ss =>
          rw [List.map_cons, List.map_cons, String.intercalate_cons_cons]
          simp only [List.length_cons, List.map_cons, String.toList_append,
            List.length_append] at ih ⊢
          have hsep : (", " : String).toList.length = 2 := rfl
          omega

/-- Reading the items takes a step for each of them, and one more within the last. -/
theorem readItems_quoted (levels fuel : Nat) (s : String) (ss : List String)
    (hfuel : ss.length + 1 < fuel) (rest : List Char) :
    readItems levels fuel
        ((String.intercalate ", " ((s :: ss).map Text.quote)).toList ++ ']' :: rest) =
      .ok ((s :: ss).map .text, rest) := by
  induction ss generalizing s fuel with
  | nil =>
      obtain ⟨fuel, rfl⟩ : ∃ n, fuel = n + 2 := ⟨fuel - 2, by simp at hfuel; omega⟩
      rw [List.map_singleton, String.intercalate_singleton, readItems, readValue_quote]
      rfl
  | cons t ss ih =>
      obtain ⟨fuel, rfl⟩ : ∃ n, fuel = n + 2 := ⟨fuel - 2, by simp at hfuel; omega⟩
      have hrest := ih (fuel + 1) t (by simpa using hfuel)
      have htext : (String.intercalate ", " ((s :: t :: ss).map Text.quote)).toList ++ ']' :: rest =
          (Text.quote s).toList ++ ',' :: ' ' ::
            ((String.intercalate ", " ((t :: ss).map Text.quote)).toList ++ ']' :: rest) := by
        simp [String.intercalate_cons_cons]
      obtain ⟨cs, hcs⟩ := exists_quoted_eq_cons t ss (']' :: rest)
      rw [hcs] at hrest htext
      rw [htext, readItems, readValue_quote]
      change (readItems levels (fuel + 1) ('"' :: cs) >>= fun r => .ok (.text s :: r.1, r.2)) = _
      rw [hrest]
      rfl

theorem readDocument_of_readValue {cs : List Char} {v : Value} (hmark : cs.head? ≠ some '\ufeff')
    (hblanks : skipBlanks cs = cs)
    (hread : readValue levelLimit (2 * cs.length + 2) cs = .ok (v, [])) :
    readDocument cs = .ok v := by
  rw [readDocument, if_neg hmark, hblanks, hread]
  rfl

theorem parse_stringList (values : List String) :
    parse (stringList values) = .ok (.texts values) := by
  have hread : readDocument (stringList values).toList = .ok (.texts values) := by
    cases values with
    | nil => rfl
    | cons s ss =>
        have hlist : (stringList (s :: ss)).toList =
            '[' :: ((String.intercalate ", " ((s :: ss).map Text.quote)).toList ++ [']']) := by
          simp [stringList]
        have hlength := length_le_quoted (s :: ss)
        obtain ⟨cs, hcs⟩ := exists_quoted_eq_cons s ss [']']
        have hcount := congrArg List.length hcs
        simp only [List.length_append, List.length_cons, List.length_nil] at hcount hlength
        have hitems (levels : Nat) :=
          readItems_quoted levels (2 * (cs.length + 2) + 1) s ss (by omega) []
        rw [hcs] at hlist hitems
        have hvalue : readValue levelLimit (2 * (cs.length + 2) + 2) ('[' :: '"' :: cs) =
            .ok (.texts (s :: ss), []) := by
          rw [readValue]
          change Except.map _ (readItems (levelLimit - 1) (2 * (cs.length + 2) + 1) ('"' :: cs)) = _
          rw [hitems]
          rfl
        rw [hlist]
        exact readDocument_of_readValue (by simp) rfl hvalue
  simp only [parse, hread]

theorem stringList_injective : Function.Injective stringList := by
  intro values values' hsame
  have hread := parse_stringList values
  rw [hsame, parse_stringList] at hread
  have htext : Function.Injective Value.text := fun _ _ h => by simpa using h
  exact (List.map_injective_iff.mpr htext (Value.list.inj (Except.ok.inj hread))).symm

/-- A quoted text is one literal, which is read back up to its end whatever comes after it. It has
no control characters, and no quote between its first and its last one that is not escaped. A list
of quoted texts is read back as well, so that it tells which texts it lists. -/
theorem quoted_texts_read_back :
    (∀ s : String,
      (∀ rest, readLiteral ((Text.quote s).toList ++ rest) = some (s.toList, rest)) ∧
      (∀ c ∈ (Text.quote s).toList, 0x20 ≤ c.toNat) ∧
      ∀ before after, (Text.quote s).toList = before ++ '"' :: after → before ≠ [] → after ≠ [] →
        Odd (Text.trailingBackslashes before)) ∧
    (∀ values, parse (stringList values) = .ok (.texts values)) ∧
    Function.Injective stringList := by
  refine ⟨fun s => ⟨readLiteral_quote s, Text.le_of_mem_quote s, fun before after => ?_⟩,
    parse_stringList, stringList_injective⟩
  exact Text.odd_trailingBackslashes_of_quote

/-- Texts that end in backslashes, look like the end of a literal or break the line. -/
theorem quoted_texts_read_back_awkward :
    (Text.quote "\\\"").toList = ['"', '\\', '\\', '\\'] ++ '"' :: ['"'] ∧
      Odd (Text.trailingBackslashes ['"', '\\', '\\', '\\']) ∧
      readLiteral (Text.quote "\\\"").toList = some (['\\', '"'], []) ∧
      (∀ c ∈ (Text.quote "\n\x07").toList, 0x20 ≤ c.toNat) ∧
      parse (stringList ["a\\", "\", \"", "\n"]) = .ok (.texts ["a\\", "\", \"", "\n"]) := by
  obtain ⟨hquote, hlists, -⟩ := quoted_texts_read_back
  have hsplit : (Text.quote "\\\"").toList = ['"', '\\', '\\', '\\'] ++ '"' :: ['"'] := by decide
  obtain ⟨hread, -, hodd⟩ := hquote "\\\""
  refine ⟨hsplit, hodd _ _ hsplit (by decide) (by decide), ?_, (hquote "\n\x07").2.1, hlists _⟩
  simpa using hread []

end Json

end DrawnSchema
