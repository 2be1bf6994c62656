import DrawnSchema.Proofs.Json.Numbers
import DrawnSchema.Proofs.Json.Texts
import DrawnSchema.Proofs.Value.Entries
import DrawnSchema.Value.Text

/-!
# What is printed is read back

A printed list or object is read item by item: behind each item stands a comma or the start of a new
line, neither of which a number could go on with. Keys that are distinct texts stay where they are.
So a value of the kinds that the format knows is read back, with its NaNs as one, if its texts are
and its whole numbers are not too long to be read. Each step of the reader takes a character, which
bounds the fuel by the length of the text.
-/

namespace DrawnSchema

/-! ### What comes of a value that is printed and read -/

def Scalar.reread : Scalar → Scalar
  | .float x => .float x.canonical
  | s => s

mutual

def Value.reread : Value → Value
  | .scalar s => .scalar s.reread
  | .list vs => .list (rereadItems vs)
  | .map es => .map (rereadMembers es)
  | .pair a b => .pair a.reread b.reread
  | .set ss => .set ss
  | .loop label body => .loop label body.reread

def Value.rereadItems : List Value → List Value
  | [] => []
  | v :: vs => v.reread :: rereadItems vs

def Value.rereadMembers : List (Scalar × Value) → List (Scalar × Value)
  | [] => []
  | (k, v) :: es => (k, v.reread) :: rereadMembers es

end

def Scalar.strings : Scalar → List String
  | .text s => [s]
  | _ => []

mutual

/-- The texts in a value, keys included. -/
def Value.strings : Value → List String
  | .scalar s => s.strings
  | .list vs => itemStrings vs
  | .map es => memberStrings es
  | .pair a b => a.strings ++ b.strings
  | .set ss => ss.flatMap Scalar.strings
  | .loop _ body => body.strings

def Value.itemStrings : List Value → List String
  | [] => []
  | v :: vs => v.strings ++ itemStrings vs

def Value.memberStrings : List (Scalar × Value) → List String
  | [] => []
  | (k, v) :: es => k.strings ++ v.strings ++ memberStrings es

end

namespace Value

theorem mem_itemStrings {s : String} {vs : List Value} :
    s ∈ itemStrings vs ↔ ∃ v ∈ vs, s ∈ v.strings := by
  induction vs with
  | nil => simp [itemStrings]
  | cons v vs ih => simp [itemStrings, ih]

theorem mem_memberStrings {s : String} {es : Entries} :
    s ∈ memberStrings es ↔ ∃ e ∈ es, s ∈ e.1.strings ∨ s ∈ e.2.strings := by
  induction es with
  | nil => simp [memberStrings]
  | cons e es ih => simp [memberStrings, ih, or_assoc]

theorem itemsWritable_iff {vs : List Value} :
    itemsWritable vs = true ↔ ∀ v ∈ vs, v.isWritable = true := by
  induction vs with
  | nil => simp [itemsWritable]
  | cons v vs ih => simp [itemsWritable, ih]

theorem membersWritable_iff {es : Entries} :
    membersWritable es = true ↔ ∀ e ∈ es, e.1.isWritable = true ∧ e.2.isWritable = true := by
  induction es with
  | nil => simp [membersWritable]
  | cons e es ih => simp [membersWritable, ih]

end Value

namespace Json

/-- A value of the kinds that the format knows, with no more than some levels. -/
inductive HasForm : Nat → Value → Prop
  | null {n : Nat} : HasForm n .null
  | bool {n : Nat} (b : Bool) : HasForm n (.bool b)
  | int {n : Nat} (k : Int) : HasForm n (.int k)
  | float {n : Nat} (x : Binary64) : HasForm n (.float x)
  | text {n : Nat} (s : String) : HasForm n (.text s)
  | list {n : Nat} {vs : List Value} (items : ∀ v ∈ vs, HasForm n v) : HasForm (n + 1) (.list vs)
  | map {n : Nat} {es : Entries} (distinct : (es.map Prod.fst).Nodup)
      (keys : ∀ e ∈ es, ∃ key, e.1 = .text key) (values : ∀ e ∈ es, HasForm n e.2) :
      HasForm (n + 1) (.map es)

/-! ### One step of the reader -/

theorem readValue_of_readAtom {levels fuel : Nat} {cs : List Char} {r : Value × List Char}
    (h : readAtom cs = .ok r) : readValue levels (fuel + 1) cs = .ok r := by
  rw [← h, readValue]
  · rintro cs rfl
    cases h
  · rintro cs rfl
    cases h

/-- A value does not begin with a blank, nor with the end of a list. -/
theorem exists_head_of_readValue {levels fuel : Nat} {cs : List Char} {r : Value × List Char}
    (h : readValue levels fuel cs = .ok r) :
    ∃ c more, cs = c :: more ∧ isBlank c = false ∧ c ≠ ']' := by
  cases fuel with
  | zero => cases h
  | succ fuel =>
      cases cs with
      | nil => cases h
      | cons c cs =>
          refine ⟨c, cs, rfl, ?_, ?_⟩
          · by_contra hblank
            simp only [isBlank, Bool.not_eq_false, Bool.or_eq_true, beq_iff_eq] at hblank
            obtain ((rfl | rfl) | rfl) | rfl := hblank
            all_goals cases h
          · rintro rfl
            cases h

theorem skipBlanks_of_head {c : Char} {cs : List Char} (h : isBlank c = false) :
    skipBlanks (c :: cs) = c :: cs := by
  rw [skipBlanks, List.dropWhile_cons_of_neg (by simp [h])]

theorem skipBlanks_margin {c : Char} (h : isBlank c = false) (depth : Nat) (cs : List Char) :
    skipBlanks ((margin depth).toList ++ c :: cs) = c :: cs := by
  have hblank : ∀ x ∈ (margin depth).toList, isBlank x = true := by
    intro x hx
    rw [margin, String.toList_ofList] at hx
    obtain rfl | hx := List.mem_cons.mp hx
    · rfl
    · rw [List.eq_of_mem_replicate hx]
      rfl
  rw [skipBlanks, List.dropWhile_append_of_pos hblank]
  exact skipBlanks_of_head h

variable {levels fuel : Nat} {cs more r rest : List Char} {v : Value} {vs : List Value}

theorem readValue_list {c : Char} (hskip : skipBlanks cs = c :: more) (hc : c ≠ ']')
    (hitems : readItems levels fuel (c :: more) = .ok (vs, rest)) :
    readValue (levels + 1) (fuel + 1) ('[' :: cs) = .ok (.list vs, rest) := by
  rw [readValue, if_neg (Nat.succ_ne_zero levels), hskip]
  split
  · next heq => exact absurd (List.cons.inj heq).1 hc
  · rw [Nat.add_sub_cancel, hitems]
    rfl

theorem readValue_map {members : Entries} (hskip : skipBlanks cs = '"' :: more)
    (hmembers : readMembers levels fuel ('"' :: more) = .ok (members, rest)) :
    readValue (levels + 1) (fuel + 1) ('\x7b' :: cs) =
      .ok (.map (Entries.ofList members), rest) := by
  rw [readValue, if_neg (Nat.succ_ne_zero levels), hskip]
  change Except.map _ (readMembers _ fuel ('"' :: more)) = _
  rw [Nat.add_sub_cancel, hmembers]
  rfl

theorem readItems_last (hvalue : readValue levels fuel cs = .ok (v, r))
    (hskip : skipBlanks r = ']' :: rest) :
    readItems levels (fuel + 1) cs = .ok ([v], rest) := by
  simp only [readItems, hvalue, bind, Except.bind, hskip]

theorem readItems_more (hvalue : readValue levels fuel cs = .ok (v, r))
    (hskip : skipBlanks r = ',' :: more)
    (hitems : readItems levels fuel (skipBlanks more) = .ok (vs, rest)) :
    readItems levels (fuel + 1) cs = .ok (v :: vs, rest) := by
  simp only [readItems, hvalue, bind, Except.bind, hskip, hitems]

variable {key : String} {members : Entries}

theorem readMembers_last (hkey : readString cs = .ok (key, ':' :: ' ' :: more))
    (hvalue : readValue levels fuel more = .ok (v, r)) (hskip : skipBlanks r = '\x7d' :: rest) :
    readMembers levels (fuel + 1) ('"' :: cs) = .ok ([(.text key, v)], rest) := by
  obtain ⟨c, cs', rfl, hblank, -⟩ := exists_head_of_readValue hvalue
  have hstart : skipBlanks (' ' :: c :: cs') = c :: cs' := skipBlanks_of_head hblank
  have hcolon : skipBlanks (':' :: ' ' :: c :: cs') = ':' :: ' ' :: c :: cs' := rfl
  simp only [readMembers, hkey, bind, Except.bind, hcolon, hstart, hvalue, hskip]

theorem readMembers_more {tail : List Char} (hkey : readString cs = .ok (key, ':' :: ' ' :: more))
    (hvalue : readValue levels fuel more = .ok (v, r)) (hskip : skipBlanks r = ',' :: tail)
    (hmembers : readMembers levels fuel (skipBlanks tail) = .ok (members, rest)) :
    readMembers levels (fuel + 1) ('"' :: cs) = .ok ((.text key, v) :: members, rest) := by
  obtain ⟨c, cs', rfl, hblank, -⟩ := exists_head_of_readValue hvalue
  have hstart : skipBlanks (' ' :: c :: cs') = c :: cs' := skipBlanks_of_head hblank
  have hcolon : skipBlanks (':' :: ' ' :: c :: cs') = ':' :: ' ' :: c :: cs' := rfl
  simp only [readMembers, hkey, bind, Except.bind, hcolon, hstart, hvalue, hskip, hmembers]

/-! ### What is printed at some depth -/

/-- A value that is read back wherever it is printed, up to some levels below the top. -/
def Rereads (levels depth : Nat) (v : Value) : Prop :=
  ∀ fuel rest, EndsNumber rest → 2 * (indented depth v).toList.length ≤ fuel →
    readValue levels fuel ((indented depth v).toList ++ rest) = .ok (v.reread, rest)

theorem endsNumber_margin (depth : Nat) (cs : List Char) :
    EndsNumber ((margin depth).toList ++ cs) := by
  rw [margin, String.toList_ofList]
  exact endsNumber_cons (by simp)

/-- Blanks before a value that is read are skipped up to it. -/
theorem skipBlanks_of_readValue {r : Value × List Char} (h : readValue levels fuel cs = .ok r)
    (depth : Nat) :
    ∃ c more, cs = c :: more ∧ c ≠ ']' ∧ skipBlanks ((margin depth).toList ++ cs) = c :: more := by
  obtain ⟨c, more, rfl, hblank, hc⟩ := exists_head_of_readValue h
  exact ⟨c, more, rfl, hc, skipBlanks_margin hblank depth more⟩

theorem indentedItems_cons (depth : Nat) (w : Value) (vs : List Value) (cs : List Char) :
    (indentedItems depth (w :: vs)).toList ++ cs =
      ',' :: ((margin depth).toList ++ ((indented depth w).toList ++
        ((indentedItems depth vs).toList ++ cs))) := by
  simp [indentedItems]

theorem endsNumber_indentedItems (depth outer : Nat) (vs : List Value) (cs : List Char) :
    EndsNumber ((indentedItems depth vs).toList ++ ((margin outer).toList ++ cs)) := by
  cases vs with
  | nil => exact endsNumber_margin outer cs
  | cons w vs =>
      rw [indentedItems_cons]
      exact endsNumber_cons (by simp)

theorem readItems_indented {depth : Nat} (outer fuel : Nat)
    (h : ∀ w ∈ v :: vs, Rereads levels depth w)
    (hfuel : 2 * ((indented depth v).toList.length + (indentedItems depth vs).toList.length) < fuel)
    (rest : List Char) :
    readItems levels fuel ((indented depth v).toList ++ ((indentedItems depth vs).toList ++
        ((margin outer).toList ++ ']' :: rest))) =
      .ok (v.reread :: Value.rereadItems vs, rest) := by
  induction vs generalizing v fuel with
  | nil =>
      obtain ⟨fuel, rfl⟩ : ∃ n, fuel = n + 1 := ⟨fuel - 1, by omega⟩
      have hvalue := h v List.mem_cons_self fuel _ (endsNumber_margin outer (']' :: rest))
        (by omega)
      exact readItems_last hvalue (skipBlanks_margin rfl outer rest)
  | cons w vs ih =>
      obtain ⟨fuel, rfl⟩ : ∃ n, fuel = n + 1 := ⟨fuel - 1, by omega⟩
      have hlength := congrArg List.length (indentedItems_cons depth w vs [])
      simp only [List.length_append, List.length_cons, List.length_nil] at hlength
      have hvalue := h v List.mem_cons_self fuel _
        (endsNumber_indentedItems depth outer (w :: vs) (']' :: rest)) (by omega)
      have hnext := h w (List.mem_cons_of_mem v List.mem_cons_self) _ _
        (endsNumber_indentedItems depth outer vs (']' :: rest)) (Nat.le_refl _)
      have hitems := ih fuel (fun x hx => h x (List.mem_cons_of_mem v hx)) (by omega)
      obtain ⟨c, more, hhead, -, hskip⟩ := skipBlanks_of_readValue hnext depth
      rw [indentedItems_cons] at hvalue ⊢
      rw [hhead] at hitems
      exact readItems_more hvalue rfl (by rw [hskip, hitems]; rfl)

theorem indentedMember_append (depth : Nat) (key : String) (v : Value) (cs : List Char) :
    (indentedMember depth (.text key, v)).toList ++ cs =
      '"' :: writtenBody (Text.codes key.toList)
        (':' :: ' ' :: ((indented depth v).toList ++ cs)) := by
  simp [indentedMember, keyText, Text.quoteAscii, writtenBody]

theorem indentedMembers_cons (depth : Nat) (e : Scalar × Value) (es : Entries) (cs : List Char) :
    (indentedMembers depth (e :: es)).toList ++ cs =
      ',' :: ((margin depth).toList ++ ((indentedMember depth e).toList ++
        ((indentedMembers depth es).toList ++ cs))) := by
  simp [indentedMembers]

theorem endsNumber_indentedMembers (depth outer : Nat) (es : Entries) (cs : List Char) :
    EndsNumber ((indentedMembers depth es).toList ++ ((margin outer).toList ++ cs)) := by
  cases es with
  | nil => exact endsNumber_margin outer cs
  | cons e es =>
      rw [indentedMembers_cons]
      exact endsNumber_cons (by simp)

theorem length_indented_lt (depth : Nat) (key : String) (v : Value) :
    (indented depth v).toList.length < (indentedMember depth (.text key, v)).toList.length := by
  have hlength := congrArg List.length (indentedMember_append depth key v [])
  simp only [writtenBody, List.length_append, List.length_cons, List.length_nil] at hlength
  omega

theorem readMembers_indented {depth : Nat} (outer fuel : Nat) {e : Scalar × Value} {es : Entries}
    (hkeys : ∀ x ∈ e :: es, ∃ key, x.1 = .text key ∧ Text.HasNoPair key)
    (hvalues : ∀ x ∈ e :: es, Rereads levels depth x.2)
    (hfuel : 2 * ((indentedMember depth e).toList.length +
      (indentedMembers depth es).toList.length) < fuel) (rest : List Char) :
    readMembers levels fuel ((indentedMember depth e).toList ++
        ((indentedMembers depth es).toList ++ ((margin outer).toList ++ '\x7d' :: rest))) =
      .ok (Value.rereadMembers (e :: es), rest) := by
  induction es generalizing e fuel with
  | nil =>
      obtain ⟨fuel, rfl⟩ : ∃ n, fuel = n + 1 := ⟨fuel - 1, by omega⟩
      obtain ⟨k, v⟩ := e
      obtain ⟨key, rfl, hkey⟩ := hkeys _ List.mem_cons_self
      have hlength := length_indented_lt depth key v
      have hvalue := hvalues _ List.mem_cons_self fuel _
        (endsNumber_margin outer ('\x7d' :: rest)) (by simp only; omega)
      rw [indentedMember_append]
      exact readMembers_last (readString_writtenBody hkey _) hvalue
        (skipBlanks_margin rfl outer rest)
  | cons e' es ih =>
      obtain ⟨fuel, rfl⟩ : ∃ n, fuel = n + 1 := ⟨fuel - 1, by omega⟩
      obtain ⟨k, v⟩ := e
      obtain ⟨key, rfl, hkey⟩ := hkeys _ List.mem_cons_self
      have hlength := length_indented_lt depth key v
      have hmore := congrArg List.length (indentedMembers_cons depth e' es [])
      simp only [List.length_append, List.length_cons, List.length_nil] at hmore
      have hvalue := hvalues _ List.mem_cons_self fuel _
        (endsNumber_indentedMembers depth outer (e' :: es) ('\x7d' :: rest)) (by simp only; omega)
      have hmembers := ih fuel (fun x hx => hkeys x (List.mem_cons_of_mem _ hx))
        (fun x hx => hvalues x (List.mem_cons_of_mem _ hx)) (by omega)
      obtain ⟨key', hname, -⟩ := hkeys e' (List.mem_cons_of_mem _ List.mem_cons_self)
      obtain ⟨k', v'⟩ := e'
      obtain rfl : k' = .text key' := hname
      rw [indentedMember_append] at hmembers ⊢
      rw [indentedMembers_cons, indentedMember_append] at hvalue ⊢
      exact readMembers_more (readString_writtenBody hkey _) hvalue rfl
        (by rw [skipBlanks_margin rfl, hmembers])

/-! ### Whole values -/

theorem rereadMembers_keys (es : Entries) :
    (Value.rereadMembers es).map Prod.fst = es.map Prod.fst := by
  induction es with
  | nil => rfl
  | cons e es ih => rw [Value.rereadMembers, List.map_cons, List.map_cons, ih]

theorem rereads_scalar {s : Scalar} {depth : Nat}
    (h : ∀ rest, EndsNumber rest →
      readAtom ((scalarText s).toList ++ rest) = .ok (.scalar s.reread, rest)) :
    Rereads levels depth (.scalar s) := by
  intro fuel rest hrest hfuel
  rw [indented] at hfuel ⊢
  have hne : (scalarText s).toList ≠ [] := by
    intro hnil
    have hread := h [] endsNumber_nil
    rw [hnil] at hread
    cases hread
  have hlength := List.length_pos_iff.mpr hne
  obtain ⟨fuel, rfl⟩ : ∃ n, fuel = n + 1 := ⟨fuel - 1, by omega⟩
  exact readValue_of_readAtom (h rest hrest)

theorem rereads_nil (levels depth : Nat) : Rereads (levels + 1) depth (.list []) := by
  intro fuel rest _ hfuel
  have htext (cs : List Char) : (indented depth (.list [])).toList ++ cs = '[' :: ']' :: cs := by
    simp [indented]
  have hlength := congrArg List.length (htext [])
  simp only [List.length_append, List.length_cons, List.length_nil] at hlength
  obtain ⟨fuel, rfl⟩ : ∃ n, fuel = n + 1 := ⟨fuel - 1, by omega⟩
  rw [htext, readValue, if_neg (Nat.succ_ne_zero levels)]
  rfl

theorem rereads_list {depth : Nat} (h : ∀ w ∈ v :: vs, Rereads levels (depth + 1) w) :
    Rereads (levels + 1) depth (.list (v :: vs)) := by
  intro fuel rest _ hfuel
  have htext (cs : List Char) : (indented depth (.list (v :: vs))).toList ++ cs =
      '[' :: ((margin (depth + 1)).toList ++ ((indented (depth + 1) v).toList ++
        ((indentedItems (depth + 1) vs).toList ++ ((margin depth).toList ++ ']' :: cs)))) := by
    simp [indented]
  have hlength := congrArg List.length (htext [])
  simp only [List.length_append, List.length_cons, List.length_nil] at hlength
  obtain ⟨fuel, rfl⟩ : ∃ n, fuel = n + 1 := ⟨fuel - 1, by omega⟩
  have hfirst := h v List.mem_cons_self _ _
    (endsNumber_indentedItems (depth + 1) depth vs (']' :: rest)) (Nat.le_refl _)
  have hitems := readItems_indented depth fuel h (by omega) rest
  obtain ⟨c, more, hhead, hc, hskip⟩ := skipBlanks_of_readValue hfirst (depth + 1)
  rw [hhead] at hitems
  rw [htext]
  exact readValue_list hskip hc hitems

theorem rereads_map {depth : Nat} {es : Entries} (hdistinct : (es.map Prod.fst).Nodup)
    (hkeys : ∀ e ∈ es, ∃ key, e.1 = .text key ∧ Text.HasNoPair key)
    (hvalues : ∀ e ∈ es, Rereads levels (depth + 1) e.2) :
    Rereads (levels + 1) depth (.map es) := by
  intro fuel rest _ hfuel
  cases es with
  | nil =>
      have htext (cs : List Char) :
          (indented depth (.map [])).toList ++ cs = '\x7b' :: '\x7d' :: cs := by
        simp [indented]
      have hlength := congrArg List.length (htext [])
      simp only [List.length_append, List.length_cons, List.length_nil] at hlength
      obtain ⟨fuel, rfl⟩ : ∃ n, fuel = n + 1 := ⟨fuel - 1, by omega⟩
      rw [htext, readValue, if_neg (Nat.succ_ne_zero levels)]
      rfl
  | cons e es =>
      have htext (cs : List Char) : (indented depth (.map (e :: es))).toList ++ cs =
          '\x7b' :: ((margin (depth + 1)).toList ++ ((indentedMember (depth + 1) e).toList ++
            ((indentedMembers (depth + 1) es).toList ++ ((margin depth).toList ++
              '\x7d' :: cs)))) := by
        simp [indented]
      have hlength := congrArg List.length (htext [])
      simp only [List.length_append, List.length_cons, List.length_nil] at hlength
      obtain ⟨fuel, rfl⟩ : ∃ n, fuel = n + 1 := ⟨fuel - 1, by omega⟩
      have hmembers := readMembers_indented depth fuel hkeys hvalues (by omega) rest
      have hkept : Entries.ofList (Value.rereadMembers (e :: es)) =
          Value.rereadMembers (e :: es) := by
        refine Entries.ofList_of_distinct ?_ (by rw [rereadMembers_keys]; exact hdistinct)
        rw [rereadMembers_keys]
        intro k hk
        obtain ⟨x, hx, rfl⟩ := List.mem_map.mp hk
        obtain ⟨key, hkey, -⟩ := hkeys x hx
        exact ⟨key, hkey⟩
      rw [htext, Value.reread, ← hkept]
      obtain ⟨k, v⟩ := e
      obtain ⟨key, rfl, -⟩ := hkeys _ List.mem_cons_self
      rw [indentedMember_append] at hmembers ⊢
      exact readValue_map (skipBlanks_margin rfl _ _) hmembers

theorem readValue_indented {n : Nat} (hform : HasForm n v)
    (htexts : ∀ s ∈ v.strings, Text.HasNoPair s) (hwritable : v.isWritable = true)
    (hlevels : n ≤ levels) (depth : Nat) : Rereads levels depth v := by
  induction hform generalizing levels depth with
  | null => exact rereads_scalar fun _ _ => rfl
  | bool b => exact rereads_scalar fun _ _ => by cases b <;> rfl
  | int k =>
      have hshort : Text.isOverlong k = false := by
        simpa [Value.isWritable, Scalar.isWritable] using hwritable
      exact rereads_scalar fun _ hrest => readAtom_toString hshort hrest
  | float x => exact rereads_scalar fun _ hrest => readAtom_floatText x hrest
  | text s =>
      have htext := htexts s List.mem_cons_self
      exact rereads_scalar fun rest _ => readAtom_quoteAscii htext rest
  | @list n vs items ih =>
      obtain ⟨levels, rfl⟩ : ∃ m, levels = m + 1 := ⟨levels - 1, by omega⟩
      have hitems : ∀ w ∈ vs, Rereads levels (depth + 1) w := fun w hw =>
        ih w hw (fun s hs => htexts s (Value.mem_itemStrings.mpr ⟨w, hw, hs⟩))
          (Value.itemsWritable_iff.mp hwritable w hw) (by omega) (depth + 1)
      cases vs with
      | nil => exact rereads_nil levels depth
      | cons v vs => exact rereads_list hitems
  | @map n es distinct keys values ih =>
      obtain ⟨levels, rfl⟩ : ∃ m, levels = m + 1 := ⟨levels - 1, by omega⟩
      refine rereads_map distinct (fun e he => ?_) fun e he =>
        ih e he (fun s hs => htexts s (Value.mem_memberStrings.mpr ⟨e, he, .inr hs⟩))
          (Value.membersWritable_iff.mp hwritable e he).2 (by omega) (depth + 1)
      obtain ⟨key, hkey⟩ := keys e he
      have hstring : key ∈ e.1.strings := by simp [hkey, Scalar.strings]
      exact ⟨key, hkey, htexts key (Value.mem_memberStrings.mpr ⟨e, he, .inl hstring⟩)⟩

/-! ### What a printed text consists of -/

theorem isPrintable_of_mem_toString (k : Int) : ∀ c ∈ (toString k).toList, Text.IsPrintable c := by
  have hdigits (m : Nat) : ∀ c ∈ Nat.toDigits 10 m, Text.IsPrintable c :=
    fun c hc => Text.isPrintable_of_decimal (Text.isDecimal_of_mem_toDigits hc)
  cases k with
  | ofNat m => simpa [toString, Int.repr, Nat.repr] using hdigits m
  | negSucc m =>
      have hsign : Text.IsPrintable '-' := by decide
      simpa [toString, Int.repr, Nat.repr, hsign] using hdigits (m + 1)

theorem isPrintable_of_mem_floatText (x : Binary64) :
    ∀ c ∈ (floatText x).toList, Text.IsPrintable c := by
  unfold floatText
  split_ifs with hnan hinfinite
  · simp [Text.IsPrintable]
  · simp [Text.IsPrintable]
  · simp [Text.IsPrintable]
  · rw [Binary64.toText, if_neg hnan, if_neg hinfinite, String.toList_ofList]
    exact Text.forall_mem_finiteText (fun c => Text.isPrintable_of_decimal)
      (by simp [Text.IsPrintable]) x

/-- What is printed is printable ASCII in lines. -/
def PrintableLines (cs : List Char) : Prop := ∀ c ∈ cs, c = '\n' ∨ Text.IsPrintable c

instance (cs : List Char) : Decidable (PrintableLines cs) :=
  List.decidableBAll (fun c => c = '\n' ∨ Text.IsPrintable c) cs

theorem printableLines_append {cs cs' : List Char} :
    PrintableLines (cs ++ cs') ↔ PrintableLines cs ∧ PrintableLines cs' :=
  List.forall_mem_append

theorem printableLines_margin (depth : Nat) : PrintableLines (margin depth).toList := by
  intro c hc
  rw [margin, String.toList_ofList] at hc
  obtain rfl | hc := List.mem_cons.mp hc
  · exact .inl rfl
  · rw [List.eq_of_mem_replicate hc]
    exact .inr (by decide)

theorem printableLines_indentedItems {depth : Nat}
    (h : ∀ w ∈ vs, PrintableLines (indented depth w).toList) :
    PrintableLines (indentedItems depth vs).toList := by
  induction vs with
  | nil => nofun
  | cons w vs ih =>
      have hcomma : PrintableLines [','] := by decide
      rw [← List.append_nil (indentedItems _ _).toList, indentedItems_cons, List.append_nil,
        ← List.singleton_append]
      simp only [printableLines_append]
      exact ⟨hcomma, printableLines_margin depth, h w List.mem_cons_self,
        ih fun x hx => h x (List.mem_cons_of_mem w hx)⟩

theorem printableLines_indentedMember {depth : Nat} {e : Scalar × Value}
    (hkey : ∃ key, e.1 = .text key) (hvalue : PrintableLines (indented depth e.2).toList) :
    PrintableLines (indentedMember depth e).toList := by
  obtain ⟨k, v⟩ := e
  obtain ⟨key, rfl⟩ := hkey
  have hcolon : PrintableLines (": " : String).toList := by decide
  have htext : PrintableLines (Text.quoteAscii key).toList :=
    fun c hc => .inr (isPrintable_of_mem_quoteAscii c hc)
  simp only [indentedMember, keyText, String.toList_append, printableLines_append]
  exact ⟨⟨htext, hcolon⟩, hvalue⟩

theorem printableLines_indentedMembers {depth : Nat} {es : Entries}
    (h : ∀ e ∈ es, PrintableLines (indentedMember depth e).toList) :
    PrintableLines (indentedMembers depth es).toList := by
  induction es with
  | nil => nofun
  | cons e es ih =>
      have hcomma : PrintableLines [','] := by decide
      rw [← List.append_nil (indentedMembers _ _).toList, indentedMembers_cons, List.append_nil,
        ← List.singleton_append]
      simp only [printableLines_append]
      exact ⟨hcomma, printableLines_margin depth, h e List.mem_cons_self,
        ih fun x hx => h x (List.mem_cons_of_mem e hx)⟩

theorem printableLines_indented {n : Nat} (hform : HasForm n v) (depth : Nat) :
    PrintableLines (indented depth v).toList := by
  have hopen : PrintableLines ("[" : String).toList := by decide
  have hclose : PrintableLines ("]" : String).toList := by decide
  have hbegin : PrintableLines ("\x7b" : String).toList := by decide
  have hend : PrintableLines ("\x7d" : String).toList := by decide
  induction hform generalizing depth with
  | null => exact show PrintableLines ("null" : String).toList by decide
  | bool b =>
      cases b
      · exact show PrintableLines ("false" : String).toList by decide
      · exact show PrintableLines ("true" : String).toList by decide
  | int k => exact fun c hc => .inr (isPrintable_of_mem_toString k c hc)
  | float x => exact fun c hc => .inr (isPrintable_of_mem_floatText x c hc)
  | text s => exact fun c hc => .inr (isPrintable_of_mem_quoteAscii c hc)
  | @list n vs items ih =>
      cases vs with
      | nil =>
          rw [indented]
          decide
      | cons v vs =>
          have hfirst := ih v List.mem_cons_self (depth + 1)
          have hmore : PrintableLines (indentedItems (depth + 1) vs).toList :=
            printableLines_indentedItems fun w hw => ih w (List.mem_cons_of_mem v hw) (depth + 1)
          simp only [indented, String.toList_append, printableLines_append]
          exact ⟨⟨⟨⟨⟨hopen, printableLines_margin _⟩, hfirst⟩, hmore⟩, printableLines_margin _⟩,
            hclose⟩
  | @map n es distinct keys values ih =>
      cases es with
      | nil =>
          rw [indented]
          decide
      | cons e es =>
          have hmember : ∀ x ∈ e :: es, PrintableLines (indentedMember (depth + 1) x).toList :=
            fun x hx => printableLines_indentedMember (keys x hx) (ih x hx (depth + 1))
          have hmore := printableLines_indentedMembers
            fun x hx => hmember x (List.mem_cons_of_mem e hx)
          simp only [indented, String.toList_append, printableLines_append]
          exact ⟨⟨⟨⟨⟨hbegin, printableLines_margin _⟩, hmember e List.mem_cons_self⟩, hmore⟩,
            printableLines_margin _⟩, hend⟩

/-- The text of a value is read as the value, also with a line break behind it. -/
theorem parse_pretty {n : Nat} (hform : HasForm n v) (hlevels : n ≤ levelLimit)
    (htexts : ∀ s ∈ v.strings, Text.HasNoPair s) (hwritable : v.isWritable = true) :
    parse (pretty v ++ "\n") = .ok v.reread := by
  have htext : (pretty v ++ "\n").toList = (indented 0 v).toList ++ ['\n'] := by simp [pretty]
  have hread := readValue_indented hform htexts hwritable hlevels 0
    (2 * (pretty v ++ "\n").toList.length + 2) ['\n'] (endsNumber_cons (by simp))
    (by rw [htext, List.length_append]; omega)
  have hplain : PrintableLines ((indented 0 v).toList ++ ['\n']) :=
    printableLines_append.mpr ⟨printableLines_indented hform 0, by decide⟩
  obtain ⟨c, more, hhead, hblank, -⟩ := exists_head_of_readValue hread
  have hmark : (c :: more).head? ≠ some '\ufeff' := by
    rintro ⟨⟩
    have hc := hplain '\ufeff' (by rw [hhead]; exact List.mem_cons_self)
    exact absurd hc (by decide)
  have hdocument : readDocument (pretty v ++ "\n").toList = .ok v.reread := by
    rw [htext] at hread ⊢
    rw [hhead] at hread ⊢
    rw [readDocument, if_neg hmark, skipBlanks_of_head hblank, hread]
    rfl
  simp only [parse, hdocument]

/-! ### Printing what was read -/

theorem floatText_canonical (x : Binary64) : floatText x.canonical = floatText x := by
  unfold Binary64.canonical
  split_ifs with hnan
  · rw [floatText, floatText, if_pos hnan]
    rfl
  · rfl

theorem indentedItems_reread {depth : Nat}
    (h : ∀ w ∈ vs, indented depth w.reread = indented depth w) :
    indentedItems depth (Value.rereadItems vs) = indentedItems depth vs := by
  induction vs with
  | nil => rfl
  | cons w vs ih =>
      rw [Value.rereadItems, indentedItems, indentedItems, h w List.mem_cons_self,
        ih fun x hx => h x (List.mem_cons_of_mem w hx)]

theorem indentedMembers_reread {depth : Nat} {es : Entries}
    (h : ∀ e ∈ es, indented depth e.2.reread = indented depth e.2) :
    indentedMembers depth (Value.rereadMembers es) = indentedMembers depth es := by
  induction es with
  | nil => rfl
  | cons e es ih =>
      rw [Value.rereadMembers, indentedMembers, indentedMembers, indentedMember, indentedMember,
        h e List.mem_cons_self, ih fun x hx => h x (List.mem_cons_of_mem e hx)]

/-- All NaNs are printed alike. -/
theorem indented_reread {n : Nat} (hform : HasForm n v) (depth : Nat) :
    indented depth v.reread = indented depth v := by
  induction hform generalizing depth with
  | null | bool b | int k | text s => rfl
  | float x => exact floatText_canonical x
  | @list n vs items ih =>
      rw [Value.reread]
      cases vs with
      | nil => rfl
      | cons v vs =>
          rw [Value.rereadItems, indented, indented, ih v List.mem_cons_self,
            indentedItems_reread fun w hw => ih w (List.mem_cons_of_mem v hw) (depth + 1)]
  | @map n es distinct keys values ih =>
      rw [Value.reread]
      cases es with
      | nil => rfl
      | cons e es =>
          rw [Value.rereadMembers, indented, indented, indentedMember, indentedMember,
            ih e List.mem_cons_self,
            indentedMembers_reread fun x hx => ih x (List.mem_cons_of_mem e hx) (depth + 1)]

theorem itemsWritable_reread (h : ∀ w ∈ vs, w.reread.isWritable = w.isWritable) :
    Value.itemsWritable (Value.rereadItems vs) = Value.itemsWritable vs := by
  induction vs with
  | nil => rfl
  | cons w vs ih =>
      rw [Value.rereadItems, Value.itemsWritable, Value.itemsWritable, h w List.mem_cons_self,
        ih fun x hx => h x (List.mem_cons_of_mem w hx)]

theorem membersWritable_reread {es : Entries}
    (h : ∀ e ∈ es, e.2.reread.isWritable = e.2.isWritable) :
    Value.membersWritable (Value.rereadMembers es) = Value.membersWritable es := by
  induction es with
  | nil => rfl
  | cons e es ih =>
      rw [Value.rereadMembers, Value.membersWritable, Value.membersWritable, h e List.mem_cons_self,
        ih fun x hx => h x (List.mem_cons_of_mem e hx)]

theorem isWritable_reread {n : Nat} (hform : HasForm n v) :
    v.reread.isWritable = v.isWritable := by
  induction hform with
  | null | bool b | int k | text s | float x => rfl
  | list items ih => exact itemsWritable_reread ih
  | map distinct keys values ih => exact membersWritable_reread ih

end Json

end DrawnSchema
