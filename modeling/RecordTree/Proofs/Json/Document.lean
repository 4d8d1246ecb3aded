import RecordTree.Proofs.Json.Number
import RecordTree.Proofs.Json.Reader
import RecordTree.Proofs.Json.Text

/-!
# JSON documents, read back

A value that was written is read back, up to its numbers, if and only if it is not nested too deep
(`value_prettyValue`). Each reader is followed along the text that the printer made of its value, and the
budget of the reader never runs out because every step of it leaves a shorter text.
-/

namespace RecordTree.Json

/-! ### Beginnings of numbers -/

theorem ne_of_opens {c : Char} (opens : c = '-' ∨ c.isDigit = true) (c' : Char) (minus : c' ≠ '-')
    (digit : c'.isDigit = false) : c ≠ c' := by
  rintro rfl
  rcases opens with rfl | opens
  · exact minus rfl
  · rw [opens] at digit
    cases digit

theorem isBlank_of_opens {c : Char} (opens : c = '-' ∨ c.isDigit = true) : isBlank c = false := by
  have space := ne_of_opens opens ' ' (by decide) (by decide)
  have line := ne_of_opens opens '\n' (by decide) (by decide)
  have tab := ne_of_opens opens '\t' (by decide) (by decide)
  have feed := ne_of_opens opens '\r' (by decide) (by decide)
  simp [isBlank, space, line, tab, feed]

/-- What begins like a number is read as a number. -/
theorem value_of_number {c : Char} (opens : c = '-' ∨ c.isDigit = true) (fuel room : Nat) (cs : List Char) :
    value (fuel + 1) room (c :: cs) = (do
      let (text, cs) ← NumberText.read (c :: cs)
      let n ← text.number?
      some (.number n, cs)) := by
  have n := ne_of_opens opens 'n' (by decide) (by decide)
  have t := ne_of_opens opens 't' (by decide) (by decide)
  have f := ne_of_opens opens 'f' (by decide) (by decide)
  have quote := ne_of_opens opens '"' (by decide) (by decide)
  have bracket := ne_of_opens opens '[' (by decide) (by decide)
  have brace := ne_of_opens opens '\x7b' (by decide) (by decide)
  rw [value, skipBlank_cons (isBlank_of_opens opens)]
  split <;> simp_all

/-! ### Beginnings and ends of texts -/

/-- Whether a text begins with a value. -/
def Opens (cs : List Char) : Prop := ∃ c cs', cs = c :: cs' ∧ isBlank c = false ∧ c ≠ ']'

theorem opens_prettyValue {v : Value} (regular : Regular Reread v) (level : Nat) (rest : List Char) :
    Opens (prettyValue level v rest) := by
  cases v with
  | null => exact ⟨_, _, rfl, rfl, by decide⟩
  | bool b => cases b <;> exact ⟨_, _, rfl, rfl, by decide⟩
  | number n =>
      obtain ⟨c, cs, text, opens⟩ := Reread.opens regular
      refine ⟨c, cs ++ rest, ?_, isBlank_of_opens opens, ne_of_opens opens _ (by decide) (by decide)⟩
      rw [prettyValue, text]
      rfl
  | string s => exact ⟨_, _, rfl, rfl, by decide⟩
  | array items => cases items <;> exact ⟨_, _, rfl, rfl, by decide⟩
  | object fields => cases fields <;> exact ⟨_, _, rfl, rfl, by decide⟩

theorem length_lt_newline (level : Nat) (rest : List Char) :
    rest.length < (newline level rest).length := by
  rw [newline, List.length_cons, List.length_append]
  omega

theorem length_lt_quoted (s rest : List Char) : rest.length < (quoted s rest).length := by
  rw [quoted, List.length_cons, List.length_append, List.length_cons]
  omega

mutual

/-- A value takes no text away from behind it. -/
theorem length_le_prettyValue (level : Nat) (v : Value) (rest : List Char) :
    rest.length ≤ (prettyValue level v rest).length := by
  match v with
  | .null => simp [prettyValue]; omega
  | .bool true => simp [prettyValue]; omega
  | .bool false => simp [prettyValue]; omega
  | .number n => simp [prettyValue]
  | .string s => exact (length_lt_quoted _ rest).le
  | .array [] => simp [prettyValue]; omega
  | .array (v :: vs) =>
      have inner := length_le_prettyItems (level + 1) (v :: vs) (newline level (']' :: rest))
      have after := length_lt_newline level (']' :: rest)
      have before := length_lt_newline (level + 1)
        (prettyItems (level + 1) (v :: vs) (newline level (']' :: rest)))
      simp only [prettyValue, List.length_cons] at *
      omega
  | .object [] => simp [prettyValue]; omega
  | .object (f :: fs) =>
      have inner := length_le_prettyFields (level + 1) (f :: fs) (newline level ('\x7d' :: rest))
      have after := length_lt_newline level ('\x7d' :: rest)
      have before := length_lt_newline (level + 1)
        (prettyFields (level + 1) (f :: fs) (newline level ('\x7d' :: rest)))
      simp only [prettyValue, List.length_cons] at *
      omega

theorem length_le_prettyItems (level : Nat) (vs : List Value) (rest : List Char) :
    rest.length ≤ (prettyItems level vs rest).length := by
  match vs with
  | [] => exact Nat.le_refl _
  | [v] => exact length_le_prettyValue level v rest
  | v :: w :: vs =>
      have tail := length_le_prettyItems level (w :: vs) rest
      have line := length_lt_newline level (prettyItems level (w :: vs) rest)
      have head := length_le_prettyValue level v (',' :: newline level (prettyItems level (w :: vs) rest))
      simp only [prettyItems, List.length_cons] at *
      omega

theorem length_le_prettyFields (level : Nat) (fs : List (String × Value)) (rest : List Char) :
    rest.length ≤ (prettyFields level fs rest).length := by
  match fs with
  | [] => exact Nat.le_refl _
  | [(k, v)] =>
      have value := length_le_prettyValue level v rest
      have key := length_lt_quoted k.toList (':' :: ' ' :: prettyValue level v rest)
      simp only [prettyFields, List.length_cons] at *
      omega
  | (k, v) :: f :: fs =>
      have tail := length_le_prettyFields level (f :: fs) rest
      have line := length_lt_newline level (prettyFields level (f :: fs) rest)
      have value := length_le_prettyValue level v (',' :: newline level (prettyFields level (f :: fs) rest))
      have key := length_lt_quoted k.toList
        (':' :: ' ' :: prettyValue level v (',' :: newline level (prettyFields level (f :: fs) rest)))
      simp only [prettyFields, List.length_cons] at *
      omega

end

/-! ### Values that are read back -/

/-- Whether a value is read back as another one that differs in its numbers alone, unless it is nested deeper
than there is room. -/
structure ReadBack (v w : Value) : Prop where
  outline : w.outline = v.outline
  read : ∀ level fuel room rest, Ends rest → (prettyValue level v rest).length < fuel + rest.length →
    value fuel room (prettyValue level v rest) = if v.depth ≤ room then some (w, rest) else none

/-- Whether the items of an array are read back as others. -/
structure ItemsReadBack (vs ws : List Value) : Prop where
  outline : Value.outlineItems ws = Value.outlineItems vs
  read : ∀ level outer fuel room acc rest,
    (prettyItems level vs (newline outer (']' :: rest))).length < fuel + rest.length →
      items fuel room acc (prettyItems level vs (newline outer (']' :: rest))) =
        if Value.depthItems vs ≤ room then some (acc.reverse ++ ws, rest) else none

/-- Whether the fields of an object are read back as others. -/
structure FieldsReadBack (fs gs : List (String × Value)) : Prop where
  outline : Value.outlineFields gs = Value.outlineFields fs
  read : ∀ level outer fuel room acc rest, Entries.Sorted (acc ++ fs) →
    (prettyFields level fs (newline outer ('\x7d' :: rest))).length < fuel + rest.length →
      fields fuel room acc (prettyFields level fs (newline outer ('\x7d' :: rest))) =
        if Value.depthFields fs ≤ room then some (acc ++ gs, rest) else none

/-- Blanks before an item do not matter. -/
theorem items_newline (fuel room : Nat) (acc : List Value) (level : Nat) (cs : List Char) :
    items fuel room acc (newline level cs) = items fuel room acc cs := by
  have value' : ∀ fuel, value fuel room (newline level cs) = value fuel room cs := by
    intro fuel
    cases fuel with
    | zero => rfl
    | succ fuel => rw [value, value, skipBlank_newline]
  cases fuel with
  | zero => rfl
  | succ fuel => rw [items, items, value']

/-- A reader with a budget for some text can take a step. -/
theorem exists_fuel {text rest : List Char} {fuel : Nat} (kept : rest.length ≤ text.length)
    (enough : text.length < fuel + rest.length) : ∃ more, fuel = more + 1 :=
  ⟨fuel - 1, by omega⟩

theorem readBack_number {n : Number} (reread : Reread n) : ∃ m, ReadBack (.number n) (.number m) := by
  obtain ⟨m, read⟩ := reread.read
  refine ⟨m, rfl, fun level fuel room rest ends enough => ?_⟩
  obtain ⟨fuel, rfl⟩ := exists_fuel (length_le_prettyValue level (.number n) rest) enough
  obtain ⟨c, cs, text, opens⟩ := reread.opens
  obtain ⟨t, parsed, number⟩ := read rest ends
  rw [prettyValue, text, List.cons_append, value_of_number opens, ← List.cons_append, ← text, parsed]
  simp [number, Value.depth]

theorem readBack_string (s : String) : ReadBack (.string s) (.string s) := by
  refine ⟨rfl, fun level fuel room rest ends enough => ?_⟩
  obtain ⟨fuel, rfl⟩ := exists_fuel (length_le_prettyValue level (.string s) rest) enough
  rw [prettyValue, quoted, value, skipBlank_cons rfl]
  simp [string_quoted, Value.depth]

theorem readBack_array_nil : ReadBack (.array []) (.array []) := by
  refine ⟨rfl, fun level fuel room rest ends enough => ?_⟩
  obtain ⟨fuel, rfl⟩ := exists_fuel (length_le_prettyValue level (.array []) rest) enough
  rw [prettyValue, value, skipBlank_cons rfl]
  cases room with
  | zero => rfl
  | succ room => simp [skipBlank_cons (c := ']') rfl, Value.depth, Value.depthItems]

/-- An array whose items follow is read item by item. -/
theorem value_bracket {cs : List Char} (opens : Opens cs) (fuel room level : Nat) :
    value (fuel + 1) (room + 1) ('[' :: newline level cs) =
      (items fuel room [] cs).map fun (vs, cs) => (.array vs, cs) := by
  obtain ⟨c, cs, rfl, blank, closes⟩ := opens
  rw [value, skipBlank_cons rfl]
  simp only [skipBlank_newline, skipBlank_cons blank]
  split
  · rename_i same
    exact absurd (List.cons.inj same).1 closes
  · rfl

theorem opens_prettyItems {v : Value} (regular : Regular Reread v) (vs : List Value) (level : Nat)
    (rest : List Char) : Opens (prettyItems level (v :: vs) rest) := by
  cases vs <;> exact opens_prettyValue regular level _

/-- An array is read back if its items are. -/
theorem readBack_array {v : Value} {vs ws : List Value} (regular : Regular Reread v)
    (back : ItemsReadBack (v :: vs) ws) : ReadBack (.array (v :: vs)) (.array ws) := by
  refine ⟨congrArg Value.array back.outline, fun level fuel room rest ends enough => ?_⟩
  obtain ⟨fuel, rfl⟩ := exists_fuel (length_le_prettyValue level (.array (v :: vs)) rest) enough
  have text : prettyValue level (.array (v :: vs)) rest =
      '[' :: newline (level + 1) (prettyItems (level + 1) (v :: vs) (newline level (']' :: rest))) := by
    simp [prettyValue]
  have line := length_lt_newline (level + 1)
    (prettyItems (level + 1) (v :: vs) (newline level (']' :: rest)))
  rw [text, List.length_cons] at enough
  rw [text]
  cases room with
  | zero =>
      rw [value, skipBlank_cons rfl]
      simp [Value.depth]
  | succ room =>
      rw [value_bracket (opens_prettyItems regular vs (level + 1) _), back.read _ _ _ _ _ _ (by omega)]
      by_cases fits : Value.depthItems (v :: vs) ≤ room
      · simp [Value.depth, fits]
      · simp [Value.depth, fits]

/-- The last item is read with the closing bracket. -/
theorem itemsReadBack_singleton {v w : Value} (back : ReadBack v w) : ItemsReadBack [v] [w] := by
  refine ⟨by simp [Value.outlineItems, back.outline], fun level outer fuel room acc rest enough => ?_⟩
  have line := length_lt_newline outer (']' :: rest)
  have kept := length_le_prettyValue level v (newline outer (']' :: rest))
  rw [List.length_cons] at line
  rw [prettyItems] at enough ⊢
  obtain ⟨fuel, rfl⟩ : ∃ more, fuel = more + 1 := ⟨fuel - 1, by omega⟩
  rw [items, back.read level fuel room _ (ends_newline outer _) (by omega)]
  by_cases fits : v.depth ≤ room
  · simp [fits, Value.depthItems, skipBlank_cons (c := ']') rfl]
  · simp [fits, Value.depthItems]

/-- An item before others is read with the comma behind it. -/
theorem itemsReadBack_cons {v w u : Value} {vs ws : List Value} (back : ReadBack v w)
    (next : ItemsReadBack (u :: vs) ws) : ItemsReadBack (v :: u :: vs) (w :: ws) := by
  refine ⟨?_, fun level outer fuel room acc rest enough => ?_⟩
  · rw [Value.outlineItems, Value.outlineItems, back.outline, next.outline]
  have close := length_lt_newline outer (']' :: rest)
  have line := length_lt_newline level (prettyItems level (u :: vs) (newline outer (']' :: rest)))
  have tail := length_le_prettyItems level (u :: vs) (newline outer (']' :: rest))
  have head := length_le_prettyValue level v
    (',' :: newline level (prettyItems level (u :: vs) (newline outer (']' :: rest))))
  rw [List.length_cons] at close head
  have text : prettyItems level (v :: u :: vs) (newline outer (']' :: rest)) =
      prettyValue level v
        (',' :: newline level (prettyItems level (u :: vs) (newline outer (']' :: rest)))) := by
    simp [prettyItems]
  rw [text] at enough ⊢
  have depth : Value.depthItems (v :: u :: vs) ≤ room ↔ v.depth ≤ room ∧ Value.depthItems (u :: vs) ≤ room := by
    rw [Value.depthItems, Nat.max_le]
  obtain ⟨fuel, rfl⟩ : ∃ more, fuel = more + 1 := ⟨fuel - 1, by omega⟩
  rw [items, back.read level fuel room _ (ends_comma _) (by rw [List.length_cons]; omega)]
  by_cases fits : v.depth ≤ room
  · simp only [fits, ↓reduceIte, skipBlank_cons (c := ',') rfl]
    rw [items_newline, next.read _ _ _ _ _ _ (by omega)]
    simp [depth, fits]
  · simp [depth, fits]

/-! ### Fields that are read back -/

/-- Blanks before a field do not matter. -/
theorem fields_newline (fuel room : Nat) (acc : List (String × Value)) (level : Nat) (cs : List Char) :
    fields fuel room acc (newline level cs) = fields fuel room acc cs := by
  cases fuel with
  | zero => rfl
  | succ fuel => rw [fields, fields, skipBlank_newline]

theorem readBack_object_nil : ReadBack (.object []) (.object []) := by
  refine ⟨rfl, fun level fuel room rest ends enough => ?_⟩
  obtain ⟨fuel, rfl⟩ := exists_fuel (length_le_prettyValue level (.object []) rest) enough
  rw [prettyValue, value, skipBlank_cons rfl]
  cases room with
  | zero => rfl
  | succ room => simp [skipBlank_cons (c := '\x7d') rfl, Value.depth, Value.depthFields]

theorem skipBlank_prettyFields (f : String × Value) (fs : List (String × Value)) (level : Nat)
    (rest : List Char) :
    ∃ cs, prettyFields level (f :: fs) rest = '"' :: (f.1.toList.flatMap escape ++ '"' :: ':' :: ' ' :: cs) := by
  cases fs <;> exact ⟨_, rfl⟩

/-- An object is read back if its fields are. -/
theorem readBack_object {f : String × Value} {fs gs : List (String × Value)}
    (sorted : Entries.Sorted (f :: fs)) (back : FieldsReadBack (f :: fs) gs) :
    ReadBack (.object (f :: fs)) (.object gs) := by
  refine ⟨congrArg Value.object back.outline, fun level fuel room rest ends enough => ?_⟩
  obtain ⟨fuel, rfl⟩ := exists_fuel (length_le_prettyValue level (.object (f :: fs)) rest) enough
  have text : prettyValue level (.object (f :: fs)) rest =
      '\x7b' :: newline (level + 1) (prettyFields (level + 1) (f :: fs) (newline level ('\x7d' :: rest))) := by
    simp [prettyValue]
  have line := length_lt_newline (level + 1)
    (prettyFields (level + 1) (f :: fs) (newline level ('\x7d' :: rest)))
  rw [text, List.length_cons] at enough
  rw [text, value, skipBlank_cons rfl]
  cases room with
  | zero => simp [Value.depth]
  | succ room =>
      have read := back.read (level + 1) level fuel room [] rest sorted (by omega)
      obtain ⟨cs, opens⟩ := skipBlank_prettyFields f fs (level + 1) (newline level ('\x7d' :: rest))
      rw [opens] at read
      simp only [skipBlank_newline, opens, skipBlank_cons (c := '"') rfl]
      change (fields fuel room [] ('"' :: _)).map _ = _
      rw [read]
      by_cases fits : Value.depthFields (f :: fs) ≤ room
      · simp [Value.depth, fits]
      · simp [Value.depth, fits]

/-- What is read behind a field. -/
def afterField (fuel room : Nat) (fs : List (String × Value)) (cs : List Char) :
    Option (List (String × Value) × List Char) :=
  match skipBlank cs with
  | ',' :: cs => fields fuel room fs cs
  | '\x7d' :: cs => some (fs, cs)
  | _ => none

/-- A field is read with what comes behind it. -/
theorem fields_quoted {v w : Value} (back : ReadBack v w) (k : String) {level fuel room : Nat}
    (acc : List (String × Value)) {rest : List Char} (ends : Ends rest)
    (enough : (prettyValue level v rest).length < fuel + rest.length) :
    fields (fuel + 1) room acc (quoted k.toList (':' :: ' ' :: prettyValue level v rest)) =
      if v.depth ≤ room then afterField fuel room (Entries.insert k w acc) rest else none := by
  have space : value fuel room (' ' :: prettyValue level v rest) = value fuel room (prettyValue level v rest) := by
    cases fuel with
    | zero => rfl
    | succ fuel => rw [value, value]; rfl
  have inner := back.read level fuel room rest ends enough
  rw [fields, quoted, skipBlank_cons rfl]
  by_cases fits : v.depth ≤ room
  · rw [if_pos fits] at inner ⊢
    simp only [string_quoted, skipBlank_cons (c := ':') rfl, space, inner]
    rfl
  · rw [if_neg fits] at inner ⊢
    simp only [string_quoted, skipBlank_cons (c := ':') rfl, space, inner]

/-- The last field is read with the closing brace. -/
theorem fieldsReadBack_singleton {v w : Value} (back : ReadBack v w) (k : String) :
    FieldsReadBack [(k, v)] [(k, w)] := by
  refine ⟨by simp [Value.outlineFields, back.outline], ?_⟩
  intro level outer fuel room acc rest sorted enough
  have line := length_lt_newline outer ('\x7d' :: rest)
  have kept := length_le_prettyValue level v (newline outer ('\x7d' :: rest))
  have key := length_lt_quoted k.toList (':' :: ' ' :: prettyValue level v (newline outer ('\x7d' :: rest)))
  rw [List.length_cons] at line
  rw [List.length_cons, List.length_cons] at key
  rw [prettyFields] at enough ⊢
  obtain ⟨fuel, rfl⟩ : ∃ more, fuel = more + 1 := ⟨fuel - 1, by omega⟩
  rw [fields_quoted back k acc (ends_newline outer _) (by omega), afterField, skipBlank_newline,
    skipBlank_cons rfl]
  by_cases fits : v.depth ≤ room
  · simp [fits, Value.depthFields, sorted.insert_append]
  · simp [fits, Value.depthFields]

/-- A field before others is read with the comma behind it. -/
theorem fieldsReadBack_cons {v w : Value} {f : String × Value} {fs gs : List (String × Value)}
    (back : ReadBack v w) (next : FieldsReadBack (f :: fs) gs) (k : String) :
    FieldsReadBack ((k, v) :: f :: fs) ((k, w) :: gs) := by
  refine ⟨?_, fun level outer fuel room acc rest sorted enough => ?_⟩
  · rw [Value.outlineFields, Value.outlineFields, back.outline, next.outline]
  have close := length_lt_newline outer ('\x7d' :: rest)
  have line := length_lt_newline level (prettyFields level (f :: fs) (newline outer ('\x7d' :: rest)))
  have tail := length_le_prettyFields level (f :: fs) (newline outer ('\x7d' :: rest))
  have head := length_le_prettyValue level v
    (',' :: newline level (prettyFields level (f :: fs) (newline outer ('\x7d' :: rest))))
  have key := length_lt_quoted k.toList (':' :: ' ' :: prettyValue level v
    (',' :: newline level (prettyFields level (f :: fs) (newline outer ('\x7d' :: rest)))))
  rw [List.length_cons] at close head
  rw [List.length_cons, List.length_cons] at key
  have text : prettyFields level ((k, v) :: f :: fs) (newline outer ('\x7d' :: rest)) =
      quoted k.toList (':' :: ' ' :: prettyValue level v
        (',' :: newline level (prettyFields level (f :: fs) (newline outer ('\x7d' :: rest))))) := by
    simp [prettyFields]
  rw [text] at enough ⊢
  have depth : Value.depthFields ((k, v) :: f :: fs) ≤ room ↔
      v.depth ≤ room ∧ Value.depthFields (f :: fs) ≤ room := by
    rw [Value.depthFields, Nat.max_le]
  obtain ⟨fuel, rfl⟩ : ∃ more, fuel = more + 1 := ⟨fuel - 1, by omega⟩
  rw [fields_quoted back k acc (ends_comma _) (by rw [List.length_cons]; omega), afterField, skipBlank_cons rfl]
  by_cases fits : v.depth ≤ room
  · simp only [fits, ↓reduceIte]
    rw [sorted.insert_append, fields_newline, next.read _ _ _ _ _ _ sorted.replace (by omega)]
    simp [depth, fits]
  · simp [depth, fits]

/-! ### Documents that are read back -/

theorem readBack_null : ReadBack .null .null := by
  refine ⟨rfl, fun level fuel room rest ends enough => ?_⟩
  obtain ⟨fuel, rfl⟩ := exists_fuel (length_le_prettyValue level .null rest) enough
  rw [prettyValue, value, skipBlank_cons rfl]
  simp [Value.depth]

theorem readBack_bool (b : Bool) : ReadBack (.bool b) (.bool b) := by
  refine ⟨rfl, fun level fuel room rest ends enough => ?_⟩
  obtain ⟨fuel, rfl⟩ := exists_fuel (length_le_prettyValue level (.bool b) rest) enough
  cases b <;> rw [prettyValue, value, skipBlank_cons rfl] <;> simp [Value.depth]

mutual

/-- **Every regular value is read back**, unless it is nested deeper than there is room. -/
theorem exists_readBack (v : Value) (regular : Regular Reread v) : ∃ w, ReadBack v w := by
  match v with
  | .null => exact ⟨_, readBack_null⟩
  | .bool b => exact ⟨_, readBack_bool b⟩
  | .number n =>
      obtain ⟨m, back⟩ := readBack_number regular
      exact ⟨_, back⟩
  | .string s => exact ⟨_, readBack_string s⟩
  | .array [] => exact ⟨_, readBack_array_nil⟩
  | .array (v :: vs) =>
      obtain ⟨ws, back⟩ := exists_itemsReadBack (v :: vs) (by simp) regular
      exact ⟨_, readBack_array regular.1 back⟩
  | .object [] => exact ⟨_, readBack_object_nil⟩
  | .object (f :: fs) =>
      obtain ⟨gs, back⟩ := exists_fieldsReadBack (f :: fs) (by simp) regular.2
      exact ⟨_, readBack_object regular.1 back⟩

theorem exists_itemsReadBack (vs : List Value) (some : vs ≠ []) (regular : RegularItems Reread vs) :
    ∃ ws, ItemsReadBack vs ws := by
  match vs with
  | [] => contradiction
  | [v] =>
      obtain ⟨w, back⟩ := exists_readBack v regular.1
      exact ⟨_, itemsReadBack_singleton back⟩
  | v :: u :: vs =>
      obtain ⟨w, back⟩ := exists_readBack v regular.1
      obtain ⟨ws, next⟩ := exists_itemsReadBack (u :: vs) (by simp) regular.2
      exact ⟨_, itemsReadBack_cons back next⟩

theorem exists_fieldsReadBack (fs : List (String × Value)) (some : fs ≠ [])
    (regular : RegularFields Reread fs) : ∃ gs, FieldsReadBack fs gs := by
  match fs with
  | [] => contradiction
  | [(k, v)] =>
      obtain ⟨w, back⟩ := exists_readBack v regular.1
      exact ⟨_, fieldsReadBack_singleton back k⟩
  | (k, v) :: f :: fs =>
      obtain ⟨w, back⟩ := exists_readBack v regular.1
      obtain ⟨gs, next⟩ := exists_fieldsReadBack (f :: fs) (by simp) regular.2
      exact ⟨_, fieldsReadBack_cons back next k⟩

end

theorem newline_append (level : Nat) (rest more : List Char) :
    newline level rest ++ more = newline level (rest ++ more) := by
  simp [newline]

theorem quoted_append (s rest more : List Char) : quoted s rest ++ more = quoted s (rest ++ more) := by
  simp [quoted]

mutual

/-- What stands behind a value stands behind its text. -/
theorem prettyValue_append (level : Nat) (v : Value) (rest more : List Char) :
    prettyValue level v rest ++ more = prettyValue level v (rest ++ more) := by
  match v with
  | .null => rfl
  | .bool true => rfl
  | .bool false => rfl
  | .number n => simp [prettyValue]
  | .string s => exact quoted_append ..
  | .array [] => rfl
  | .array (v :: vs) =>
      simp [prettyValue, newline_append, prettyItems_append (level + 1) (v :: vs)]
  | .object [] => rfl
  | .object (f :: fs) =>
      simp [prettyValue, newline_append, prettyFields_append (level + 1) (f :: fs)]

theorem prettyItems_append (level : Nat) (vs : List Value) (rest more : List Char) :
    prettyItems level vs rest ++ more = prettyItems level vs (rest ++ more) := by
  match vs with
  | [] => rfl
  | [v] => exact prettyValue_append level v rest more
  | v :: w :: vs =>
      simp [prettyItems, newline_append, prettyValue_append level v, prettyItems_append level (w :: vs)]

theorem prettyFields_append (level : Nat) (fs : List (String × Value)) (rest more : List Char) :
    prettyFields level fs rest ++ more = prettyFields level fs (rest ++ more) := by
  match fs with
  | [] => rfl
  | [(k, v)] => simp [prettyFields, quoted_append, prettyValue_append level v]
  | (k, v) :: f :: fs =>
      simp [prettyFields, quoted_append, newline_append, prettyValue_append level v,
        prettyFields_append level (f :: fs)]

end

/-- **A document is read back** up to its numbers if it is not nested too deep, and else it is not read. -/
theorem read?_pretty {v : Value} (regular : Regular Reread v) :
    ∃ w, w.outline = v.outline ∧
      read? (pretty v ++ "\n") = if v.depth ≤ nestingLimit then some w else none := by
  obtain ⟨w, outline, read⟩ := exists_readBack v regular
  refine ⟨w, outline, ?_⟩
  have text : (pretty v ++ "\n").toList = prettyValue 0 v ['\n'] := by
    simp [pretty, prettyValue_append]
  have kept := length_le_prettyValue 0 v ['\n']
  rw [read?, readChars?, text, read 0 _ _ ['\n'] ⟨_, _, rfl, .inr rfl⟩ (by rw [List.length_singleton]; omega)]
  by_cases fits : v.depth ≤ nestingLimit
  · rw [if_pos fits, if_pos fits]
    rfl
  · rw [if_neg fits, if_neg fits]
    rfl

end RecordTree.Json
