/-
Values read back from their text. Strings are read back because an
escape stands for the character it was written for and holds no closing
quote (`escape_cases`); integers, because their numerals have no leading
zero and are followed by no digit.

# What may follow a value

The text behind a value is empty or starts with a comma or a closing
bracket (`Closes`). So a number does not go on, and every value can be
read back in the place where an array or an object writes it.

# The fuel

Twice the length of the text is enough fuel for it. `ReadsBack` says so
of one value in front of any text. It holds of arrays and objects of
such values, by one induction each on what they hold.
-/
import DiceNotation.Json.Read
import DiceNotation.Json.Written
import DiceNotation.Proofs.Decimal

namespace DiceNotation.Json

-- ============================================================== strings

/-- A hexadecimal digit has the value that it was written for. -/
theorem hexDigit?_digitChar :
    ∀ n < 16, Text.hexDigit? (Nat.digitChar n) = some n := by
  decide

/-- The escape of a control character names its number. -/
theorem unit?_digitChar {n : Nat} (h : n < 0x20) :
    unit? '0' '0' (Nat.digitChar (n / 16)) (Nat.digitChar (n % 16))
      = some n := by
  have hhigh := hexDigit?_digitChar (n / 16) (by omega)
  have hlow := hexDigit?_digitChar (n % 16) (by omega)
  have hzero : Text.hexDigit? '0' = some 0 := by decide
  unfold unit?
  simp only [Text.hexValue?, hzero, hhigh, hlow]
  congr 1
  omega

/-- A character stands in a string as a short escape, as the escape of
its number or as itself, and then it is no mark of the string. -/
theorem escape_cases (c : Char) :
    (∃ letter, escape c = ['\\', letter] ∧ letter ≠ 'u'
      ∧ escaped? letter = some c)
    ∨ (∃ a b, escape c = ['\\', 'u', '0', '0', a, b]
      ∧ unit? '0' '0' a b = some c.toNat ∧ c.toNat < 0x20)
    ∨ (escape c = [c] ∧ 0x20 ≤ c.toNat ∧ c ≠ '"' ∧ c ≠ '\\') := by
  unfold escape
  split
  · exact .inl ⟨'"', rfl, by decide, rfl⟩
  · exact .inl ⟨'\\', rfl, by decide, rfl⟩
  · exact .inl ⟨'b', rfl, by decide, rfl⟩
  · exact .inl ⟨'f', rfl, by decide, rfl⟩
  · exact .inl ⟨'n', rfl, by decide, rfl⟩
  · exact .inl ⟨'r', rfl, by decide, rfl⟩
  · exact .inl ⟨'t', rfl, by decide, rfl⟩
  · next hquote hslash _ _ _ _ _ =>
      by_cases hlow : c.toNat < 0x20
      · rw [if_pos hlow]
        exact .inr (.inl ⟨_, _, rfl, unit?_digitChar hlow, hlow⟩)
      · rw [if_neg hlow]
        exact .inr (.inr ⟨rfl, Nat.le_of_not_lt hlow, hquote, hslash⟩)

/-- A character in a string is passed over as it stands there. -/
theorem stringTail_escape (c : Char) (text : List Char) :
    stringTail (escape c ++ text)
      = (stringTail text).map fun (run, rest) => (escape c ++ run, rest) := by
  rcases escape_cases c with ⟨letter, hescape, hletter, hmeant⟩
    | ⟨a, b, hescape, hunit, -⟩ | ⟨hescape, hlow, hquote, hslash⟩
  · rw [hescape]
    show stringTail ('\\' :: letter :: text) = _
    rw [stringTail, hmeant]
    · rfl
    · exact fun _ _ _ _ _ h _ => hletter h
  · rw [hescape]
    show stringTail ('\\' :: 'u' :: '0' :: '0' :: a :: b :: text) = _
    rw [stringTail, hunit]
    rfl
  · rw [hescape]
    show stringTail (c :: text) = _
    have hplain : ¬ (c.toNat < 0x20 ∨ c = '\\') := by
      rintro (h | h)
      · omega
      · exact hslash h
    rw [stringTail, if_neg hplain]
    · rfl
    · exact hquote
    · exact fun _ _ _ _ _ h _ => hslash h
    · exact fun _ _ h _ => hslash h

/-- A text as it stands in a string ends at the closing quote. -/
theorem stringTail_flatMap_escape (text rest : List Char) :
    stringTail (text.flatMap escape ++ '"' :: rest)
      = some (text.flatMap escape, rest) := by
  induction text with
  | nil => rfl
  | cons c text ih =>
      rw [List.flatMap_cons, List.append_assoc, stringTail_escape, ih]
      rfl

/-- A character in a string means itself. -/
theorem unescape?_escape (c : Char) (text : List Char) :
    unescape? (escape c ++ text) = (unescape? text).map (c :: ·) := by
  rcases escape_cases c with ⟨letter, hescape, hletter, hmeant⟩
    | ⟨a, b, hescape, hunit, hlow⟩ | ⟨hescape, -, -, hslash⟩
  · rw [hescape]
    show unescape? ('\\' :: letter :: text) = _
    rw [unescape?, hmeant]
    exact fun _ _ _ _ _ h _ => hletter h
  · -- the number of a control character is no half of a character
    have hhigh : isHighHalf c.toNat = false := by
      unfold isHighHalf
      simp
      omega
    have hhalf : isLowHalf c.toNat = false := by
      unfold isLowHalf
      simp
      omega
    rw [hescape]
    show unescape? ('\\' :: 'u' :: '0' :: '0' :: a :: b :: text) = _
    rw [unescape?, hunit]
    simp only [hhigh, hhalf, Char.ofNat_toNat]
    rfl
  · rw [hescape]
    show unescape? (c :: text) = _
    rw [unescape?]
    · exact fun _ _ _ _ _ h _ => hslash h
    · exact fun _ _ h _ => hslash h

/-- A text as it stands in a string means the text. -/
theorem unescape?_flatMap_escape (text : List Char) :
    unescape? (text.flatMap escape) = some text := by
  induction text with
  | nil => rfl
  | cons c text ih =>
      rw [List.flatMap_cons, unescape?_escape, ih]
      rfl

-- ============================================================= integers

/-- The numeral of an integer is that integer. -/
theorem integer?_ofInt (n : Int) : integer? (Decimal.ofInt n) = some n := by
  have hdigits : ∀ n, (Decimal.ofNat n).all Char.isDigit = true := by
    intro n
    rw [List.all_eq_true]
    exact isDigit_of_mem_ofNat n
  cases n with
  | ofNat n =>
      show integer? (Decimal.ofNat n) = _
      obtain ⟨c, run, hnumeral, hc⟩ := exists_digit_of_ofNat n
      rw [integer?, if_pos (hdigits n), Decimal.value_ofNat]
      · rfl
      · rw [hnumeral]
        rintro digits ⟨⟩
        cases hc
  | negSucc n =>
      show integer? ('-' :: Decimal.ofNat (n + 1)) = _
      rw [integer?, hdigits, Decimal.value_ofNat]
      rfl

/-- What may follow a value: nothing, or a comma or a closing bracket in
front of anything. -/
def Closes (text : List Char) : Prop :=
  ∀ c, text.head? = some c → c = ',' ∨ c = ']' ∨ c = '\x7d'

theorem closes_nil : Closes [] := by
  intro c hc
  cases hc

theorem closes_cons {c : Char} (h : c = ',' ∨ c = ']' ∨ c = '\x7d')
    (text : List Char) : Closes (c :: text) := by
  intro c' hc
  cases hc
  exact h

theorem Closes.noDigitAhead {text : List Char} (h : Closes text) :
    NoDigitAhead text := by
  intro c hc
  rcases h c hc with rfl | rfl | rfl <;> rfl

/-- A number may go on with a fraction or an exponent, but not here. -/
theorem Closes.no_fraction {text : List Char} (h : Closes text) :
    fraction text = some ([], text) := by
  cases text with
  | nil => rfl
  | cons c text => rcases h c rfl with rfl | rfl | rfl <;> rfl

theorem Closes.no_exponent {text : List Char} (h : Closes text) :
    exponent text = some ([], text) := by
  cases text with
  | nil => rfl
  | cons c text => rcases h c rfl with rfl | rfl | rfl <;> rfl

theorem wholePart_ofNat (n : Nat) {text : List Char}
    (h : NoDigitAhead text) :
    wholePart (Decimal.ofNat n ++ text) = some (Decimal.ofNat n, text) := by
  obtain ⟨c, run, hnumeral, hc⟩ := exists_digit_of_ofNat n
  by_cases hzero : c = '0'
  · subst hzero
    cases eq_zero_of_ofNat_eq_cons hnumeral
    rfl
  · obtain ⟨hlead, hafter⟩ := digits_append (isDigit_of_mem_ofNat n) h
    rw [hnumeral] at hlead hafter ⊢
    rw [wholePart]
    · unfold digits
      rw [hlead, hafter]
    · rintro rest ⟨⟩
      exact hzero rfl

theorem unsignedNumber_ofNat (n : Nat) {text : List Char}
    (h : Closes text) :
    unsignedNumber (Decimal.ofNat n ++ text)
      = some (Decimal.ofNat n, text) := by
  unfold unsignedNumber
  rw [wholePart_ofNat n h.noDigitAhead]
  show (fraction text).bind _ = _
  rw [h.no_fraction]
  show (exponent text).bind _ = _
  rw [h.no_exponent]
  simp

/-- The numeral of an integer is read as a number. -/
theorem number_ofInt (n : Int) {text : List Char} (h : Closes text) :
    number (Decimal.ofInt n ++ text) = some (Decimal.ofInt n, text) := by
  cases n with
  | ofNat n =>
      show number (Decimal.ofNat n ++ text) = some (Decimal.ofNat n, text)
      rw [number, unsignedNumber_ofNat n h]
      intro rest hminus
      obtain ⟨c, run, hnumeral, hc⟩ := exists_digit_of_ofNat n
      rw [hnumeral] at hminus
      cases hminus
      cases hc
  | negSucc n =>
      show (unsignedNumber (Decimal.ofNat (n + 1) ++ text)).map _ = _
      rw [unsignedNumber_ofNat (n + 1) h]
      rfl

-- ====================================================== written lengths

theorem length_stringOnto (source rest : List Char) :
    (stringOnto source rest).length = source.length + rest.length + 2 := by
  unfold stringOnto
  rw [List.length_cons, List.length_append, List.length_cons]
  omega

mutual

/-- The text behind a value is no longer than the whole. -/
theorem length_le_writtenOnto : ∀ (v : Value) (rest : List Char),
    rest.length ≤ (v.writtenOnto rest).length
  | .null, rest => (List.suffix_append _ rest).length_le
  | .bool true, rest => (List.suffix_append _ rest).length_le
  | .bool false, rest => (List.suffix_append _ rest).length_le
  | .number literal, rest => (List.suffix_append literal rest).length_le
  | .string source, rest => by
      show rest.length ≤ (stringOnto source rest).length
      rw [length_stringOnto]
      omega
  | .array items, rest => by
      have h := length_le_itemsOnto items (']' :: rest)
      show rest.length ≤ ('[' :: itemsOnto items (']' :: rest)).length
      rw [List.length_cons] at h ⊢
      omega
  | .object members, rest => by
      have h := length_le_membersOnto members ('\x7d' :: rest)
      show rest.length
        ≤ ('\x7b' :: membersOnto members ('\x7d' :: rest)).length
      rw [List.length_cons] at h ⊢
      omega

theorem length_le_itemsOnto : ∀ (items : List Value) (rest : List Char),
    rest.length ≤ (itemsOnto items rest).length
  | [], _ => Nat.le_refl _
  | [item], rest => length_le_writtenOnto item rest
  | item :: next :: items, rest => by
      have hitem := length_le_writtenOnto item
        (',' :: itemsOnto (next :: items) rest)
      have hitems := length_le_itemsOnto (next :: items) rest
      rw [List.length_cons] at hitem
      exact Nat.le_trans (by omega) hitem

theorem length_le_membersOnto :
    ∀ (members : List (List Char × Value)) (rest : List Char),
      rest.length ≤ (membersOnto members rest).length
  | [], _ => Nat.le_refl _
  | [(key, value)], rest => by
      have h := length_le_writtenOnto value rest
      show rest.length
        ≤ (stringOnto key (':' :: value.writtenOnto rest)).length
      rw [length_stringOnto, List.length_cons]
      omega
  | (key, value) :: next :: members, rest => by
      have hvalue := length_le_writtenOnto value
        (',' :: membersOnto (next :: members) rest)
      have hmembers := length_le_membersOnto (next :: members) rest
      show rest.length
        ≤ (stringOnto key (':' :: value.writtenOnto
          (',' :: membersOnto (next :: members) rest))).length
      rw [length_stringOnto, List.length_cons]
      rw [List.length_cons] at hvalue
      omega

end

-- =============================================================== values

/-- A value is read back from its text in front of anything that may
follow it, with fuel for twice the length. -/
def ReadsBack (v : Value) : Prop :=
  ∀ (fuel : Nat) (rest : List Char), Closes rest →
    2 * (v.writtenOnto rest).length ≤ fuel + 2 →
    value (fuel + 1) (v.writtenOnto rest) = some (v, rest)

theorem readsBack_null : ReadsBack .null := fun _ _ _ _ => rfl

theorem skipSpace_digit {c : Char} (h : c.isDigit = true)
    (text : List Char) : skipSpace (c :: text) = c :: text := by
  unfold skipSpace
  rw [List.dropWhile_cons_of_neg]
  intro hspace
  unfold isSpace at hspace
  simp at hspace
  rcases hspace with ((rfl | rfl) | rfl) | rfl <;> cases h

/-- What starts with a digit is a number, if it is a value. -/
theorem value_digit (fuel : Nat) {c : Char} (h : c.isDigit = true)
    (text : List Char) :
    value (fuel + 1) (c :: text)
      = (number (c :: text)).map fun (literal, rest) =>
        (.number literal, rest) := by
  rw [value, skipSpace_digit h]
  -- no other kind of value starts with a digit
  split
  all_goals next heq => first | rfl | (cases heq <;> cases h)

theorem readsBack_ofInt (n : Int) : ReadsBack (.ofInt n) := by
  intro fuel rest hrest _
  have hnumber := number_ofInt n hrest
  cases n with
  | ofNat n =>
      obtain ⟨c, run, hnumeral, hc⟩ := exists_digit_of_ofNat n
      show value (fuel + 1) (Decimal.ofNat n ++ rest) = _
      change number (Decimal.ofNat n ++ rest) = _ at hnumber
      rw [hnumeral, List.cons_append] at hnumber ⊢
      rw [value_digit fuel hc, hnumber]
      rfl
  | negSucc n =>
      show (number (Decimal.ofInt (.negSucc n) ++ rest)).map _ = _
      rw [hnumber]
      rfl

theorem readsBack_ofText (text : List Char) : ReadsBack (.ofText text) := by
  intro fuel rest _ _
  show (stringTail (text.flatMap escape ++ '"' :: rest)).map _ = _
  rw [stringTail_flatMap_escape]
  rfl

/-- Items start with a value, which the closing bracket does not. -/
theorem items_bracket (fuel : Nat) {text rest : List Char}
    (h : skipSpace text = ']' :: rest) : items fuel text = none := by
  have hvalue : ∀ fuel, value fuel text = none := by
    intro fuel
    cases fuel with
    | zero => rfl
    | succ fuel =>
        rw [value, h]
        rfl
  cases fuel with
  | zero => rfl
  | succ fuel => rw [items, hvalue]

/-- Behind an opening bracket items are an array. -/
theorem value_items {fuel : Nat} {text rest : List Char}
    {list : List Value} (h : items fuel text = some (list, rest)) :
    value (fuel + 1) ('[' :: text) = some (.array list, rest) := by
  have hopening : skipSpace ('[' :: text) = '[' :: text := rfl
  simp only [value, hopening]
  split
  · next hclosing =>
      rw [items_bracket fuel hclosing] at h
      cases h
  · rw [h]
    rfl

theorem items_itemsOnto {list : List Value}
    (hlist : ∀ item ∈ list, ReadsBack item) (hsome : list ≠ [])
    (fuel : Nat) (rest : List Char)
    (hfuel : 2 * (itemsOnto list (']' :: rest)).length ≤ fuel) :
    items fuel (itemsOnto list (']' :: rest)) = some (list, rest) := by
  induction list generalizing fuel with
  | nil => exact absurd rfl hsome
  | cons item list ih =>
      obtain ⟨hitem, hothers⟩ := List.forall_mem_cons.1 hlist
      cases list with
      | nil =>
          change 2 * (item.writtenOnto (']' :: rest)).length ≤ fuel at hfuel
          have hlength := length_le_writtenOnto item (']' :: rest)
          rw [List.length_cons] at hlength
          obtain ⟨fuel, rfl⟩ : ∃ k, fuel = k + 2 := ⟨fuel - 2, by omega⟩
          have hread := hitem fuel (']' :: rest) (closes_cons (by simp) _)
            hfuel
          show items (fuel + 2) (item.writtenOnto (']' :: rest)) = _
          rw [items, hread]
          rfl
      | cons next list =>
          change 2 * (item.writtenOnto
            (',' :: itemsOnto (next :: list) (']' :: rest))).length ≤ fuel
            at hfuel
          have hlength := length_le_writtenOnto item
            (',' :: itemsOnto (next :: list) (']' :: rest))
          rw [List.length_cons] at hlength
          obtain ⟨fuel, rfl⟩ : ∃ k, fuel = k + 2 := ⟨fuel - 2, by omega⟩
          have hread := hitem fuel _ (closes_cons (by simp) _) hfuel
          have hmore := ih hothers (List.cons_ne_nil _ _) (fuel + 1)
            (by omega)
          show items (fuel + 2) (item.writtenOnto
            (',' :: itemsOnto (next :: list) (']' :: rest))) = _
          rw [items, hread]
          show (items (fuel + 1) _).map _ = _
          rw [hmore]
          rfl

theorem readsBack_array {list : List Value}
    (h : ∀ item ∈ list, ReadsBack item) : ReadsBack (.array list) := by
  intro fuel rest _ hfuel
  cases list with
  | nil => rfl
  | cons item list =>
      change 2 * ('[' :: itemsOnto (item :: list) (']' :: rest)).length
        ≤ fuel + 2 at hfuel
      rw [List.length_cons] at hfuel
      have hread := items_itemsOnto h (List.cons_ne_nil _ _) fuel rest
        (by omega)
      exact value_items hread

/-- A text that stands in a string as it is. -/
def Plain (text : List Char) : Prop := text.flatMap escape = text

instance (text : List Char) : Decidable (Plain text) :=
  inferInstanceAs (Decidable (_ = _))

theorem Plain.stringTail {text : List Char} (h : Plain text)
    (rest : List Char) :
    stringTail (text ++ '"' :: rest) = some (text, rest) := by
  have hread := stringTail_flatMap_escape text rest
  rwa [h] at hread

theorem Plain.unescape? {text : List Char} (h : Plain text) :
    unescape? text = some text := by
  have hmeant := unescape?_flatMap_escape text
  rwa [h] at hmeant

/-- A member with the closing brace behind it is the last one. -/
theorem members_last {key : List Char} (hkey : Plain key) {fuel : Nat}
    {text rest : List Char} {v : Value}
    (hvalue : value fuel text = some (v, '\x7d' :: rest)) :
    members (fuel + 1) (stringOnto key (':' :: text))
      = some ([(key, v)], rest) := by
  have hquote : skipSpace (stringOnto key (':' :: text))
      = '"' :: (key ++ '"' :: ':' :: text) := rfl
  have hcolon : skipSpace (':' :: text) = ':' :: text := rfl
  have hbrace : skipSpace ('\x7d' :: rest) = '\x7d' :: rest := rfl
  rw [members, hquote]
  simp only [hkey.stringTail, hcolon, hvalue, hbrace]

/-- Behind a comma there are more members. -/
theorem members_more {key : List Char} (hkey : Plain key) {fuel : Nat}
    {text after rest : List Char} {v : Value}
    {more : List (List Char × Value)}
    (hvalue : value fuel text = some (v, ',' :: after))
    (hmore : members fuel after = some (more, rest)) :
    members (fuel + 1) (stringOnto key (':' :: text))
      = some ((key, v) :: more, rest) := by
  have hquote : skipSpace (stringOnto key (':' :: text))
      = '"' :: (key ++ '"' :: ':' :: text) := rfl
  have hcolon : skipSpace (':' :: text) = ':' :: text := rfl
  have hcomma : skipSpace (',' :: after) = ',' :: after := rfl
  rw [members, hquote]
  simp only [hkey.stringTail, hcolon, hvalue, hcomma, hmore,
    Option.map_some]

theorem members_membersOnto {list : List (List Char × Value)}
    (hlist : ∀ member ∈ list, Plain member.1 ∧ ReadsBack member.2)
    (hsome : list ≠ []) (fuel : Nat) (rest : List Char)
    (hfuel : 2 * (membersOnto list ('\x7d' :: rest)).length ≤ fuel) :
    members fuel (membersOnto list ('\x7d' :: rest)) = some (list, rest) := by
  induction list generalizing fuel with
  | nil => exact absurd rfl hsome
  | cons member list ih =>
      obtain ⟨key, v⟩ := member
      obtain ⟨hmember, hothers⟩ := List.forall_mem_cons.1 hlist
      have hkey : Plain key := hmember.1
      have hvalue : ReadsBack v := hmember.2
      cases list with
      | nil =>
          change 2 * (stringOnto key
            (':' :: v.writtenOnto ('\x7d' :: rest))).length ≤ fuel at hfuel
          rw [length_stringOnto, List.length_cons] at hfuel
          obtain ⟨fuel, rfl⟩ : ∃ k, fuel = k + 2 := ⟨fuel - 2, by omega⟩
          have hread := hvalue fuel ('\x7d' :: rest)
            (closes_cons (by simp) _) (by omega)
          exact members_last hkey hread
      | cons next list =>
          change 2 * (stringOnto key (':' :: v.writtenOnto
            (',' :: membersOnto (next :: list) ('\x7d' :: rest)))).length
            ≤ fuel at hfuel
          have hlength := length_le_writtenOnto v
            (',' :: membersOnto (next :: list) ('\x7d' :: rest))
          rw [List.length_cons] at hlength
          rw [length_stringOnto, List.length_cons] at hfuel
          obtain ⟨fuel, rfl⟩ : ∃ k, fuel = k + 2 := ⟨fuel - 2, by omega⟩
          have hread := hvalue fuel
            (',' :: membersOnto (next :: list) ('\x7d' :: rest))
            (closes_cons (by simp) _) (by omega)
          have hmore := ih hothers (List.cons_ne_nil _ _) (fuel + 1)
            (by omega)
          exact members_more hkey hread hmore

theorem readsBack_object {list : List (List Char × Value)}
    (h : ∀ member ∈ list, Plain member.1 ∧ ReadsBack member.2) :
    ReadsBack (.object list) := by
  intro fuel rest _ hfuel
  cases list with
  | nil => rfl
  | cons member list =>
      change 2 * ('\x7b' :: membersOnto (member :: list)
        ('\x7d' :: rest)).length ≤ fuel + 2 at hfuel
      rw [List.length_cons] at hfuel
      have hread := members_membersOnto h (List.cons_ne_nil _ _) fuel rest
        (by omega)
      -- the text of the members starts with a quote, not with a brace
      obtain ⟨text, hquote⟩ : ∃ text,
          membersOnto (member :: list) ('\x7d' :: rest) = '"' :: text := by
        cases list with
        | nil => exact ⟨_, rfl⟩
        | cons next list => exact ⟨_, rfl⟩
      show value (fuel + 1) ('\x7b' :: membersOnto (member :: list)
        ('\x7d' :: rest)) = _
      rw [hquote] at hread ⊢
      show (members fuel ('"' :: text)).map _ = _
      rw [hread]
      rfl

/-- Such a value is what its whole text is, so what the text means is
what the value means. -/
theorem ReadsBack.bind_ofText? {v : Value} (h : ReadsBack v) {α : Type}
    (meaning : Value → Option α) :
    (Value.ofText? (String.ofList v.written).toList).bind meaning
      = meaning v := by
  have hread : Value.ofText? v.written = some v := by
    unfold Value.ofText? Value.written
    rw [h _ [] closes_nil (Nat.le_succ_of_le (Nat.le_succ _))]
    rfl
  rw [String.toList_ofList, hread, Option.bind_some]

end DiceNotation.Json
