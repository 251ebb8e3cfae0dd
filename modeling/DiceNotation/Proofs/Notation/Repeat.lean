/-
Repeat counts. A numeral and an x in front of a die stand for the die
written so many times, with semicolons between: the two texts are read
as the same dice, and they are rolled as the die by itself is rolled so
many times in a row, with fresh words each time. A count that is not
between 1 and 1000, however long its numeral, is no count at all, and
nothing behind it makes the text good again.

# No other way to read the count

A number at the start of a roll may be a repeat count or a count of
dice, and the reader tries the one before the other. On tokens there is
no choice: behind the number stands an x, and a die has the letter d
there (`RollPhrase.exists_of_repeat`). So the count is what the numeral
says or the text has no reading, and the same is seen at the head of a
longer list (`RollListPhrase.exists_head`).
-/
import DiceNotation.Proofs.Notation.Single

namespace DiceNotation

open Token Decimal

-- ============================================================== scanning

/-- A numeral and an x in front of a text are two tokens more. -/
theorem scan_repeat {numeral : List Char} (hne : numeral ≠ [])
    (hdigits : ∀ c ∈ numeral, c.isDigit = true) (text : List Char) :
    scan (numeral ++ 'x' :: text)
      = (scan text).map ([.number (value numeral), .times] ++ ·) := by
  obtain ⟨c, run, rfl⟩ := List.exists_cons_of_ne_nil hne
  obtain ⟨hc, hrun⟩ := List.forall_mem_cons.1 hdigits
  obtain ⟨hlead, hafter⟩ :=
    digits_append hrun (noDigitAhead_cons (c := 'x') rfl text)
  rw [List.cons_append, scan_digit hc, hlead, hafter,
    scan_char (c := 'x') rfl, Option.map_map]
  rfl

/-- A text without semicolons has none among its tokens. -/
theorem semicolon_not_mem_of_scan {text : List Char}
    {tokens : List Token} (h : scan text = some tokens)
    (hplain : ';' ∉ text) : .semicolon ∉ tokens := by
  rw [← List.count_eq_zero, count_semicolon h]
  exact List.count_eq_zero_of_not_mem hplain

-- =============================================================== phrases

/-- A roll that starts with a number and an x has that number for its
repeat count and a die behind. -/
theorem RollPhrase.exists_of_repeat {first rest tokens : List Token}
    {dice : List Die} {n : Nat} (h : RollPhrase first dice)
    (hcut : first ++ rest = .number n :: .times :: tokens) :
    ∃ back die, back ++ rest = tokens ∧ DiePhrase back die
      ∧ 1 ≤ n ∧ n ≤ 1000 ∧ dice = List.replicate n die := by
  obtain @⟨front, back, times, die, hcount, hdie⟩ := h
  cases hcount with
  | absent =>
      -- a die has no x, neither first nor behind a number
      rw [List.nil_append] at hcut
      obtain ⟨more, rfl⟩ | ⟨m, more, rfl⟩ := hdie.starts
      · injection hcut with hfirst
        cases hfirst
      · injection hcut with _ hcut
        injection hcut with hsecond
        cases hsecond
  | given bound =>
      injection hcut with hnumber hcut
      injection hcut with _ hback
      injection hnumber with hn
      rw [← hn]
      exact ⟨back, die, hback, hdie, times.toNat_pos, bound, rfl⟩

/-- At the head of a roll list stands a roll. -/
theorem RollListPhrase.exists_head {tokens : List Token}
    {dice : List Die} (h : RollListPhrase tokens dice) :
    ∃ first rest head, first ++ rest = tokens ∧ RollPhrase first head := by
  cases h with
  | last only => exact ⟨tokens, [], dice, List.append_nil _, only⟩
  | more head tail => exact ⟨_, _, _, rfl, head⟩

/-- A die behind a count and an x is a roll of the die so many times. -/
theorem DiePhrase.rollPhrase_repeat {tokens : List Token} {die : Die}
    {n : Nat} (h : DiePhrase tokens die) (hpos : 1 ≤ n) (hle : n ≤ 1000) :
    RollPhrase (.number n :: .times :: tokens)
      (List.replicate n die) := by
  have hword : (UInt32.ofNat n).toNat = n :=
    UInt32.toNat_ofNat_of_lt' (Nat.lt_of_le_of_lt hle (by decide))
  let times : Positive :=
    ⟨UInt32.ofNat n, UInt32.lt_iff_toNat_lt.2 (by rw [hword]; exact hpos)⟩
  have htimes : times.toNat = n := hword
  have hcount : RepeatPhrase [.number times.toNat, .times] times :=
    .given (by rw [htimes]; exact hle)
  have hroll := RollPhrase.intro hcount h
  rw [htimes] at hroll
  exact hroll

/-- Without semicolons, a roll list that starts with a count and an x is
one die so many times. -/
theorem rollListPhrase_repeat_iff {tokens : List Token} {n : Nat}
    (hplain : .semicolon ∉ tokens) {dice : List Die} :
    RollListPhrase (.number n :: .times :: tokens) dice
      ↔ 1 ≤ n ∧ n ≤ 1000
        ∧ ∃ die, DiePhrase tokens die ∧ dice = List.replicate n die := by
  constructor
  · intro h
    generalize hall : Token.number n :: .times :: tokens = all at h
    cases h with
    | last only =>
        have hcut : all ++ [] = Token.number n :: .times :: tokens := by
          rw [List.append_nil, hall]
        obtain ⟨back, die, hback, hdie, hpos, hle, hdice⟩ :=
          only.exists_of_repeat hcut
        rw [List.append_nil] at hback
        subst hback
        exact ⟨hpos, hle, die, hdie, hdice⟩
    | @more first rest _ _ head tail =>
        have hmem : Token.semicolon ∈ Token.number n :: .times :: tokens := by
          rw [hall]
          simp
        simp [hplain] at hmem
  · rintro ⟨hpos, hle, die, hdie, rfl⟩
    exact .last (hdie.rollPhrase_repeat hpos hle)

-- ================================================================= texts

/-- A numeral: one digit at least, and nothing but digits. -/
structure Numeral (text : String) : Prop where
  ne_nil : text.toList ≠ []
  digits : ∀ c ∈ text.toList, c.isDigit = true

/-- The number that a numeral stands for. -/
def numeralValue (text : String) : Nat := value text.toList

namespace Rolls

theorem scan_repeat_text {numeral : String} (h : Numeral numeral)
    (text : String) :
    scan (numeral ++ "x" ++ text).toList
      = (scan text.toList).map
        ([.number (numeralValue numeral), .times] ++ ·) := by
  have hlist : (numeral ++ "x" ++ text).toList
      = numeral.toList ++ 'x' :: text.toList := by
    simp
  rw [hlist, scan_repeat h.ne_nil h.digits]
  rfl

/-- A die behind a count and an x is read as the die so many times, and
as nothing else. -/
theorem parse_repeat_eq_ok_iff {numeral text : String}
    (h : Numeral numeral) (hplain : ';' ∉ text.toList) {dice : List Die} :
    parse (numeral ++ "x" ++ text) = .ok dice
      ↔ 1 ≤ numeralValue numeral ∧ numeralValue numeral ≤ 1000
        ∧ ∃ die, Die.parse text = .ok die
          ∧ dice = List.replicate (numeralValue numeral) die := by
  simp only [parse_eq_ok_iff, Die.parse_eq_ok_iff]
  unfold Sentence DieSentence
  rw [scan_repeat_text h]
  cases hscan : scan text.toList with
  | none => simp
  | some tokens =>
      have hnone := semicolon_not_mem_of_scan hscan hplain
      simp only [Option.map_some, Option.some.injEq, exists_eq_left']
      exact rollListPhrase_repeat_iff hnone

/-- A count out of range is read as nothing, whatever stands behind
it. -/
theorem parse_repeat_eq_error {numeral : String} (h : Numeral numeral)
    (hrange : numeralValue numeral = 0 ∨ 1000 < numeralValue numeral)
    (text : String) :
    ∃ rest, parse (numeral ++ "x" ++ text)
      = .error ⟨numeral ++ "x" ++ text, rest⟩ := by
  cases hparse : parse (numeral ++ "x" ++ text) with
  | ok dice =>
      obtain ⟨tokens, hscan, hphrase⟩ := parse_eq_ok_iff.1 hparse
      rw [scan_repeat_text h, Option.map_eq_some_iff] at hscan
      obtain ⟨behind, -, rfl⟩ := hscan
      obtain ⟨first, rest, head, hcut, hroll⟩ := hphrase.exists_head
      obtain ⟨-, -, -, -, hpos, hle, -⟩ := hroll.exists_of_repeat hcut
      omega
  | error rejection =>
      obtain ⟨carried, rest⟩ := rejection
      cases input_of_parse_eq_error hparse
      exact ⟨rest, rfl⟩

/-- A text that is a die is read as a list of that die alone. -/
theorem parse_of_die {text : String} {die : Die}
    (h : Die.parse text = .ok die) : parse text = .ok [die] := by
  obtain ⟨tokens, hscan, hdie⟩ := Die.parse_eq_ok_iff.1 h
  exact parse_eq_ok_iff.2 ⟨tokens, hscan, hdie.rollListPhrase⟩

/-- A text so many times, with semicolons between. -/
def writtenTimes (text : String) (n : Nat) : String :=
  ";".intercalate (List.replicate n text)

theorem writtenTimes_succ (text : String) (n : Nat) :
    writtenTimes text (n + 2)
      = text ++ ";" ++ writtenTimes text (n + 1) := by
  unfold writtenTimes
  rw [List.replicate_succ, List.replicate_succ, ← String.toList_inj,
    String.toList_append, String.toList_append, String.toList_intercalate,
    String.toList_intercalate, List.map_cons, List.map_cons,
    List.intercalate_cons_cons]

/-- A die written some times is read as the die so many times. -/
theorem parse_writtenTimes {text : String} {die : Die}
    (h : Die.parse text = .ok die) (n : Nat) :
    parse (writtenTimes text (n + 1))
      = .ok (List.replicate (n + 1) die) := by
  have honce := parse_of_die h
  induction n with
  | zero =>
      have hone : writtenTimes text 1 = text := by
        simp [writtenTimes]
      rw [hone]
      exact honce
  | succ n ih =>
      rw [writtenTimes_succ]
      exact parse_semicolon_eq_ok_iff.2 ⟨_, _, honce, ih, rfl⟩

-- =============================================================== rolling

variable {σ : Type} [WordSource σ]

/-- Rolls a text some times, each time from what the time before left of
the source, and gives what came of each. -/
def rollTextTimes (input : String) :
    Nat → σ → List (Except Rejection (List Outcome)) × σ
  | 0, source => ([], source)
  | n + 1, source =>
      let (result, source) := rollText input source
      let (results, source) := rollTextTimes input n source
      (result :: results, source)

/-- To roll a die some times in a row is to roll its text so many
times. -/
theorem rollTextTimes_of_die {text : String} {die : Die}
    (h : Die.parse text = .ok die) (n : Nat) (source : σ) :
    ∃ results : List (List Outcome),
      rollTextTimes text n source
          = (results.map .ok, (roll (List.replicate n die) source).2)
        ∧ results.flatten = (roll (List.replicate n die) source).1 := by
  have honce := rollText_of_ok (σ := σ) (parse_of_die h)
  induction n generalizing source with
  | zero => exact ⟨[], rfl, rfl⟩
  | succ n ih =>
      obtain ⟨results, hrun, houtcomes⟩ := ih (die.roll source).2
      refine ⟨[(die.roll source).1] :: results, ?_, ?_⟩
      · simp only [rollTextTimes]
        rw [honce, roll_cons, roll_nil, hrun, List.replicate_succ, roll_cons]
        rfl
      · rw [List.flatten_cons, houtcomes, List.replicate_succ, roll_cons]
        rfl

-- =============================================================== the law

/-- The law of repeat counts. With a numeral from 1 to 1000 and an x in
front, a text without semicolons is read exactly if it is a die, and
then as the die so many times: as the die written so many times is read,
and rolled as the die is rolled so many times, one time after the other.
With a numeral of any other value in front, no text is read. -/
theorem repeat_law {numeral : String} (h : Numeral numeral) :
    (∀ text : String, ';' ∉ text.toList →
      1 ≤ numeralValue numeral → numeralValue numeral ≤ 1000 →
      ((∃ dice, parse (numeral ++ "x" ++ text) = .ok dice)
        ↔ ∃ die, Die.parse text = .ok die)
      ∧ ∀ die, Die.parse text = .ok die →
        parse (numeral ++ "x" ++ text)
            = .ok (List.replicate (numeralValue numeral) die)
          ∧ parse (writtenTimes text (numeralValue numeral))
            = .ok (List.replicate (numeralValue numeral) die)
          ∧ ∀ (σ : Type) [WordSource σ] (source : σ),
            ∃ (results : List (List Outcome)) (last : σ),
              rollTextTimes text (numeralValue numeral) source
                  = (results.map .ok, last)
                ∧ rollText (numeral ++ "x" ++ text) source
                  = (.ok results.flatten, last))
    ∧ (numeralValue numeral = 0 ∨ 1000 < numeralValue numeral →
      ∀ text : String, ∃ rest, parse (numeral ++ "x" ++ text)
        = .error ⟨numeral ++ "x" ++ text, rest⟩) := by
  refine ⟨?_, parse_repeat_eq_error h⟩
  intro text hplain hpos hle
  have hread : ∀ die, Die.parse text = .ok die →
      parse (numeral ++ "x" ++ text)
        = .ok (List.replicate (numeralValue numeral) die) :=
    fun die hdie => (parse_repeat_eq_ok_iff h hplain).2
      ⟨hpos, hle, die, hdie, rfl⟩
  refine ⟨⟨?_, ?_⟩, ?_⟩
  · rintro ⟨dice, hdice⟩
    obtain ⟨-, -, die, hdie, -⟩ := (parse_repeat_eq_ok_iff h hplain).1 hdice
    exact ⟨die, hdie⟩
  · rintro ⟨die, hdie⟩
    exact ⟨_, hread die hdie⟩
  · intro die hdie
    obtain ⟨n, hn⟩ : ∃ n, numeralValue numeral = n + 1 :=
      ⟨numeralValue numeral - 1, by omega⟩
    refine ⟨hread die hdie, ?_, ?_⟩
    · rw [hn]
      exact parse_writtenTimes hdie n
    · intro σ _ source
      obtain ⟨results, hrun, houtcomes⟩ :=
        rollTextTimes_of_die hdie (numeralValue numeral) source
      refine ⟨results, _, hrun, ?_⟩
      rw [rollText_of_ok (hread die hdie), houtcomes]

/-- Leading zeros do not count, and the count may stand apart from the
die; a numeral beyond every word is no count. -/
theorem repeat_law_of_zeros :
    parse "03x d6-1" = .ok (List.replicate 3
        (.group ⟨⟨1, by decide⟩, ⟨6, by decide⟩, -1⟩))
      ∧ ∃ rest, parse "4294967297xd6"
        = .error ⟨"4294967297xd6", rest⟩ := by
  have hthree : Numeral "03" :=
    ⟨by decide, List.all_eq_true.1 (by decide)⟩
  have hlarge : Numeral "4294967297" :=
    ⟨by decide, List.all_eq_true.1 (by decide)⟩
  have hdie : Die.parse " d6-1"
      = .ok (.group ⟨⟨1, by decide⟩, ⟨6, by decide⟩, -1⟩) := by
    decide +kernel
  obtain ⟨hcounts, -⟩ := repeat_law hthree
  obtain ⟨-, hreads⟩ := hcounts " d6-1" (by decide) (by decide) (by decide)
  obtain ⟨-, hrejects⟩ := repeat_law hlarge
  exact ⟨(hreads _ hdie).1, hrejects (.inr (by decide)) "d6"⟩

end Rolls

end DiceNotation
