/-
Configurations of one line for each setting. What such a configuration
says of a setting hangs on the line of that setting alone, whatever the
other lines are and in whatever order they stand, as long as every
integer in it is one of 64 bits. A value of the wrong kind is then a
matter of its own line.

# Where one line costs all others

A text with a larger integer is no document of TOML, even where the
integer stands for a setting that takes none. There is then no line to
be read on its own, and all settings fall back together
(`prompt_lost_to_seed`).

# From lines to settings

The entries of the document are those of the lines. A setting takes the
last entry under its key, and since each setting has one line at most,
that is the entry of its line (`lastUnder_key`).
-/
import DiceNotation.Config
import DiceNotation.Proofs.Toml.Entry

namespace DiceNotation.Config

open Toml (Literal)

-- ================================================================ lines

/-- The settings by name. -/
inductive Name where
  | seed
  | showNotation
  | prompt
deriving DecidableEq, Repr

/-- The key that a setting stands under. -/
def Name.key : Name → Toml.Key
  | .seed => "seed".toList
  | .showNotation => "show_notation".toList
  | .prompt => "prompt".toList

theorem Name.key_injective {a b : Name} (h : a.key = b.key) : a = b := by
  revert h
  cases a <;> cases b <;> decide

/-- A line that says something of a setting. -/
structure Line where
  name : Name
  literal : Literal

/-- Such a line as one of a document. -/
def Line.ofDocument (line : Line) : Toml.Line where
  key := line.name.key
  key_ne_nil := by cases line.name <;> decide
  key_word := List.all_eq_true.1 (by cases line.name <;> decide)
  literal := line.literal

/-- Lines as the text of a configuration. -/
def Written (lines : List Line) (text : List Char) : Prop :=
  Toml.Written (lines.map Line.ofDocument) text

/-- What lines say of a setting, by the first line of it. -/
def literalOf (name : Name) (lines : List Line) : Option Literal :=
  (lines.find? (·.name = name)).map Line.literal

theorem literalOf_cons (name : Name) (line : Line) (lines : List Line) :
    literalOf name (line :: lines)
      = if line.name = name then some line.literal
        else literalOf name lines := by
  unfold literalOf
  rw [List.find?_cons]
  by_cases h : line.name = name
  · simp [h]
  · simp [h]

theorem literalOf_eq_none {name : Name} {lines : List Line}
    (h : name ∉ lines.map Line.name) : literalOf name lines = none := by
  unfold literalOf
  rw [List.find?_eq_none.2, Option.map_none]
  intro line hline hname
  exact h (List.mem_map.2 ⟨line, hline, of_decide_eq_true hname⟩)

/-- The seed that a literal means: an integer that is neither negative
nor beyond a signed word. -/
def seedMeant (literal : Literal) : Option UInt64 :=
  literal.integer?.bind fun n =>
    if 0 ≤ n ∧ n ≤ 2 ^ 63 - 1 then some (UInt64.ofNat n.toNat) else none

/-- The prompt that a literal means. -/
def promptMeant (literal : Literal) : Option String :=
  literal.text?.map String.ofList

-- ============================================================== entries

theorem lastUnder_cons (key own : Toml.Key) (value : Toml.Value)
    (entries : List (Toml.Key × Toml.Value)) :
    Toml.lastUnder key ((own, value) :: entries)
      = (Toml.lastUnder key entries).or
        (if key = own then some value else none) := by
  unfold Toml.lastUnder
  rw [List.reverse_cons, List.lookup_append]
  by_cases h : key = own
  · rw [if_pos h, h, List.lookup_cons_self]
  · rw [if_neg h, List.lookup_cons, beq_eq_false_iff_ne.2 h]
    rfl

/-- The last entry under the key of a setting is that of its line. -/
theorem lastUnder_key {lines : List Line}
    {entries : List (Toml.Key × Toml.Value)}
    (h : (lines.map Line.ofDocument).mapM Toml.Line.entry? = some entries)
    (honce : (lines.map Line.name).Nodup) (name : Name) :
    Toml.lastUnder name.key entries
      = (literalOf name lines).bind Literal.value? := by
  induction lines generalizing entries with
  | nil =>
      cases h
      rfl
  | cons line lines ih =>
      rw [List.map_cons, List.nodup_cons] at honce
      obtain ⟨hnew, honce⟩ := honce
      rw [List.map_cons, List.mapM_cons] at h
      obtain ⟨entry, hentry, h⟩ := Option.bind_eq_some_iff.1 h
      obtain ⟨others, hothers, h⟩ := Option.bind_eq_some_iff.1 h
      obtain ⟨value, hvalue, rfl⟩ := Option.map_eq_some_iff.1 hentry
      cases h
      rw [lastUnder_cons, ih hothers honce]
      rw [literalOf_cons]
      by_cases hname : line.name = name
      · -- no other line is of this setting
        rw [hname] at hnew
        have hkey : name.key = line.ofDocument.key := by rw [← hname]; rfl
        rw [literalOf_eq_none hnew, if_pos hkey, if_pos hname]
        exact hvalue.symm
      · have hkey : name.key ≠ line.ofDocument.key := fun heq =>
          hname (Name.key_injective heq).symm
        rw [if_neg hkey, if_neg hname, Option.or_none]

/-- The entries of a text are those of its lines. -/
theorem entriesOf?_of_written {lines : List Line} {text : List Char}
    (h : Written lines text) :
    entriesOf? (String.ofList text).toUTF8
      = (lines.map Line.ofDocument).mapM Toml.Line.entry? := by
  have hdecoded : String.fromUTF8? (String.ofList text).toUTF8
      = some (String.ofList text) := by
    unfold String.fromUTF8?
    exact dif_pos (String.ofList text).isValidUTF8
  unfold entriesOf?
  rw [hdecoded, Option.bind_some, String.toList_ofList]
  exact Toml.ofText?_of_written h

/-- Lines give no entries just if a literal of them is out of range. -/
theorem mapM_entry?_eq_none_iff (lines : List Line) :
    (lines.map Line.ofDocument).mapM Toml.Line.entry? = none
      ↔ ∃ line ∈ lines, ¬ line.literal.InRange := by
  induction lines with
  | nil => simp
  | cons line lines ih =>
      have hline : line.ofDocument.entry? = none
          ↔ ¬ line.literal.InRange := by
        rw [← Literal.value?_eq_none_iff]
        exact Option.map_eq_none_iff
      simp only [List.map_cons, List.mapM_cons, List.mem_cons,
        exists_eq_or_imp, ← hline, ← ih]
      cases line.ofDocument.entry? with
      | none => simp
      | some entry =>
          cases (lines.map Line.ofDocument).mapM Toml.Line.entry? with
          | none => simp
          | some entries => simp

-- ============================================================= settings

/-- The value of a setting, if it has one. -/
def value? {α : Type} : Setting α → Option α
  | .set value => some value
  | _ => none

theorem value?_ofEntries {α : Type} (read : Toml.Value → Option α)
    (key : Toml.Key) (entries : List (Toml.Key × Toml.Value)) :
    value? (.ofEntries read key entries)
      = (Toml.lastUnder key entries).bind read := by
  unfold Setting.ofEntries
  cases Toml.lastUnder key entries with
  | none => rfl
  | some value =>
      simp only [Option.bind_some]
      cases read value with
      | none => rfl
      | some meant => rfl

/-- A configuration has, for each setting, the value of the last entry
under its key, or what the setting falls back on. -/
theorem load_eq (file : File) :
    load file
      = ⟨(Toml.lastUnder Name.seed.key file.entries).bind seedOf?,
        ((Toml.lastUnder Name.showNotation.key file.entries).bind
          choiceOf?).getD true,
        ((Toml.lastUnder Name.prompt.key file.entries).bind
          textOf?).getD "> "⟩ := by
  have hmade : ∀ settings : Settings, ofSettings settings
      = ⟨value? settings.seed, (value? settings.showNotation).getD true,
        (value? settings.prompt).getD "> "⟩ := by
    rintro ⟨seed, showNotation, prompt⟩
    cases seed <;> cases showNotation <;> cases prompt <;> rfl
  rw [load, hmade, ← value?_ofEntries, ← value?_ofEntries,
    ← value?_ofEntries]
  rfl

/-- The value of a literal is a seed just if the literal is one. -/
theorem bind_seedOf? (literal : Literal) :
    literal.value?.bind seedOf? = seedMeant literal := by
  cases literal with
  | integer negative numeral =>
      show ((Word.signed64? (numeral.toInt negative)).map _).bind seedOf?
        = if 0 ≤ numeral.toInt negative ∧ _ then _ else none
      generalize numeral.toInt negative = n
      cases hword : Word.signed64? n with
      | none =>
          have hrange := Word.fits_iff.not.1
            (Word.signed64?_eq_none_iff.1 hword)
          rw [if_neg (by omega)]
          rfl
      | some w =>
          have hvalue := Word.toInt_of_signed64? hword
          have hrange := Word.fits_iff.1
            ⟨w.minValue_le_toInt, w.toInt_le⟩
          rw [hvalue] at hrange
          have hsign : 0 ≤ w ↔ 0 ≤ n := by
            rw [Int64.le_iff_toInt_le, hvalue]
            rfl
          show (if 0 ≤ w then _ else none) = _
          by_cases hneg : 0 ≤ n
          · rw [if_pos (hsign.2 hneg), if_pos ⟨hneg, by omega⟩, hvalue]
          · rw [if_neg (hsign.not.2 hneg), if_neg fun h => hneg h.1]
  | boolean choice => rfl
  | string pieces => rfl

/-- A setting that takes no integers gets nothing from one, whether it is
in range or not. -/
theorem bind_integer_eq_none {α : Type} {read : Toml.Value → Option α}
    (h : ∀ w, read (.integer w) = none) (negative : Bool)
    (numeral : Toml.Numeral) :
    (Literal.integer negative numeral).value?.bind read = none := by
  show ((Word.signed64? (numeral.toInt negative)).map _).bind read = none
  cases Word.signed64? (numeral.toInt negative) with
  | none => rfl
  | some w => exact h w

theorem bind_choiceOf? (literal : Literal) :
    literal.value?.bind choiceOf? = literal.boolean? := by
  cases literal with
  | integer negative numeral =>
      exact bind_integer_eq_none (fun _ => rfl) negative numeral
  | boolean choice => rfl
  | string pieces => rfl

theorem bind_textOf? (literal : Literal) :
    literal.value?.bind textOf? = promptMeant literal := by
  cases literal with
  | integer negative numeral =>
      exact bind_integer_eq_none (fun _ => rfl) negative numeral
  | boolean choice => rfl
  | string pieces => rfl

-- ============================================================== the law

/-- Settings are independent of each other as long as their values are
in range. In a text of lines for the three settings, in any order and at
most one for each, let every integer be one of 64 bits. Then the seed is
the integer of its line if that is not negative, and there is none
otherwise; notation is shown as the boolean of its line says, and if
there is none it is shown; and the prompt is the string of its line, or
else the usual one. If an integer is beyond 64 bits, whatever setting it
is for, the text is refused and every setting falls back. -/
theorem load_lines {lines : List Line} {text : List Char}
    (hwritten : Written lines text)
    (honce : (lines.map Line.name).Nodup) :
    ((∀ line ∈ lines, line.literal.InRange) →
      load (.content (String.ofList text).toUTF8)
        = ⟨(literalOf .seed lines).bind seedMeant,
          ((literalOf .showNotation lines).bind Literal.boolean?).getD true,
          ((literalOf .prompt lines).bind promptMeant).getD "> "⟩)
    ∧ ((∃ line ∈ lines, ¬ line.literal.InRange) →
      load (.content (String.ofList text).toUTF8) = ⟨none, true, "> "⟩
      ∧ records (.content (String.ofList text).toUTF8)
        = [⟨.warn, "Unable to parse config"⟩]) := by
  have hentries := entriesOf?_of_written hwritten
  constructor
  · intro hrange
    have hsome : (lines.map Line.ofDocument).mapM Toml.Line.entry?
        ≠ none := by
      rw [Ne, mapM_entry?_eq_none_iff]
      rintro ⟨line, hline, hout⟩
      exact hout (hrange line hline)
    obtain ⟨entries, hlines⟩ := Option.ne_none_iff_exists'.1 hsome
    have hlast := lastUnder_key hlines honce
    have hfile : (File.content (String.ofList text).toUTF8).entries
        = entries := by
      rw [File.entries, hentries, hlines, Option.getD_some]
    simp only [load_eq, hfile, hlast, Option.bind_assoc, bind_seedOf?,
      bind_choiceOf?, bind_textOf?]
  · intro hout
    rw [(mapM_entry?_eq_none_iff lines).2 hout] at hentries
    have hfile : (File.content (String.ofList text).toUTF8).entries
        = [] := by
      rw [File.entries, hentries, Option.getD_none]
    constructor
    · rw [load_eq, hfile]
      rfl
    · rw [records, File.records, hentries, hfile]
      rfl

/-- Lines for a prompt of two escapes, for the largest seed there is and
for a choice that is none. -/
def mixedLines : List Line :=
  [⟨.prompt, .string
      [.code false [⟨0, false⟩, ⟨0, false⟩, ⟨4, false⟩, ⟨1, false⟩] rfl
          (by decide),
        .letter 't' '\t' (by decide)]⟩,
    ⟨.seed, .integer false (.ofNat 9223372036854775807)⟩,
    ⟨.showNotation, .string []⟩]

/-- These lines as a text, the first one with a carriage return. -/
def mixedText : List Char :=
  ("prompt = \"\\u0041\\t\"\r\nseed = 9223372036854775807\n"
    ++ "show_notation = \"\"\n").toList

theorem written_mixed : Written mixedLines mixedText := by
  have htext : mixedText
      = "prompt = \"\\u0041\\t\"".toList ++ '\r' :: '\n'
        :: ("seed = 9223372036854775807".toList ++ '\n'
          :: ("show_notation = \"\"".toList ++ '\n' :: [])) := by
    decide
  rw [htext]
  exact .returnFeed _ (.feed _ (.feed _ .nil))

/-- Lines for a seed beyond a signed word and for a prompt. -/
def largeSeedLines : List Line :=
  [⟨.seed, .integer false (.ofNat 9223372036854775808)⟩,
    ⟨.prompt, .string
      [.plain '?' ⟨.inr (by decide), by decide, by decide, by decide⟩]⟩]

/-- These lines as a text. -/
def largeSeedText : List Char :=
  "seed = 9223372036854775808\nprompt = \"?\"".toList

theorem written_largeSeed : Written largeSeedLines largeSeedText := by
  have htext : largeSeedText
      = "seed = 9223372036854775808".toList
        ++ '\n' :: "prompt = \"?\"".toList := by
    decide
  rw [htext]
  exact .feed _ (.last _)

/-- A choice that is none costs neither the seed nor the prompt; a seed
beyond a signed word costs everything. -/
theorem load_of_mixed_lines :
    (Written mixedLines mixedText
      ∧ (mixedLines.map Line.name).Nodup
      ∧ (∀ line ∈ mixedLines, line.literal.InRange)
      ∧ load (.content (String.ofList mixedText).toUTF8)
        = ⟨some 9223372036854775807, true, "A\t"⟩)
    ∧ Written largeSeedLines largeSeedText
      ∧ (largeSeedLines.map Line.name).Nodup
      ∧ (∃ line ∈ largeSeedLines, ¬ line.literal.InRange)
      ∧ load (.content (String.ofList largeSeedText).toUTF8)
        = ⟨none, true, "> "⟩ := by
  have hmixed : (mixedLines.map Line.name).Nodup := by decide
  have hrange : ∀ line ∈ mixedLines, line.literal.InRange := by
    decide +kernel
  have hlarge : (largeSeedLines.map Line.name).Nodup := by decide
  have hout : ∃ line ∈ largeSeedLines, ¬ line.literal.InRange := by
    decide +kernel
  refine ⟨⟨written_mixed, hmixed, hrange, ?_⟩,
    written_largeSeed, hlarge, hout, ?_⟩
  · rw [(load_lines written_mixed hmixed).1 hrange]
    decide +kernel
  · exact ((load_lines written_largeSeed hlarge).2 hout).1

/-- A prompt can be lost to the line of the seed: its own line is as it
should be, and yet the prompt is the usual one. -/
theorem prompt_lost_to_seed :
    Written largeSeedLines largeSeedText
      ∧ (largeSeedLines.map Line.name).Nodup
      ∧ (literalOf .prompt largeSeedLines).bind promptMeant = some "?"
      ∧ (load (.content (String.ofList largeSeedText).toUTF8)).prompt
        = "> " := by
  refine ⟨written_largeSeed, by decide, by decide, ?_⟩
  decide +kernel

end DiceNotation.Config
