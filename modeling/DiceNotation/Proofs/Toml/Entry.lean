/-
Documents without tables: lines with a key, an equals sign and a literal
each. What such a document means is settled line by line: every line
gives its own entry, in the order of the lines, if the literal of every
line is in range, and one literal out of range leaves the document
without any meaning (`ofText?_of_written`).

# From text to tokens to entries

A line is five tokens, and they are the same tokens whatever line
follows (`TokensOf.line`). A carriage return in front of a line feed is
gone before the text is cut, and no line holds another one. Tokens are
then read line by line: the entry of a line is added behind those read
already, which is the invariant of the one induction that is needed
(`sections_of_tokenLines`).

# Fuel

Cutting a text takes a step for each token, and reading takes one for
each line; a line has more characters than tokens, and a token at least.
`TokensOf` asks for no more fuel than the text is long, so lines can be
put together without counting.
-/
import DiceNotation.Proofs.Toml.Literal

namespace DiceNotation.Toml

-- ================================================================ lines

/-- A line of a document: a bare key and a literal. -/
structure Line where
  key : Key
  key_ne_nil : key ≠ []
  key_word : ∀ c ∈ key, Token.isWordChar c = true
  literal : Literal

namespace Line

/-- A line as it is written, without its end. -/
def written (line : Line) : List Char :=
  line.key ++ ([' ', '=', ' '] ++ line.literal.written)

/-- The entry that a line gives, if its literal is in range. -/
def entry? (line : Line) : Option (Key × Value) :=
  line.literal.value?.map (line.key, ·)

end Line

/-- Lines as the text of a document. Each ends with a line feed or with a
carriage return and a line feed; the last one may have no end. -/
inductive Written : List Line → List Char → Prop
  | nil : Written [] []
  | last (line : Line) : Written [line] line.written
  | feed (line : Line) {lines : List Line} {text : List Char}
      (rest : Written lines text) :
      Written (line :: lines) (line.written ++ '\n' :: text)
  | returnFeed (line : Line) {lines : List Line} {text : List Char}
      (rest : Written lines text) :
      Written (line :: lines) (line.written ++ '\r' :: '\n' :: text)

-- ========================================================= line endings

theorem Literal.return_not_mem_written (literal : Literal) :
    '\r' ∉ literal.written := by
  cases literal with
  | integer negative numeral =>
      exact Numeral.not_mem_word (by decide) (by decide)
  | boolean choice =>
      cases choice with
      | false => decide
      | true => decide
  | string pieces =>
      have hpieces : '\r' ∉ pieces.flatMap Piece.written := by
        intro h
        obtain ⟨piece, -, hmem⟩ := List.mem_flatMap.1 h
        exact piece.return_not_mem_written hmem
      simp [written, hpieces]

theorem Line.return_not_mem_written (line : Line) :
    '\r' ∉ line.written := by
  have hkey : '\r' ∉ line.key := fun h =>
    absurd (line.key_word '\r' h) (by decide)
  simp [written, hkey, line.literal.return_not_mem_written]

/-- Where no carriage return is, the text stays as it is. -/
theorem Token.foldLineEnds_append {front : List Char} (h : '\r' ∉ front)
    (rest : List Char) :
    foldLineEnds (front ++ rest) = front ++ foldLineEnds rest := by
  induction front with
  | nil => rfl
  | cons c front ih =>
      obtain ⟨hc, hfront⟩ := List.ne_and_not_mem_of_not_mem_cons h
      rw [List.cons_append, foldLineEnds, ih hfront]
      · rfl
      · exact fun _ heq _ => hc heq.symm

-- =============================================================== tokens

/-- The tokens of a text, given a step for each of its characters. -/
def TokensOf (text : List Char) (tokens : List Token) : Prop :=
  ∀ fuel, text.length ≤ fuel → Token.readAll fuel text = some tokens

theorem TokensOf.nil : TokensOf [] [] := by
  intro fuel _
  cases fuel with
  | zero => rfl
  | succ fuel => rfl

/-- What a token is read from stands in front of the tokens of what is
left. -/
theorem TokensOf.cons {front rest : List Char} {token : Token}
    {tokens : List Token} (hne : front ≠ [])
    (hread : Token.read (front ++ rest) = some (token, rest))
    (h : TokensOf rest tokens) :
    TokensOf (front ++ rest) (token :: tokens) := by
  intro fuel hfuel
  have hpos := List.length_pos_iff.2 hne
  rw [List.length_append] at hfuel
  cases fuel with
  | zero => omega
  | succ fuel =>
      obtain ⟨c, text, htext⟩ := List.exists_cons_of_ne_nil
        (List.append_ne_nil_of_left_ne_nil hne rest)
      rw [htext] at hread ⊢
      simp only [Token.readAll, hread, h fuel (by omega), Option.map_some]

/-- The tokens of a line. -/
def Line.tokens (line : Line) : List Token :=
  [.word line.key, .blank [' '], .equals, .blank [' '],
    line.literal.token]

/-- No literal starts with a blank. -/
theorem Literal.written_eq_cons (literal : Literal) :
    ∃ c rest, literal.written = c :: rest
      ∧ Quoted.isLineBlank c = false := by
  cases literal with
  | integer negative numeral =>
      obtain ⟨c, rest, hword, hc, -⟩ := numeral.word_eq_cons negative
      refine ⟨c, rest, hword, ?_⟩
      rcases hc with rfl | hdigit
      · decide
      · simp only [Quoted.isLineBlank, Bool.or_eq_false_iff, beq_eq_false_iff_ne]
        constructor
        · rintro rfl
          exact absurd hdigit (by decide)
        · rintro rfl
          exact absurd hdigit (by decide)
  | boolean choice =>
      cases choice with
      | false => exact ⟨'f', _, rfl, by decide⟩
      | true => exact ⟨'t', _, rfl, by decide⟩
  | string pieces => exact ⟨'"', _, rfl, by decide⟩

/-- A blank in front of another character is one token. -/
theorem Token.read_blank {rest : List Char} (h : ∀ c, rest.head? = some c →
      Quoted.isLineBlank c = false) :
    read (' ' :: rest) = some (.blank [' '], rest) := by
  obtain ⟨htake, hdrop⟩ :=
    takeWhile_dropWhile_append (List.forall_mem_nil _) h
  rw [List.nil_append] at htake hdrop
  simp only [read, mark?]
  rw [if_pos (by decide), htake, hdrop]
  rfl

/-- A line that ends is cut into its tokens. -/
theorem TokensOf.line (line : Line) {rest : List Char}
    {tokens : List Token} (hend : AtLineEnd rest)
    (h : TokensOf rest tokens) :
    TokensOf (line.written ++ rest) (line.tokens ++ tokens) := by
  obtain ⟨c, run, hliteral, hblank⟩ := line.literal.written_eq_cons
  have hmark : ∀ c : Char, [c] ≠ [] := fun c => List.cons_ne_nil c []
  have hvalue : TokensOf (line.literal.written ++ rest)
      (line.literal.token :: tokens) :=
    .cons (by rw [hliteral]; exact List.cons_ne_nil _ _)
      (line.literal.read_written hend) h
  have hbehind : TokensOf (' ' :: (line.literal.written ++ rest))
      (.blank [' '] :: line.literal.token :: tokens) := by
    refine .cons (hmark ' ') (Token.read_blank ?_) hvalue
    rw [hliteral]
    rintro d hd
    cases hd
    exact hblank
  have hequals : TokensOf ('=' :: ' ' :: (line.literal.written ++ rest))
      (.equals :: .blank [' '] :: line.literal.token :: tokens) :=
    .cons (hmark '=') rfl hbehind
  have hbefore : TokensOf
      (' ' :: '=' :: ' ' :: (line.literal.written ++ rest))
      (.blank [' '] :: .equals :: .blank [' '] :: line.literal.token
        :: tokens) := by
    refine .cons (hmark ' ') (Token.read_blank ?_) hequals
    rintro d hd
    cases hd
    decide
  have hkey := TokensOf.cons line.key_ne_nil (Token.read_word
    line.key_ne_nil line.key_word (by
      rintro d hd
      cases hd
      decide)) hbefore
  have hwritten : line.written ++ rest
      = line.key ++ ' ' :: '=' :: ' ' :: (line.literal.written ++ rest) := by
    simp [Line.written]
  rw [hwritten]
  exact hkey

/-- The tokens of a document, line by line. -/
inductive TokenLines : List Line → List Token → Prop
  | nil : TokenLines [] []
  | last (line : Line) : TokenLines [line] line.tokens
  | more (line : Line) {lines : List Line} {tokens : List Token}
      (rest : TokenLines lines tokens) :
      TokenLines (line :: lines) (line.tokens ++ .newline :: tokens)

theorem TokenLines.length_le {lines : List Line} {tokens : List Token}
    (h : TokenLines lines tokens) : lines.length ≤ tokens.length := by
  induction h with
  | nil => exact Nat.le_refl _
  | last line => simp [Line.tokens]
  | more line rest ih =>
      simp only [List.length_cons, List.length_append]
      omega

/-- A document is cut into the tokens of its lines, whichever way the
lines end. -/
theorem Written.exists_tokens {lines : List Line} {text : List Char}
    (h : Written lines text) :
    ∃ tokens, TokenLines lines tokens
      ∧ TokensOf (Token.foldLineEnds text) tokens := by
  have hfeed : ∀ (line : Line) {text : List Char} {tokens : List Token},
      TokensOf text tokens →
      TokensOf (line.written ++ '\n' :: text)
        (line.tokens ++ .newline :: tokens) := by
    intro line text tokens htokens
    exact .line line (atLineEnd_feed text)
      (.cons (List.cons_ne_nil '\n' []) rfl htokens)
  induction h with
  | nil => exact ⟨[], .nil, .nil⟩
  | last line =>
      refine ⟨line.tokens, .last line, ?_⟩
      have hfold := Token.foldLineEnds_append line.return_not_mem_written []
      have hline := TokensOf.line line atLineEnd_nil .nil
      rw [List.append_nil] at hfold hline
      rw [hfold, Token.foldLineEnds, List.append_nil]
      rwa [List.append_nil] at hline
  | feed line rest ih =>
      obtain ⟨tokens, hlines, htokens⟩ := ih
      refine ⟨_, .more line hlines, ?_⟩
      rw [Token.foldLineEnds_append line.return_not_mem_written]
      exact hfeed line htokens
  | returnFeed line rest ih =>
      obtain ⟨tokens, hlines, htokens⟩ := ih
      refine ⟨_, .more line hlines, ?_⟩
      rw [Token.foldLineEnds_append line.return_not_mem_written]
      exact hfeed line htokens

/-- A document does not start with a mark of byte order. -/
theorem Written.dropByteOrder {lines : List Line} {text : List Char}
    (h : Written lines text) : Token.dropByteOrder text = text := by
  have hline : ∀ (line : Line) (rest : List Char),
      Token.dropByteOrder (line.written ++ rest)
        = line.written ++ rest := by
    intro line rest
    obtain ⟨c, key, hkey⟩ := List.exists_cons_of_ne_nil line.key_ne_nil
    have hc := line.key_word c (by simp [hkey])
    rw [Line.written, hkey]
    unfold Token.dropByteOrder
    split
    · next heq =>
        injection heq with heq
        rw [heq] at hc
        exact absurd hc (by decide)
    · rfl
  cases h with
  | nil => rfl
  | last line =>
      have := hline line []
      rwa [List.append_nil] at this
  | feed line rest => exact hline line _
  | returnFeed line rest => exact hline line _

/-- A document has the tokens of its lines. -/
theorem Written.exists_ofText? {lines : List Line} {text : List Char}
    (h : Written lines text) :
    ∃ tokens, TokenLines lines tokens
      ∧ Token.ofText? text = some tokens := by
  obtain ⟨tokens, hlines, htokens⟩ := h.exists_tokens
  refine ⟨tokens, hlines, ?_⟩
  unfold Token.ofText?
  rw [h.dropByteOrder]
  exact htokens _ (Nat.le_refl _)

-- ============================================================== entries

/-- An entry as it is written. -/
def scalarEntry (entry : Key × Value) : Key × Draft :=
  (entry.1, .scalar entry.2)

/-- The tokens of a line are read as its entry, and with them the end of
the line. -/
theorem entry_line (line : Line) {tokens : List Token}
    (h : LineOver tokens) :
    entry (line.tokens ++ tokens)
      = line.entry?.map fun entry =>
        (([entry.1], .scalar entry.2), tokens.tail) := by
  have hvalue := line.literal.value_token
    (2 * (.blank [' '] :: line.literal.token :: tokens).length) h
  have hskip : skipBlank (.blank [' '] :: line.literal.token :: tokens)
      = line.literal.token :: tokens := by
    cases line.literal with
    | integer negative numeral => rfl
    | boolean choice => rfl
    | string pieces => rfl
  have hend : lineEnd tokens = some ((), tokens.tail) := by
    obtain rfl | ⟨rest, rfl⟩ := h.eq_nil_or_cons
    · rfl
    · rfl
  have hpath : path (line.tokens ++ tokens)
      = some ([line.key],
        .equals :: .blank [' '] :: line.literal.token :: tokens) := rfl
  unfold entry
  rw [hpath]
  simp only [hskip, hvalue, Line.entry?]
  cases line.literal.value? with
  | none => rfl
  | some v => simp only [Option.map_some, hend]

/-- An entry of one key is added behind the others. -/
theorem addEntry_single (key : Key) (content : Draft)
    (sofar : List (Key × Draft)) :
    addEntry [key] content sofar = some (sofar ++ [(key, content)]) := by
  cases sofar with
  | nil => rfl
  | cons first sofar => rfl

/-- A line adds its entry to the section it stands in, or the document is
refused. -/
theorem sections_line (line : Line) {tokens : List Token}
    (h : LineOver tokens) (fuel : Nat) (sofar : List (Key × Draft)) :
    sections (fuel + 1) [] false sofar (line.tokens ++ tokens)
      = line.entry?.bind fun entry =>
        sections fuel [] false (sofar ++ [scalarEntry entry])
          tokens.tail := by
  have hentry := entry_line line h
  have hfiller : skipFiller (line.tokens ++ tokens)
      = .word line.key :: (line.tokens.tail ++ tokens) := rfl
  have hcons : line.tokens ++ tokens
      = .word line.key :: (line.tokens.tail ++ tokens) := rfl
  rw [sections, hfiller]
  simp only [← hcons, hentry]
  cases line.entry? with
  | none => rfl
  | some entry =>
      simp only [Option.map_some, addEntry_single, Option.bind_some]
      rfl

/-- Lines are read one after another into one section: their entries come
behind those read before, unless a line gives none. -/
theorem sections_of_tokenLines {lines : List Line} {tokens : List Token}
    (h : TokenLines lines tokens) {fuel : Nat}
    (hfuel : lines.length < fuel) (sofar : List (Key × Draft)) :
    sections fuel [] false sofar tokens
      = (lines.mapM Line.entry?).map fun entries =>
        [⟨[], false, sofar ++ entries.map scalarEntry⟩] := by
  induction h generalizing fuel sofar with
  | nil =>
      obtain ⟨fuel, rfl⟩ := Nat.exists_eq_add_one_of_ne_zero
        (Nat.ne_of_gt hfuel)
      simp [sections, skipFiller]
  | last line =>
      obtain ⟨fuel, rfl⟩ : ∃ n, fuel = n + 2 :=
        ⟨fuel - 2, by simp at hfuel; omega⟩
      have hline := sections_line line lineOver_nil (fuel + 1) sofar
      rw [List.append_nil] at hline
      rw [hline]
      cases hentry : line.entry? with
      | none => simp [hentry]
      | some entry => simp [hentry, sections, skipFiller]
  | @more line others _ rest ih =>
      obtain ⟨fuel, rfl⟩ : ∃ n, fuel = n + 1 :=
        ⟨fuel - 1, by simp at hfuel; omega⟩
      rw [sections_line line (lineOver_newline _)]
      rw [List.length_cons] at hfuel
      cases hentry : line.entry? with
      | none => simp [hentry]
      | some entry =>
          rw [Option.bind_some, List.tail_cons, ih (by omega)]
          cases hmore : others.mapM Line.entry? with
          | none => simp [hentry, hmore]
          | some entries => simp [hentry, hmore]

-- ============================================================ documents

/-- Entries of scalars mean what they say. -/
theorem entryValues?_map_scalarEntry (entries : List (Key × Value)) :
    entryValues? (entries.map scalarEntry) = some entries := by
  induction entries with
  | nil => rfl
  | cons entry entries ih =>
      rw [List.map_cons, scalarEntry, entryValues?, ih]
      rfl

/-- One section without a header is its entries. -/
theorem documentEntries?_single (entries : List (Key × Value)) :
    Section.documentEntries? [⟨[], false, entries.map scalarEntry⟩]
      = some entries := by
  cases entries with
  | nil => rfl
  | cons entry entries =>
      have hvalues := entryValues?_map_scalarEntry (entry :: entries)
      rw [List.map_cons] at hvalues ⊢
      show Section.entriesOf 6 none
        [⟨[], false, scalarEntry entry :: entries.map scalarEntry⟩] = _
      simp [Section.entriesOf, hvalues]

/-- A document of lines means the entries of its lines, in their order,
and nothing at all if one of the lines gives none. -/
theorem ofText?_of_written {lines : List Line} {text : List Char}
    (h : Written lines text) : ofText? text = lines.mapM Line.entry? := by
  obtain ⟨tokens, hlines, htokens⟩ := h.exists_ofText?
  have hsections := sections_of_tokenLines hlines
    (Nat.lt_add_one_of_le hlines.length_le) []
  unfold ofText? sectionsOf?
  rw [htokens]
  show (sections (tokens.length + 1) [] false [] tokens).bind
    Section.documentEntries? = _
  rw [hsections]
  cases lines.mapM Line.entry? with
  | none => rfl
  | some entries => exact documentEntries?_single entries

end DiceNotation.Toml
