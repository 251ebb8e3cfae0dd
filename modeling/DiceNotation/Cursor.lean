/-
Cursors. A cursor is a place in a text: it remembers what is left to
read there and nothing else. What is done with a cursor may move it. A
rule may also fail, and where it does the cursor stands wherever the
rule had got to by then; to come back from there, someone must have kept
the cursor from before (`checkpoint`, `restore`).

# Following a reader

A rule follows a reader if it finds what the reader finds and leaves the
cursor at what the reader leaves, and if, where the reader finds
nothing, it fails and leaves the cursor where it was (`Follows`). The
second half is the one that a rule has to work for. Parts of a rule that
are done one behind the other need only fail where the readers do, and
may leave the cursor anywhere (`Tracks`); it is attempting all of them
together that makes up for it (`Follows.attempt`).
-/
import DiceNotation.Reader

namespace DiceNotation

/-- A place in a text: what is left to read there. -/
structure Cursor where
  rest : List Char
deriving DecidableEq, Repr

namespace Cursor

-- =============================================================== doing

/-- What is done with a cursor, which it may move. -/
abbrev Action (α : Type) := StateM Cursor α

/-- What is done with a cursor and may fail. It leaves the cursor
somewhere also if it fails. Actions under `OptionT` are no other, but
those would be actions themselves, and a failure could pass for an
answer. -/
structure Rule (α : Type) where
  run : Cursor → Option α × Cursor

/-- Rules are done one behind the other up to the first one that fails,
and the cursor stays where that one has left it. -/
instance : Monad Rule where
  pure v := ⟨fun cursor => (some v, cursor)⟩
  bind rule next := ⟨fun cursor =>
    match rule.run cursor with
    | (some v, after) => (next v).run after
    | (none, after) => (none, after)⟩

/-- An action is a rule that does not fail. -/
instance : MonadLift Action Rule where
  monadLift action := ⟨fun cursor =>
    let (v, after) := action.run cursor
    (some v, after)⟩

namespace Rule

/-- A value or a failure that needs no cursor. -/
def ofOption {α : Type} (v : Option α) : Rule α :=
  ⟨fun cursor => (v, cursor)⟩

/-- Fails. -/
def fail {α : Type} : Rule α := ofOption none

/-- Takes a failure for an answer. -/
def optional {α : Type} (rule : Rule α) : Action (Option α) := rule.run

end Rule

/-- What is left to read. -/
def remaining : Action (List Char) := return (← get).rest

/-- The place to come back to. -/
def checkpoint : Action Cursor := get

/-- Goes back to a place. -/
def restore (mark : Cursor) : Action Unit := set mark

/-- Moves on to where a text is left. -/
def moveTo (rest : List Char) : Action Unit := set (Cursor.mk rest)

/-- Does what may fail, and goes back to the start if it does. -/
def attempt {α : Type} (rule : Rule α) : Rule α := do
  let mark ← checkpoint
  match ← rule.optional with
  | some v => return v
  | none =>
      restore mark
      .fail

-- ============================================================== reading

/-- Passes over blanks. -/
def skipBlank : Action Unit := do
  moveTo (Text.skipBlank (← remaining))

/-- Passes over blanks and tells whether nothing is left. -/
def isExhausted : Action Bool := do
  skipBlank
  return (← remaining).isEmpty

/-- Reads behind the blanks that come next, and moves the cursor behind
what was read, if anything was. -/
def scan {α : Type} (read : Reader α) : Rule α := do
  match read (Text.skipBlank (← remaining)) with
  | some (v, rest) =>
      moveTo rest
      return v
  | none => .fail

/-- An unsigned number. -/
def readUnsigned : Rule UInt32 :=
  scan fun text => (Decimal.readWord text).toOption

/-- Passes over an expected text, in either case, if it comes next. -/
def consumeLiteral (expected : List Char) : Action Bool := do
  return (← (scan (Reader.sameLetters expected)).optional).isSome

/-- Passes over an expected text and fails if it does not come next. -/
def expect (expected : List Char) : Rule Unit := do
  unless ← consumeLiteral expected do .fail

/-- Passes over a sign: what a number behind it is multiplied by. -/
def readSign : Rule Int := do
  if ← consumeLiteral ['+'] then return 1
  if ← consumeLiteral ['-'] then return (-1)
  .fail

/-- The number behind a sign; if there is none, the cursor goes back to a
place in front of the sign. -/
def readBehindSign (mark : Cursor) (sign : Int) : Rule Int := do
  match ← readUnsigned.optional with
  | some n => return sign * n.toNat
  | none =>
      restore mark
      .fail

/-- An integer, whose sign may be left out and may stand apart from the
digits. -/
def readSigned : Rule Int := do
  let mark ← checkpoint
  match ← readSign.optional with
  | some sign => readBehindSign mark sign
  | none => return (← readUnsigned).toNat

/-- A value that is checked once it is read, or what stands for it if
there is none. -/
def readChecked {α β : Type} (rule : Rule α) (check : α → Option β)
    (absent : Option β) : Rule β := do
  match ← rule.optional with
  | some v => .ofOption (check v)
  | none => .ofOption absent

-- =========================================================== following

/-- Where a cursor at a text is left by a read: behind what was found, or
where it was. -/
def leave {α : Type} (text : List Char) :
    Option (α × List Char) → Option α × Cursor
  | some (v, rest) => (some v, ⟨rest⟩)
  | none => (none, ⟨text⟩)

/-- A rule that finds what a reader finds and moves the cursor as far,
and leaves it where it was if there is nothing to find. -/
def Follows {α : Type} (rule : Rule α) (read : Reader α) : Prop :=
  ∀ text, rule.run ⟨text⟩ = leave text (read text)

/-- A rule that finds what a reader finds and moves the cursor as far,
and fails, wherever it stops, if there is nothing to find. -/
structure Tracks {α : Type} (rule : Rule α) (read : Reader α) : Prop where
  found : ∀ {text v rest}, read text = some (v, rest) →
    rule.run ⟨text⟩ = (some v, ⟨rest⟩)
  missed : ∀ {text}, read text = none → (rule.run ⟨text⟩).1 = none

section

variable {α β : Type} {rule : Rule α} {read : Reader α}

theorem run_bind (rule : Rule α) (next : α → Rule β) (cursor : Cursor) :
    (rule >>= next).run cursor
      = match rule.run cursor with
        | (some v, after) => (next v).run after
        | (none, after) => (none, after) := rfl

theorem run_lift_bind (action : Action α) (next : α → Rule β)
    (cursor : Cursor) :
    ((liftM action : Rule α) >>= next).run cursor
      = (next (action.run cursor).1).run (action.run cursor).2 := rfl

/-- A rule that fails is not gone on from. -/
theorem run_bind_of_missed {cursor : Cursor}
    (h : (rule.run cursor).1 = none) (next : α → Rule β) :
    ((rule >>= next).run cursor).1 = none := by
  rw [run_bind]
  generalize rule.run cursor = ran at h
  obtain ⟨found, after⟩ := ran
  cases h
  rfl

theorem Follows.tracks (h : Follows rule read) : Tracks rule read where
  found hread := by rw [h, hread]; rfl
  missed hread := by rw [h, hread]; rfl

/-- Behind what a rule has found, the reader has left the text where the
cursor is. -/
theorem Follows.read_of_found (h : Follows rule read)
    {cursor after : Cursor} {v : α}
    (hrun : rule.run cursor = (some v, after)) :
    read cursor.rest = some (v, after.rest) := by
  have hleft : leave cursor.rest (read cursor.rest) = (some v, after) :=
    (h cursor.rest).symm.trans hrun
  cases hread : read cursor.rest with
  | none =>
      rw [hread] at hleft
      cases hleft
  | some result =>
      rw [hread] at hleft
      cases hleft
      rfl

/-- What is attempted does not move the cursor if it fails. -/
theorem run_attempt (rule : Rule α) (cursor : Cursor) :
    (attempt rule).run cursor
      = match rule.run cursor with
        | (some v, after) => (some v, after)
        | (none, _) => (none, cursor) := by
  have hmark : checkpoint.run cursor = (cursor, cursor) := rfl
  have hrun : rule.optional.run cursor = rule.run cursor := rfl
  unfold attempt
  rw [run_lift_bind, hmark, run_lift_bind, hrun]
  obtain ⟨found, after⟩ := rule.run cursor
  cases found with
  | none => rfl
  | some v => rfl

/-- Attempting makes up for a failure that stops anywhere. -/
theorem Follows.attempt (h : Tracks rule read) :
    Follows (attempt rule) read := by
  intro text
  rw [run_attempt]
  cases hread : read text with
  | none =>
      have hmissed := h.missed hread
      generalize rule.run ⟨text⟩ = ran at hmissed
      obtain ⟨found, after⟩ := ran
      cases hmissed
      rfl
  | some result =>
      rw [h.found hread]
      rfl

/-- A value that needs no reading. -/
theorem Tracks.pure (v : α) : Tracks (pure v) (Reader.found v) where
  found hread := by cases hread; rfl
  missed hread := by cases hread

/-- One rule behind another, which may hang on what that has found. -/
theorem Tracks.bind {next : α → Rule β} {nextRead : α → Reader β}
    (h : Tracks rule read) (hnext : ∀ v, Tracks (next v) (nextRead v)) :
    Tracks (rule >>= next) (read.andThen nextRead) where
  found hread := by
    obtain ⟨v, middle, hfirst, hsecond⟩ :=
      Reader.andThen_eq_some_iff.1 hread
    rw [run_bind, h.found hfirst]
    exact (hnext v).found hsecond
  missed {text} hread := by
    unfold Reader.andThen at hread
    split at hread
    · next hfirst =>
        exact run_bind_of_missed (h.missed hfirst) next
    · next v middle hfirst =>
        rw [run_bind, h.found hfirst]
        exact (hnext v).missed hread

/-- A check may fail behind what was read. -/
theorem Follows.checked (h : Follows rule read) (check : α → Option β)
    (absent : Option β) :
    Tracks (readChecked rule check absent)
      (read.checked check absent) := by
  have hrun : ∀ text, (readChecked rule check absent).run ⟨text⟩
      = match read text with
        | some (v, rest) => (check v, ⟨rest⟩)
        | none => (absent, ⟨text⟩) := by
    intro text
    have hoptional : rule.optional.run ⟨text⟩ = leave text (read text) :=
      h text
    unfold readChecked
    rw [run_lift_bind, hoptional]
    cases read text with
    | none => rfl
    | some result => rfl
  constructor
  · intro text v rest hread
    rw [hrun]
    obtain ⟨w, hfound, hcheck⟩ | ⟨hnone, habsent, rfl⟩ :=
      Reader.checked_eq_some_iff.1 hread
    · rw [hfound, ← hcheck]
    · rw [hnone, ← habsent]
  · intro text hread
    rw [hrun]
    unfold Reader.checked at hread
    split at hread
    · next hnone =>
        rw [hnone]
        exact Option.map_eq_none_iff.1 hread
    · next hfound =>
        rw [hfound]
        exact Option.map_eq_none_iff.1 hread

theorem scan_follows (read : Reader α) :
    Follows (scan read) fun text => read (Text.skipBlank text) := by
  intro text
  have hleft : remaining.run ⟨text⟩ = (text, ⟨text⟩) := rfl
  unfold scan
  rw [run_lift_bind, hleft]
  dsimp only
  cases read (Text.skipBlank text) with
  | none => rfl
  | some result => rfl

end

-- ============================================================= literals

theorem consumeLiteral_of_some {expected text rest : List Char}
    (h : Reader.literal expected text = some ((), rest)) :
    (consumeLiteral expected).run ⟨text⟩ = (true, ⟨rest⟩) := by
  have hscan := (scan_follows _).tracks.found h
  show (((scan _).run ⟨text⟩).1.isSome, ((scan _).run ⟨text⟩).2) = _
  rw [hscan]
  rfl

theorem consumeLiteral_of_none {expected text : List Char}
    (h : Reader.literal expected text = none) :
    (consumeLiteral expected).run ⟨text⟩ = (false, ⟨text⟩) := by
  have hscan : (scan (Reader.sameLetters expected)).run ⟨text⟩
      = leave text none := by
    rw [← h]
    exact scan_follows _ text
  show (((scan _).run ⟨text⟩).1.isSome, ((scan _).run ⟨text⟩).2) = _
  rw [hscan]
  rfl

/-- An expected text that was passed over has been read. -/
theorem literal_of_consumeLiteral {expected : List Char}
    {cursor after : Cursor}
    (h : (consumeLiteral expected).run cursor = (true, after)) :
    Reader.literal expected cursor.rest = some ((), after.rest) := by
  cases hread : Reader.literal expected cursor.rest with
  | none =>
      have hnone := (consumeLiteral_of_none hread).symm.trans h
      cases hnone
  | some result =>
      have hsome := (consumeLiteral_of_some hread).symm.trans h
      cases hsome
      rfl

theorem expect_follows (expected : List Char) :
    Follows (expect expected) (Reader.literal expected) := by
  intro text
  unfold expect
  rw [run_lift_bind]
  cases hread : Reader.literal expected text with
  | none =>
      rw [consumeLiteral_of_none hread]
      rfl
  | some result =>
      rw [consumeLiteral_of_some hread]
      rfl

-- ============================================================= numbers

theorem readUnsigned_follows : Follows readUnsigned Reader.unsigned :=
  scan_follows _

/-- A sign is a plus or else a minus. -/
theorem run_readSign (text : List Char) :
    readSign.run ⟨text⟩
      = match Reader.letter '+' text with
        | some ((), rest) => (some 1, ⟨rest⟩)
        | none =>
            match Reader.letter '-' text with
            | some ((), rest) => (some (-1), ⟨rest⟩)
            | none => (none, ⟨text⟩) := by
  unfold readSign Reader.letter
  rw [run_lift_bind]
  cases hplus : Reader.literal ['+'] text with
  | some result =>
      rw [consumeLiteral_of_some hplus]
      rfl
  | none =>
      rw [consumeLiteral_of_none hplus]
      show ((liftM (consumeLiteral ['-']) : Rule Bool) >>= _).run ⟨text⟩ = _
      rw [run_lift_bind]
      cases hminus : Reader.literal ['-'] text with
      | some result =>
          rw [consumeLiteral_of_some hminus]
          rfl
      | none =>
          rw [consumeLiteral_of_none hminus]
          rfl

/-- A number behind a sign takes the sign, and without a number the
cursor goes back. -/
theorem run_readBehindSign (text rest : List Char) (sign : Int) :
    (readBehindSign ⟨text⟩ sign).run ⟨rest⟩
      = leave text ((Reader.unsigned rest).map fun (n, rest) =>
          (sign * n.toNat, rest)) := by
  have hnumber : readUnsigned.optional.run ⟨rest⟩
      = leave rest (Reader.unsigned rest) := readUnsigned_follows rest
  unfold readBehindSign
  rw [run_lift_bind, hnumber]
  cases Reader.unsigned rest with
  | none => rfl
  | some result => rfl

theorem readSigned_follows : Follows readSigned Reader.signed := by
  intro text
  have hmark : checkpoint.run ⟨text⟩ = (⟨text⟩, ⟨text⟩) := rfl
  have hsign : readSign.optional.run ⟨text⟩ = readSign.run ⟨text⟩ := rfl
  unfold readSigned Reader.signed
  rw [run_lift_bind, hmark, run_lift_bind, hsign, run_readSign]
  cases Reader.letter '+' text with
  | some result =>
      have hbehind := run_readBehindSign text result.2 1
      simp only [Int.one_mul] at hbehind
      exact hbehind
  | none =>
      cases Reader.letter '-' text with
      | some result =>
          have hbehind := run_readBehindSign text result.2 (-1)
          simp only [Int.neg_one_mul] at hbehind
          exact hbehind
      | none =>
          show (readUnsigned >>= _).run ⟨text⟩ = _
          rw [run_bind, readUnsigned_follows]
          cases Reader.unsigned text with
          | none => rfl
          | some result => rfl

end Cursor

end DiceNotation
