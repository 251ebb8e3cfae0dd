/-
The configuration. It comes from a file that may be absent, unreadable
or no TOML, and has three settings, each with a value to fall back on.
A file that cannot be used counts as empty. A setting with a value of
the wrong kind falls back on its own and leaves the others alone.
-/
import DiceNotation.Record
import DiceNotation.Text.Quoted
import DiceNotation.Toml.Document

namespace DiceNotation

-- ============================================================= settings

/-- What a configuration says of one setting. -/
inductive Setting (α : Type) where
  /-- Nothing. -/
  | unset
  | set (value : α)
  /-- A value of the wrong kind. -/
  | malformed
deriving DecidableEq, Repr

namespace Setting

variable {α : Type}

/-- The setting under a key, if values are read in a given way. -/
def ofEntries (read : Toml.Value → Option α) (key : Toml.Key)
    (entries : List (Toml.Key × Toml.Value)) : Setting α :=
  match Toml.lastUnder key entries with
  | none => .unset
  | some value =>
      match read value with
      | none => .malformed
      | some value => .set value

/-- The value of a setting, or the one to fall back on. -/
def getD (setting : Setting α) (fallback : α) : α :=
  match setting with
  | .set value => value
  | _ => fallback

/-- A warning if the setting is malformed. -/
def warning (setting : Setting α) (text : String) : List Record :=
  match setting with
  | .malformed => [⟨.warn, text⟩]
  | _ => []

end Setting

-- ======================================================= configuration

/-- The settings of the program. -/
structure Config where
  /-- The seed of the source; without one the source is unpredictable. -/
  seed : Option UInt64
  /-- Whether the notation of a roll is shown beside its outcome. -/
  showNotation : Bool
  /-- What is shown when a line is asked for. -/
  prompt : String
deriving DecidableEq, Repr

namespace Config

/-- The configuration to fall back on. -/
def fallback : Config := ⟨none, true, "> "⟩

/-- A configuration file, as far as it could be read. -/
inductive File where
  /-- No file is given. -/
  | absent
  /-- The file cannot be read. -/
  | unreadable
  | content (bytes : ByteArray)

/-- The seed that a value is: an integer that is not negative. -/
def seedOf? : Toml.Value → Option UInt64
  | .integer n =>
      if 0 ≤ n then some (UInt64.ofNat n.toInt.toNat) else none
  | _ => none

/-- The choice that a value is. -/
def choiceOf? : Toml.Value → Option Bool
  | .boolean choice => some choice
  | _ => none

/-- The text that a value is. -/
def textOf? : Toml.Value → Option String
  | .string text => some (String.ofList text)
  | _ => none

/-- What a configuration says of its three settings. -/
structure Settings where
  seed : Setting UInt64
  showNotation : Setting Bool
  prompt : Setting String

/-- The settings among the entries of a document. -/
def Settings.ofEntries (entries : List (Toml.Key × Toml.Value)) :
    Settings where
  seed := .ofEntries seedOf? "seed".toList entries
  showNotation := .ofEntries choiceOf? "show_notation".toList entries
  prompt := .ofEntries textOf? "prompt".toList entries

/-- The entries of a configuration text. -/
def entriesOf? (bytes : ByteArray) :
    Option (List (Toml.Key × Toml.Value)) :=
  (String.fromUTF8? bytes).bind fun text => Toml.ofText? text.toList

/-- The entries that a file counts for. -/
def File.entries : File → List (Toml.Key × Toml.Value)
  | .content bytes => (entriesOf? bytes).getD []
  | _ => []

/-- The configuration that settings make. -/
def ofSettings (settings : Settings) : Config where
  seed :=
    match settings.seed with
    | .set seed => some seed
    | _ => none
  showNotation := settings.showNotation.getD fallback.showNotation
  prompt := settings.prompt.getD fallback.prompt

/-- The configuration of a file. -/
def load (file : File) : Config :=
  ofSettings (.ofEntries file.entries)

-- ============================================================== records

/-- The warnings about settings of the wrong kind. -/
def Settings.warnings (settings : Settings) : List Record :=
  settings.seed.warning
      "unable to read seed, rolling with an entropy seeded rng"
    ++ settings.showNotation.warning
      "unable to read show_notation, overwriting with true"
    ++ settings.prompt.warning
      ("unable to read prompt, overwriting with "
        ++ Text.quoteString fallback.prompt)

/-- The records of a file itself: whether it is there, can be read and
is TOML. The two warnings are cut behind their fixed words: the path of
the file and the reason that the system or the reader of TOML gives,
which the program puts there, are left out. -/
def File.records : File → List Record
  | .absent => [⟨.debug, "no config file given, using defaults"⟩]
  | .unreadable => [⟨.warn, "Unable to read config file"⟩]
  | .content bytes =>
      match entriesOf? bytes with
      | some _ => []
      | none => [⟨.warn, "Unable to parse config"⟩]

/-- The records of loading a file. -/
def records (file : File) : List Record :=
  file.records ++ (Settings.ofEntries file.entries).warnings

end Config

end DiceNotation
