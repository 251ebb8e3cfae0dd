/-
Sections: what a document of TOML consists of. A section is a header and
the entries behind it; the entries before any header are a section with
an empty path. Headers lead to tables, and this module puts the tables
together.

Sections are read in their order. The first one that leads below a key
opens what stands under it, and all others that lead there, wherever
they stand, belong to it. A header in double brackets opens an array of
tables: each further one of the same path starts the next table of the
array, and the sections between belong to the table before them.

A table must not be opened twice, neither by two headers of one path nor
by brackets of both kinds. One thing remains: a table that starts with
the key of dates is a date, and the other sections that belong to it are
left over. In an array they go to the next table of it. Elsewhere they
are read once more, as if they were the first ones below their key;
inside a table the key then comes twice, which is refused, while among
the entries of the document it may.
-/
import DiceNotation.Toml.Draft

namespace DiceNotation.Toml

-- ============================================================ the type

/-- A header and the entries behind it. -/
structure Section where
  /-- The keys that lead to the table of the section. -/
  path : List Key
  /-- Whether the header stands in double brackets. -/
  isArray : Bool
  entries : List (Key × Draft)

namespace Section

-- ============================================================== moving

/-- A section as seen from below a key, if it leads there. -/
def below? (key : Key) (next : Section) : Option Section :=
  match next.path with
  | [] => none
  | first :: path =>
      if first = key then some { next with path } else none

/-- A section as seen from above a key. -/
def above (key : Key) (next : Section) : Section :=
  { next with path := key :: next.path }

/-- The sections that lead below a key. -/
def allBelow (key : Key) (sections : List Section) : List Section :=
  sections.filterMap (below? key)

/-- The sections that do not lead below a key. -/
def allBeside (key : Key) (sections : List Section) : List Section :=
  sections.filter fun next => (below? key next).isNone

/-- Whether a section starts the next table of the array it is in. -/
def isElement (next : Section) : Bool :=
  next.isArray && next.path.isEmpty

/-- The path of the section that counts as the opener of a table after
another section of it: the shorter one of the two. Before any section,
there is none. -/
def nearer (opener : Option (List Key)) (path : List Key) : List Key :=
  match opener with
  | none => path
  | some opener =>
      if path.length < opener.length then path else opener

-- ============================================================= reading

mutual

/-- The table that sections make, the first of which opens it, and the
sections that are left over. -/
def table : Nat → List Section → Option (Value × List Section)
  | 0, _ => none
  | _, [] => none
  | fuel + 1, first :: rest =>
      match first.path, dateUnder? first.entries with
      | [], some draft => draft.date?.map (·, rest)
      | _, _ =>
          ((entriesOf fuel none (first :: rest)).bind
            Value.ofEntries?).map (·, [])

/-- The tables of an array from one of them on, where sections are left
over from the one before, and the sections left over from the last. -/
def tables : Nat → List Section → List Section →
    Option (List Value × List Section)
  | _, left, [] => some ([], left)
  | 0, _, _ :: _ => none
  | fuel + 1, left, first :: rest =>
      let inside := rest.takeWhile fun next => !next.isElement
      let behind := rest.dropWhile fun next => !next.isElement
      match table fuel
          ({ first with isArray := false } :: (left ++ inside)) with
      | none => none
      | some (value, left) =>
          (tables fuel left behind).map fun (values, left) =>
            (value :: values, left)

/-- The entries of a table, whose opener so far has a given path. -/
def entriesOf : Nat → Option (List Key) → List Section →
    Option (List (Key × Value))
  | _, _, [] => some []
  | 0, _, _ :: _ => none
  | fuel + 1, opener, first :: rest =>
      if opener = some first.path then none
      else
        let opener := some (nearer opener first.path)
        match first.path with
        | [] =>
            if first.isArray then none
            else
              match entryValues? first.entries,
                  entriesOf fuel opener rest with
              | some own, some more => some (own ++ more)
              | _, _ => none
        | key :: path =>
            let group := allBelow key (first :: rest)
            let found :=
              if first.isArray && path.isEmpty then
                (tables fuel [] group).map fun (values, left) =>
                  (Value.array values, left)
              else table fuel group
            match found with
            | none => none
            | some (value, left) =>
                (entriesOf fuel opener
                  (left.map (above key) ++ allBeside key rest)).map
                  ((key, value) :: ·)

end

-- =========================================================== documents

/-- How much there is to read in sections. -/
def weight : List Section → Nat
  | [] => 0
  | next :: rest => next.path.length + 1 + weight rest

/-- The entries of the document that sections make. A section without a
header counts if it has entries. Three steps for each key of a path and
each section are enough. -/
def documentEntries? (sections : List Section) :
    Option (List (Key × Value)) :=
  let sections :=
    match sections with
    | ⟨[], false, []⟩ :: rest => rest
    | _ => sections
  entriesOf (3 * weight sections + 3) none sections

end Section

end DiceNotation.Toml
