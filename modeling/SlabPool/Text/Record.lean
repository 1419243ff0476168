/-!
# Records as text

A value is described by a tree: a word, a record with named fields, or a value wrapped in a single
name. Such a tree has two texts. The compact one stands on a single line; the spread one gives each
field a line of its own, four spaces deeper than the line that opens the record, and ends every
field with a comma.

A record that does not name all there is to know about its value ends in two dots in place of a
further field.
-/

namespace SlabPool.Text

/-- What is to be said of a value. -/
inductive Record where
  /-- A word that stands for itself. -/
  | word (text : String)
  /-- One unnamed part behind a name. -/
  | wrapped (name : String) (part : Record)
  /-- Named parts; `complete` says whether they are all. -/
  | fields (name : String) (parts : List (String × Record)) (complete : Bool)
  deriving Inhabited

namespace Record

def number (n : Nat) : Record :=
  .word (toString n)

def truth (b : Bool) : Record :=
  .word (if b then "true" else "false")

def optional : Option Record → Record
  | none => .word "None"
  | some part => .wrapped "Some" part

mutual

def compact : Record → String
  | .word text => text
  | .wrapped name part => name ++ "(" ++ compact part ++ ")"
  | .fields name parts complete =>
    let listed := compactFields parts
    let all := if complete then listed else listed ++ [".."]
    if all.isEmpty then name else name ++ " \x7b " ++ ", ".intercalate all ++ " \x7d"

def compactFields : List (String × Record) → List String
  | [] => []
  | (name, part) :: rest => (name ++ ": " ++ compact part) :: compactFields rest

end

/-- The line break and the blanks that open a line `depth` levels in. -/
def newline (depth : Nat) : String :=
  "\n" ++ String.ofList (List.replicate (4 * depth) ' ')

mutual

/-- The text over several lines, for a value that begins on a line `depth` levels in. -/
def spread (depth : Nat) : Record → String
  | .word text => text
  | .wrapped name part =>
    name ++ "(" ++ newline (depth + 1) ++ spread (depth + 1) part ++ "," ++ newline depth ++ ")"
  | .fields name parts complete =>
    let listed := spreadFields depth parts
    let all := if complete then listed else listed ++ newline (depth + 1) ++ ".."
    if all.isEmpty then name else name ++ " \x7b" ++ all ++ newline depth ++ "\x7d"

/-- Each named part on a line of its own. -/
def spreadFields (depth : Nat) : List (String × Record) → String
  | [] => ""
  | (name, part) :: rest =>
    newline (depth + 1) ++ name ++ ": " ++ spread (depth + 1) part ++ ","
      ++ spreadFields depth rest

end

/-- The text of a description, on one line or spread over several. -/
def render (pretty : Bool) (record : Record) : String :=
  if pretty then record.spread 0 else record.compact

/-! ## Both texts of one record -/

private def sample : Record :=
  .fields "Shelf" [("length", .number 4), ("left", .optional (some (.word "book")))] false

example : sample.render false = "Shelf \x7b length: 4, left: Some(book), .. \x7d" := rfl

example : sample.render true =
    "Shelf \x7b\n    length: 4,\n    left: Some(\n        book,\n    ),\n    ..\n\x7d" := rfl

end Record

end SlabPool.Text
