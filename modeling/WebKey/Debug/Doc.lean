/-
Documents for debug texts, and their two layouts.

The compact layout is one line. The pretty layout puts every field, item and entry on a
line of its own, indented by four blanks a level and followed by a comma.

* **`Debug.Doc`** — what a debug text consists of;
* **`Debug.Doc.compact`** and **`Debug.Doc.pretty`** — the layouts;
* **`Debug.quoted`** — text in quotes, where backslash, quote, and the characters that are
  not printable are escaped.
-/
import WebKey.Debug.Printable

namespace WebKey.Debug

/-! ### Quoted text -/

/-- A character inside quotes. -/
def escape (c : Char) : List Char :=
  if c = '"' then ['\\', '"']
  else if c = '\\' then ['\\', '\\']
  else if c = '\n' then ['\\', 'n']
  else if c = '\r' then ['\\', 'r']
  else if c = '\t' then ['\\', 't']
  else if c = '\x00' then ['\\', '0']
  else if isPrintable c then [c]
  else ['\\', 'u', '\x7b'] ++ Nat.toDigits 16 c.toNat ++ ['\x7d']

/-- Text in quotes. -/
def quoted (text : String) : String :=
  String.ofList ('"' :: text.toList.flatMap escape ++ ['"'])

/-! ### Documents -/

/-- What a debug text consists of. -/
inductive Doc where
  /-- text without structure -/
  | atom (text : String)
  /-- a record with all its fields -/
  | record (name : String) (fields : List (String × Doc))
  /-- a record that shows none of its fields -/
  | withheld (name : String)
  /-- a list -/
  | list (items : List Doc)
  /-- a table with texts as keys -/
  | table (entries : List (String × Doc))
  /-- a document with a word in front -/
  | tagged (tag : String) (body : Doc)

namespace Doc

/-- Quoted text. -/
def text (s : String) : Doc := .atom (quoted s)

/-- A truth value. -/
def flag (b : Bool) : Doc := .atom (if b then "true" else "false")

/-- What stands in the place of a secret. -/
def redacted : Doc := .atom "<redacted>"

mutual

/-- The layout in one line. -/
def compact : Doc → String
  | .atom text => text
  | .record name [] => name
  | .record name fields =>
    name ++ " \x7b " ++ String.intercalate ", " (compactFields fields) ++ " \x7d"
  | .withheld name => name ++ " \x7b .. \x7d"
  | .list items => "[" ++ String.intercalate ", " (compactItems items) ++ "]"
  | .table entries => "\x7b" ++ String.intercalate ", " (compactEntries entries) ++ "\x7d"
  | .tagged tag body => tag ++ " " ++ compact body

def compactItems : List Doc → List String
  | [] => []
  | item :: rest => compact item :: compactItems rest

def compactFields : List (String × Doc) → List String
  | [] => []
  | (name, value) :: rest => (name ++ ": " ++ compact value) :: compactFields rest

def compactEntries : List (String × Doc) → List String
  | [] => []
  | (key, value) :: rest => (quoted key ++ ": " ++ compact value) :: compactEntries rest

end

/-- One level of indentation more. -/
def indent (margin : String) : String := margin ++ "    "

mutual

/-- The layout in lines, each but the first after a margin. -/
def prettyAt (margin : String) : Doc → String
  | .atom text => text
  | .record name [] => name
  | .record name fields =>
    name ++ " \x7b\n" ++ prettyFields (indent margin) fields ++ margin ++ "\x7d"
  | .withheld name => name ++ " \x7b .. \x7d"
  | .list [] => "[]"
  | .list items => "[\n" ++ prettyItems (indent margin) items ++ margin ++ "]"
  | .table [] => "\x7b\x7d"
  | .table entries => "\x7b\n" ++ prettyEntries (indent margin) entries ++ margin ++ "\x7d"
  | .tagged tag body => tag ++ " " ++ prettyAt margin body

def prettyItems (margin : String) : List Doc → String
  | [] => ""
  | item :: rest => margin ++ prettyAt margin item ++ ",\n" ++ prettyItems margin rest

def prettyFields (margin : String) : List (String × Doc) → String
  | [] => ""
  | (name, value) :: rest =>
    margin ++ name ++ ": " ++ prettyAt margin value ++ ",\n" ++ prettyFields margin rest

def prettyEntries (margin : String) : List (String × Doc) → String
  | [] => ""
  | (key, value) :: rest =>
    margin ++ quoted key ++ ": " ++ prettyAt margin value ++ ",\n" ++ prettyEntries margin rest

end

/-- The layout in lines. -/
def pretty (doc : Doc) : String := prettyAt "" doc

end Doc

end WebKey.Debug
