import ReplicaControl.Document
import ReplicaControl.Text.Digits
import ReplicaControl.Text.Quoted

/-!
# Documents in JSON

* `Document.render` — the JSON text of a document, with two more blanks on each level of nesting.
-/

namespace ReplicaControl.Document

/-- A character as it stands in a JSON text. -/
def jsonChar (c : Char) : List Char :=
  match c with
  | '"' => ['\\', '"']
  | '\\' => ['\\', '\\']
  | '\x08' => ['\\', 'b']
  | '\x0c' => ['\\', 'f']
  | '\n' => ['\\', 'n']
  | '\r' => ['\\', 'r']
  | '\t' => ['\\', 't']
  | c =>
    if c.toNat < 0x20 then
      ['\\', 'u', '0', '0', Text.hexChar (c.toNat / 16), Text.hexChar (c.toNat % 16)]
    else [c]

/-- A text in JSON. -/
def jsonText (s : String) : String := "\"" ++ String.ofList (s.toList.flatMap jsonChar) ++ "\""

/-- A new line with the blanks of a level. -/
def newLine (level : Nat) : String := "\n" ++ String.ofList (List.replicate (2 * level) ' ')

/-- Lines between brackets; nothing stands between the brackets of no lines. -/
def bracketed (left right : String) (level : Nat) (lines : List String) : String :=
  if lines = [] then left ++ right
  else
    left ++ newLine (level + 1) ++ String.intercalate ("," ++ newLine (level + 1)) lines ++
      newLine level ++ right

mutual

/-- The JSON text of a document on a level. -/
def renderAt (level : Nat) : Document → String
  | .null => "null"
  | .bool b => if b then "true" else "false"
  | .int n => Text.decimal n
  | .other => "null"
  | .text s => jsonText s
  | .list items => bracketed "[" "]" level (renderItems (level + 1) items)
  | .table fields => bracketed "\x7b" "\x7d" level (renderFields (level + 1) fields)

/-- The JSON texts of several documents. -/
def renderItems (level : Nat) : List Document → List String
  | [] => []
  | d :: rest => renderAt level d :: renderItems level rest

/-- The JSON texts of several fields. -/
def renderFields (level : Nat) : List (String × Document) → List String
  | [] => []
  | (name, d) :: rest => (jsonText name ++ ": " ++ renderAt level d) :: renderFields level rest

end

/-- The JSON text of a document. -/
def render (d : Document) : String := renderAt 0 d

end ReplicaControl.Document
