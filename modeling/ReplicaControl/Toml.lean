import ReplicaControl.Toml.Scalar
import ReplicaControl.Toml.Tree

/-!
# Reading TOML

* `Toml.value?` — a value: a text, an array, an inline table or a scalar.
* `Toml.read?` — the document of a file, or nothing if the file breaks the grammar or defines a name
  twice.
-/

namespace ReplicaControl.Toml

/-- Whether a character can stand in a scalar without quotes. -/
def isScalarChar (c : Char) : Bool :=
  c.isAlphanum || c == '_' || c == '+' || c == '-' || c == '.' || c == ':'

/-- A scalar without quotes.  A date and a time may have a blank between them. -/
def bareScalar? (cs : List Char) : Option (Document × List Char) :=
  let lexeme := cs.takeWhile isScalarChar
  let rest := cs.dropWhile isScalarChar
  match rest with
  | ' ' :: after =>
    if isDate lexeme && isOffsetTime (after.takeWhile isScalarChar) then
      some (.other, after.dropWhile isScalarChar)
    else (scalar? lexeme).map fun d => (d, rest)
  | _ => (scalar? lexeme).map fun d => (d, rest)

mutual

/-- A value, with a bound on its depth and length. -/
def valueFor? : Nat → List Char → Option (Document × List Char)
  | 0, _ => none
  | n + 1, cs =>
    match cs with
    | '[' :: rest =>
      match skipGaps false rest with
      | none => none
      | some rest => (itemsFor? n rest).map fun p => (.list p.1, p.2)
    | '\x7b' :: rest =>
      match skipBlanks rest with
      | '\x7d' :: rest => some (.table [], rest)
      | rest =>
        (pairsFor? n [] rest).map fun p => ((Node.table .header p.1).toDocument, p.2)
    | _ =>
      match text? cs with
      | some (s, rest) => some (.text (String.ofList s), rest)
      | none => bareScalar? cs

/-- The items of an array up to its end. -/
def itemsFor? : Nat → List Char → Option (List Document × List Char)
  | 0, _ => none
  | n + 1, cs =>
    match cs with
    | ']' :: rest => some ([], rest)
    | _ =>
      match valueFor? n cs with
      | none => none
      | some (d, rest) =>
        match skipGaps false rest with
        | some (',' :: rest) =>
          match skipGaps false rest with
          | none => none
          | some rest => (itemsFor? n rest).map fun p => (d :: p.1, p.2)
        | some (']' :: rest) => some ([d], rest)
        | _ => none

/-- The pairs of an inline table up to its end. -/
def pairsFor? : Nat → Fields → List Char → Option (Fields × List Char)
  | 0, _, _ => none
  | n + 1, fields, cs =>
    match key? cs with
    | some (key, '=' :: rest) =>
      match valueFor? n (skipBlanks rest) with
      | none => none
      | some (d, rest) =>
        match insertValue key d .header fields with
        | none => none
        | some fields =>
          match skipBlanks rest with
          | ',' :: rest => pairsFor? n fields (skipBlanks rest)
          | '\x7d' :: rest => some (fields, rest)
          | _ => none
    | _ => none

end

/-- A value. -/
def value? (cs : List Char) : Option (Document × List Char) := valueFor? (2 * cs.length + 2) cs

/-- A file that is being read: its table, and the path of the last header. -/
abbrev State := Fields × List String

/-- What a header adds, and the characters after its line. -/
def header? (cs : List Char) (state : State) : Option (State × List Char) :=
  match cs with
  | '[' :: '[' :: rest =>
    match key? (skipBlanks rest) with
    | some (path, ']' :: ']' :: rest) =>
      match openArray path state.1, lineEnd? rest with
      | some fields, some rest => some ((fields, path), rest)
      | _, _ => none
    | _ => none
  | '[' :: rest =>
    match key? (skipBlanks rest) with
    | some (path, ']' :: rest) =>
      match openTable path state.1, lineEnd? rest with
      | some fields, some rest => some ((fields, path), rest)
      | _, _ => none
    | _ => none
  | _ => none

/-- What a pair adds, and the characters after its line. -/
def pair? (cs : List Char) (state : State) : Option (State × List Char) :=
  match key? cs with
  | some (key, '=' :: rest) =>
    match value? (skipBlanks rest) with
    | none => none
    | some (d, rest) =>
      match insertIn state.2 key d state.1, lineEnd? rest with
      | some fields, some rest => some ((fields, state.2), rest)
      | _, _ => none
  | _ => none

/-- What an expression adds: nothing, a header or a pair. -/
def expression? (cs : List Char) (state : State) : Option (State × List Char) :=
  match skipBlanks cs with
  | '[' :: rest => header? ('[' :: rest) state
  | cs =>
    match lineEnd? cs with
    | some rest => some (state, rest)
    | none => pair? cs state

/-- What the expressions of a file add, with a bound on their number. -/
def expressionsFor? : Nat → List Char → State → Option State
  | 0, _, _ => none
  | _ + 1, [], state => some state
  | n + 1, cs, state =>
    match expression? cs state with
    | none => none
    | some (state, rest) => expressionsFor? n rest state

/-- A text without the mark of its encoding. -/
def withoutMark : List Char → List Char
  | '\ufeff' :: cs => cs
  | cs => cs

/-- The document of a file. -/
def read? (s : String) : Option Document :=
  let cs := withoutMark s.toList
  (expressionsFor? (cs.length + 1) cs ([], [])).map fun state =>
    (Node.table .header state.1).toDocument

end ReplicaControl.Toml
