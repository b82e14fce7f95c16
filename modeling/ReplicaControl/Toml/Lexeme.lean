import ReplicaControl.Text.Digits

/-!
# Lexemes of TOML

* `Toml.skipBlanks`, `skipGaps`, `lineEnd?` — spaces and tabs, what may stand between the items of
  an array, and the end of a line with its comment.
* `Toml.basicBody?`, `literalBody?` — the rest of a text after its opening quotes.  A basic text has
  escapes.  Either sort may run over lines if it opened with three quotes; then up to two quotes may
  stand before the closing three.
* `Toml.text?` — a text with its quotes.
* `Toml.key?` — a key: bare or quoted names with points between them.
-/

namespace ReplicaControl.Toml

/-- Whether a character separates lexemes within a line. -/
def isBlank (c : Char) : Bool := c == ' ' || c == '\t'

/-- Whether a character may stand for itself in a text or comment: a tab, or not a control. -/
def isPlain (c : Char) : Bool := c == '\t' || (0x20 ≤ c.toNat && c.toNat != 0x7f)

/-- Drops blanks. -/
def skipBlanks (cs : List Char) : List Char := cs.dropWhile isBlank

/-- Drops the characters of a comment. -/
def skipComment : List Char → List Char
  | '#' :: cs => cs.dropWhile isPlain
  | cs => cs

/-- Drops a line break. -/
def lineBreak? : List Char → Option (List Char)
  | '\n' :: cs => some cs
  | '\r' :: '\n' :: cs => some cs
  | _ => none

/-- Drops what may follow an expression on its line, and the line break. -/
def lineEnd? (cs : List Char) : Option (List Char) :=
  match skipComment (skipBlanks cs) with
  | [] => some []
  | rest => lineBreak? rest

/-- Drops blanks, line breaks and comments. -/
def skipGaps (inComment : Bool) : List Char → Option (List Char)
  | [] => some []
  | '\n' :: cs => skipGaps false cs
  | '\r' :: '\n' :: cs => skipGaps false cs
  | c :: cs =>
    if inComment then if isPlain c then skipGaps true cs else none
    else if isBlank c then skipGaps false cs
    else if c = '#' then skipGaps true cs
    else some (c :: cs)

/-! ## Texts -/

/-- A text and the characters after it. -/
abbrev Read := Option (List Char × List Char)

/-- Puts a character in front of a text. -/
def Read.cons (c : Char) (r : Read) : Read := r.map fun p => (c :: p.1, p.2)

/-- The apostrophe. -/
def apostrophe : Char := '\x27'

/-- What three or more quotes mean in a text over lines: up to two of them are text.  The quotes
after the first three are given with what follows. -/
def closing (quoteMark : Char) : List Char → List Char × List Char
  | a :: b :: rest =>
    if a = quoteMark ∧ b = quoteMark then ([a, b], rest)
    else if a = quoteMark then ([a], b :: rest)
    else ([], a :: b :: rest)
  | [a] => if a = quoteMark then ([a], []) else ([], [a])
  | [] => ([], [])

/-- The rest of a literal text. -/
def literalBody? (multi : Bool) : List Char → Read
  | [] => none
  | c :: cs =>
    if c = apostrophe then
      if multi then
        match cs with
        | a :: b :: rest =>
          if a = apostrophe ∧ b = apostrophe then some (closing apostrophe rest)
          else Read.cons c (literalBody? multi cs)
        | _ => none
      else some ([], cs)
    else if isPlain c then Read.cons c (literalBody? multi cs)
    else if multi && c == '\n' then Read.cons c (literalBody? multi cs)
    else if multi && c == '\r' && cs.head? == some '\n' then literalBody? multi cs
    else none

/-- Where a basic text stands. -/
inductive Mode where
  /-- At a character; after an escaped line break, blanks and line breaks are dropped. -/
  | plain (skipping : Bool)
  /-- After a carriage return. -/
  | returned (skipping : Bool)
  /-- After a backslash. -/
  | escaped
  /-- After a backslash and blanks. -/
  | breaking
  /-- In the digits of an escape. -/
  | hex (left value : Nat)

/-- The character that a letter stands for after a backslash. -/
def escape? (c : Char) : Option Char :=
  match c with
  | 'b' => some '\x08'
  | 't' => some '\t'
  | 'n' => some '\n'
  | 'f' => some '\x0c'
  | 'r' => some '\r'
  | '"' => some '"'
  | '\\' => some '\\'
  | _ => none

/-- The value of a hexadecimal digit. -/
def hexValue? (c : Char) : Option Nat :=
  if c.isDigit then some (c.toNat - 48)
  else if 'a' ≤ c ∧ c ≤ 'f' then some (c.toNat - 87)
  else if 'A' ≤ c ∧ c ≤ 'F' then some (c.toNat - 55)
  else none

/-- The rest of a basic text. -/
def basicBody? (multi : Bool) : Mode → List Char → Read
  | _, [] => none
  | .plain skipping, c :: cs =>
    if c = '"' then
      if multi then
        match cs with
        | a :: b :: rest =>
          if a = '"' ∧ b = '"' then some (closing '"' rest)
          else Read.cons c (basicBody? multi (.plain false) cs)
        | _ => none
      else some ([], cs)
    else if c = '\\' then basicBody? multi .escaped cs
    else if multi && c == '\n' then
      if skipping then basicBody? multi (.plain true) cs
      else Read.cons c (basicBody? multi (.plain false) cs)
    else if multi && c == '\r' then basicBody? multi (.returned skipping) cs
    else if skipping && isBlank c then basicBody? multi (.plain true) cs
    else if isPlain c then Read.cons c (basicBody? multi (.plain false) cs)
    else none
  | .returned skipping, c :: cs =>
    if c = '\n' then
      if skipping then basicBody? multi (.plain true) cs
      else Read.cons c (basicBody? multi (.plain false) cs)
    else none
  | .escaped, c :: cs =>
    match escape? c with
    | some x => Read.cons x (basicBody? multi (.plain false) cs)
    | none =>
      if c = 'u' then basicBody? multi (.hex 4 0) cs
      else if c = 'U' then basicBody? multi (.hex 8 0) cs
      else if multi && isBlank c then basicBody? multi .breaking cs
      else if multi && c == '\n' then basicBody? multi (.plain true) cs
      else if multi && c == '\r' then basicBody? multi (.returned true) cs
      else none
  | .breaking, c :: cs =>
    if isBlank c then basicBody? multi .breaking cs
    else if c = '\n' then basicBody? multi (.plain true) cs
    else if c = '\r' then basicBody? multi (.returned true) cs
    else none
  | .hex left value, c :: cs =>
    match hexValue? c with
    | none => none
    | some d =>
      let value := value * 16 + d
      if 1 < left then basicBody? multi (.hex (left - 1) value) cs
      else if value.isValidChar then
        Read.cons (Char.ofNat value) (basicBody? multi (.plain false) cs)
      else none

/-- Drops a line break right after the opening quotes. -/
def skipFirstBreak (cs : List Char) : List Char := (lineBreak? cs).getD cs

/-- A text on one line. -/
def lineText? : List Char → Read
  | c :: cs =>
    if c = '"' then basicBody? false (.plain false) cs
    else if c = apostrophe then literalBody? false cs
    else none
  | [] => none

/-- A text. -/
def text? (cs : List Char) : Read :=
  match cs with
  | a :: b :: c :: rest =>
    if a = '"' ∧ b = '"' ∧ c = '"' then basicBody? true (.plain false) (skipFirstBreak rest)
    else if a = apostrophe ∧ b = apostrophe ∧ c = apostrophe then
      literalBody? true (skipFirstBreak rest)
    else lineText? cs
  | _ => lineText? cs

/-! ## Keys -/

/-- Whether a character can stand in a bare key. -/
def isBare (c : Char) : Bool := c.isAlphanum || c == '-' || c == '_'

/-- One part of a key. -/
def simpleKey? (cs : List Char) : Read :=
  let bare := cs.takeWhile isBare
  if bare = [] then lineText? cs else some (bare, cs.dropWhile isBare)

/-- The parts of a key, with a bound on their number, and what follows the blanks after them. -/
def keyParts? : Nat → List Char → Option (List String × List Char)
  | 0, _ => none
  | n + 1, cs =>
    match simpleKey? cs with
    | none => none
    | some (part, rest) =>
      match skipBlanks rest with
      | '.' :: rest =>
        (keyParts? n (skipBlanks rest)).map fun p => (String.ofList part :: p.1, p.2)
      | rest => some ([String.ofList part], rest)

/-- A key, and what follows the blanks after it. -/
def key? (cs : List Char) : Option (List String × List Char) := keyParts? (cs.length + 1) cs

end ReplicaControl.Toml
