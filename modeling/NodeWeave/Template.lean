import NodeWeave.Json.Writer
import NodeWeave.Value.Display

/-!
# Templates

A template is program text with placeholders such as `$` followed by a name in
braces.  Texts are lists of characters here.

* `substitute` puts a text in place of every placeholder of a name.
* `splice` puts a block in place of every placeholder of a name and gives all
  lines of the block the indentation of the placeholder.
* `strip` takes away the placeholders that nothing filled.

All three go over the template once from left to right and never look again at
what they have put in.
-/

namespace NodeWeave.Template

/-- The placeholder of a name. -/
def placeholder (name : List Char) : List Char :=
  '$' :: '\x7b' :: name ++ ['\x7d']

/-- The pieces of a text between the occurrences of a mark, which are found from
left to right without overlap.  `skip` characters still belong to an occurrence,
and `piece` holds the current piece, its last character first. -/
def splitFrom (mark : List Char) (skip : Nat) (piece : List Char) : List Char → List (List Char)
  | [] => [piece.reverse]
  | c :: rest =>
    match skip with
    | n + 1 => splitFrom mark n piece rest
    | 0 =>
      if mark.isPrefixOf (c :: rest) then piece.reverse :: splitFrom mark (mark.length - 1) [] rest
      else splitFrom mark 0 (c :: piece) rest

/-- The pieces of a text between the occurrences of a mark. -/
def split (mark text : List Char) : List (List Char) :=
  splitFrom mark 0 [] text

/-- Puts a text in place of every placeholder of a name. -/
def substitute (template name text : List Char) : List Char :=
  text.intercalate (split (placeholder name) template)

/-- The front of a text that a rule takes, by its length, and what it puts
there. -/
structure Cut where
  taken : Nat
  put : List Char

/-- Applies a rule wherever it fits, from left to right; `skip` characters have
been taken already. -/
def applyFrom (rule : List Char → Option Cut) (skip : Nat) : List Char → List Char
  | [] => []
  | c :: rest =>
    match skip with
    | n + 1 => applyFrom rule n rest
    | 0 =>
      match rule (c :: rest) with
      | some cut => cut.put ++ applyFrom rule (cut.taken - 1) rest
      | none => c :: applyFrom rule 0 rest

/-- Applies a rule wherever it fits, from left to right. -/
def apply (rule : List Char → Option Cut) (text : List Char) : List Char :=
  applyFrom rule 0 text

/-- A blank that can indent a line. -/
def isIndent (c : Char) : Bool :=
  c == ' ' || c == '\t'

/-- The lines of a text. -/
def lines (text : List Char) : List (List Char) :=
  split ['\n'] text

/-- Every line of a block behind an indentation. -/
def indentBlock (indent block : List Char) : List Char :=
  ['\n'].intercalate ((lines block).map (indent ++ ·))

/-- What a block becomes behind a line break, if there was one, and an
indentation.  An empty block leaves nothing of them. -/
def placeBlock (newline indent block : List Char) : List Char :=
  if block.isEmpty then [] else newline ++ indentBlock indent block

/-- Takes the placeholder of a name with the indentation and the line break
before it and puts a block there. -/
def spliceRule (name block : List Char) (text : List Char) : Option Cut :=
  let newline := match text with
    | '\n' :: _ => ['\n']
    | _ => []
  let after := text.drop newline.length
  let indent := after.takeWhile isIndent
  let mark := placeholder name
  if mark.isPrefixOf (after.drop indent.length) then
    some ⟨newline.length + indent.length + mark.length, placeBlock newline indent block⟩
  else none

/-- Puts a block in place of every placeholder of a name. -/
def splice (template name block : List Char) : List Char :=
  apply (spliceRule name block) template

/-- The name in the placeholder at the front of a text, if one stands there.  A
name is not empty and ends at the first closing brace. -/
def placeholderName? : List Char → Option (List Char)
  | '$' :: '\x7b' :: rest =>
    let name := rest.takeWhile (· != '\x7d')
    if name.isEmpty || (rest.drop name.length).isEmpty then none else some name
  | _ => none

/-- Takes a placeholder away. -/
def dropRule (text : List Char) : Option Cut :=
  (placeholderName? text).map fun name => ⟨name.length + 3, []⟩

/-- Takes a placeholder away that stands first on a line, with the line break
and the indentation before it. -/
def dropLineRule : List Char → Option Cut
  | '\n' :: rest =>
    let indent := rest.takeWhile isIndent
    (placeholderName? (rest.drop indent.length)).map fun name =>
      ⟨1 + indent.length + name.length + 3, []⟩
  | _ => none

/-- Takes away what nothing filled: first the placeholders at the start of a
line together with the line break, then all others. -/
def strip (template : List Char) : List Char :=
  apply dropRule (apply dropLineRule template)

/-- The names of all placeholders from left to right; `skip` characters belong
to the last one found. -/
def placeholdersFrom (skip : Nat) : List Char → List (List Char)
  | [] => []
  | c :: rest =>
    match skip with
    | n + 1 => placeholdersFrom n rest
    | 0 =>
      match placeholderName? (c :: rest) with
      | some name => name :: placeholdersFrom (name.length + 2) rest
      | none => placeholdersFrom 0 rest

/-- The names of all placeholders. -/
def placeholders (template : List Char) : List (List Char) :=
  placeholdersFrom 0 template

/-- A value as program text: lists and objects as compact JSON, truth values in
lower case, whole doubles without a fraction part. -/
def renderValue (v : Value) : String :=
  match v with
  | .list _ => Json.compact v
  | .obj _ => Json.compact v
  | .bool b => if b then "true" else "false"
  | .float f =>
    match Binary64.whole? f with
    | some n => toString n
    | none => v.text
  | v => v.text

end NodeWeave.Template
