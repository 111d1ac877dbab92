import NodeWeave.Json.Reader
import NodeWeave.Text.Utf8
import NodeWeave.Value.Display
import NodeWeave.Value.Writable

/-!
# Faults

Everything that can go wrong, one constructor for each cause, with the wording
in `Fault.message`.  Three groups:

* data of the wrong shape, where an operation has no meaning for the value it
  met (`unsuitable`, `notObject`, `missingField`, `outOfRange`, `tooDeep`);
* files that cannot be read or written;
* all the rest, where the data were understood and refused.  `Fault.isRefusal`
  tells this last group from the others, and loading a document reports
  refusals entry by entry while it hands the other faults on.
-/

namespace NodeWeave

/-- What is wrong with the outline of a graph document. -/
inductive OutlineFault where
  | notObject
  | noNodes
  | nodesNotList
  | connectionsNotList
  | notText (field : String)
  deriving DecidableEq

/-- The wording of an outline fault. -/
def OutlineFault.message : OutlineFault → String
  | notObject => "graph document must be a JSON object at the top level"
  | noNodes => "graph root: missing required field 'nodes'"
  | nodesNotList => "nodes must be a list"
  | connectionsNotList => "connections must be a list"
  | notText field => s!"{field} must be a string"

/-- The part of a date and time that is out of bounds. -/
inductive ClockFault where
  | year (given : Int)
  | month
  | day
  | hour
  | minute
  | second
  | microsecond
  /-- The distance from universal time, in microseconds, is a day or more. -/
  | offset (given : Int)
  deriving DecidableEq

/-- A span of microseconds as days, seconds of a day and microseconds of a
second, of which those that are zero are left out. -/
def spanText (span : Int) : String :=
  let seconds := span / 1000000
  let part (name : String) (n : Int) : List String :=
    if n = 0 then [] else [s!"{name}={n}"]
  let parts := part "days" (seconds / 86400) ++ part "seconds" (seconds % 86400) ++
    part "microseconds" (span % 1000000)
  "datetime.timedelta(" ++ (if parts.isEmpty then "0" else ", ".intercalate parts) ++ ")"

/-- The wording of a clock fault. -/
def ClockFault.message : ClockFault → String
  | year given => s!"year {given} is out of range"
  | month => "month must be in 1..12"
  | day => "day is out of range for month"
  | hour => "hour must be in 0..23"
  | minute => "minute must be in 0..59"
  | second => "second must be in 0..59"
  | microsecond => "microsecond must be in 0..999999"
  | offset given =>
    "offset must be a timedelta strictly between -timedelta(hours=24) and " ++
      "timedelta(hours=24), not " ++ spanText given ++ "."

/-- Why a file cannot be read or written. -/
inductive FileFault where
  | missing
  | isDirectory
  | notDirectory
  | exists
  | nameTooLong
  deriving DecidableEq

/-- The number and the wording by which a system call reports the fault. -/
def FileFault.message : FileFault → String
  | missing => "[Errno 2] No such file or directory"
  | isDirectory => "[Errno 21] Is a directory"
  | notDirectory => "[Errno 20] Not a directory"
  | «exists» => "[Errno 17] File exists"
  | nameTooLong => "[Errno 36] File name too long"

/-- A cause of failure. -/
inductive Fault where
  /-- An operation met a value of a kind it has no meaning for. -/
  | unsuitable
  /-- Fields were asked of a value that is no object. -/
  | notObject
  /-- An object lacks a field that has to be there. -/
  | missingField (name : String)
  /-- A number is too large for the operation. -/
  | outOfRange
  /-- A file cannot be read or written. -/
  | file (cause : FileFault) (path : String)
  /-- A path or a variable holds the character with code 0. -/
  | nullByte
  /-- A text is no JSON. -/
  | json (error : Json.SyntaxError)
  /-- Lists and objects lie too deep in each other, or nodes in a program do. -/
  | tooDeep
  /-- A file is no text. -/
  | encoding (error : Utf8.DecodeError)
  /-- A text with half a character was to be written. -/
  | halfCharacter
  /-- A port definition is no object with a type. -/
  | portWithoutType (given : Value)
  /-- A value slot is no object with a type. -/
  | slotWithoutType (given : Value)
  /-- There is no such type of value slots. -/
  | unknownSlotType (given : Value)
  /-- There is no such side of a node. -/
  | unknownSide (given : Value)
  /-- A node type is no object. -/
  | nodeTypeNotObject (given : Value)
  /-- A catalog document is no object. -/
  | catalogNotObject
  /-- A section of a catalog document is no object. -/
  | sectionNotObject (name : String)
  /-- A category of a catalog document is no object. -/
  | categoryNotObject (name : String)
  /-- An item that should be a pair has another length. -/
  | notPair (index length : Nat)
  /-- A text is no whole number. -/
  | notWholeNumber (given : String)
  /-- A whole number has too many digits to be read. -/
  | tooManyDigits (count : Nat)
  /-- A whole number has too many digits to be written. -/
  | unwritable
  /-- NaN was to become a whole number. -/
  | nanToWhole
  /-- The catalog is empty or has no such node type. -/
  | unknownNodeType (category type : Value)
  /-- A value was to be stored in a node without a slot. -/
  | noValueSlot (id category : Scalar) (type : String)
  /-- A node was to be added under an id in use. -/
  | nodeExists (id : Scalar)
  /-- No node has the id. -/
  | noSuchNode (id : Scalar)
  /-- No link has the id. -/
  | noSuchLink (id : Value)
  /-- A setting should be a whole number. -/
  | badSetting (name given : String)
  /-- A variable cannot have the name. -/
  | badVariableName
  /-- The level of the log names something else. -/
  | unknownLevel
  /-- A part of a date and time is out of bounds. -/
  | clock (cause : ClockFault)
  /-- The outline of a graph document is wrong. -/
  | outline (cause : OutlineFault)
  /-- No node starts the program. -/
  | noEntryPoint
  /-- A value depends on itself; the path leads from a node back to it. -/
  | dataCycle (path : List Scalar)
  /-- A value depends on a longer chain of nodes than the limit allows. -/
  | dataTooDeep (limit : Value) (path : List Scalar)

namespace Fault

/-- The ids of a path with arrows between them. -/
def pathText (path : List Scalar) : String :=
  " -> ".intercalate (path.map Scalar.display)

/-- The fault of a text that could not be read. -/
def ofJson : Json.ReadError → Fault
  | .malformed error => json error
  | .tooManyDigits count => tooManyDigits count
  | .tooDeep => tooDeep

/-- The wording of a fault where a number has too many digits to be written. -/
def overlong : String :=
  "Exceeds the limit (" ++ toString Number.maxDigits ++ " digits) for integer string conversion; " ++
    "use sys.set_int_max_str_digits() to increase the limit"

/-- A wording that names some values, if they can be written. -/
def naming (names : List Value) (wording : String) : String :=
  if names.all Value.isWritable then wording else overlong

/-- The wording of a fault. -/
def message : Fault → String
  | unsuitable => "operation not supported for this value"
  | notObject => "value has no fields"
  | missingField name => Text.quoted name
  | outOfRange => "number out of range"
  | file cause path => cause.message ++ ": " ++ Text.quoted path
  | nullByte => "embedded null byte"
  | json error => error.message
  | tooDeep => "nesting goes too deep"
  | encoding error => error.message
  | halfCharacter => "half a character cannot be written"
  | portWithoutType given =>
    naming [given] ("Port definition must be an object with a 'type': " ++ given.display)
  | slotWithoutType given =>
    naming [given] ("Value slot must be an object with a 'type': " ++ given.display)
  | unknownSlotType given => naming [given] (given.display ++ " is not a valid ValueType")
  | unknownSide given => naming [given] (given.display ++ " is not a valid PortDirection")
  | nodeTypeNotObject given => "Node type definition must be an object, got " ++ given.kindName
  | catalogNotObject => "Registry document must be a JSON object at the top level"
  | sectionNotObject name => s!"'{name}' must be an object"
  | categoryNotObject name => s!"Category '{name}' must be an object"
  | notPair index length =>
    s!"dictionary update sequence element #{index} has length {length}; 2 is required"
  | notWholeNumber given =>
    "invalid literal for int() with base 10: " ++ String.ofList ((Text.quoted given).toList.take 200)
  | tooManyDigits count =>
    "Exceeds the limit (" ++ toString Number.maxDigits ++ " digits) for integer string conversion: " ++
      s!"value has {count} digits; use sys.set_int_max_str_digits() to increase the limit"
  | unwritable => overlong
  | nanToWhole => "cannot convert float NaN to integer"
  | unknownNodeType category type =>
    "Node registry not loaded or node type not found: " ++ category.text ++ "/" ++ type.text
  | noValueSlot id category type =>
    naming [id.toValue, category.toValue]
      s!"Node {id.display} ({category.display}/{type}) has no value slot"
  | nodeExists id =>
    naming [id.toValue] s!"Node with id '{id.display}' already exists in the graph"
  | noSuchNode id =>
    naming [id.toValue] s!"Node with id '{id.display}' does not exist in the graph"
  | noSuchLink id => naming [id] s!"Link with id '{id.text}' does not exist in the graph"
  | badSetting name given => s!"{name} must be an integer, got " ++ Text.quoted given
  | badVariableName => "illegal environment variable name"
  | unknownLevel => "Unknown level: '%(levelname)s:%(name)s:%(message)s'"
  | clock cause => cause.message
  | outline cause => cause.message
  | noEntryPoint => "No entry point nodes (exec input without incoming exec)."
  | dataCycle path => "Cyclic data dependency between nodes: " ++ pathText path
  | dataTooDeep limit path =>
    s!"Data dependency chain deeper than {limit.text} nodes at node " ++
      (path.getLastD .null).display

/-- Were the data understood and refused, rather than of a shape that an
operation has no meaning for? -/
def isRefusal : Fault → Bool
  | unsuitable => false
  | notObject => false
  | missingField _ => false
  | outOfRange => false
  | file .. => false
  | tooDeep => false
  | _ => true

/-- Is it that a number has too many digits to be written? -/
def isUnwritable : Fault → Bool
  | unwritable => true
  | _ => false

theorem eq_unwritable {fault : Fault} (h : fault.isUnwritable = true) : fault = .unwritable := by
  unfold isUnwritable at h
  split at h
  · rfl
  · cases h

/-- Did the graph compile to no program? -/
def isGeneration : Fault → Bool
  | noEntryPoint => true
  | dataCycle _ => true
  | dataTooDeep .. => true
  | _ => false

end Fault

section Attempts

/-! ## Computations that may fail -/

variable {α β ε : Type} {x : Except ε α} {fault : ε}

theorem eq_ok_of_toOption {a : α} (h : x.toOption = some a) : x = .ok a := by
  cases x with
  | error e => cases h
  | ok b => rw [Option.some.inj h]

/-- Is it a fault that passes a test? -/
def failsWith (test : Fault → Bool) : Except Fault α → Bool
  | .ok _ => false
  | .error fault => test fault

theorem exists_error_of_failsWith {test : Fault → Bool} {x : Except Fault α}
    (h : failsWith test x = true) : ∃ fault, x = .error fault ∧ test fault = true := by
  cases x with
  | ok a => cases h
  | error fault => exact ⟨fault, rfl, h⟩

theorem eq_unwritable_of_failsWith {x : Except Fault α}
    (h : failsWith Fault.isUnwritable x = true) : x = .error .unwritable := by
  obtain ⟨fault, rfl, htest⟩ := exists_error_of_failsWith h
  rw [Fault.eq_unwritable htest]

theorem exists_ok_of_toBool (h : x.toBool = true) : ∃ a, x = .ok a := by
  cases x with
  | error e => cases h
  | ok a => exact ⟨a, rfl⟩

theorem bind_eq_ok {next : α → Except ε β} {b : β} (h : x >>= next = .ok b) :
    ∃ a, x = .ok a ∧ next a = .ok b := by
  cases x with
  | error e => cases h
  | ok a => exact ⟨a, rfl, h⟩

theorem bind_eq_error {next : α → Except ε β} (h : x >>= next = .error fault) :
    x = .error fault ∨ ∃ a, x = .ok a ∧ next a = .error fault := by
  cases x with
  | error e =>
      cases h
      exact Or.inl rfl
  | ok a => exact Or.inr ⟨a, rfl, h⟩

theorem map_eq_ok {f : α → β} {b : β} (h : x.map f = .ok b) : ∃ a, x = .ok a ∧ f a = b := by
  cases x with
  | error e => cases h
  | ok a => exact ⟨a, rfl, Except.ok.inj h⟩

theorem map_eq_error {f : α → β} (h : x.map f = .error fault) : x = .error fault := by
  cases x with
  | error e =>
      cases h
      rfl
  | ok a => cases h

theorem mapM_eq_error {f : α → Except ε β} {xs : List α} (h : xs.mapM f = .error fault) :
    ∃ a ∈ xs, f a = .error fault := by
  induction xs with
  | nil => cases h
  | cons a rest ih =>
      rw [List.mapM_cons] at h
      rcases bind_eq_error h with ha | ⟨b, _, h⟩
      · exact ⟨a, List.mem_cons_self, ha⟩
      · rcases bind_eq_error h with hrest | ⟨bs, _, h⟩
        · obtain ⟨c, hc, hfault⟩ := ih hrest
          exact ⟨c, List.mem_cons_of_mem a hc, hfault⟩
        · cases h

theorem length_of_mapM {f : α → Except ε β} {xs : List α} {ys : List β} (h : xs.mapM f = .ok ys) :
    ys.length = xs.length := by
  induction xs generalizing ys with
  | nil =>
      cases h
      rfl
  | cons a rest ih =>
      rw [List.mapM_cons] at h
      obtain ⟨b, _, h⟩ := bind_eq_ok h
      obtain ⟨bs, hrest, h⟩ := bind_eq_ok h
      cases h
      rw [List.length_cons, List.length_cons, ih hrest]

/-- Each result stands in the place of what it was made of. -/
theorem getElem?_of_mapM {f : α → Except ε β} {xs : List α} {ys : List β} (h : xs.mapM f = .ok ys)
    {i : Nat} {b : β} (hb : ys[i]? = some b) : ∃ a, xs[i]? = some a ∧ f a = .ok b := by
  induction xs generalizing ys i with
  | nil =>
      cases h
      cases hb
  | cons a rest ih =>
      rw [List.mapM_cons] at h
      obtain ⟨first, hfirst, h⟩ := bind_eq_ok h
      obtain ⟨others, hrest, h⟩ := bind_eq_ok h
      cases h
      cases i with
      | zero =>
          cases hb
          exact ⟨a, rfl, hfirst⟩
      | succ i => exact ih hrest hb

/-- What every step keeps, a whole run keeps. -/
theorem foldlM_induct {f : β → α → Except ε β} {motive : β → Prop} {xs : List α} {b r : β}
    (hrun : xs.foldlM f b = .ok r) (hstart : motive b)
    (hstep : ∀ a ∈ xs, ∀ b b', motive b → f b a = .ok b' → motive b') : motive r := by
  induction xs generalizing b with
  | nil =>
      cases hrun
      exact hstart
  | cons a rest ih =>
      rw [List.foldlM_cons] at hrun
      obtain ⟨b', hb', hrun⟩ := bind_eq_ok hrun
      exact ih hrun (hstep a List.mem_cons_self b b' hstart hb') fun a' ha' =>
        hstep a' (List.mem_cons_of_mem a ha')

/-- A run succeeds in the same way with steps that succeed wherever its own do. -/
theorem foldlM_mono {f f' : β → α → Except ε β} {xs : List α} {b r : β}
    (hrun : xs.foldlM f b = .ok r)
    (hstep : ∀ a ∈ xs, ∀ b b', f b a = .ok b' → f' b a = .ok b') : xs.foldlM f' b = .ok r := by
  induction xs generalizing b with
  | nil => exact hrun
  | cons a rest ih =>
      rw [List.foldlM_cons] at hrun ⊢
      obtain ⟨b', hb', hrun⟩ := bind_eq_ok hrun
      rw [hstep a List.mem_cons_self b b' hb']
      exact ih hrun fun a' ha' => hstep a' (List.mem_cons_of_mem a ha')

/-- A run whose steps never fail. -/
theorem foldlM_eq_foldl {f : β → α → Except ε β} {f' : β → α → β} {xs : List α}
    (hstep : ∀ a ∈ xs, ∀ b, f b a = .ok (f' b a)) (b : β) : xs.foldlM f b = .ok (xs.foldl f' b) := by
  induction xs generalizing b with
  | nil => rfl
  | cons a rest ih =>
      rw [List.foldlM_cons, hstep a List.mem_cons_self b]
      exact ih (fun a' ha' => hstep a' (List.mem_cons_of_mem a ha')) (f' b a)

/-- In a run that succeeds all steps do. -/
theorem exists_step_of_foldlM {f : β → α → Except ε β} {xs : List α} {b r : β}
    (hrun : xs.foldlM f b = .ok r) {a : α} (ha : a ∈ xs) : ∃ b b', f b a = .ok b' := by
  induction xs generalizing b with
  | nil => cases ha
  | cons first rest ih =>
      rw [List.foldlM_cons] at hrun
      obtain ⟨b', hb', hrun⟩ := bind_eq_ok hrun
      rcases List.mem_cons.mp ha with rfl | ha
      · exact ⟨b, b', hb'⟩
      · exact ih hrun ha

/-- A run fails with the fault of one of its steps. -/
theorem foldlM_eq_error {f : β → α → Except ε β} {xs : List α} {b : β}
    (hrun : xs.foldlM f b = .error fault) : ∃ a ∈ xs, ∃ b, f b a = .error fault := by
  induction xs generalizing b with
  | nil => cases hrun
  | cons a rest ih =>
      rw [List.foldlM_cons] at hrun
      rcases bind_eq_error hrun with ha | ⟨b', _, hrun⟩
      · exact ⟨a, List.mem_cons_self, b, ha⟩
      · obtain ⟨a', ha', hfault⟩ := ih hrun
        exact ⟨a', List.mem_cons_of_mem a ha', hfault⟩

end Attempts

end NodeWeave
