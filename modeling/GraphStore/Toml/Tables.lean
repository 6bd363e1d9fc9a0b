import GraphStore.Double

/-!
Contract: values of a settings file, and the tables that its statements build up.

Owns the value type, in which tables are alike whether braces, headers or dotted keys build them up,
with their fields in the order in which they are written. Owns as well the rules of definition. A
value is final. A dotted key extends tables that dotted keys began, and a header declares a table
once; it may declare one that only deeper headers have implied so far.
-/

namespace GraphStore

inductive Toml where
  | text (content : String)
  | integer (value : Int)
  | float (value : Double)
  | flag (value : Bool)
  /-- A date, a time of day, or both. -/
  | moment (text : String)
  | list (items : List Toml)
  | table (fields : List (String × Toml))
deriving Repr, Inhabited

namespace Toml

/-- A statement: a dotted key and its value. -/
abbrev Assignment := List String × Toml

inductive Origin where
  | implied
  | dotted
  | declared
deriving DecidableEq, Repr

/-- A definition under construction. -/
inductive Node where
  | value (content : Toml)
  | table (origin : Origin) (fields : List (String × Node))
  | tables (items : List (List (String × Node)))
deriving Inhabited

/-- Named definitions in the order of their first statements. -/
abbrev Fields := List (String × Node)

def Fields.set (fields : Fields) (name : String) (node : Node) : Fields :=
  fields.map fun field => if field.1 = name then (name, node) else field

def changeLast? {α : Type} (change : α → Option α) : List α → Option (List α)
  | [] => none
  | [item] => (change item).map ([·])
  | item :: items => (changeLast? change items).map (item :: ·)

def Fields.define? (fields : Fields) (name : String) (content : Toml) : Option Fields :=
  if (fields.lookup name).isSome then none else some (fields ++ [(name, .value content)])

/-- Defines a dotted key. The table that receives the value must be begun by dotted
keys, or be the one whose statements these are; no table on the way may be declared. -/
def Fields.assign? : (path : List String) → Toml → Fields → Option Fields
  | [], _, _ => none
  | [name], content, fields => fields.define? name content
  | name :: next :: path, content, fields =>
    let inside := Fields.assign? (next :: path) content
    match fields.lookup name with
    | none => (inside []).map fun inner => fields ++ [(name, .table .dotted inner)]
    | some (.table .dotted inner) =>
      (inside inner).map fun inner => fields.set name (.table .dotted inner)
    | some (.table .implied inner) =>
      if path.isEmpty then none
      else (inside inner).map fun inner => fields.set name (.table .implied inner)
    | some (.tables items) =>
      if path.isEmpty then none
      else (changeLast? inside items).map fun items => fields.set name (.tables items)
    | some (.table .declared _) | some (.value _) => none

/-- Changes the table at the end of a path of headers; missing tables are implied and
the last table of a list stands for the list. -/
def Fields.alter? (change : Fields → Option Fields) :
    (path : List String) → Fields → Option Fields
  | [], fields => change fields
  | name :: path, fields =>
    let inside := Fields.alter? change path
    match fields.lookup name with
    | none => (inside []).map fun inner => fields ++ [(name, .table .implied inner)]
    | some (.table origin inner) =>
      (inside inner).map fun inner => fields.set name (.table origin inner)
    | some (.tables items) =>
      (changeLast? inside items).map fun items => fields.set name (.tables items)
    | some (.value _) => none

structure Section where
  path : List String
  /-- Whether the header adds a table to a list. -/
  isItem : Bool
  assignments : List Assignment

def Fields.assignAll? (fields : Fields) (assignments : List Assignment) : Option Fields :=
  assignments.foldlM (fun fields assignment => fields.assign? assignment.1 assignment.2) fields

/-- Declares a table with statements. -/
def Fields.declare? (name : String) (assignments : List Assignment) (fields : Fields) :
    Option Fields :=
  let declared (start : Fields) (others : Fields) : Option Fields :=
    (start.assignAll? assignments).map fun inner => others ++ [(name, .table .declared inner)]
  match fields.lookup name with
  | none => declared [] fields
  | some (.table .implied start) => declared start (fields.filter fun field => field.1 ≠ name)
  | some _ => none

/-- Adds a table with statements to a list of tables. -/
def Fields.declareItem? (name : String) (assignments : List Assignment) (fields : Fields) :
    Option Fields := do
  let item ← Fields.assignAll? [] assignments
  match fields.lookup name with
  | none => some (fields ++ [(name, .tables [item])])
  | some (.tables items) => some (fields.set name (.tables (items ++ [item])))
  | some _ => none

def Fields.addSection? (fields : Fields) (part : Section) : Option Fields := do
  let name ← part.path.getLast?
  let declare := if part.isItem then Fields.declareItem? else Fields.declare?
  Fields.alter? (declare name part.assignments) part.path.dropLast fields

mutual

def Node.finish : Node → Toml
  | .value content => content
  | .table _ fields => .table (finishFields fields)
  | .tables items => .list (finishItems items)

def finishFields : List (String × Node) → List (String × Toml)
  | [] => []
  | (name, node) :: fields => (name, node.finish) :: finishFields fields

def finishItems : List (List (String × Node)) → List Toml
  | [] => []
  | fields :: items => .table (finishFields fields) :: finishItems items

end

/-- The fields that top statements and sections build up. -/
def assemble? (top : List Assignment) (sections : List Section) :
    Option (List (String × Toml)) := do
  let fields ← Fields.assignAll? [] top
  return finishFields (← sections.foldlM Fields.addSection? fields)

/-- The table in braces that statements build up. -/
def assembleInline? (assignments : List Assignment) : Option Toml := do
  return .table (finishFields (← Fields.assignAll? [] assignments))

end Toml

end GraphStore
