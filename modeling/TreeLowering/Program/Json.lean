import TreeLowering.Json.Reader
import TreeLowering.Json.Tagged
import TreeLowering.Json.Writer
import TreeLowering.Program.Basic

/-!
# Programs as JSON

A program is written as an array of objects, each tagged by its field `kind`. Reading
takes the fields in any order and ignores fields it does not know, but the tag and the
fields that belong to it must occur exactly once. It also takes an array that lists the
tag and the values of the fields. The tag of an expression may be its place in the list
of tags instead of its name. A number that is not finite is written as `null`, which is
no number when it is read.
-/

namespace TreeLowering

/-- The JSON form of an operator. -/
def Operator.toJson : Operator → Json
  | .add => .string "add"

/-- Reads an operator: its name, or an object whose only field has that name and no
content. -/
def Operator.ofJson? : Json → Option Operator
  | .string "add" => some .add
  | .object [("add", .null)] => some .add
  | .object [("add", .object [])] => some .add
  | _ => none

/-- The JSON form of an expression. -/
def Expr.toJson : Expr → Json
  | .number x =>
    .object [("kind", .string "number"), ("value", if x.isFinite then .real x else .null)]
  | .identifier name => .object [("kind", .string "identifier"), ("name", .string name)]
  | .binary op left right =>
    .object [("kind", .string "binary_op"), ("op", op.toJson), ("left", left.toJson),
      ("right", right.toJson)]

/-- The tags of expressions. -/
def Expr.tags : List String := ["number", "identifier", "binary_op"]

/-- Reads the tag of an expression: its name, or its place in the list of tags. -/
def Expr.tagOfJson? : Json → Option String
  | .string tag => some tag
  | .int (.ofNat n) => Expr.tags[n]?
  | _ => none

/-- A part of an expression: its value, and the expression that the value reads as, if any. -/
structure Expr.Part where
  /-- The value of the part. -/
  value : Json
  /-- The expression the value is the JSON form of. -/
  expr? : Option Expr

/-- Puts an expression together from its parts. -/
def Expr.ofParts? (parts : Json.Tagged Expr.Part) : Option Expr := do
  match ← Expr.tagOfJson? (← parts.tag?).value with
  | "number" =>
    let [value] ← parts.values? ["value"] | none
    return .number (← value.value.number?)
  | "identifier" =>
    let [name] ← parts.values? ["name"] | none
    return .identifier (← name.value.text?)
  | "binary_op" =>
    let [op, left, right] ← parts.values? ["op", "left", "right"] | none
    return .binary (← Operator.ofJson? op.value) (← left.expr?) (← right.expr?)
  | _ => none

mutual

/-- Reads an expression. -/
def Expr.ofJson? : Json → Option Expr
  | .object fields => Expr.ofParts? (.named (Expr.readFields fields))
  | .array items => Expr.ofParts? (.ordered (Expr.readItems items))
  | _ => none

/-- Reads every field of an object. -/
def Expr.readFields : List (String × Json) → List (String × Expr.Part)
  | [] => []
  | (key, value) :: fields => (key, ⟨value, Expr.ofJson? value⟩) :: Expr.readFields fields

/-- Reads every item of an array. -/
def Expr.readItems : List Json → List Expr.Part
  | [] => []
  | value :: items => ⟨value, Expr.ofJson? value⟩ :: Expr.readItems items

end

/-- The JSON form of a statement. -/
def Stmt.toJson : Stmt → Json
  | .assign name value =>
    .object [("kind", .string "assign"), ("name", .string name), ("value", value.toJson)]
  | .expr e => .object [("kind", .string "expr"), ("expr", e.toJson)]
  | .print e => .object [("kind", .string "print"), ("argument", e.toJson)]
  | .globals => .object [("kind", .string "globals")]

/-- Reads a statement. -/
def Stmt.ofJson? (j : Json) : Option Stmt := do
  let parts ← Json.Tagged.ofJson? j
  match ← (← parts.tag?).text? with
  | "assign" =>
    let [name, value] ← parts.values? ["name", "value"] | none
    return .assign (← name.text?) (← Expr.ofJson? value)
  | "expr" =>
    let [e] ← parts.values? ["expr"] | none
    return .expr (← Expr.ofJson? e)
  | "print" =>
    let [e] ← parts.values? ["argument"] | none
    return .print (← Expr.ofJson? e)
  | "globals" =>
    let [] ← parts.values? [] | none
    return .globals
  | _ => none

/-- The JSON form of a program. -/
def Program.toJson (p : Program) : Json := .array (p.stmts.map Stmt.toJson)

/-- Reads a program. -/
def Program.ofJson? : Json → Option Program
  | .array items => (items.mapM Stmt.ofJson?).map Program.mk
  | _ => none

/-- The JSON text of a program. -/
def Program.encode (p : Program) : List Char := p.toJson.write

/-- Reads the JSON text of a program. -/
def Program.decode? (text : List Char) : Option Program := do
  Program.ofJson? (← Json.read text)

end TreeLowering
