import Switchboard.Expression.Compare
import Switchboard.Expression.Parser

/-! The value of an expression on a JSON value. An expression may have no value, which is not an
error; `none` stands for that. -/
namespace Switchboard.Expression

abbrev Outcome := Except EvalError (Option Json)

/-- Arrays among the items give way to their own items. -/
def flatten (items : List Json) : List Json :=
  items.flatMap fun
    | .arr inner => inner
    | v => [v]

/-- A method of an array that takes no argument; `sort` by the items themselves. -/
def Method.onItems (items : List Json) : Method → Option Json
  | .length => some (.ofNat items.length)
  | .first => items.head?
  | .last => items.getLast?
  | .flat => some (.arr (flatten items))
  | .reverse => some (.arr items.reverse)
  | .sort => some (.arr (items.mergeSort fun a b => order (some a) (some b) != .gt))

/-- A member of an object. Of an array, a method written without parentheses; of a text, its
length. -/
def property? (v : Json) (name : String) : Option Json :=
  match v with
  | .obj members => Fields.get? name members
  | .arr items =>
    match Method.ofName? name with
    | some .sort => none
    | some m => m.onItems items
    | none => none
  | .str s => if name = "length" then some (.ofNat s.length) else none
  | _ => none

/-- The item at a position, the member of a name or of the decimal text of a position, the
character at a position. -/
def index? (v key : Json) : Option Json :=
  match key with
  | .num n =>
    n.toNat?.bind fun i =>
      match v with
      | .arr items => items[i]?
      | .obj members => Fields.get? (toString i) members
      | .str s => s.toList[i]?.map fun c => .str c.toString
      | _ => none
  | .str name =>
    match v with
    | .obj members => Fields.get? name members
    | _ => none
  | _ => none

/-- The items of an array. -/
def itemsFor (method : String) : Json → Except EvalError (List Json)
  | .arr items => .ok items
  | v => .error (.typeMismatch method v.typeName)

/-- Texts and objects have a length besides arrays. -/
def Method.apply (m : Method) (v : Json) : Outcome :=
  match m, v with
  | .length, .str s => .ok (some (.ofNat s.length))
  | .length, .obj members => .ok (some (.ofNat members.length))
  | m, v => (itemsFor m.name v).map m.onItems

/-- The first item on which `f` is truthy. -/
def findItem (f : Json → Outcome) : List Json → Outcome
  | [] => .ok none
  | item :: items =>
    match f item with
    | .error e => .error e
    | .ok v => if truthy v then .ok (some item) else findItem f items

/-- Each item with what `f` gives for it, in order. -/
def keyed (f : Json → Outcome) : List Json → Except EvalError (List (Option Json × Json))
  | [] => .ok []
  | item :: items =>
    match f item with
    | .error e => .error e
    | .ok v =>
      match keyed f items with
      | .error e => .error e
      | .ok vs => .ok ((v, item) :: vs)

/-- Items in the order of their keys; items of equal keys stay in order. -/
def sortKeyed (items : List (Option Json × Json)) : List (Option Json × Json) :=
  items.mergeSort fun a b => order a.1 b.1 != .gt

/-- A method that applies a lambda. All keys are found before any item is moved or dropped, but
`find` stops at the first hit. -/
def Visit.onItems (f : Json → Outcome) (items : List Json) : Visit → Outcome
  | .map => (keyed f items).map fun vs => some (.arr (vs.map fun v => v.1.getD .null))
  | .filter =>
    (keyed f items).map fun vs => some (.arr ((vs.filter fun v => truthy v.1).map (·.2)))
  | .find => findItem f items
  | .sort => (keyed f items).map fun vs => some (.arr ((sortKeyed vs).map (·.2)))

/-- A bound of a slice of `length` items. A negative one counts from the end, and an undefined one
is the default. -/
def sliceBound (default length : Nat) : Option Json → Except EvalError Nat
  | none => .ok default
  | some (.num n) =>
    let i := Decimal.toInt64 n.toFloat
    .ok (min (if i < 0 then i + length else i).toNat length)
  | some v => .error (.invalidBound v.typeName)

/-- The items from one bound up to the other. -/
def sliceItems (items : List Json) (start stop : Nat) : Json :=
  .arr ((items.take stop).drop start)

/-- A comparison of two values. -/
def compareBy (op : Operator) (a b : Option Json) : Bool :=
  match op with
  | .eq => looseEq a b
  | .ne => !looseEq a b
  | .strictEq => strictEq a b
  | .strictNe => !strictEq a b
  | .gt => relation a b == some .gt
  | .ge => (relation a b).any (· != .lt)
  | .lt => relation a b == some .lt
  | .le => (relation a b).any (· != .gt)
  | .and => false
  | .or => false

/-- What `f` gives for a value that is neither null nor undefined. -/
def onValue (v : Option Json) (f : Json → Outcome) : Outcome :=
  match v with
  | none => .ok none
  | some .null => .ok none
  | some v => f v

mutual

/-- The value of an expression on `root`. Only the parameter of the innermost lambda is in scope:
`bound` holds its name and its value. -/
def eval (root : Json) (bound : Option (String × Json)) : Expr → Outcome
  | .literal v => .ok (some v)
  | .undefined => .ok none
  | .root => .ok (some root)
  | .var name =>
    match bound with
    | some (param, v) => if param = name then .ok (some v) else .error (.unboundVariable name)
    | none => .error (.unboundVariable name)
  | .property target name => do
    let v ← eval root bound target
    .ok (v.bind fun v => property? v name)
  | .index target key => do
    let v ← eval root bound target
    let k ← eval root bound key
    .ok (v.bind fun v => k.bind fun k => index? v k)
  | .call target method => do
    let v ← eval root bound target
    onValue v method.apply
  | .visit target method param body => do
    let v ← eval root bound target
    onValue v fun v => do
      let items ← itemsFor method.name v
      method.onItems (fun item => eval root (some (param, item)) body) items
  | .slice target start => do
    let v ← eval root bound target
    onValue v fun v => do
      let items ← itemsFor "slice" v
      let i ← sliceBound 0 items.length (← eval root bound start)
      .ok (some (sliceItems items i items.length))
  | .sliceTo target start stop => do
    let v ← eval root bound target
    onValue v fun v => do
      let items ← itemsFor "slice" v
      let i ← sliceBound 0 items.length (← eval root bound start)
      let j ← sliceBound items.length items.length (← eval root bound stop)
      .ok (some (sliceItems items i j))
  | .object members => do
    let entries ← evalMembers root bound members
    .ok (some (.ofList entries))
  | .array items => do
    let vs ← evalItems root bound items
    .ok (some (.arr vs))
  | .binary .and lhs rhs => do
    let v ← eval root bound lhs
    if truthy v then eval root bound rhs else .ok v
  | .binary .or lhs rhs => do
    let v ← eval root bound lhs
    if truthy v then .ok v else eval root bound rhs
  | .binary op lhs rhs => do
    let v ← eval root bound lhs
    let w ← eval root bound rhs
    .ok (some (.bool (compareBy op v w)))
  | .not e => do
    let v ← eval root bound e
    .ok (some (.bool (!truthy v)))

/-- The members that have a value. -/
def evalMembers (root : Json) (bound : Option (String × Json)) :
    List (String × Expr) → Except EvalError (List (String × Json))
  | [] => .ok []
  | (k, e) :: members => do
    let v ← eval root bound e
    let entries ← evalMembers root bound members
    .ok ((v.map fun v => (k, v)).toList ++ entries)

/-- The items, null where there is no value. -/
def evalItems (root : Json) (bound : Option (String × Json)) :
    List Expr → Except EvalError (List Json)
  | [] => .ok []
  | e :: items => do
    let v ← eval root bound e
    let vs ← evalItems root bound items
    .ok (v.getD .null :: vs)

end

/-- The value of a text on a JSON value. -/
def evaluate (s : String) (v : Json) : Except Error (Option Json) :=
  match parse s with
  | .error e => .error (.parse e)
  | .ok e => (eval v none e).mapError .eval

end Switchboard.Expression
