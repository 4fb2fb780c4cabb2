import Sukko.Lib.Json.Strings
/-
# JSON texts as trees

A tree keeps a JSON text as it was written, so it has exactly one text (`Value.text`). Arrays and objects differ in what
precedes each value (`Lead`) and in their brackets. `Value.compact` is what `encoding/json` makes of a raw value.
-/

namespace Sukko.Json
open GoStr

/-! ## White space and numbers -/

def isSpace (b : UInt8) : Bool := b == 32 || b == 9 || b == 10 || b == 13

structure Space where
  bytes : GoStr
  ok : bytes.all isSpace = true
deriving DecidableEq

def Space.none : Space := ⟨[], rfl⟩
def isNumByte (b : UInt8) : Bool := isDigit b || b == 43 || b == 45 || b == 46 || b == 69 || b == 101

def dropInt : GoStr → Option GoStr
  | [] => none
  | b :: s => if b = 48 then some s else if isDigit b then some (s.dropWhile isDigit) else none

def dropDigits : GoStr → Option GoStr
  | [] => none
  | b :: s => if isDigit b then some (s.dropWhile isDigit) else none

def dropFrac : GoStr → Option GoStr
  | [] => some []
  | b :: s => if b = 46 then dropDigits s else some (b :: s)

def dropExp : GoStr → Option GoStr
  | [] => some []
  | b :: s =>
    if b = 69 ∨ b = 101 then
      match s with
      | [] => none
      | c :: t => if c = 43 ∨ c = 45 then dropDigits t else dropDigits s
    else some (b :: s)

/-- The grammar of a JSON number: sign, integer, fraction, exponent. -/
def validNumber (s : GoStr) : Bool :=
  let s := match s with
    | [] => []
    | b :: t => if b = 45 then t else b :: t
  ((dropInt s).bind dropFrac).bind dropExp == some []

structure Number where
  raw : GoStr
  ok : (raw.all isNumByte && validNumber raw) = true
deriving DecidableEq

/-! ## Trees -/

/-- A member's name with the white space around it and around the colon. -/
structure Key where
  before : Space
  name : Str
  colon : Space
  after : Space
deriving DecidableEq

inductive Kind
  | arr
  | obj
deriving DecidableEq

def Kind.openByte : Kind → UInt8
  | .arr => 91
  | .obj => 123

def Kind.closeByte : Kind → UInt8
  | .arr => 93
  | .obj => 125

/-- What precedes a value: white space in an array, a key in an object. -/
def Lead : Kind → Type
  | .arr => Space
  | .obj => Key

mutual

inductive Value : Type
  | null
  | bool (b : Bool)
  | num (n : Number)
  | str (s : Str)
  | empty (k : Kind) (w : Space)
  | coll (k : Kind) (es : Entries k)

inductive Entries : Kind → Type
  | last {k : Kind} (l : Lead k) (v : Value) (w : Space) : Entries k
  | cons {k : Kind} (l : Lead k) (v : Value) (w : Space) (es : Entries k) : Entries k

end

def comma : UInt8 := 44
def colonMark : UInt8 := 58

def Lead.text : (k : Kind) → Lead k → GoStr
  | .arr, w => Space.bytes w
  | .obj, key => key.before.bytes ++ key.name.text ++ key.colon.bytes ++ colonMark :: key.after.bytes

mutual

def Value.text : Value → GoStr
  | .null => str "null"
  | .bool true => str "true"
  | .bool false => str "false"
  | .num n => n.raw
  | .str s => s.text
  | .empty k w => k.openByte :: (w.bytes ++ [k.closeByte])
  | .coll k es => k.openByte :: es.text

def Entries.text : {k : Kind} → Entries k → GoStr
  | k, .last l v w => l.text k ++ (v.text ++ (w.bytes ++ [k.closeByte]))
  | k, .cons l v w es => l.text k ++ (v.text ++ (w.bytes ++ comma :: es.text))

end

mutual

def Value.depth : Value → Nat
  | .empty _ _ => 1
  | .coll _ es => es.depth + 1
  | _ => 0

def Entries.depth : {k : Kind} → Entries k → Nat
  | _, .last _ v _ => v.depth
  | _, .cons _ v _ es => max v.depth es.depth

end

mutual

def Value.size : Value → Nat
  | .coll _ es => es.size + 1
  | _ => 1

def Entries.size : {k : Kind} → Entries k → Nat
  | _, .last _ v _ => v.size + 1
  | _, .cons _ v _ es => v.size + es.size + 1

end

def Entries.toList : {k : Kind} → Entries k → List (Lead k × Value)
  | _, .last l v _ => [(l, v)]
  | _, .cons l v _ es => (l, v) :: es.toList

/-! ## Compact trees -/

def Lead.compact : (k : Kind) → Lead k → Lead k
  | .arr, _ => Space.none
  | .obj, key => { before := .none, name := key.name.escapeHTML, colon := .none, after := .none : Key }

mutual

def Value.compact : Value → Value
  | .str s => .str s.escapeHTML
  | .empty k _ => .empty k .none
  | .coll k es => .coll k es.compact
  | v => v

def Entries.compact : {k : Kind} → Entries k → Entries k
  | k, .last l v _ => .last (l.compact k) v.compact .none
  | k, .cons l v _ es => .cons (l.compact k) v.compact .none es.compact

end

theorem Entries.toList_compact {k : Kind} (es : Entries k) :
    es.compact.toList = es.toList.map fun e => (e.1.compact k, e.2.compact) := by
  match es with
  | .last l v w => rfl
  | .cons l v w es =>
    rw [Entries.compact, Entries.toList, Entries.toList, List.map_cons, Entries.toList_compact es]

mutual

theorem Value.depth_compact (v : Value) : v.compact.depth = v.depth := by
  match v with
  | .null => rfl
  | .bool b => rfl
  | .num n => rfl
  | .str s => rfl
  | .empty k w => rfl
  | .coll k es => rw [Value.compact, Value.depth, Value.depth, es.depth_compact]

theorem Entries.depth_compact {k : Kind} (es : Entries k) : es.compact.depth = es.depth := by
  match es with
  | .last l v w => rw [Entries.compact, Entries.depth, Entries.depth, v.depth_compact]
  | .cons l v w es => rw [Entries.compact, Entries.depth, Entries.depth, v.depth_compact, es.depth_compact]

end
end Sukko.Json
