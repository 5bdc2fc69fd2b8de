import SpecServer.Decimal.Binary64
import SpecServer.Entries
set_option autoImplicit false

/-!
JSON documents. An object is a table in ascending order of its keys, so that two documents with the same
content are equal whatever order their text had.
-/

namespace SpecServer

/-- A number as documents hold it: an integer of 64 bits, signed or unsigned, or a finite binary number. -/
inductive Number where
  | integer (n : Int)
  | float (x : Decimal.Binary64)
deriving DecidableEq, Repr, Inhabited

inductive Json where
  | null
  | bool (b : Bool)
  | number (n : Number)
  | string (s : String)
  | array (items : List Json)
  | object (fields : List (String × Json))
deriving Repr, Inhabited

namespace Json

def isNull : Json → Bool
  | null => true
  | _ => false

def asString? : Json → Option String
  | string s => some s
  | _ => none

def asObject? : Json → Option (Entries String Json)
  | object fields => some fields
  | _ => none

def field? (document : Json) (key : String) : Option Json :=
  match document with
  | object fields => Entries.get? fields key
  | _ => none

mutual

def decEq : (left right : Json) → Decidable (left = right)
  | null, null => isTrue rfl
  | bool a, bool b => if same : a = b then isTrue (by rw [same]) else isFalse (by simp [same])
  | number a, number b => if same : a = b then isTrue (by rw [same]) else isFalse (by simp [same])
  | string a, string b => if same : a = b then isTrue (by rw [same]) else isFalse (by simp [same])
  | array a, array b =>
    match decEqItems a b with
    | isTrue same => isTrue (by rw [same])
    | isFalse differ => isFalse (by simp [differ])
  | object a, object b =>
    match decEqFields a b with
    | isTrue same => isTrue (by rw [same])
    | isFalse differ => isFalse (by simp [differ])
  | null, bool _ | null, number _ | null, string _ | null, array _ | null, object _ => isFalse nofun
  | bool _, null | bool _, number _ | bool _, string _ | bool _, array _ | bool _, object _ => isFalse nofun
  | number _, null | number _, bool _ | number _, string _ | number _, array _ | number _, object _ => isFalse nofun
  | string _, null | string _, bool _ | string _, number _ | string _, array _ | string _, object _ => isFalse nofun
  | array _, null | array _, bool _ | array _, number _ | array _, string _ | array _, object _ => isFalse nofun
  | object _, null | object _, bool _ | object _, number _ | object _, string _ | object _, array _ => isFalse nofun

def decEqItems : (left right : List Json) → Decidable (left = right)
  | [], [] => isTrue rfl
  | [], _ :: _ | _ :: _, [] => isFalse nofun
  | a :: left, b :: right =>
    match decEq a b, decEqItems left right with
    | isTrue same, isTrue sameRest => isTrue (by rw [same, sameRest])
    | isFalse differ, _ => isFalse (by simp [differ])
    | _, isFalse differ => isFalse (by simp [differ])

def decEqFields : (left right : List (String × Json)) → Decidable (left = right)
  | [], [] => isTrue rfl
  | [], _ :: _ | _ :: _, [] => isFalse nofun
  | (k, a) :: left, (l, b) :: right =>
    if sameKey : k = l then
      match decEq a b, decEqFields left right with
      | isTrue same, isTrue sameRest => isTrue (by rw [sameKey, same, sameRest])
      | isFalse differ, _ => isFalse (by simp [differ])
      | _, isFalse differ => isFalse (by simp [differ])
    else isFalse (by simp [sameKey])

end

instance : DecidableEq Json := decEq

/-- Every object within the document has its keys in ascending order. Each reader of documents makes only
such documents. -/
inductive Ordered : Json → Prop where
  | null : Ordered null
  | bool (b : Bool) : Ordered (bool b)
  | number (n : Number) : Ordered (number n)
  | string (s : String) : Ordered (string s)
  | array (items : List Json) (each : ∀ item ∈ items, Ordered item) : Ordered (array items)
  | object (fields : List (String × Json)) (ascending : Entries.Ascending fields)
      (each : ∀ field ∈ fields, Ordered field.2) : Ordered (object fields)

end Json

end SpecServer
