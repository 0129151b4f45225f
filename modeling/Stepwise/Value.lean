import Stepwise.Entries

/-!
# Values

The data scripts work on. Numbers come in two kinds, integers and doubles, and entries of a
dictionary stand in a definite order that no comparison depends on.

* `same` tells values apart as data: `1` and `1.0` differ, and the order of entries does not count.
* `truthy` is the truth of a value as a condition.
-/

namespace Stepwise

/-- A piece of data. Doubles in it are finite. -/
inductive Value where
  | null
  | bool (b : Bool)
  | int (n : Int)
  | float (x : Float)
  | str (s : String)
  | list (items : List Value)
  | dict (entries : List (String × Value))
deriving Inhabited

namespace Value

/-- The name of a value's type in messages. -/
def typeName : Value → String
  | null => "None"
  | bool _ => "bool"
  | int _ => "int"
  | float _ => "float"
  | str _ => "str"
  | list _ => "list"
  | dict _ => "dict"

/-- The truth of a value: nothing, false, zero and what is empty are false. -/
def truthy : Value → Bool
  | null => false
  | bool b => b
  | int n => n != 0
  | float x => x != 0
  | str s => s != ""
  | list items => !items.isEmpty
  | dict entries => !entries.isEmpty

mutual

/-- The same data. Integers and doubles differ, and entries are compared by name. -/
def same : Value → Value → Bool
  | null, null => true
  | bool a, bool b => a == b
  | int a, int b => a == b
  | float a, float b => a == b
  | str a, str b => a == b
  | list as, list bs => sameItems as bs
  | dict as, dict bs => as.length == bs.length && sameEntries as bs
  | _, _ => false

/-- The same items in the same order. -/
def sameItems : List Value → List Value → Bool
  | [], [] => true
  | a :: as, b :: bs => a.same b && sameItems as bs
  | _, _ => false

/-- Every entry stands among the others with the same data. -/
def sameEntries : List (String × Value) → List (String × Value) → Bool
  | [], _ => true
  | (name, a) :: as, bs =>
    (match Entries.get? bs name with
      | some b => a.same b
      | none => false) && sameEntries as bs

end

/-- The entries of a dictionary. -/
def entries? : Value → Option (Entries Value)
  | dict entries => some entries
  | _ => none

/-- The text of a string. -/
def text? : Value → Option String
  | str s => some s
  | _ => none

/-- The value of a truth. -/
def bool? : Value → Option Bool
  | bool b => some b
  | _ => none

/-- Texts that all items of a list are. -/
def texts? : Value → Option (List String)
  | list items => items.mapM text?
  | _ => none

/-- A name that stands alone, or as the only entry of a dictionary and with nothing in it. -/
def tag? : Value → Option String
  | str name => some name
  | dict [(name, null)] => some name
  | _ => none

/-- The entries of a record: those of a dictionary, or the items of a list under the record's
names in their order. -/
def record? (names : List String) : Value → Option (Entries Value)
  | dict entries => some entries
  | list items => if items.length ≤ names.length then some (names.zip items) else none
  | _ => none

/-- The value under a name, where nothing counts as absent. -/
def given? (entries : Entries Value) (name : String) : Option Value :=
  match entries.get? name with
  | some null => none
  | v => v

/-- A value that may be absent. -/
def ofOption : Option Value → Value
  | some v => v
  | none => null

end Value

end Stepwise
