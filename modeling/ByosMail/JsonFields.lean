import ByosMail.EnvelopeJson
import ByosMail.GoJson

-- encoding/json into the fields of a struct: members go to fields whatever the case of their
-- keys, in their order, and one value of a wrong type fails the whole document.
namespace ByosMail.JsonFields
open Json GoJson
open Envelope.Go (foldRune maxNestingDepth)

abbrev Members := List (List Mark × Value)

def nameOf (m : List Mark × Value) : String := String.ofList (characters m.1)

-- Null leaves a field as it is.
def storeText (found : Option String) : Value → Option String
  | .null => found
  | .string marks => found.map fun _ => String.ofList (characters marks)
  | _ => none

-- The value of a literal that is an int of 64 bits.
def integer : List UInt8 → Option Int
  | [] => none
  | sign :: digits =>
    if sign = 45 then ((natural digits).filter (· ≤ 2 ^ 63)).map fun n => -(n : Int)
    else ((natural (sign :: digits)).filter (· < 2 ^ 63)).map fun n => (n : Int)

def storeInt (found : Option Int) : Value → Option Int
  | .null => found
  | .number literal => found.bind fun _ => integer literal
  | _ => none

section
variable {α : Type} (store : Option α → Value → Option α) (zero : α)

def structField (name : String) (members : Members) : Option α :=
  members.foldl (fun found m => if (nameOf m).toList.map foldRune = name.toList.map foldRune then store found m.2 else found)
    (some zero)

end

def textField (name : String) (members : Members) : Option String := structField storeText "" name members

def intField (name : String) (members : Members) : Option Int := structField storeInt 0 name members

-- The first document of a stream.
def firstDocument (body : List UInt8) : Option Value :=
  ((value (2 * body.length + 1) body).map Prod.fst).filter (·.depth ≤ maxNestingDepth)

-- The members a struct is read from; null leaves it empty.
def structMembers : Value → Option Members
  | .null => some []
  | .object members => some members
  | _ => none

section
variable {α : Type} {store : Option α → Value → Option α} {zero : α} {members : Members}

theorem structField_snoc : structField store zero name (members ++ [m]) =
    if (nameOf m).toList.map foldRune = name.toList.map foldRune then store (structField store zero name members) m.2
    else structField store zero name members := by
  rw [structField,List.foldl_append]
  rfl

end

end ByosMail.JsonFields
