import AsmLexer.Number.Text

/-!
# Values

Data of unknown shape: what an instruction table is built from, and what a failed read may hand
over. `Value.text?` is the plain text of a value inside a message, where a list is its elements
joined by commas and a record only says that it is one. What gives a record its text has a name that
a field of the record may take away; then there is no text, and none of a list with this element.
To ask for the text all the same throws an exception.
-/

namespace AsmLexer

/-- An exception with its message. -/
inductive Thrown
  | error (message : String)
  | typeError (message : String)
  | rangeError (message : String)
deriving DecidableEq

def Thrown.message : Thrown → String
  | .error message => message
  | .typeError message => message
  | .rangeError message => message

/-- A number of double precision may also be infinite. -/
inductive Value
  | null
  | bool (b : Bool)
  | number (q : Rat)
  | infinity (negative : Bool)
  | string (s : String)
  | list (elements : List Value)
  | record (fields : List (String × Value))
deriving Inhabited

namespace Value

/-- What holds of each list and record whose parts it holds of, and of the rest, holds of all
values. -/
@[induction_eliminator]
theorem induction {motive : Value → Prop} (null : motive .null) (bool : ∀ b, motive (.bool b))
    (number : ∀ q, motive (.number q)) (infinity : ∀ negative, motive (.infinity negative))
    (string : ∀ s, motive (.string s))
    (list : ∀ elements, (∀ value ∈ elements, motive value) → motive (.list elements))
    (record : ∀ fields, (∀ field ∈ fields, motive field.2) → motive (.record fields))
    (value : Value) : motive value :=
  @Value.rec motive (fun elements ↦ ∀ value ∈ elements, motive value)
    (fun fields ↦ ∀ field ∈ fields, motive field.2) (fun field ↦ motive field.2)
    null bool number infinity string list record nofun
    (fun _ _ hfirst hrest ↦ List.forall_mem_cons.mpr ⟨hfirst, hrest⟩) nofun
    (fun _ _ hfirst hrest ↦ List.forall_mem_cons.mpr ⟨hfirst, hrest⟩) (fun _ _ hvalue ↦ hvalue)
    value

/-- The text of a record; a field named `toString` takes it away. -/
def recordText? (names : List String) : Option String :=
  if "toString" ∈ names then none else some "[object Object]"

mutual

/-- The text of a value inside a message, if it has one. -/
def text? : Value → Option String
  | .null => some "null"
  | .bool true => some "true"
  | .bool false => some "false"
  | .number q => some (Number.text q)
  | .infinity negative => some (if negative then "-Infinity" else "Infinity")
  | .string s => some s
  | .list elements => (elementTexts? elements).map (",".intercalate ·)
  | .record fields => recordText? (fields.map (·.1))

/-- The texts of the elements of a list; an absent element is an empty text. -/
def elementTexts? : List Value → Option (List String)
  | [] => some []
  | .null :: rest => (elementTexts? rest).map ("" :: ·)
  | value :: rest => (text? value).bind fun text ↦ (elementTexts? rest).map (text :: ·)

end

/-- The text of a value, or what is thrown where it has none. -/
def shown (value : Value) : Except Thrown String :=
  match value.text? with
  | some text => .ok text
  | none => .error (.typeError "Cannot convert object to primitive value")

end Value

end AsmLexer
