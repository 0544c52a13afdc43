import LaunchPlan.Options.Field
import LaunchPlan.Yaml.Event

/-!
Options as a YAML document. The document is one mapping; its fields are read in the order in which
they stand, and the first fault decides, be it one of the text or of a value. A document without
content gives the defaults.
-/

namespace LaunchPlan

namespace Yaml

/-- What a value in a document is: a scalar, or a collection, here or where an alias points. -/
inductive Value where
  | scalar (s : Scalar)
  | collection

/-- The anchors of a document. Names are given numbers, and an alias means what stands at the
number that its name has where the alias is written. -/
structure Anchors where
  numbers : List (String × Nat)
  /-- What stands at each number, the last first. -/
  values : List (Nat × Value)

namespace Anchors

def empty : Anchors := ⟨[], []⟩

/-- The anchors with one more. Its number is the count of names before it. So a name that comes
again shares its new number with the next new name, and of what stands at one number the last
counts. -/
def define (a : Anchors) (name : String) (v : Value) : Anchors :=
  let number := a.numbers.length
  ⟨(name, number) :: a.numbers.filter (·.1 ≠ name), (number, v) :: a.values⟩

end Anchors

inductive Item where
  | value (v : Value)
  /-- What stands at a number of the document's anchors. -/
  | reference (number : Nat)
  /-- A collection begins, and its content follows. -/
  | opened (isMapping : Bool)
  | closed
  | documentStart
  | documentEnd
  | streamEnd
  | fault

def Event.anchored (a : Anchors) : Event → Anchors
  | .scalar s =>
    match s.anchor with
    | some name => a.define name (.scalar s)
    | none => a
  | .sequenceStart (some name) | .mappingStart (some name) => a.define name .collection
  | _ => a

/-- The items of the first document and all its anchors. An alias whose anchor has not been seen is
a fault, and nothing is read after it. Nothing but the end may follow the document. -/
def itemsFrom (a : Anchors) : List Event → List Item × Anchors
  | [] => ([], a)
  | e :: rest =>
    let (later, final) := itemsFrom (e.anchored a) rest
    match e with
    | .scalar s => (.value (.scalar s) :: later, final)
    | .alias name =>
      match a.numbers.lookup name with
      | some number => (.reference number :: later, final)
      | none => ([.fault], a)
    | .sequenceStart _ => (.opened false :: later, final)
    | .mappingStart _ => (.opened true :: later, final)
    | .sequenceEnd | .mappingEnd => (.closed :: later, final)
    | .documentStart => (.documentStart :: later, final)
    | .documentEnd =>
      ([.documentEnd, if rest.head? = some .streamEnd then .streamEnd else .fault], a)
    | .streamEnd => ([.streamEnd], a)
    | .fault => ([.fault], a)

def Item.resolve (a : Anchors) : Item → Item
  | .reference number =>
    match a.values.lookup number with
    | some v => .value v
    | none => .fault
  | item => item

/-- The items of the first document, with its aliases resolved. They are resolved when all of its
anchors are known. -/
def items (es : List Event) : List Item :=
  let (found, final) := itemsFrom .empty es
  found.map (Item.resolve final)

def nullTag : List UInt8 := Text.encode "tag:yaml.org,2002:null"

def flagTag : List UInt8 := Text.encode "tag:yaml.org,2002:bool"

def isNull (s : String) : Bool := s = "null" || s = "Null" || s = "NULL" || s = "~"

def flag? (s : String) : Option Bool :=
  if s = "true" ∨ s = "True" ∨ s = "TRUE" then some true
  else if s = "false" ∨ s = "False" ∨ s = "FALSE" then some false
  else none

/-- Whether a scalar stands for absence. A tag decides it: the one of null asks for a null, any
other, a lone exclamation mark too, for a value. -/
def Scalar.absent (s : Scalar) : Option Bool :=
  if s.style ≠ .plain then some false
  else
    match s.tag with
    | none => some (s.text = "" || isNull s.text)
    | some tag => if tag ≠ nullTag then some false else if isNull s.text then some true else none

/-- Quoted scalars are text only; a block scalar is a flag if its tag says so. -/
def Scalar.flag (s : Scalar) : Option Bool :=
  if s.style = .plain ∨ (s.style = .literal ∧ s.tag = some flagTag) then flag? s.text else none

/-- What a value can be taken as: any scalar is its own text. -/
def Value.reading : Value → Reading
  | .scalar s => ⟨s.absent, some s.text, s.flag⟩
  | .collection => ⟨some false, none, none⟩

end Yaml

namespace Options

open Yaml

inductive Reads where
  | key
  | value (field : Field)
  /-- A value that no field takes, inside so many collections. -/
  | unknown (depth : Nat)

/-- Fields read one after another to the end of the mapping, and the items behind it. -/
def readFields (o : Options) (seen : List Field) :
    Reads → List Item → Except OptionsFault (Options × List Item)
  | .key, .closed :: rest => .ok (o, rest)
  | .key, .value (.scalar s) :: rest =>
    match Field.ofName? s.text with
    | none => readFields o seen (.unknown 0) rest
    | some field =>
      if field ∈ seen then .error .malformed else readFields o seen (.value field) rest
  | .value field, .value v :: rest => do
    readFields (← o.set v.reading field) (field :: seen) .key rest
  | .unknown 0, .value _ :: rest => readFields o seen .key rest
  | .unknown (depth + 1), .value _ :: rest => readFields o seen (.unknown (depth + 1)) rest
  | .unknown depth, .opened _ :: rest => readFields o seen (.unknown (depth + 1)) rest
  | .unknown 1, .closed :: rest => readFields o seen .key rest
  | .unknown (depth + 2), .closed :: rest => readFields o seen (.unknown (depth + 1)) rest
  | _, _ => .error .malformed

/-- The options of a document, and the items behind its content. -/
def readContent : List Item → Except OptionsFault (Options × List Item)
  | .opened true :: rest => default.readFields [] .key rest
  | .value (.scalar s) :: rest =>
    if s.text = "" ∧ s.style = .plain then .ok (default, rest) else .error .malformed
  | _ => .error .malformed

def ofItems : List Item → Except OptionsFault Options
  | [.streamEnd] => .ok default
  | .documentStart :: rest => do
    let (o, rest) ← readContent rest
    match rest with
    | [.documentEnd, .streamEnd] => .ok o
    | _ => .error .malformed
  | _ => .error .malformed

def ofYaml (text : String) : Except OptionsFault Options := ofItems (items (events text))

end Options

end LaunchPlan
