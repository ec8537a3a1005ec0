import GuestScript.Value

/-!
# Properties

A property holds a value, or a getter and a setter, together with its attributes. A *descriptor* names
some of these fields; defining a property overlays the fields that are named.

* `Descriptor.complete` makes a new property: fields that are not named are `undefined` and `false`.
* `Property.overlay` changes a property; a change of kind drops the fields of the other kind.
* `Property.admits` says which changes a property that is not configurable takes.
-/

namespace GuestScript

/-! ## 1. Properties -/

/-- What a property holds. -/
inductive Content where
  | data (value : Value) (writable : Bool)
  | accessor (getter setter : Value)

/-- A property of an object. -/
structure Property where
  content : Content
  enumerable : Bool
  configurable : Bool

namespace Property

instance : Inhabited Property := ⟨⟨.data .undefined false, false, false⟩⟩

def data (value : Value) (writable enumerable configurable : Bool) : Property :=
  { content := .data value writable, enumerable := enumerable, configurable := configurable }

/-- An ordinary property: writable, enumerable and configurable. -/
def ordinary (value : Value) : Property :=
  data value true true true

/-- A property of the shape of built-in methods: writable and configurable, and not enumerable. -/
def hidden (value : Value) : Property :=
  data value true false true

/-- Whether a property has a getter and a setter. -/
def isAccessor (p : Property) : Bool :=
  match p.content with
  | .accessor _ _ => true
  | .data _ _ => false

/-- Whether a property holds a value that may be written. -/
def isWritable (p : Property) : Bool :=
  match p.content with
  | .data _ writable => writable
  | .accessor _ _ => false

def value? (p : Property) : Option Value :=
  match p.content with
  | .data value _ => some value
  | .accessor _ _ => none

/-- The property as a frozen object holds it. -/
def freeze (p : Property) : Property :=
  match p.content with
  | .data value _ => { p with content := .data value false, configurable := false }
  | .accessor _ _ => { p with configurable := false }

end Property

/-! ## 2. Descriptors -/

/-- Some of the fields of a property. -/
structure Descriptor where
  value : Option Value := none
  writable : Option Bool := none
  getter : Option Value := none
  setter : Option Value := none
  enumerable : Option Bool := none
  configurable : Option Bool := none

namespace Descriptor

/-- All fields of a data property. -/
def data (value : Value) (writable enumerable configurable : Bool) : Descriptor :=
  { value := some value, writable := some writable, enumerable := some enumerable,
    configurable := some configurable }

/-- All fields of an ordinary property. -/
def ordinary (value : Value) : Descriptor :=
  data value true true true

/-- Whether a field of data properties is named. -/
def isData (d : Descriptor) : Bool :=
  d.value.isSome || d.writable.isSome

/-- Whether a field of accessor properties is named. -/
def isAccessor (d : Descriptor) : Bool :=
  d.getter.isSome || d.setter.isSome

/-- The new property that a descriptor makes. -/
def complete (d : Descriptor) : Property :=
  { content :=
      if d.isAccessor then .accessor (d.getter.getD .undefined) (d.setter.getD .undefined)
      else .data (d.value.getD .undefined) (d.writable.getD false)
    enumerable := d.enumerable.getD false
    configurable := d.configurable.getD false }

end Descriptor

namespace Property

/-- A property with the fields that a descriptor names overlaid. -/
def overlay (p : Property) (d : Descriptor) : Property :=
  { content :=
      match p.content with
      | .data value writable =>
        if d.isAccessor then .accessor (d.getter.getD .undefined) (d.setter.getD .undefined)
        else .data (d.value.getD value) (d.writable.getD writable)
      | .accessor getter setter =>
        if d.isData then .data (d.value.getD .undefined) (d.writable.getD false)
        else .accessor (d.getter.getD getter) (d.setter.getD setter)
    enumerable := d.enumerable.getD p.enumerable
    configurable := d.configurable.getD p.configurable }

/-- Whether a named field, if any, agrees with a value. -/
def agrees (field : Option Value) (value : Value) : Bool :=
  match field with
  | some v => v.sameValue value
  | none => true

/-- Whether a property that is not configurable may be changed as a descriptor says: it keeps its
enumerability and its kind, a read-only value stays, and so do a getter and a setter. -/
def admits (p : Property) (d : Descriptor) : Bool :=
  d.configurable != some true
    && (match d.enumerable with
      | some e => e == p.enumerable
      | none => true)
    && (match p.content with
      | .data value writable =>
        !d.isAccessor && (writable || (d.writable != some true && agrees d.value value))
      | .accessor getter setter =>
        !d.isData && agrees d.getter getter && agrees d.setter setter)

end Property

end GuestScript
