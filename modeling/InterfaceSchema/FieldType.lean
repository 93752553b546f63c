/-!
# Types of fields

* `Primitive`: the built-in types, with `Primitive.ofName?` and `Primitive.name` between a type and
  its spelling.
* `FieldType`: primitives, arrays, maps and references to messages; `FieldType.display` writes a
  type the way a schema does.
-/

namespace InterfaceSchema

/-- A built-in type. -/
inductive Primitive
  | string
  | uint8
  | uint16
  | uint32
  | uint64
  | int8
  | int16
  | int32
  | int64
  | float32
  | float64
  | bool
  deriving DecidableEq

namespace Primitive

/-- The built-in types in the order in which messages list them. -/
def all : List Primitive := [
  string, uint8, uint16, uint32, uint64, int8, int16, int32, int64, float32, float64, bool]

/-- The spelling of a built-in type. -/
def name : Primitive → String
  | string => "string"
  | uint8 => "uint8"
  | uint16 => "uint16"
  | uint32 => "uint32"
  | uint64 => "uint64"
  | int8 => "int8"
  | int16 => "int16"
  | int32 => "int32"
  | int64 => "int64"
  | float32 => "float32"
  | float64 => "float64"
  | bool => "bool"

/-- The built-in type with the given spelling. -/
def ofName? (name : String) : Option Primitive :=
  all.find? fun primitive => primitive.name = name

/-- Whether a map may have keys of this type. -/
def isMapKey (primitive : Primitive) : Bool :=
  primitive ≠ bool

/-- The spellings of the types that a map may have as keys, in order. -/
def mapKeyNames : List String :=
  (all.filter isMapKey).map name

theorem mem_all (primitive : Primitive) : primitive ∈ all := by
  cases primitive <;> decide

theorem ofName?_name (primitive : Primitive) : ofName? primitive.name = some primitive := by
  cases primitive <;> decide

theorem ofName?_array : ofName? "array" = none := by
  decide

theorem ofName?_map : ofName? "map" = none := by
  decide

theorem name_of_ofName?
    {text : String}
    {primitive : Primitive}
    (h : ofName? text = some primitive) :
    primitive.name = text := by
  simpa using List.find?_some h

end Primitive

/-- The type of a field. A reference names a message; what it refers to is settled only once all
files are loaded. -/
inductive FieldType
  | primitive (type : Primitive)
  | array (element : FieldType)
  | map (key : Primitive) (value : FieldType)
  | reference (name : String)
  deriving DecidableEq

namespace FieldType

/-- A type as it is written in a schema. -/
def display : FieldType → String
  | primitive type => type.name
  | array element => "array<" ++ element.display ++ ">"
  | map key value => "map<" ++ key.name ++ "," ++ value.display ++ ">"
  | reference name => name

end FieldType

/-- The type name of a method's argument or result when none is declared. -/
def voidName : String :=
  "void"

end InterfaceSchema
