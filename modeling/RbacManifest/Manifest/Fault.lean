import RbacManifest.Value.Describe

/-!
# Why a resource has no manifest

A resource may carry values of any type in its name and its labels. Most of them can stand in a
manifest; this file lists what cannot, and how it is reported.
-/

namespace RbacManifest

namespace Manifest

/-- What keeps a resource from being expressed as a manifest. -/
inductive Fault
  /-- The labels are a value of this type, which is no collection. -/
  | noCollection (typeName : String)
  /-- A member of the labels is no pair because it is no collection. -/
  | memberNoCollection (index : Nat)
  /-- A member of the labels is no pair because it has this many parts. -/
  | memberLength (index length : Nat)
  /-- The key of a label is a value of this type, which cannot be a key. -/
  | noKey (typeName : String)
  /-- A field without a value must have one. -/
  | required (field : String)
  /-- A value of this type is no data. -/
  | noData (typeName : String)
  /-- A value that has no written form. -/
  | unwritable (value : Value)

def Fault.message : Fault → String
  | .noCollection typeName => s!"'{typeName}' object is not iterable"
  | .memberNoCollection index =>
      s!"cannot convert dictionary update sequence element #{index} to a sequence"
  | .memberLength index length =>
      s!"dictionary update sequence element #{index} has length {length}; 2 is required"
  | .noKey typeName => s!"unhashable type: '{typeName}'"
  | .required field => s!"Invalid value for `{field}`, must not be `None`"
  | .noData typeName => s!"'{typeName}' object has no attribute 'openapi_types'"
  | .unwritable value => s!"('cannot represent an object', {value.describe})"

end Manifest

end RbacManifest
