import ClassSchema.Text.Cut

/-! # Class names and namespaces -/

namespace ClassSchema.ClassName

/-- The class from which every class derives. -/
def root : String := "XType"

def rootNamespace : String := "xtypes"

def qualifiedRoot : String := "xtypes::XType"

/-- A name with `::` stays as it is, the root lies in its own namespace, and every other name is
placed in `ns`. -/
def qualify (name ns : String) : String :=
  if (Text.cut? "::" name).isSome then name
  else if name = root then qualifiedRoot
  else ns ++ "::" ++ name

/-- The name without `ns::` in front of it, if it stands there. -/
def localTo (ns name : String) : String :=
  (Text.stripStart? (ns ++ "::") name).getD name

def isRoot (name : String) : Bool := name == root || name == qualifiedRoot

/-- The part before the last `::`, if any, and the part after it. -/
def parts (name : String) : Option String × String :=
  match Text.cutLast? "::" name with
  | some (ns, last) => (some ns, last)
  | none => (none, name)

/-- An identifier for a path: every character but ASCII letters and digits becomes `_`. -/
def accessor (path : String) : String :=
  String.ofList (path.toList.map fun c => if c.isAlphanum then c else '_')

end ClassSchema.ClassName
