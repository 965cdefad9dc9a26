import ClassSchema.TypeExpr.Basic

/-! # Types in a target language -/

namespace ClassSchema

namespace Primitive

def render : Language → Primitive → String
  | .cpp, .boolean => "bool"
  | .cpp, .string => "std::string"
  | .cpp, .integer | .cpp, .enum => "int"
  | .cpp, .integer64 => "int64_t"
  | .cpp, .float => "float"
  | .cpp, .float64 => "double"
  | .cpp, .json => "nl::json"
  | .python, .boolean => "bool"
  | .python, .string => "str"
  | .python, .integer | .python, .integer64 | .python, .enum => "int"
  | .python, .float | .python, .float64 => "float"
  | .python, .json => "Any"

end Primitive

namespace Container

/-- The type that a container becomes, with `@P@` where its parameter `P` goes. -/
def template : Language → Container → String
  | .cpp, .vector => "std::vector< @T@ >"
  | .cpp, .set => "std::set< @T@ >"
  | .cpp, .unorderedSet => "std::unordered_set< @T@ >"
  | .cpp, .map => "std::map< @K@, @V@ >"
  | .cpp, .unorderedMap => "std::unordered_map< @K@, @V@ >"
  | .cpp, .pair => "std::pair< @A@, @B@ >"
  | .python, .vector => "List[@T@]"
  | .python, .set | .python, .unorderedSet => "Set[@T@]"
  | .python, .map | .python, .unorderedMap => "Dict[@K@, @V@]"
  | .python, .pair => "Tuple[@A@, @B@]"

/-- Puts the arguments in, one parameter after the other. -/
def instantiate (text : String) : (params args : List String) → String
  | p :: ps, a :: as => instantiate (Text.replace ("@" ++ p ++ "@") a text) ps as
  | _, _ => text

end Container

def Pointer.suffix : Pointer → String
  | .absent => ""
  | .plain => "Ptr"
  | .const => "CPtr"

namespace TypeExpr

def renderReference (ns className : String) (isConst : Bool) (pointer : Pointer) :
    Language → String
  | .cpp =>
      (if isConst then "const " else "") ++ ClassName.qualify className ns ++ pointer.suffix
  | .python =>
      let qualified := ClassName.qualify className ns
      if qualified = ClassName.qualifiedRoot then ClassName.root
      else match Text.stripStart? (ns ++ "::") qualified with
        | some bare => bare
        | none => Text.replace "::" "." qualified

def renderFunction (signature : String) : Language → String
  | .cpp => "std::function< " ++ signature ++ " >"
  | .python => "Callable[..., Any]"

mutual

/-- The type in a language, for a class of namespace `ns`. -/
def render (language : Language) (ns : String) : TypeExpr → Except Error String
  | .primitive s =>
      .ok (match Primitive.ofName? (Text.upper s) with
        | some p => p.render language
        | none => s)
  | .reference c isConst pointer _ => .ok (renderReference ns c isConst pointer language)
  | .placeholder index _ _ => .ok (variableName index)
  | .function signature _ => .ok (renderFunction signature language)
  | .composite base args source =>
      match Container.ofName? base with
      | none => .error (.unknownConstructor base language)
      | some container =>
          let expected := container.params.length
          if expected ≠ args.length then .error (.malformed source (.arity base expected))
          else match renderAll language ns args with
            | .error e => .error e
            | .ok texts =>
                .ok (Container.instantiate (container.template language) container.params texts)

def renderAll (language : Language) (ns : String) : List TypeExpr → Except Error (List String)
  | [] => .ok []
  | t :: ts =>
      match render language ns t with
      | .error e => .error e
      | .ok text => match renderAll language ns ts with
        | .error e => .error e
        | .ok texts => .ok (text :: texts)

end

end TypeExpr

end ClassSchema
