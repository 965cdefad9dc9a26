import ClassSchema.Text.Blank
import ClassSchema.TypeExpr.Basic

/-! # Reading type expressions

A type is a placeholder `TEMPLATE:<n>[A; B]`, a class reference `XTYPE(ns::ConstNamePtr)`, a
callable `FUNCTION(signature)`, a constructor applied to arguments `BASE(a, b; c)`, or a bare
name. -/

namespace ClassSchema.TypeExpr

/-- Checks that parentheses are closed in order, below `depth` open ones. -/
def checkBalance : (depth : Nat) → List Char → Except Flaw Unit
  | 0, [] => .ok ()
  | _ + 1, [] => .error .unbalanced
  | depth, c :: cs =>
      if c = '(' then checkBalance (depth + 1) cs
      else if c = ')' then
        match depth with
        | 0 => .error .unexpectedClose
        | depth + 1 => checkBalance depth cs
      else checkBalance depth cs

def consHead (c : Char) : List (List Char) → List (List Char)
  | [] => [[c]]
  | piece :: pieces => (c :: piece) :: pieces

def isOpening (c : Char) : Bool := c == '(' || c == '['

def isClosing (c : Char) : Bool := c == ')' || c == ']'

def isSeparator (c : Char) : Bool := c == ',' || c == ';'

/-- The pieces between the separators that stand outside of all brackets. -/
def splitTop : (depth : Nat) → List Char → Option (List (List Char))
  | _, [] => some [[]]
  | depth, c :: cs =>
      if isOpening c then (splitTop (depth + 1) cs).map (consHead c)
      else if isClosing c then
        match depth with
        | 0 => none
        | depth + 1 => (splitTop depth cs).map (consHead c)
      else if isSeparator c && depth == 0 then (splitTop 0 cs).map ([] :: ·)
      else (splitTop depth cs).map (consHead c)

/-- The value of a run of decimal digits, if it is not empty and fits 32 bits. -/
def index? (digits : List Char) : Option Nat :=
  let n := digits.foldl (fun n d => 10 * n + (d.toNat - '0'.toNat)) 0
  if digits.isEmpty || n ≥ Nat.pow 2 32 then none else some n

/-- The names in a list of candidates; empty ones are dropped. -/
def candidateList (inner : List Char) : List String :=
  (((Chars.split (· == ';') inner).map Chars.trim).filter (!·.isEmpty)).map String.ofList

/-- Reads what may follow the index of a placeholder. -/
def parseCandidates (index : Option Nat) (source rest : List Char) : Except Flaw TypeExpr :=
  if rest.isEmpty then .ok (.placeholder index [] (String.ofList source))
  else match Chars.stripStart? ['['] rest with
    | none => .error .noCandidateList
    | some rest => match Chars.stripEnd? [']'] rest with
      | none => .error .noCandidateList
      | some inner => .ok (.placeholder index (candidateList inner) (String.ofList source))

def parsePlaceholder (source rest : List Char) : Except Flaw TypeExpr :=
  match rest with
  | ':' :: after =>
      match index? (after.takeWhile Char.isDigit) with
      | none => .error .noIndex
      | some i => parseCandidates (some i) source (after.dropWhile Char.isDigit)
  | _ => parseCandidates none source rest

/-- Takes `Const` off a class name, if an upper-case letter follows it. -/
def takeConst (name : List Char) : Bool × List Char :=
  match Chars.stripStart? "Const".toList name with
  | some (c :: rest) => if c.isUpper then (true, c :: rest) else (false, name)
  | _ => (false, name)

/-- Takes the mark of a pointer off a class name, unless nothing else would be left. -/
def takePointer (name : List Char) : Pointer × List Char :=
  match Chars.stripEnd? "CPtr".toList name with
  | some (c :: rest) => (.const, c :: rest)
  | _ => match Chars.stripEnd? "Ptr".toList name with
    | some (c :: rest) => (.plain, c :: rest)
    | _ => (.absent, name)

/-- The namespace of a class name up to its last `::`, and the rest. -/
def splitNamespace (name : List Char) : List Char × List Char :=
  match Chars.cutLast? [':', ':'] name with
  | some (ns, last) => (ns ++ [':', ':'], last)
  | none => ([], name)

def parseReference (source rest : List Char) : Except Flaw TypeExpr :=
  match Chars.stripEnd? [')'] rest with
  | none => .error .afterReference
  | some inner =>
      let inner := Chars.trim inner
      if inner.isEmpty || inner.contains '(' || inner.contains ')' then .error .noClassName
      else
        let (ns, name) := splitNamespace inner
        let (isConst, name) := takeConst name
        let (pointer, name) := takePointer name
        .ok (.reference (String.ofList (ns ++ name)) isConst pointer (String.ofList source))

def parseFunction (source rest : List Char) : Except Flaw TypeExpr :=
  match Chars.stripEnd? [')'] rest with
  | none => .error .afterFunction
  | some inner =>
      .ok (.function (String.ofList (Chars.trim inner)) (String.ofList source))

def flawed {α : Type} (expr : List Char) (flaw : Flaw) : Except Error α :=
  .error (.malformed (String.ofList expr) flaw)

def liftFlaw {α : Type} (expr : List Char) : Except Flaw α → Except Error α
  | .ok a => .ok a
  | .error flaw => flawed expr flaw

def parseArgument (parseArg : List Char → Except Error TypeExpr) (source piece : List Char) :
    Except Error TypeExpr :=
  if (Chars.trim piece).isEmpty then flawed source .emptyArgument else parseArg piece

/-- Reads `BASE(a, b)`, with `parseArg` for the arguments. -/
def parseComposite (parseArg : List Char → Except Error TypeExpr)
    (source before after : List Char) : Except Error TypeExpr :=
  match Chars.stripEnd? [')'] after with
  | none => flawed source .afterComposite
  | some inner =>
      let name := Chars.trim before
      if name.isEmpty then flawed source .noConstructor
      else match splitTop 0 inner with
        | none => flawed source .openArguments
        | some pieces => do
            let args ← pieces.mapM (parseArgument parseArg source)
            let base := Text.upper (String.ofList name)
            if Container.isSetLike base && args.any isReference then
              .error (.containerOfReference base (String.ofList source))
            else .ok (.composite base args (String.ofList source))

/-- Reads a type whose parentheses are closed in order, with `parseArg` for its arguments. -/
def parseBalanced (parseArg : List Char → Except Error TypeExpr) (source : List Char) :
    Except Error TypeExpr :=
  match Chars.stripStart? "TEMPLATE".toList source with
  | some rest => liftFlaw source (parsePlaceholder source rest)
  | none => match Chars.stripStart? "XTYPE(".toList source with
    | some rest => liftFlaw source (parseReference source rest)
    | none => match Chars.stripStart? "FUNCTION(".toList source with
      | some rest => liftFlaw source (parseFunction source rest)
      | none => match Chars.cut? ['('] source with
        | some (before, after) => parseComposite parseArg source before after
        | none => .ok (.primitive (String.ofList source))

/-- Reads a type whose nesting is less than `depth`. -/
def parseWithin : (depth : Nat) → List Char → Except Error TypeExpr
  | 0, expr => flawed expr .openArguments
  | depth + 1, expr =>
      let source := Chars.trim expr
      if source.isEmpty then flawed expr .empty
      else match checkBalance 0 source with
        | .error flaw => flawed source flaw
        | .ok () => parseBalanced (parseWithin depth) source

/-- Reads a type. An argument is shorter than the type it stands in, so the length of the text
bounds the nesting. -/
def parse (expr : String) : Except Error TypeExpr :=
  parseWithin (expr.toList.length + 1) expr.toList

end ClassSchema.TypeExpr
