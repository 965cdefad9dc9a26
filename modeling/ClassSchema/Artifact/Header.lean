import ClassSchema.Artifact.Kind
import ClassSchema.Number
import ClassSchema.Text.Lines

/-! # The lines at the head of every generated file -/

namespace ClassSchema

/-- A local time of day. -/
structure Timestamp where
  year : Int
  month : Nat
  day : Nat
  hour : Nat
  minute : Nat
  second : Nat
deriving DecidableEq, Repr, Inhabited

namespace Timestamp

/-- At least that many decimal digits. -/
def digits (width n : Nat) : String :=
  let ds := Nat.toDigits 10 n
  String.ofList (List.replicate (width - ds.length) '0' ++ ds)

/-- Years outside of four digits carry a sign. -/
def yearText (year : Int) : String :=
  if 0 ≤ year && year ≤ 9999 then digits 4 year.toNat
  else (if year < 0 then "-" else "+") ++ digits 4 year.natAbs

def text (t : Timestamp) : String :=
  digits 2 t.month ++ "/" ++ digits 2 t.day ++ "/" ++ yearText t.year ++ " "
    ++ digits 2 t.hour ++ ":" ++ digits 2 t.minute ++ ":" ++ digits 2 t.second

end Timestamp

def version : String := "0.1.0"

/-- What the first line of a file says. -/
def generationComment (at_ : Timestamp) : String :=
  "Auto-generated with xtypes-gen " ++ version ++ " on " ++ at_.text

namespace Artifact

/-- What all files of a run share. -/
structure Context where
  project : String
  comment : String
deriving Repr, Inhabited

def notice (kind : ArtifactKind) : String :=
  if kind.isSkeleton then
    "Generated once, edit freely. It is only rewritten when overwriting skeletons."
  else "Do not edit. Changes are overwritten on the next run."

/-- Three lines: when the file was generated, what it is, and whether to edit it. -/
def header (kind : ArtifactKind) (context : Context) (subject : String) : List String :=
  let mark := kind.commentMark
  let name := kind.name
  let project := context.project
  [mark ++ " " ++ context.comment,
   s!"{mark} {subject} ({name}) of project {project}",
   mark ++ " " ++ notice kind]

end Artifact

end ClassSchema
