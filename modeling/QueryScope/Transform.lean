import QueryScope.Injection
import QueryScope.Reason
import QueryScope.Variable.Codec

/-!
# Scoping a query

Labels are injected into a query that may hold template variables: the variables are encoded, the
query is read, the labels are injected, and the printed query is decoded.
-/

namespace QueryScope

/-- Why a query cannot be scoped. -/
inductive TransformFault where
  | position (e : Variable.PositionError)
  | grammar (e : Scan.SyntaxError)
deriving DecidableEq

/-- The fault in one line. -/
def TransformFault.message : TransformFault → String
  | position e => e.message
  | grammar e => e.message

/-- The reason that a fault falls under. -/
def TransformFault.reason : TransformFault → Reason
  | position _ => .structuralPosition
  | grammar _ => .grammarParse

/-- What happened while a query was scoped. -/
inductive TransformStep where
  | misplaced (e : Variable.PositionError)
  | encoded (count : Nat) (text : String)
  | unreadable (e : Scan.SyntaxError)
  | injected (count : Nat)

/-- A scoped query or the fault, with the steps that led there. -/
structure Transformation where
  steps : List TransformStep
  result : Except TransformFault String

/-- The encoding step, which is not mentioned for a query without variables. -/
def encodingSteps (encoded : Variable.Encoded) : List TransformStep :=
  if encoded.table.isEmpty then [] else [.encoded encoded.table.length encoded.text]

/-- The labels of a set injected into a query, step by step. -/
def transformSteps (dialect : Dialect) (query : String) (set : LabelSet) : Transformation :=
  match Variable.encode query with
  | .error e => ⟨[.misplaced e], .error (.position e)⟩
  | .ok encoded =>
    match Query.parse dialect encoded.text with
    | .error e => ⟨encodingSteps encoded ++ [.unreadable e], .error (.grammar e)⟩
    | .ok tree =>
      ⟨encodingSteps encoded ++ [.injected (tree.countMissing set)],
        .ok (Variable.decode encoded.table (tree.inject set).print)⟩

/-- The labels of a set injected into a query. -/
def transform (dialect : Dialect) (query : String) (set : LabelSet) : Except TransformFault String :=
  (transformSteps dialect query set).result

end QueryScope
