import BackOffice.Query.Operator
import BackOffice.Number.Numeral

/-!
# What can be wrong with a search
-/
namespace BackOffice.Query

inductive Fault where
  | arity (op : Operator) (given : Nat)
  | unknownOperator (token : String)
  | unknownDirection (token : String)
  | unknownJoin (token : String)
  | badValue (key value : String)
  | emptyPage
  | pageOutOfRange (page size : UInt64)
  | incompleteClause (key : String)
deriving DecidableEq

/-- The name of the kind of a fault. -/
def Fault.kind : Fault → String
  | arity .. => "InvalidArity"
  | unknownOperator _ => "UnknownOperator"
  | unknownDirection _ => "UnknownDirection"
  | unknownJoin _ => "UnknownJoinOperator"
  | badValue .. => "InvalidNumber"
  | emptyPage => "InvalidPageSize"
  | pageOutOfRange .. => "PageOutOfRange"
  | incompleteClause _ => "IncompleteClause"

def Fault.message : Fault → String
  | arity op given =>
    "operator '" ++ op.token ++ "' expects " ++ op.arityText ++ " value(s), got " ++
      Numeral.text given
  | unknownOperator token => "unknown where operator '" ++ token ++ "'"
  | unknownDirection token => "unknown sort direction '" ++ token ++ "'"
  | unknownJoin token => "unknown join operator '" ++ token ++ "'"
  | badValue key value => "invalid value '" ++ value ++ "' for '" ++ key ++ "'"
  | emptyPage => "page size must be positive"
  | pageOutOfRange page size =>
    "page " ++ Numeral.text page.toNat ++ " of size " ++ Numeral.text size.toNat ++ " is out of range"
  | incompleteClause key => "clause '" ++ key ++ "' is missing its name or operator"

end BackOffice.Query
