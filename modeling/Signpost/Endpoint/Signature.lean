import Signpost.Binding.Populate

/-!
This module contains the signatures of callables and their classification into the calling conventions that
are supported.
-/

namespace Signpost.Endpoint

open Binding (ParamType)

/-- A declared parameter. -/
inductive ParamKind where
  | context
  | data (t : ParamType)

/-- A declared return value. -/
inductive ReturnKind where
  | error
  | data
  deriving DecidableEq

/-- The parameters and the return values of a callable, in order. -/
structure Signature where
  params : List ParamKind
  returns : List ReturnKind

/-- The supported lists of parameters. -/
inductive ParamShape where
  | none
  | context
  | data (t : ParamType)
  | contextData (t : ParamType)
  | dataContext (t : ParamType)

/-- The supported lists of return values. -/
inductive ReturnShape where
  | none
  | error
  | data
  | errorData
  | dataError
  deriving DecidableEq

/-- How a callable is called and what it gives back. -/
structure Convention where
  params : ParamShape
  returns : ReturnShape

/-- Why a signature is not supported. -/
inductive SignatureError where
  | tooManyParams (count : Nat)
  | tooManyReturns (count : Nat)
  | duplicateParam (kind : String)
  | duplicateReturn (kind : String)
  deriving DecidableEq

def SignatureError.message : SignatureError → String
  | .tooManyParams count => toString count ++ " parameters declared, at most 2 supported"
  | .tooManyReturns count => toString count ++ " return values declared, at most 2 supported"
  | .duplicateParam kind => "unsupported parameter pair: two " ++ kind ++ " parameters"
  | .duplicateReturn kind => "unsupported return pair: two " ++ kind ++ " values"

namespace ParamShape

def ofList : List ParamKind → Except SignatureError ParamShape
  | [] => .ok .none
  | [.context] => .ok .context
  | [.data t] => .ok (.data t)
  | [.context, .data t] => .ok (.contextData t)
  | [.data t, .context] => .ok (.dataContext t)
  | [.context, .context] => .error (.duplicateParam "context")
  | [.data _, .data _] => .error (.duplicateParam "data")
  | params => .error (.tooManyParams params.length)

def toList : ParamShape → List ParamKind
  | .none => []
  | .context => [.context]
  | .data t => [.data t]
  | .contextData t => [.context, .data t]
  | .dataContext t => [.data t, .context]

theorem ofList_toList (shape : ParamShape) : ofList shape.toList = .ok shape := by
  cases shape <;> rfl

theorem toList_of_ofList (h : ofList params = .ok shape) : shape.toList = params := by
  unfold ofList at h
  split at h <;> cases h <;> rfl

/-- The type of the data parameter. -/
def dataType? : ParamShape → Option ParamType
  | .none | .context => Option.none
  | .data t | .contextData t | .dataContext t => some t

theorem dataType?_eq_some_iff (shape : ParamShape) (t : ParamType) :
    shape.dataType? = some t ↔ .data t ∈ shape.toList := by
  cases shape <;> simp [dataType?, toList, eq_comm]

def arity (shape : ParamShape) : Nat :=
  shape.toList.length

end ParamShape

namespace ReturnShape

def ofList : List ReturnKind → Except SignatureError ReturnShape
  | [] => .ok .none
  | [.error] => .ok .error
  | [.data] => .ok .data
  | [.error, .data] => .ok .errorData
  | [.data, .error] => .ok .dataError
  | [.error, .error] => .error (.duplicateReturn "error")
  | [.data, .data] => .error (.duplicateReturn "data")
  | returns => .error (.tooManyReturns returns.length)

def toList : ReturnShape → List ReturnKind
  | .none => []
  | .error => [.error]
  | .data => [.data]
  | .errorData => [.error, .data]
  | .dataError => [.data, .error]

def arity (shape : ReturnShape) : Nat :=
  shape.toList.length

end ReturnShape

/-- The calling convention of a signature. The parameters are looked at first. -/
def Signature.classify (s : Signature) : Except SignatureError Convention := do
  let params ← ParamShape.ofList s.params
  let returns ← ReturnShape.ofList s.returns
  return ⟨params, returns⟩

theorem Signature.params_of_classify {s : Signature} (h : s.classify = .ok convention) :
    convention.params.toList = s.params := by
  unfold classify at h
  cases hparams : ParamShape.ofList s.params with
  | error e =>
    rw [hparams] at h
    cases h
  | ok params =>
    cases hreturns : ReturnShape.ofList s.returns with
    | error e =>
      rw [hparams, hreturns] at h
      cases h
    | ok returns =>
      rw [hparams, hreturns] at h
      cases h
      exact ParamShape.toList_of_ofList hparams

/-! ## How conventions are shown -/

def ParamKind.word : ParamKind → String
  | .context => "ctx"
  | .data t => t.fullName

def ReturnKind.word : ReturnKind → String
  | .error => "error"
  | .data => "data"

def inParens (words : List String) : String :=
  "(" ++ ", ".intercalate words ++ ")"

def ParamShape.text (shape : ParamShape) : String :=
  inParens (shape.toList.map ParamKind.word)

def ReturnShape.text (shape : ReturnShape) : String :=
  inParens (shape.toList.map ReturnKind.word)

/-- A convention as it is shown to a user. -/
def Convention.text (c : Convention) : String :=
  c.params.text ++ " -> " ++ c.returns.text

def ParamKind.describe : ParamKind → String
  | .context => "Context"
  | .data t => "Data(" ++ t.fullName ++ ")"

def ReturnKind.describe : ReturnKind → String
  | .error => "Error"
  | .data => "Data"

def ParamShape.describe : ParamShape → String
  | .none => "None"
  | .context => "ContextOnly"
  | .data t => "DataOnly(" ++ t.fullName ++ ")"
  | .contextData t => "ContextThenData(" ++ t.fullName ++ ")"
  | .dataContext t => "DataThenContext(" ++ t.fullName ++ ")"

def ReturnShape.describe : ReturnShape → String
  | .none => "None"
  | .error => "ErrorOnly"
  | .data => "DataOnly"
  | .errorData => "ErrorThenData"
  | .dataError => "DataThenError"

/-- A convention as it is shown to a developer. -/
def Convention.describe (c : Convention) : String :=
  "CallingConvention \x7b params: " ++ c.params.describe ++ ", returns: " ++ c.returns.describe ++ " \x7d"

def inBrackets (words : List String) : String :=
  "[" ++ ", ".intercalate words ++ "]"

/-- A signature as it is shown to a developer. -/
def Signature.describe (s : Signature) : String :=
  "Signature \x7b params: " ++ inBrackets (s.params.map ParamKind.describe) ++ ", returns: "
    ++ inBrackets (s.returns.map ReturnKind.describe) ++ " \x7d"

end Signpost.Endpoint
