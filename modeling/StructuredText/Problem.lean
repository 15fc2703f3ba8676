/-!
# The catalogue of problems

Every report names one problem of this catalogue.  Problems of the program being
compiled have codes that start with `P4`; problems that say the compiler itself
met something it cannot handle are internal and have codes that start with `P9`.
-/

set_option autoImplicit false

namespace StructuredText

inductive Problem where
  | internalError
  | notImplemented
  | scopeUnderflow
  | callNotResolved
  | extensibleCountMissing
  | arrayDimensionUnresolved
  | stringEscapeInvalid
  | unexpectedNode
  | typeNotResolved
  | doubleByteStringUnsupported
  | variableUndefined
  | typeMismatch
  | notAssignable
  | functionUndefined
  | invocationNotFunctionBlock
  | parameterUnknown
  | fieldUndefined
  | overloadNotFound
  | typeUndefined
  | conditionNotBool
  | arraySubscriptCount
  | constantAssignment
  | duplicateDeclaration
  | enumeratedValueUndefined
  | parameterCount
deriving DecidableEq, Repr

namespace Problem

/-- The whole catalogue, internal problems first. -/
def all : List Problem :=
  [internalError, notImplemented, scopeUnderflow, callNotResolved, extensibleCountMissing,
    arrayDimensionUnresolved, stringEscapeInvalid, unexpectedNode, typeNotResolved,
    doubleByteStringUnsupported, variableUndefined, typeMismatch, notAssignable,
    functionUndefined, invocationNotFunctionBlock, parameterUnknown, fieldUndefined,
    overloadNotFound, typeUndefined, conditionNotBool, arraySubscriptCount,
    constantAssignment, duplicateDeclaration, enumeratedValueUndefined, parameterCount]

/-- The name a problem is listed under. -/
def name : Problem → String
  | internalError => "InternalError"
  | notImplemented => "NotImplemented"
  | scopeUnderflow => "ScopeUnderflow"
  | callNotResolved => "CallNotResolved"
  | extensibleCountMissing => "ExtensibleCountMissing"
  | arrayDimensionUnresolved => "ArrayDimensionUnresolved"
  | stringEscapeInvalid => "StringEscapeInvalid"
  | unexpectedNode => "UnexpectedNode"
  | typeNotResolved => "TypeNotResolved"
  | doubleByteStringUnsupported => "DoubleByteStringUnsupported"
  | variableUndefined => "VariableUndefined"
  | typeMismatch => "TypeMismatch"
  | notAssignable => "NotAssignable"
  | functionUndefined => "FunctionUndefined"
  | invocationNotFunctionBlock => "InvocationNotFunctionBlock"
  | parameterUnknown => "ParameterUnknown"
  | fieldUndefined => "FieldUndefined"
  | overloadNotFound => "OverloadNotFound"
  | typeUndefined => "TypeUndefined"
  | conditionNotBool => "ConditionNotBool"
  | arraySubscriptCount => "ArraySubscriptCount"
  | constantAssignment => "ConstantAssignment"
  | duplicateDeclaration => "DuplicateDeclaration"
  | enumeratedValueUndefined => "EnumeratedValueUndefined"
  | parameterCount => "ParameterCount"

/-- The stable code of a problem. -/
def code : Problem → String
  | internalError => "P9001"
  | notImplemented => "P9002"
  | scopeUnderflow => "P9003"
  | callNotResolved => "P9004"
  | extensibleCountMissing => "P9005"
  | arrayDimensionUnresolved => "P9006"
  | stringEscapeInvalid => "P9007"
  | unexpectedNode => "P9008"
  | typeNotResolved => "P9009"
  | doubleByteStringUnsupported => "P9010"
  | variableUndefined => "P4001"
  | typeMismatch => "P4002"
  | notAssignable => "P4003"
  | functionUndefined => "P4004"
  | invocationNotFunctionBlock => "P4005"
  | parameterUnknown => "P4006"
  | fieldUndefined => "P4007"
  | overloadNotFound => "P4008"
  | typeUndefined => "P4009"
  | conditionNotBool => "P4010"
  | arraySubscriptCount => "P4011"
  | constantAssignment => "P4012"
  | duplicateDeclaration => "P4013"
  | enumeratedValueUndefined => "P4014"
  | parameterCount => "P4015"

/-- What a problem means, in one sentence. -/
def message : Problem → String
  | internalError => "Internal error in the compiler"
  | notImplemented => "Not implemented"
  | scopeUnderflow => "Scope stack popped without a matching push"
  | callNotResolved => "Call has no resolved declaration"
  | extensibleCountMissing => "Extensible call has no extensible argument count"
  | arrayDimensionUnresolved => "Array dimension cannot be resolved"
  | stringEscapeInvalid => "Character string contains an invalid escape sequence"
  | unexpectedNode => "Tree node is not valid in this context"
  | typeNotResolved => "Expression has no resolved data type"
  | doubleByteStringUnsupported =>
      "Double-byte character strings are not supported by the C generator"
  | variableUndefined => "Variable is not declared in this scope"
  | typeMismatch => "Operand data types are not compatible"
  | notAssignable => "Value is not assignable to the destination"
  | functionUndefined => "Function is not declared"
  | invocationNotFunctionBlock => "Invoked variable is not a function block instance"
  | parameterUnknown => "Parameter is not declared by the called function or function block"
  | fieldUndefined => "Structure or function block does not declare the field"
  | overloadNotFound => "No declaration of the function matches the argument data types"
  | typeUndefined => "Data type is not declared"
  | conditionNotBool => "Condition expression must be BOOL"
  | arraySubscriptCount => "Number of array subscripts does not match the array dimensions"
  | constantAssignment => "Variable declared CONSTANT cannot be assigned"
  | duplicateDeclaration => "Name is declared more than once in the same scope"
  | enumeratedValueUndefined => "Enumerated value is not declared"
  | parameterCount => "Call has more arguments than the declaration has parameters"

/-- True for problems of the compiler rather than of the compiled program. -/
def isInternal : Problem → Bool
  | internalError | notImplemented | scopeUnderflow | callNotResolved
  | extensibleCountMissing | arrayDimensionUnresolved | stringEscapeInvalid
  | unexpectedNode | typeNotResolved | doubleByteStringUnsupported => true
  | _ => false

/-- The problem listed under a name. -/
def ofName? (text : String) : Option Problem :=
  all.find? fun problem => problem.name == text

theorem mem_all (problem : Problem) : problem ∈ all := by
  cases problem <;> decide

theorem ofName?_name (problem : Problem) : ofName? problem.name = some problem := by
  cases problem <;> decide

end Problem

end StructuredText
