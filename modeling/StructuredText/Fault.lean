import StructuredText.Diagnostic
import StructuredText.Types.DataType

/-!
# Faults

What can be wrong with a library, and what can stop the compiler, as causes.
The wording of the reports is in `Fault.diagnostic` and nowhere else.
-/

set_option autoImplicit false

namespace StructuredText

inductive Fault where
  /-- A data type declared twice. -/
  | duplicateType (name : Ident)
  /-- A declared type that refers to something that does not exist. -/
  | unresolvedType (name : Ident)
  /-- A variable whose type does not exist. -/
  | undeclaredVariableType (name : Ident)
  /-- A function whose return type does not exist. -/
  | undeclaredReturnType (name : Ident)
  /-- A function block declared twice, first at `first`. -/
  | duplicateBlock (name : Ident) (first : Span)
  /-- A variable declared twice in a unit. -/
  | duplicateVariable (name : Ident)
  /-- An argument for a parameter that does not exist. -/
  | unknownParameter (name : Ident)
  /-- An argument beyond the last parameter. -/
  | tooManyArguments (span : Span)
  | undeclaredVariable (name : Ident)
  | undeclaredField (name : Ident) (type : DataType)
  /-- As many subscripts as the array does not have dimensions. -/
  | subscriptCount (span : Span) (expected actual : Nat)
  | notAnArray (span : Span) (type : DataType)
  /-- Operands that do not go together. -/
  | mismatch (span : Span) (left right : DataType)
  | badOperand (span : Span) (type : DataType)
  | badSubscript (span : Span) (type : DataType)
  | undeclaredEnumValue (name : Ident)
  | undeclaredFunction (name : Ident)
  /-- No declaration of an overloaded function takes the arguments. -/
  | noOverload (name : Ident)
  /-- The only declaration of a function does not take the arguments. -/
  | argumentMismatch (name : Ident)
  /-- A function block does not take the arguments. -/
  | blockArgumentMismatch (block type : Ident)
  | constantAssigned (span : Span) (name : Ident)
  | notAssignable (span : Span) (target source : DataType)
  | notABlock (name : Ident) (type : DataType)
  | undeclaredInstance (name : Ident)
  | conditionNotBool (span : Span) (type : DataType)
  | controlNotInteger (span : Span) (type : DataType)
  | undeclaredControl (name : Ident)
  /-- The compiler met something it cannot handle. -/
  | internal (problem : Problem) (span : Span)
  /-- Likewise, with a particular that helps to find it. -/
  | internalWith (problem : Problem) (span : Span) (description item : String)

/-- The report of a fault. -/
def Fault.diagnostic : Fault → Diagnostic
  | duplicateType name =>
      (Diagnostic.report .duplicateDeclaration name.span "Duplicate declaration").withIdent
        "type" name
  | unresolvedType name =>
      (Diagnostic.report .typeUndefined name.span "Declaration").withIdent "type" name
  | undeclaredVariableType name =>
      (Diagnostic.report .typeUndefined name.span "Variable declaration").withIdent "type" name
  | undeclaredReturnType name =>
      (Diagnostic.report .typeUndefined name.span "Return type").withIdent "type" name
  | duplicateBlock name first =>
      ((Diagnostic.report .duplicateDeclaration name.span "Duplicate declaration").withIdent
        "function block" name).withSecondary { span := first, message := "First declaration" }
  | duplicateVariable name =>
      (Diagnostic.report .duplicateDeclaration name.span "Duplicate declaration").withIdent
        "variable" name
  | unknownParameter name =>
      (Diagnostic.report .parameterUnknown name.span "Parameter").withIdent "parameter" name
  | tooManyArguments span => Diagnostic.report .parameterCount span "Argument"
  | undeclaredVariable name =>
      (Diagnostic.report .variableUndefined name.span "Variable").withIdent "variable" name
  | undeclaredField name type =>
      ((Diagnostic.report .fieldUndefined name.span "Field").withIdent "field" name).withContext
        "type" type.cName
  | subscriptCount span expected actual =>
      ((Diagnostic.report .arraySubscriptCount span "Array").withContext
        "expected" (toString expected)).withContext "actual" (toString actual)
  | notAnArray span type =>
      (Diagnostic.report .typeMismatch span "Not an array").withContext "type" type.cName
  | mismatch span left right =>
      ((Diagnostic.report .typeMismatch span "Expression").withContext
        "left" left.cName).withContext "right" right.cName
  | badOperand span type =>
      (Diagnostic.report .typeMismatch span "Operand").withContext "type" type.cName
  | badSubscript span type =>
      (Diagnostic.report .typeMismatch span "Subscript").withContext "type" type.cName
  | undeclaredEnumValue name =>
      (Diagnostic.report .enumeratedValueUndefined name.span "Enumerated value").withIdent
        "value" name
  | undeclaredFunction name =>
      (Diagnostic.report .functionUndefined name.span "Function").withIdent "function" name
  | noOverload name =>
      (Diagnostic.report .overloadNotFound name.span "Function").withIdent "function" name
  | argumentMismatch name =>
      (Diagnostic.report .typeMismatch name.span "Arguments").withIdent "function" name
  | blockArgumentMismatch block type =>
      (Diagnostic.report .typeMismatch block.span "Arguments").withIdent "function block" type
  | constantAssigned span name =>
      (Diagnostic.report .constantAssignment span "Assignment").withIdent "variable" name
  | notAssignable span target source =>
      ((Diagnostic.report .notAssignable span "Assignment").withContext
        "destination" target.cName).withContext "source" source.cName
  | notABlock name type =>
      ((Diagnostic.report .invocationNotFunctionBlock name.span "Invocation").withIdent
        "variable" name).withContext "type" type.cName
  | undeclaredInstance name =>
      (Diagnostic.report .variableUndefined name.span "Invocation").withIdent "variable" name
  | conditionNotBool span type =>
      (Diagnostic.report .conditionNotBool span "Condition").withContext "type" type.cName
  | controlNotInteger span type =>
      (Diagnostic.report .typeMismatch span "Control variable").withContext "type" type.cName
  | undeclaredControl name =>
      (Diagnostic.report .variableUndefined name.span "Control variable").withIdent
        "variable" name
  | internal problem span => Diagnostic.internal problem span
  | internalWith problem span description item =>
      (Diagnostic.internal problem span).withContext description item

/-- The problem of the catalogue that a fault is an instance of. -/
def Fault.problem (fault : Fault) : Problem := fault.diagnostic.problem

end StructuredText
