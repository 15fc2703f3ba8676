import StructuredText.Lowering.Unit
import StructuredText.Proofs.Types.Origin

/-!
# The limits of generated code

The faults that can stop the lowering of an accepted library.  Most of them name
something that has no counterpart in generated code; two have to do with declared
types that have no value to start with or no length.
-/

set_option autoImplicit false

namespace StructuredText

/-- A fault that an accepted library with the given type declarations may still have. -/
inductive Fault.IsLimit (decls : List TypeDecl) : Fault → Prop where
  | unsupported {fault : Fault}
      (problem : fault.problem ∈
        [.notImplemented, .stringEscapeInvalid, .doubleByteStringUnsupported,
          .extensibleCountMissing, .unexpectedNode]) : IsLimit decls fault
  /-- An enumeration without values has nothing to start with. -/
  | noValues {name : Ident} (declared : .enumeration name [] ∈ decls) :
      IsLimit decls (.internal .typeNotResolved name.span)
  /-- A string type whose length is no number of 128 bits. -/
  | noLength {name : Ident} {length : IntegerToken} {width : StringWidth} {error : TokenError}
      (declared : .string name length width ∈ decls) (noValue : length.value = .error error) :
      IsLimit decls (.internal .typeNotResolved name.span)

namespace Fault.IsLimit

variable {decls : List TypeDecl}

theorem notImplemented (span : Span) : IsLimit decls (.internal .notImplemented span) :=
  .unsupported (List.mem_cons_self ..)

theorem unexpectedNode (span : Span) : IsLimit decls (.internal .unexpectedNode span) :=
  .unsupported (by decide : Problem.unexpectedNode ∈ _)

theorem extensibleCountMissing (span : Span) :
    IsLimit decls (.internal .extensibleCountMissing span) :=
  .unsupported (by decide : Problem.extensibleCountMissing ∈ _)

theorem doubleByteStringUnsupported (span : Span) :
    IsLimit decls (.internal .doubleByteStringUnsupported span) :=
  .unsupported (by decide : Problem.doubleByteStringUnsupported ∈ _)

/-- A limit is a problem of the compiler, and none of those that say that something was
looked up in vain. -/
theorem problem_of_limit {fault : Fault} (isLimit : IsLimit decls fault) :
    fault.problem.isInternal = true ∧
      fault.problem ∉ [.callNotResolved, .arrayDimensionUnresolved, .scopeUnderflow] := by
  cases isLimit with
  | unsupported problem =>
      simp only [List.mem_cons, List.not_mem_nil, or_false] at problem
      rcases problem with same | same | same | same | same <;> rw [same] <;> decide
  | noValues declared =>
      show Problem.typeNotResolved.isInternal = true ∧ Problem.typeNotResolved ∉ _
      decide
  | noLength declared noValue =>
      show Problem.typeNotResolved.isInternal = true ∧ Problem.typeNotResolved ∉ _
      decide

end Fault.IsLimit

/-! ## Constants and initial values -/

namespace Code.Literal

variable {decls : List StructuredText.TypeDecl}

theorem isLimit_badEscape (escape : List Char) : Fault.IsLimit decls (badEscape escape) :=
  .unsupported (by decide : Problem.stringEscapeInvalid ∈ _)

theorem escapeBody_failsOnly (chars : List Char) :
    FailsOnly (Fault.IsLimit decls) (escapeBody chars) := by
  fun_induction escapeBody chars with
  | case1 => exact failsOnly_ok _
  | case2 => exact failsOnly_error (isLimit_badEscape _)
  | case3 char rest written _ ih => exact failsOnly_map ih
  | case4 char rest _ _ => exact failsOnly_error (isLimit_badEscape _)
  | case5 char _ _ _ => exact failsOnly_error (isLimit_badEscape _)
  | case6 => exact failsOnly_error (isLimit_badEscape _)
  | case7 => next ih => exact failsOnly_map ih
  | case8 => next ih => exact failsOnly_map ih

theorem string_failsOnly (value : CharString) :
    FailsOnly (Fault.IsLimit decls) (string value) := by
  unfold string
  split
  · exact failsOnly_error (.doubleByteStringUnsupported _)
  · exact failsOnly_map (escapeBody_failsOnly _)

theorem constant_failsOnly (value : Constant) :
    FailsOnly (Fault.IsLimit decls) (constant value) := by
  cases value with
  | string value => exact string_failsOnly value
  | _ => exact failsOnly_ok _

theorem elementaryInitial_failsOnly (type : Elementary) :
    FailsOnly (Fault.IsLimit decls) (elementaryInitial type) := by
  cases type with
  | string => exact string_failsOnly { value := "" }
  | wstring => exact failsOnly_error (.doubleByteStringUnsupported _)
  | _ => exact failsOnly_ok _

theorem initial_failsOnly {type : DataType} (declared : type.IsDeclaredIn decls) :
    FailsOnly (Fault.IsLimit decls) (initial type) := by
  fun_induction initial type with
  | case1 type => exact elementaryInitial_failsOnly type
  | case2 => exact failsOnly_ok _
  | case3 => exact failsOnly_ok _
  | case4 name base ih => exact ih declared
  | case5 => exact failsOnly_ok _
  | case6 => exact failsOnly_ok _
  | case7 name => exact failsOnly_error (.noValues (declared name [] rfl))
  | case8 => exact failsOnly_error (.unsupported (List.mem_cons_self ..))

end Code.Literal

end StructuredText
