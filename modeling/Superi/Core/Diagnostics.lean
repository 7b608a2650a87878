import Std.Data.ExtTreeMap
import Superi.Core.Error

/-!
# Diagnostics — structured diagnostic events

An event has a name, a component and typed fields, whose names all follow one grammar.  The
presentation of an event to a user is derived from its failure and is left out, and of the values of
fields only texts and unsigned numbers are used.
-/

namespace Superi
namespace Core

/-! ## Names -/

def isSeparator (c : Char) : Bool := c == '.' || c == '_' || c == '-'

/-- The rest of a name; separators may not repeat or stand last. -/
def canonicalRest : Bool → List Char → Bool
  | separated, [] => !separated
  | separated, c :: rest =>
      if c.isLower || c.isDigit then canonicalRest false rest
      else if isSeparator c && !separated then canonicalRest true rest
      else false

def isCanonicalName (value : String) : Bool :=
  match value.toList with
  | [] => false
  | first :: rest => first.isLower && canonicalRest false rest

def validateDiagnosticName (kind value : String) : Except Error Unit :=
  if isCanonicalName value then .ok ()
  else .error ((Error.new .invalidInput .userCorrectable s!"invalid diagnostic {kind} name").withContext
    ⟨"superi-core.diagnostics", "validate_name"⟩)

/-! ## Events -/

inductive DiagnosticSeverity
  | trace
  | debug
  | info
  | warning
  | error
  deriving DecidableEq, Repr

inductive TraceValue
  | text (value : String)
  | unsigned (value : Nat)
  deriving DecidableEq, Repr

inductive FieldVisibility
  | internal
  | userSafe
  | sensitive
  deriving DecidableEq, Repr

structure TraceField where
  value : TraceValue
  visibility : FieldVisibility
  deriving DecidableEq, Repr

/-- What an event keeps of a failure. -/
structure FailureDiagnostic where
  category : ErrorCategory
  recoverability : Recoverability
  summary : String
  contexts : List ErrorContext
  deriving DecidableEq, Repr

def FailureDiagnostic.fromError (error : Error) : FailureDiagnostic where
  category := error.category
  recoverability := error.recoverability
  summary := error.message
  contexts := error.contexts

structure DiagnosticEvent where
  name : String
  component : String
  severity : DiagnosticSeverity
  message : String
  fields : Std.ExtTreeMap String TraceField
  failure : Option FailureDiagnostic

namespace DiagnosticEvent

def new (name component : String) (severity : DiagnosticSeverity) (message : String) :
    Except Error DiagnosticEvent := do
  validateDiagnosticName "event" name
  validateDiagnosticName "component" component
  return { name, component, severity, message, fields := ∅, failure := none }

def fromError (name component : String) (error : Error) : Except Error DiagnosticEvent := do
  let severity := if error.recoverability = .terminal then DiagnosticSeverity.error else .warning
  let event ← new name component severity error.message
  return { event with failure := some (.fromError error) }

def withField (event : DiagnosticEvent) (name : String) (field : TraceField) :
    Except Error DiagnosticEvent := do
  validateDiagnosticName "field" name
  return { event with fields := event.fields.insert name field }

/-- Add fields one after the other. -/
def withFields (event : DiagnosticEvent) (fields : List (String × TraceField)) :
    Except Error DiagnosticEvent :=
  fields.foldlM (fun event field => event.withField field.1 field.2) event

end DiagnosticEvent

/-! ## Canonical names are accepted -/

section Accepted

variable {name : String}

theorem validateDiagnosticName_eq_ok {kind : String} :
    isCanonicalName name = true → validateDiagnosticName kind name = .ok () := by
  intro hname
  rw [validateDiagnosticName, if_pos hname]

theorem DiagnosticEvent.exists_new (name component : String) (severity : DiagnosticSeverity)
    (message : String) :
    isCanonicalName name = true → isCanonicalName component = true →
      ∃ event, DiagnosticEvent.new name component severity message = .ok event := by
  intro hname hcomponent
  rw [DiagnosticEvent.new, validateDiagnosticName_eq_ok hname,
    validateDiagnosticName_eq_ok hcomponent]
  exact ⟨_, rfl⟩

theorem DiagnosticEvent.exists_fromError (name component : String) (error : Error) :
    isCanonicalName name = true → isCanonicalName component = true →
      ∃ event, DiagnosticEvent.fromError name component error = .ok event := by
  intro hname hcomponent
  obtain ⟨event, hevent⟩ := exists_new name component
    (if error.recoverability = .terminal then .error else .warning) error.message hname hcomponent
  rw [DiagnosticEvent.fromError, hevent]
  exact ⟨_, rfl⟩

theorem DiagnosticEvent.exists_withField (event : DiagnosticEvent) (field : TraceField) :
    isCanonicalName name = true → ∃ event', event.withField name field = .ok event' := by
  intro hname
  rw [DiagnosticEvent.withField, validateDiagnosticName_eq_ok hname]
  exact ⟨_, rfl⟩

theorem DiagnosticEvent.exists_withFields (fields : List (String × TraceField))
    (event : DiagnosticEvent) (hnames : ∀ field ∈ fields, isCanonicalName field.1 = true) :
    ∃ event', event.withFields fields = .ok event' := by
  induction fields generalizing event with
  | nil => exact ⟨event, rfl⟩
  | cons field rest ih =>
      rw [List.forall_mem_cons] at hnames
      obtain ⟨next, hnext⟩ := exists_withField event field.2 hnames.1
      obtain ⟨last, hlast⟩ := ih next hnames.2
      refine ⟨last, ?_⟩
      rw [withFields, List.foldlM_cons, hnext]
      exact hlast

end Accepted

end Core
end Superi
