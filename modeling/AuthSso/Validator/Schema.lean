import Mathlib.Data.List.Basic
import Mathlib.Tactic.Common

/-!
# The configuration schema the validators read and the struct validator they push to

`schema.StructValidator` collects errors and warnings; the validators only ever append to
it, through `push` and `pushWarning`. Each configuration record keeps the fields that a
modelled validator reads.
-/
namespace AuthSso.Validator

structure ACLNetwork where
  name : String
  networks : List String
  deriving Repr, DecidableEq

/-- A compiled `regexp.Regexp`; validation reads only `SubexpNames()`. -/
structure Regexp where
  subexpNames : List String
  deriving Repr, DecidableEq

structure ACLRule where
  domains : List String
  domainsRegex : List Regexp
  policy : String
  subjects : List (List String)
  networks : List String
  methods : List String
  deriving Repr, DecidableEq

structure AccessControlConfiguration where
  defaultPolicy : String
  networks : List ACLNetwork
  rules : List ACLRule
  deriving Repr, DecidableEq

/-- `schema.LogConfiguration`, the fields validation reads. -/
structure LogConfiguration where
  level : String
  format : String
  deriving Repr, DecidableEq

/-- `schema.Configuration`, the sections the modelled validators read. -/
structure Configuration where
  accessControl : AccessControlConfiguration
  log : LogConfiguration
  deriving Repr, DecidableEq

/-- The errors and warnings of the modelled validators, one constructor per format, with
its arguments. -/
inductive ValidationError
  | defaultPolicyValue (policies policy : String)
  | networkGroupIPCIDRInvalid (group network : String)
  | defaultPolicyWithoutRules (policy : String)
  | warnNoRulesDefaultPolicy (policy : String)
  | ruleNoDomains (rule : String)
  | ruleInvalidPolicy (rule policy : String)
  | ruleNetworksInvalid (rule network : String)
  | ruleSubjectInvalid (rule subject : String)
  | ruleMethodInvalid (rule method verbs : String)
  | ruleBypassPolicyInvalidWithSubjects (rule : String)
  | ruleBypassPolicyInvalidWithSubjectsWithGroupDomainRegex (rule : String)
  | loggingLevelInvalid (levels level : String)
  deriving Repr, DecidableEq

/-- The rule descriptor an error names, for the errors about one rule. -/
def ValidationError.ruleName : ValidationError → Option String
  | ruleNoDomains rule | ruleInvalidPolicy rule _ | ruleNetworksInvalid rule _
  | ruleSubjectInvalid rule _ | ruleMethodInvalid rule _ _
  | ruleBypassPolicyInvalidWithSubjects rule
  | ruleBypassPolicyInvalidWithSubjectsWithGroupDomainRegex rule => some rule
  | _ => none

/-- `schema.StructValidator`: what has been pushed so far. -/
structure StructValidator where
  errors : List ValidationError
  warnings : List ValidationError
  deriving Repr, DecidableEq

def StructValidator.push (validator : StructValidator) (err : ValidationError) :
    StructValidator :=
  { validator with errors := validator.errors ++ [err] }

def StructValidator.pushWarning (validator : StructValidator) (err : ValidationError) :
    StructValidator :=
  { validator with warnings := validator.warnings ++ [err] }

@[simp] theorem StructValidator.push_errors (v : StructValidator) (e : ValidationError) :
    (v.push e).errors = v.errors ++ [e] := rfl

@[simp] theorem StructValidator.push_warnings (v : StructValidator) (e : ValidationError) :
    (v.push e).warnings = v.warnings := rfl

@[simp] theorem StructValidator.pushWarning_errors (v : StructValidator) (e : ValidationError) :
    (v.pushWarning e).errors = v.errors := rfl

@[simp] theorem StructValidator.pushWarning_warnings (v : StructValidator) (e : ValidationError) :
    (v.pushWarning e).warnings = v.warnings ++ [e] := rfl

end AuthSso.Validator
