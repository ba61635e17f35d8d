import AuthSso.Utils.Strings
import AuthSso.Validator.Schema

/-!
# Access-control validation of `internal/configuration/validator/access_control.go`

The validator only ever appends: each check pushes its error onto the struct validator
and nothing is removed. IP and CIDR parsing, `strings.EqualFold` and the identity
subexpression names of the `authorization` package are library facts, taken as given.
The policy and verb tables are not in the source here; they are modelled as the
access-control tests print them. Each Go function keeps its name in lower camel case:
`ValidateRules` is `validateRules`, `IsNetworkValid` is `isNetworkValid`.
-/
namespace AuthSso.Validator

open AuthSso.Utils

/-- The library calls validation makes: whether `net.ParseIP` and `net.ParseCIDR` accept
a string, `strings.EqualFold`, and `authorization.IdentitySubexpNames`. -/
structure Externals where
  parseIP : String → Bool
  parseCIDR : String → Bool
  equalFold : String → String → Bool
  identitySubexpNames : List String

/-- The library calls of a sample run: nothing parses as an IP or a CIDR, and verbs
compare exactly. -/
def sampleExternals : Externals := ⟨fun _ => false, fun _ => false, (· == ·), []⟩

/-- The configuration of the suite's case of two rules without domains. -/
def sampleConfiguration : Configuration :=
  ⟨⟨"deny", [], [⟨[], [], "", [], [], []⟩, ⟨[], [], "wrong", [], [], []⟩]⟩, ⟨"", ""⟩⟩

/-- Modelled from the spec: the `bypass` policy, as the tests print it. -/
def policyBypass : String := "bypass"
/-- Modelled from the spec: the `one_factor` policy, as the tests print it. -/
def policyOneFactor : String := "one_factor"
/-- Modelled from the spec: the `two_factor` policy, as the tests print it. -/
def policyTwoFactor : String := "two_factor"
/-- Modelled from the spec: the `deny` policy, as the tests print it. -/
def policyDeny : String := "deny"

/-- Modelled from the spec: `validACLRulePolicies`, in the order the tests print. -/
def validACLRulePolicies : List String :=
  [policyBypass, policyOneFactor, policyTwoFactor, policyDeny]

/-- Modelled from the spec: `validACLHTTPMethodVerbs`, in the order the tests print. -/
def validACLHTTPMethodVerbs : List String :=
  ["GET", "HEAD", "POST", "PUT", "PATCH", "DELETE", "TRACE", "CONNECT", "OPTIONS", "COPY",
    "LOCK", "MKCOL", "MOVE", "PROPFIND", "PROPPATCH", "UNLOCK"]

def isPolicyValid (policy : String) : Bool :=
  isStringInSlice policy validACLRulePolicies

def isSubjectValid (subject : String) : Bool :=
  subject == "" || subject.startsWith "user:" || subject.startsWith "group:"

def isNetworkGroupValid (config : AccessControlConfiguration) (network : String) : Bool :=
  config.networks.any (·.name == network)

def isNetworkValid (ext : Externals) (network : String) : Bool :=
  if !ext.parseIP network then ext.parseCIDR network else true

@[simp] theorem isPolicyValid_iff (policy : String) :
    isPolicyValid policy ↔ policy ∈ validACLRulePolicies := by
  simp [isPolicyValid]

@[simp] theorem isSubjectValid_iff (subject : String) :
    isSubjectValid subject ↔
      subject = "" ∨ subject.startsWith "user:" ∨ subject.startsWith "group:" := by
  simp [isSubjectValid, or_assoc]

@[simp] theorem isNetworkGroupValid_iff (config : AccessControlConfiguration) (network : String) :
    isNetworkGroupValid config network ↔ ∃ group ∈ config.networks, group.name = network := by
  simp [isNetworkGroupValid]

@[simp] theorem isNetworkValid_eq (ext : Externals) (network : String) :
    isNetworkValid ext network = (ext.parseIP network || ext.parseCIDR network) := by
  unfold isNetworkValid
  cases ext.parseIP network <;> rfl

def ruleDescriptor (position : ℕ) (rule : ACLRule) : String :=
  if rule.domains.length = 0 then "#" ++ toString position
  else "#" ++ toString position ++ " (domain '" ++ ",".intercalate rule.domains ++ "')"

section Validate

variable (ext : Externals)

/-- Push `err x` for each `x` that fails `valid`, in order: the loop that
`validateNetworks`, `validateSubjects` and `validateMethods` each run. -/
def pushInvalid {α : Type} (valid : α → Bool) (err : α → ValidationError) (xs : List α)
    (validator : StructValidator) : StructValidator :=
  xs.foldl (fun v x => if !valid x then v.push (err x) else v) validator

theorem ite_push (c : Prop) [Decidable c] (v : StructValidator) (e : ValidationError) :
    (if c then v.push e else v) = ⟨v.errors ++ if c then [e] else [], v.warnings⟩ := by
  split_ifs <;> simp [StructValidator.push]

theorem pushInvalid_eq {α : Type} (valid : α → Bool) (err : α → ValidationError)
    (xs : List α) (v : StructValidator) :
    pushInvalid valid err xs v = ⟨v.errors ++ (xs.filter (!valid ·)).map err, v.warnings⟩ := by
  induction xs generalizing v with
  | nil => simp [pushInvalid]
  | cons x xs ih =>
    cases h : valid x <;> simp_all [pushInvalid, List.filter_cons, StructValidator.push]

def validateBypass (rulePosition : ℕ) (rule : ACLRule) (validator : StructValidator) :
    StructValidator :=
  let validator := if rule.subjects.length ≠ 0 then
      validator.push (.ruleBypassPolicyInvalidWithSubjects (ruleDescriptor rulePosition rule))
    else validator
  match rule.domainsRegex.find? fun pattern =>
      isStringSliceContainsAny ext.identitySubexpNames pattern.subexpNames with
  | some _ => validator.push
      (.ruleBypassPolicyInvalidWithSubjectsWithGroupDomainRegex (ruleDescriptor rulePosition rule))
  | none => validator

def validateNetworks (rulePosition : ℕ) (rule : ACLRule) (config : AccessControlConfiguration)
    (validator : StructValidator) : StructValidator :=
  pushInvalid (fun network => isNetworkValid ext network || isNetworkGroupValid config network)
    (.ruleNetworksInvalid (ruleDescriptor rulePosition rule)) rule.networks validator

def validateSubjects (rulePosition : ℕ) (rule : ACLRule) (validator : StructValidator) :
    StructValidator :=
  rule.subjects.foldl (fun validator subjectRule => pushInvalid isSubjectValid
    (.ruleSubjectInvalid (ruleDescriptor rulePosition rule)) subjectRule validator) validator

def validateMethods (rulePosition : ℕ) (rule : ACLRule) (validator : StructValidator) :
    StructValidator :=
  pushInvalid (isStringInSliceFold ext.equalFold · validACLHTTPMethodVerbs)
    (.ruleMethodInvalid (ruleDescriptor rulePosition rule) ·
      ("', '".intercalate validACLHTTPMethodVerbs))
    rule.methods validator

/-- The body of the loop of `validateRules`, for the rule at `rulePosition`. -/
def validateRule (config : Configuration) (rulePosition : ℕ) (rule : ACLRule)
    (validator : StructValidator) : StructValidator :=
  let validator := if rule.domains.length + rule.domainsRegex.length = 0 then
      validator.push (.ruleNoDomains (ruleDescriptor rulePosition rule))
    else validator
  let validator := if !isPolicyValid rule.policy then
      validator.push (.ruleInvalidPolicy (ruleDescriptor rulePosition rule) rule.policy)
    else validator
  let validator := validateNetworks ext rulePosition rule config.accessControl validator
  let validator := validateSubjects rulePosition rule validator
  let validator := validateMethods ext rulePosition rule validator
  if rule.policy = policyBypass then validateBypass ext rulePosition rule validator else validator

/-- The loop of `validateRules`, from the rule at `rulePosition` on. -/
def validateRulesLoop (config : Configuration) :
    ℕ → List ACLRule → StructValidator → StructValidator
  | _, [], validator => validator
  | rulePosition, rule :: rules, validator =>
    validateRulesLoop config (rulePosition + 1) rules
      (validateRule ext config rulePosition rule validator)

def validateRules (config : Configuration) (validator : StructValidator) : StructValidator :=
  if config.accessControl.rules.length = 0 then
    if config.accessControl.defaultPolicy ≠ policyOneFactor ∧
        config.accessControl.defaultPolicy ≠ policyTwoFactor then
      validator.push (.defaultPolicyWithoutRules config.accessControl.defaultPolicy)
    else validator.pushWarning (.warnNoRulesDefaultPolicy config.accessControl.defaultPolicy)
  else validateRulesLoop ext config 1 config.accessControl.rules validator

/-- `validateAccessControl` also fills in the default policy, so it returns the
configuration it leaves behind. -/
def validateAccessControl (config : Configuration) (validator : StructValidator) :
    Configuration × StructValidator :=
  let config := if config.accessControl.defaultPolicy = "" then
      { config with accessControl := { config.accessControl with defaultPolicy := policyDeny } }
    else config
  let validator := if !isPolicyValid config.accessControl.defaultPolicy then
      validator.push (.defaultPolicyValue ("', '".intercalate validACLRulePolicies)
        config.accessControl.defaultPolicy)
    else validator
  (config, config.accessControl.networks.foldl (fun validator n =>
    pushInvalid (isNetworkValid ext) (.networkGroupIPCIDRInvalid n.name) n.networks validator)
    validator)

/-- The errors `validateRules` reports for one rule, in the order it pushes them. -/
def ruleErrors (acl : AccessControlConfiguration) (rulePosition : ℕ) (rule : ACLRule) :
    List ValidationError :=
  let rd := ruleDescriptor rulePosition rule
  (if rule.domains.length + rule.domainsRegex.length = 0 then [.ruleNoDomains rd] else []) ++
  (if isPolicyValid rule.policy then [] else [.ruleInvalidPolicy rd rule.policy]) ++
  (rule.networks.filter fun n => !(isNetworkValid ext n || isNetworkGroupValid acl n)).map
    (.ruleNetworksInvalid rd) ++
  rule.subjects.flatMap (fun g => (g.filter (!isSubjectValid ·)).map (.ruleSubjectInvalid rd)) ++
  (rule.methods.filter (!isStringInSliceFold ext.equalFold · validACLHTTPMethodVerbs)).map
    (.ruleMethodInvalid rd · ("', '".intercalate validACLHTTPMethodVerbs)) ++
  if rule.policy = policyBypass then
    (if rule.subjects = [] then [] else [.ruleBypassPolicyInvalidWithSubjects rd]) ++
    if rule.domainsRegex.any fun p => isStringSliceContainsAny ext.identitySubexpNames p.subexpNames
    then [.ruleBypassPolicyInvalidWithSubjectsWithGroupDomainRegex rd] else []
  else []

/-- The errors of the rules from position `rulePosition` on. -/
def rulesErrors (acl : AccessControlConfiguration) : ℕ → List ACLRule → List ValidationError
  | _, [] => []
  | rulePosition, rule :: rules =>
    ruleErrors ext acl rulePosition rule ++ rulesErrors acl (rulePosition + 1) rules

theorem foldl_pushInvalid_eq {α β : Type} (valid : α → Bool)
    (err : β → α → ValidationError) (items : β → List α) (groups : List β) (v : StructValidator) :
    groups.foldl (fun v g => pushInvalid valid (err g) (items g) v) v =
      ⟨v.errors ++ groups.flatMap fun g => ((items g).filter (!valid ·)).map (err g),
        v.warnings⟩ := by
  induction groups generalizing v with
  | nil => simp
  | cons g gs ih =>
    rw [List.foldl_cons, ih, pushInvalid_eq]
    simp

theorem validateNetworks_eq (rulePosition : ℕ) (rule : ACLRule)
    (config : AccessControlConfiguration) (v : StructValidator) :
    validateNetworks ext rulePosition rule config v =
      ⟨v.errors ++ (rule.networks.filter fun n =>
          !(isNetworkValid ext n || isNetworkGroupValid config n)).map
        (.ruleNetworksInvalid (ruleDescriptor rulePosition rule)), v.warnings⟩ :=
  pushInvalid_eq _ _ _ _

theorem validateSubjects_eq (rulePosition : ℕ) (rule : ACLRule) (v : StructValidator) :
    validateSubjects rulePosition rule v =
      ⟨v.errors ++ rule.subjects.flatMap (fun g => (g.filter (!isSubjectValid ·)).map
        (.ruleSubjectInvalid (ruleDescriptor rulePosition rule))), v.warnings⟩ :=
  foldl_pushInvalid_eq isSubjectValid
    (fun _ => .ruleSubjectInvalid (ruleDescriptor rulePosition rule)) id rule.subjects v

theorem validateMethods_eq (rulePosition : ℕ) (rule : ACLRule) (v : StructValidator) :
    validateMethods ext rulePosition rule v =
      ⟨v.errors ++
        (rule.methods.filter (!isStringInSliceFold ext.equalFold · validACLHTTPMethodVerbs)).map
        (.ruleMethodInvalid (ruleDescriptor rulePosition rule) ·
          ("', '".intercalate validACLHTTPMethodVerbs)), v.warnings⟩ :=
  pushInvalid_eq _ _ _ _

theorem validateBypass_eq (rulePosition : ℕ) (rule : ACLRule) (v : StructValidator) :
    validateBypass ext rulePosition rule v =
      ⟨v.errors ++ (if rule.subjects = [] then []
          else [.ruleBypassPolicyInvalidWithSubjects (ruleDescriptor rulePosition rule)]) ++
        (if rule.domainsRegex.any fun p =>
            isStringSliceContainsAny ext.identitySubexpNames p.subexpNames
          then [.ruleBypassPolicyInvalidWithSubjectsWithGroupDomainRegex
            (ruleDescriptor rulePosition rule)] else []), v.warnings⟩ := by
  unfold validateBypass
  cases h : rule.domainsRegex.find? fun p =>
      isStringSliceContainsAny ext.identitySubexpNames p.subexpNames with
  | none =>
    have hany : rule.domainsRegex.any (fun p =>
        isStringSliceContainsAny ext.identitySubexpNames p.subexpNames) = false :=
      List.any_eq_false.2 fun p hp => by simpa using List.find?_eq_none.1 h p hp
    rw [hany]
    by_cases hs : rule.subjects = [] <;> simp [hs, StructValidator.push]
  | some p =>
    have hany : rule.domainsRegex.any (fun p =>
        isStringSliceContainsAny ext.identitySubexpNames p.subexpNames) = true :=
      List.any_eq_true.2 ⟨p, List.mem_of_find?_eq_some h, by simpa using List.find?_some h⟩
    rw [hany]
    by_cases hs : rule.subjects = [] <;> simp [hs, StructValidator.push]

theorem validateRule_eq (config : Configuration) (rulePosition : ℕ) (rule : ACLRule)
    (v : StructValidator) :
    validateRule ext config rulePosition rule v =
      ⟨v.errors ++ ruleErrors ext config.accessControl rulePosition rule, v.warnings⟩ := by
  simp only [validateRule, ite_push, validateNetworks_eq, validateSubjects_eq, validateMethods_eq,
    ruleErrors, Bool.not_eq_true', List.append_assoc]
  by_cases hb : rule.policy = policyBypass
  · simp only [if_pos hb, validateBypass_eq, List.append_assoc]
    cases isPolicyValid rule.policy <;> rfl
  · simp only [if_neg hb, List.append_nil]
    cases isPolicyValid rule.policy <;> rfl

theorem validateRulesLoop_eq (config : Configuration) (rulePosition : ℕ) (rules : List ACLRule)
    (v : StructValidator) :
    validateRulesLoop ext config rulePosition rules v =
      ⟨v.errors ++ rulesErrors ext config.accessControl rulePosition rules, v.warnings⟩ := by
  induction rules generalizing rulePosition v with
  | nil => simp [validateRulesLoop, rulesErrors]
  | cons rule rules ih => simp [validateRulesLoop, rulesErrors, ih, validateRule_eq]

/-- What `validateRules` asks of one rule, one field per check. -/
@[mk_iff]
structure RuleValid (acl : AccessControlConfiguration) (rule : ACLRule) : Prop where
  domains : 0 < rule.domains.length + rule.domainsRegex.length
  policy : rule.policy ∈ [policyBypass, policyOneFactor, policyTwoFactor, policyDeny]
  networks : ∀ network ∈ rule.networks,
    ext.parseIP network ∨ ext.parseCIDR network ∨ ∃ group ∈ acl.networks, group.name = network
  subjects : ∀ subjectRule ∈ rule.subjects, ∀ subject ∈ subjectRule,
    subject = "" ∨ subject.startsWith "user:" ∨ subject.startsWith "group:"
  methods : ∀ method ∈ rule.methods, ∃ verb ∈ validACLHTTPMethodVerbs, ext.equalFold method verb
  bypass : rule.policy = policyBypass → rule.subjects = [] ∧
    ∀ pattern ∈ rule.domainsRegex, ∀ name ∈ ext.identitySubexpNames, name ∉ pattern.subexpNames

theorem ruleErrors_eq_nil_iff (acl : AccessControlConfiguration) (rulePosition : ℕ)
    (rule : ACLRule) : ruleErrors ext acl rulePosition rule = [] ↔ RuleValid ext acl rule := by
  rw [ruleValid_iff]
  simp only [ruleErrors, List.append_eq_nil, and_assoc]
  refine and_congr ?domains (and_congr ?policy (and_congr ?networks (and_congr ?subjects
    (and_congr ?methods ?bypass))))
  case domains =>
    rw [Nat.pos_iff_ne_zero]
    split_ifs with h <;> simp [h]
  case policy => simp [validACLRulePolicies, or_iff_not_imp_left]
  case networks => simp [List.filter_eq_nil_iff, or_iff_not_imp_left]
  case subjects => simp [List.flatMap_eq_nil_iff, List.filter_eq_nil_iff]
  case methods => simp [List.filter_eq_nil_iff]
  case bypass => by_cases h : rule.policy = policyBypass <;> simp [h]

theorem rulesErrors_eq_nil_iff (acl : AccessControlConfiguration) (rulePosition : ℕ)
    (rules : List ACLRule) :
    rulesErrors ext acl rulePosition rules = [] ↔ ∀ rule ∈ rules, RuleValid ext acl rule := by
  induction rules generalizing rulePosition with
  | nil => simp [rulesErrors]
  | cons rule rules ih => simp [rulesErrors, ruleErrors_eq_nil_iff, ih]

/-- What `validateRules` pushes: the default-policy error when there are no rules, and
the errors of each rule, numbered from 1, otherwise. -/
theorem validateRules_errors (config : Configuration) (validator : StructValidator) :
    (validateRules ext config validator).errors = validator.errors ++
      if config.accessControl.rules = [] then
        if config.accessControl.defaultPolicy ≠ policyOneFactor ∧
            config.accessControl.defaultPolicy ≠ policyTwoFactor
        then [.defaultPolicyWithoutRules config.accessControl.defaultPolicy] else []
      else rulesErrors ext config.accessControl 1 config.accessControl.rules := by
  unfold validateRules
  by_cases hr : config.accessControl.rules = []
  · simp only [hr, List.length_nil, if_true]
    split_ifs <;> simp
  · simp [hr, validateRulesLoop_eq]

example : (validateRules sampleExternals sampleConfiguration ⟨[], []⟩).errors =
    [.ruleNoDomains "#1", .ruleInvalidPolicy "#1" "", .ruleNoDomains "#2",
      .ruleInvalidPolicy "#2" "wrong"] := by decide

/-- `validateRules` warns only when there are no rules and the default policy is
`one_factor` or `two_factor`, and then pushes exactly the warning naming that policy. -/
theorem validateRules_warnings (config : Configuration) (validator : StructValidator) :
    (validateRules ext config validator).warnings = validator.warnings ++
      if config.accessControl.rules = [] ∧ (config.accessControl.defaultPolicy = policyOneFactor ∨
          config.accessControl.defaultPolicy = policyTwoFactor)
      then [.warnNoRulesDefaultPolicy config.accessControl.defaultPolicy] else [] := by
  unfold validateRules
  by_cases hr : config.accessControl.rules = []
  · simp only [hr, List.length_nil, if_true, true_and]
    by_cases hp : config.accessControl.defaultPolicy = policyOneFactor ∨
        config.accessControl.defaultPolicy = policyTwoFactor
    · rw [if_neg fun h => hp.elim h.1 h.2, if_pos hp]
      rfl
    · rw [if_pos (not_or.1 hp), if_neg hp, List.append_nil]
      rfl
  · simp [hr, validateRulesLoop_eq]

theorem validateRules_no_error_iff (config : Configuration) (validator : StructValidator) :
    (validateRules ext config validator).errors = validator.errors ↔
      if config.accessControl.rules = [] then
        config.accessControl.defaultPolicy = policyOneFactor ∨
          config.accessControl.defaultPolicy = policyTwoFactor
      else ∀ rule ∈ config.accessControl.rules, RuleValid ext config.accessControl rule := by
  rw [validateRules_errors, List.append_right_eq_self]
  split_ifs with hr hp
  · simp [hp.1, hp.2]
  · rw [not_and_or, not_not, not_not] at hp
    simpa using hp
  · exact rulesErrors_eq_nil_iff ext _ _ _

/-- Every error of a rule names it. -/
theorem ruleErrors_ruleName (acl : AccessControlConfiguration) (rulePosition : ℕ)
    (rule : ACLRule) :
    ∀ e ∈ ruleErrors ext acl rulePosition rule, e.ruleName = some (ruleDescriptor rulePosition rule) := by
  intro e he
  simp only [ruleErrors, List.mem_append, List.mem_map, List.mem_flatMap] at he
  rcases he with ((((hd | hp) | ⟨_, _, rfl⟩) | ⟨_, _, _, _, rfl⟩) | ⟨_, _, rfl⟩) | hb
  case inl.inl.inl.inl.inl => split_ifs at hd <;> simp_all [ValidationError.ruleName]
  case inl.inl.inl.inl.inr => split_ifs at hp <;> simp_all [ValidationError.ruleName]
  case inr =>
    split_ifs at hb <;> simp only [List.mem_append, List.mem_singleton, List.not_mem_nil,
      or_false, false_or] at hb <;> rcases hb with rfl | rfl <;> rfl
  all_goals rfl

theorem rulesErrors_ruleName (acl : AccessControlConfiguration) :
    ∀ (rulePosition : ℕ) (rules : List ACLRule), ∀ e ∈ rulesErrors ext acl rulePosition rules,
      ∃ i, ∃ h : i < rules.length,
        e.ruleName = some (ruleDescriptor (rulePosition + i) (rules.get ⟨i, h⟩))
  | _, [] => by simp [rulesErrors]
  | rulePosition, rule :: rules => by
    intro e he
    rcases List.mem_append.1 he with he | he
    · exact ⟨0, by simp, by simpa using ruleErrors_ruleName ext acl rulePosition rule e he⟩
    · obtain ⟨i, hi, h⟩ := rulesErrors_ruleName acl (rulePosition + 1) rules e he
      exact ⟨i + 1, by simpa using hi, by simpa [Nat.add_assoc, Nat.add_comm 1] using h⟩

/-- Every error `validateRules` pushes over a list of rules names a rule by its
position, counted from 1. -/
theorem validateRules_error_names_rule (config : Configuration) (validator : StructValidator)
    (hr : config.accessControl.rules ≠ []) :
    ∀ e ∈ (validateRules ext config validator).errors.drop validator.errors.length,
      ∃ i, ∃ h : i < config.accessControl.rules.length,
        e.ruleName = some (ruleDescriptor (i + 1) (config.accessControl.rules.get ⟨i, h⟩)) := by
  rw [validateRules_errors, if_neg hr, List.drop_left]
  intro e he
  simpa [Nat.add_comm] using rulesErrors_ruleName ext _ 1 _ e he

theorem validateRules_error_names_rule_sample :
    sampleConfiguration.accessControl.rules ≠ [] ∧
      ∀ e ∈ (validateRules sampleExternals sampleConfiguration ⟨[], []⟩).errors.drop 0,
        ∃ i, ∃ h : i < sampleConfiguration.accessControl.rules.length,
          e.ruleName = some (ruleDescriptor (i + 1)
            (sampleConfiguration.accessControl.rules.get ⟨i, h⟩)) :=
  ⟨List.cons_ne_nil _ _,
    validateRules_error_names_rule sampleExternals sampleConfiguration ⟨[], []⟩
      (List.cons_ne_nil _ _)⟩

theorem ruleErrors_sublist_of_names {acl acl' : AccessControlConfiguration}
    (hnames : ∀ g ∈ acl.networks, ∃ g' ∈ acl'.networks, g'.name = g.name) (rulePosition : ℕ)
    (rule : ACLRule) :
    (ruleErrors ext acl' rulePosition rule).Sublist (ruleErrors ext acl rulePosition rule) := by
  have hnet : ∀ n, !(isNetworkValid ext n || isNetworkGroupValid acl' n) →
      !(isNetworkValid ext n || isNetworkGroupValid acl n) := fun n => by
    simp only [Bool.not_or, Bool.and_eq_true, Bool.not_eq_true', and_imp]
    refine fun hv hg => ⟨hv, ?_⟩
    rw [← Bool.not_eq_true, isNetworkGroupValid_iff] at hg ⊢
    rintro ⟨g, hg', rfl⟩
    obtain ⟨g'', hg'', hname⟩ := hnames g hg'
    exact hg ⟨g'', hg'', hname⟩
  unfold ruleErrors
  exact ((((List.Sublist.refl _).append ((List.monotone_filter_right _ hnet).map _)).append
    (.refl _)).append (.refl _)).append (.refl _)

theorem rulesErrors_sublist_of_names {acl acl' : AccessControlConfiguration}
    (hnames : ∀ g ∈ acl.networks, ∃ g' ∈ acl'.networks, g'.name = g.name) :
    ∀ (rulePosition : ℕ) (rules : List ACLRule),
      (rulesErrors ext acl' rulePosition rules).Sublist (rulesErrors ext acl rulePosition rules)
  | _, [] => .refl _
  | rulePosition, rule :: rules =>
    (ruleErrors_sublist_of_names ext hnames rulePosition rule).append
      (rulesErrors_sublist_of_names hnames (rulePosition + 1) rules)

/-- Declaring more network groups never makes `validateRules` report an error it did not
report before: a group only ever lets a rule's network through, by its name. -/
theorem validateRules_errors_sublist_of_names (config : Configuration)
    (networks : List ACLNetwork)
    (hnames : ∀ g ∈ config.accessControl.networks, ∃ g' ∈ networks, g'.name = g.name)
    (validator : StructValidator) :
    (validateRules ext { config with accessControl := { config.accessControl with networks } }
      validator).errors.Sublist (validateRules ext config validator).errors := by
  rw [validateRules_errors, validateRules_errors]
  refine (List.Sublist.refl _).append ?_
  dsimp only
  by_cases hr : config.accessControl.rules = []
  · simp only [if_pos hr]
    exact .refl _
  · simp only [if_neg hr]
    exact @rulesErrors_sublist_of_names ext config.accessControl
      { config.accessControl with networks } hnames 1 _

/-- One group, `internal`, and one rule on it and on `external`, which no group names
and which the sample's externals do not parse. -/
def sampleGroupConfiguration : Configuration :=
  ⟨⟨"deny", [⟨"internal", ["10.0.0.0/8"]⟩],
    [⟨["example.com"], [], "one_factor", [], ["internal", "external"], []⟩]⟩, ⟨"", ""⟩⟩

/-- The sample's group with `external` declared beside it. -/
def sampleNetworks : List ACLNetwork :=
  [⟨"internal", ["10.0.0.0/8"]⟩, ⟨"external", ["192.168.0.0/16"]⟩]

theorem validateRules_errors_sublist_of_names_sample :
    (∀ g ∈ sampleGroupConfiguration.accessControl.networks,
      ∃ g' ∈ sampleNetworks, g'.name = g.name) ∧
      (validateRules sampleExternals { sampleGroupConfiguration with accessControl :=
          { sampleGroupConfiguration.accessControl with networks := sampleNetworks } }
        ⟨[], []⟩).errors.Sublist
        (validateRules sampleExternals sampleGroupConfiguration ⟨[], []⟩).errors :=
  have hnames : ∀ g ∈ sampleGroupConfiguration.accessControl.networks,
      ∃ g' ∈ sampleNetworks, g'.name = g.name := by decide
  ⟨hnames,
    validateRules_errors_sublist_of_names sampleExternals sampleGroupConfiguration _ hnames _⟩

/- Declaring `external` removes the one error the rule had. -/
example : (validateRules sampleExternals sampleGroupConfiguration ⟨[], []⟩).errors =
      [.ruleNetworksInvalid "#1 (domain 'example.com')" "external"] ∧
    (validateRules sampleExternals { sampleGroupConfiguration with accessControl :=
        { sampleGroupConfiguration.accessControl with networks := sampleNetworks } }
      ⟨[], []⟩).errors = [] := by decide

theorem rulesErrors_append (acl : AccessControlConfiguration) (rulePosition : ℕ)
    (rules more : List ACLRule) :
    rulesErrors ext acl rulePosition (rules ++ more) =
      rulesErrors ext acl rulePosition rules ++
        rulesErrors ext acl (rulePosition + rules.length) more := by
  induction rules generalizing rulePosition with
  | nil => simp [rulesErrors]
  | cons rule rules ih => simp [rulesErrors, ih, Nat.add_assoc, Nat.add_comm 1]

/-- The errors of a rule read the network groups of the configuration, not its rules. -/
theorem rulesErrors_with_rules (acl : AccessControlConfiguration) (rules : List ACLRule) :
    ∀ (rulePosition : ℕ) (l : List ACLRule),
      rulesErrors ext { acl with rules } rulePosition l = rulesErrors ext acl rulePosition l
  | _, [] => rfl
  | rulePosition, rule :: l => by
    rw [rulesErrors, rulesErrors, rulesErrors_with_rules acl rules (rulePosition + 1) l]
    rfl

/-- Appending rules leaves the errors of the rules already there as they were, and reports
those of the new rules after them, numbered on from the last old one. -/
theorem validateRules_errors_append (config : Configuration) (more : List ACLRule)
    (hr : config.accessControl.rules ≠ []) (validator : StructValidator) :
    (validateRules ext { config with accessControl :=
        { config.accessControl with rules := config.accessControl.rules ++ more } }
      validator).errors =
      (validateRules ext config validator).errors ++
        rulesErrors ext config.accessControl (config.accessControl.rules.length + 1) more := by
  rw [validateRules_errors, validateRules_errors, if_neg hr, if_neg (by simp [hr]),
    List.append_assoc]
  dsimp only
  rw [rulesErrors_with_rules, rulesErrors_append, Nat.add_comm]

theorem validateRules_errors_append_sample :
    sampleConfiguration.accessControl.rules ≠ [] ∧
      (validateRules sampleExternals { sampleConfiguration with accessControl :=
          { sampleConfiguration.accessControl with
            rules := sampleConfiguration.accessControl.rules ++ [⟨[], [], "bypass", [], [], []⟩] } }
        ⟨[], []⟩).errors =
        (validateRules sampleExternals sampleConfiguration ⟨[], []⟩).errors ++
          rulesErrors sampleExternals sampleConfiguration.accessControl
            (sampleConfiguration.accessControl.rules.length + 1) [⟨[], [], "bypass", [], [], []⟩] :=
  ⟨List.cons_ne_nil _ _, validateRules_errors_append sampleExternals sampleConfiguration _
    (List.cons_ne_nil _ _) _⟩

theorem isPolicyValid_policyDeny : isPolicyValid policyDeny := by decide

/-- What `validateAccessControl` pushes: the default-policy error, unless the policy was
empty and so became `deny`, then the invalid networks of each group, group by group. -/
theorem validateAccessControl_errors (config : Configuration) (validator : StructValidator) :
    (validateAccessControl ext config validator).2.errors = validator.errors ++
      (if config.accessControl.defaultPolicy = "" ∨ isPolicyValid config.accessControl.defaultPolicy
        then [] else [.defaultPolicyValue ("', '".intercalate validACLRulePolicies)
          config.accessControl.defaultPolicy]) ++
      config.accessControl.networks.flatMap fun n =>
        (n.networks.filter (!isNetworkValid ext ·)).map (.networkGroupIPCIDRInvalid n.name) := by
  unfold validateAccessControl
  by_cases hd : config.accessControl.defaultPolicy = ""
  · simp only [hd, if_true]
    rw [foldl_pushInvalid_eq]
    simp [isPolicyValid_policyDeny]
  · simp only [hd, if_false]
    rw [foldl_pushInvalid_eq]
    by_cases hp : isPolicyValid config.accessControl.defaultPolicy <;> simp [hd, hp]

theorem validateAccessControl_warnings (config : Configuration) (validator : StructValidator) :
    (validateAccessControl ext config validator).2.warnings = validator.warnings := by
  unfold validateAccessControl
  dsimp only
  rw [foldl_pushInvalid_eq]
  split_ifs <;> rfl

/-- `validateAccessControl` pushes no error exactly when the default policy is empty or
one of the four, and every network of every group is an IP or a CIDR. -/
theorem validateAccessControl_no_error_iff (config : Configuration) (validator : StructValidator) :
    (validateAccessControl ext config validator).2.errors = validator.errors ↔
      (config.accessControl.defaultPolicy = "" ∨
          config.accessControl.defaultPolicy ∈ validACLRulePolicies) ∧
        ∀ group ∈ config.accessControl.networks, ∀ network ∈ group.networks,
          ext.parseIP network ∨ ext.parseCIDR network := by
  rw [validateAccessControl_errors, List.append_assoc, List.append_right_eq_self,
    List.append_eq_nil]
  refine and_congr ?_ ?_
  · split_ifs with h <;> simp_all
  · simp [List.flatMap_eq_nil_iff, List.filter_eq_nil_iff, or_iff_not_imp_left]

end Validate

end AuthSso.Validator
