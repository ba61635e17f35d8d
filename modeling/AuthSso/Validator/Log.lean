import AuthSso.Utils.Strings
import AuthSso.Validator.Schema

/-!
# Logging validation of `internal/configuration/validator/log.go`

`validateLog`, Go's `ValidateLog`, fills an empty level or format from
`schema.DefaultLoggingConfiguration` and then checks the level against `validLoLevels`.
Neither table is part of this repository's files, so both are parameters.
-/
namespace AuthSso.Validator

open AuthSso.Utils

section Log

variable (defaultLoggingConfiguration : LogConfiguration) (validLoLevels : List String)

/-- `validateLog` also fills in the defaults, so it returns the configuration it leaves
behind. -/
def validateLog (config : Configuration) (validator : StructValidator) :
    Configuration × StructValidator :=
  let config := if config.log.level = "" then
      { config with log := { config.log with level := defaultLoggingConfiguration.level } }
    else config
  let config := if config.log.format = "" then
      { config with log := { config.log with format := defaultLoggingConfiguration.format } }
    else config
  let validator := if !isStringInSlice config.log.level validLoLevels then
      validator.push (.loggingLevelInvalid ("', '".intercalate validLoLevels) config.log.level)
    else validator
  (config, validator)

end Log

end AuthSso.Validator
