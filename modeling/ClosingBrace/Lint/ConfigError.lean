import ClosingBrace.Schema.Issue

/-!
# Rejected configurations

A configuration is rejected when it is no valid data, when it names a rule that does not exist, when
the options of a rule are not valid, or when its file cannot be read. The error names what was
rejected: the configuration's source, or the rule.
-/

namespace ClosingBrace

/-- Why a configuration or the options of a rule are rejected. -/
inductive ConfigFault where
  | issues (found : List Issue)
  | unknownRule (known : List String)
  | unreadable (reason : String)
deriving DecidableEq

/-- A rejected configuration, or rejected options of a rule. -/
structure ConfigError where
  /-- The source of the configuration, or the name of the rule. -/
  rejected : String
  fault : ConfigFault
deriving DecidableEq

def ConfigFault.text : ConfigFault → String
  | .issues found => Issue.texts found
  | .unknownRule known => "unknown rule, expected one of " ++ ", ".intercalate known
  | .unreadable reason => "cannot read configuration (" ++ reason ++ ")"

def ConfigError.message (e : ConfigError) : String := e.rejected ++ ": " ++ e.fault.text

end ClosingBrace
