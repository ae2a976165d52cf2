import PropValidators.Json.Reader
import PropValidators.Yaml.Value
/-!
What the program relies on without deciding it: how a YAML text is loaded, and the limits that
documents are read and printed within.
-/
namespace PropValidators

/-- A loader of YAML texts, and limits that leave room for what is converted from a request. -/
class Platform where
  loadYaml : String → Except Yaml.Failure Yaml.Value
  limits : Limits
  roomForDigits : limits.allowDigits Json.maxIntegerLength = true
  roomForNesting : limits.allowNesting (2 * Json.maxDepth) = true
  roomForValidators : limits.allowValidators Json.maxDepth = true

/-- The platform that the program runs on. Of a stack of a thousand levels, the program itself takes
less than twenty. -/
@[reducible]
def Platform.standard : Platform where
  loadYaml := Yaml.Value.read
  limits := { digits := some 4300, nesting := some 980, validators := some 255 }
  roomForDigits := rfl
  roomForNesting := rfl
  roomForValidators := rfl

end PropValidators
