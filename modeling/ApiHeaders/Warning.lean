import ApiHeaders.Path

/-!
# Warnings

What is worth telling but stops nothing.
-/

namespace ApiHeaders

inductive Warning where
  | namelessType
  | incompleteEnumerant (name : Option String)
  | commandWithoutPrototype
  | commandWithoutName
  | parameterWithoutName (command : String)
  | namelessSet (tag : String)
  | setWithoutApi (name : String)
  | redefinition (name : String)
  | setRedefinition (name : String)
  /-- A set refers to a declaration that does not exist. -/
  | unavailable (name set : String)
  /-- A set refers to a declaration that `writer` has already written. -/
  | alreadyWritten (name set writer : String)
  | generatedAgain (path : Path)
  deriving DecidableEq, Repr

def Warning.message : Warning → String
  | namelessType => "Skipping <type> without a name"
  | incompleteEnumerant name =>
    "Skipping <enum> " ++ name.getD "<unnamed>" ++ " without a name or value"
  | commandWithoutPrototype => "Skipping <command> without a <proto>"
  | commandWithoutName => "Skipping <command> without a <name>"
  | parameterWithoutName command => "Skipping " ++ command ++ ": a <param> has no <name>"
  | namelessSet tag => "Skipping <" ++ tag ++ "> without a name"
  | setWithoutApi name => "Skipping " ++ name ++ ": no API family declared"
  | redefinition name => "Redefinition of " ++ name ++ "; the later definition wins"
  | setRedefinition name => "Redefinition of API set " ++ name ++ "; the later definition wins"
  | unavailable name set =>
    "Skipping " ++ name ++ " for " ++ set ++ " as it is unavailable (has it been promoted?)"
  | alreadyWritten name set writer =>
    name ++ " referenced by " ++ set ++ " was already written by " ++ writer
      ++ "; emitting it commented out"
  | generatedAgain path => path.text ++ " is generated more than once; the last one wins"

end ApiHeaders
