import PropTree.Record.Error
import PropTree.Value.Basic

set_option autoImplicit false

namespace PropTree

inductive DocumentError where
  /-- A mapping can be written only if its keys are texts, numbers or
  booleans. -/
  | keyNotText
  | decode
  | mismatch (path : String) (expected : Descriptor) (found : Kind)
  | property (path : String) (cause : SchemaError)
  | invoke (path : String) (cause : InvokeError)
  | schema (e : SchemaError)
deriving DecidableEq, Repr

def DocumentError.message : DocumentError → String
  | .keyNotText => "encode error: key must be a string"
  | .decode => "decode error: invalid base64"
  | .mismatch path expected found =>
    "cannot hydrate " ++ found.text ++ " as " ++ expected.text ++ " at '" ++ path ++ "'"
  | .property path cause => "cannot hydrate '" ++ path ++ "': " ++ cause.message
  | .invoke path cause => "setter for '" ++ path ++ "' failed: " ++ cause.message
  | .schema e => e.message

end PropTree
