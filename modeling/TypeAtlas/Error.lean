import TypeAtlas.TypeExpr.Parser

/-!
# Errors

Every way in which the atlas refuses a request, as a cause with its data.  The
wording of a cause is a function of it, so that a cause that lies inside
another contributes its own words.
-/

namespace TypeAtlas

/-- Why facts are not available. -/
inductive FactsError where
  | notFound (name : TypeName)
  | unreadableFile
  | malformedJson
  | malformedYaml
  | unsupportedFormat (extension : String)
  deriving Repr, DecidableEq

def FactsError.message : FactsError → String
  | .notFound name => s!"No facts available for type '{name}'"
  | .unreadableFile => "I/O error"
  | .malformedJson => "JSON parse error"
  | .malformedYaml => "YAML parse error"
  | .unsupportedFormat extension =>
    s!"Unsupported facts file format: {extension}"

/-- Why a configuration is refused. -/
inductive ConfigError where
  | unreadableFile
  | malformedToml
  | malformedYaml
  | malformedJson
  | unsupportedFormat (extension : String)
  | invalid (reason : String)
  deriving Repr, DecidableEq

def ConfigError.message : ConfigError → String
  | .unreadableFile => "I/O error"
  | .malformedToml => "TOML parse error"
  | .malformedYaml => "YAML parse error"
  | .malformedJson => "JSON parse error"
  | .unsupportedFormat extension =>
    s!"Unsupported configuration format: {extension}"
  | .invalid reason => s!"Invalid configuration: {reason}"

/-- Why a transform did not convert a value, or does not exist. -/
inductive TransformError where
  | forward (normal : TypeName) (reason : String)
  | reverse (normal : TypeName) (reason : String)
  | noReverse (normal : TypeName)
  | typeMismatch (normal expected : TypeName)
  | unknown (name : String) (typeName : TypeName)
  deriving Repr, DecidableEq

def TransformError.message : TransformError → String
  | .forward normal reason =>
    s!"Forward transform of '{normal}' failed: {reason}"
  | .reverse normal reason =>
    s!"Reverse transform to '{normal}' failed: {reason}"
  | .noReverse normal => s!"Transform for '{normal}' has no reverse recipe"
  | .typeMismatch normal expected =>
    s!"Transform for '{normal}' received a value that is not a '{expected}'"
  | .unknown name typeName =>
    s!"Unknown transform '{name}' declared on '{typeName}'"

/-- Why a request to the atlas failed. -/
inductive Error where
  /-- Assembling a descriptor failed; the descriptor stays failed. -/
  | initialization (typeName : TypeName) (reason : String)
  /-- A way of construction is missing, or its invocation failed. -/
  | instantiation (typeName : TypeName) (reason : String)
  /-- A type was looked up from inside its own assembly. -/
  | reentrantLookup (typeName : TypeName)
  /-- A collaborator crashed during assembly. -/
  | assemblyCrashed (reason : String)
  | argumentIndex (index count : Nat)
  /-- Type arguments do not fit the type that they are applied to. -/
  | specialization (expression reason : String)
  | facts (error : FactsError)
  | typeExpr (error : TypeExpr.ParseError)
  | transform (error : TransformError)
  | config (error : ConfigError)
  /-- The registry behind a reference is gone. -/
  | registryDropped
  deriving Repr, DecidableEq

def Error.message : Error → String
  | .initialization typeName reason =>
    s!"Initialization of '{typeName}' failed: {reason}"
  | .instantiation typeName reason =>
    s!"Cannot instantiate '{typeName}': {reason}"
  | .reentrantLookup typeName =>
    s!"Recursive lookup of '{typeName}' while it is being built on this thread"
  | .assemblyCrashed reason => s!"Panicked during assembly: {reason}"
  | .argumentIndex index count =>
    s!"Invalid argument index {index}: {count} argument(s) defined"
  | .specialization expression reason =>
    s!"Invalid specialization '{expression}': {reason}"
  | .facts error => s!"Type facts error: {error.message}"
  | .typeExpr error => s!"Type expression error: {error.message}"
  | .transform error => s!"Transform error: {error.message}"
  | .config error => s!"Configuration error: {error.message}"
  | .registryDropped => "Type registry is no longer available"

end TypeAtlas
