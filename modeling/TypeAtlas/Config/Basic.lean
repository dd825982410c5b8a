import TypeAtlas.Error
import TypeAtlas.Facts.Core
import TypeAtlas.Text.Blank

/-!
# Configuration

What a registry is told beforehand: the root of the hierarchy, which types are
no beans whatever they look like, what a bean must have, and which types stand
in for abstract ones.  A configuration is checked before it is used.
-/

namespace TypeAtlas

/-- The configuration of a registry. -/
structure Config where
  rootType : TypeName := defaultRootType
  /-- The types that are never beans. -/
  notBeanTypes : NameMap Unit := NameMap.empty
  /-- How far the constructor of a bean must be seen. -/
  beanConstructorVisibility : Visibility := .exposed
  /-- Whether a bean must have a property. -/
  requireBeanProperties : Bool := true
  logLevel : String := "info"
  /-- The types whose constructors are called for abstract types. -/
  implementations : NameMap TypeName := NameMap.empty

namespace Config

instance : Inhabited Config := ⟨{}⟩

def agrees (first second : Config) : Bool :=
  first.rootType == second.rootType &&
    first.notBeanTypes.names == second.notBeanTypes.names &&
    first.beanConstructorVisibility == second.beanConstructorVisibility &&
    first.requireBeanProperties == second.requireBeanProperties &&
    first.logLevel == second.logLevel &&
    first.implementations.entries == second.implementations.entries

/-- The configuration with the implementation of a type set. -/
def withImplementation (config : Config)
    (abstractType implementation : TypeName) : Config :=
  { config with
    implementations :=
      config.implementations.insert abstractType implementation }

/-- The configuration with one more type that is never a bean. -/
def withNotBean (config : Config) (name : TypeName) : Config :=
  { config with notBeanTypes := config.notBeanTypes.insert name () }

/-- The log levels, by their names in small letters. -/
def logLevels : List String :=
  ["trace", "debug", "info", "warn", "error"]

/-- What is wrong with the implementation of a type. -/
def implementationFault? (abstractType implementation : TypeName) :
    Option String :=
  if abstractType == implementation then
    some s!"Type '{abstractType}' is configured as its own implementation"
  else if Text.isBlankText implementation then
    some s!"Type '{abstractType}' has an empty implementation name"
  else
    none

def logLevelFault? (level : String) : Option String :=
  if logLevels.contains (Text.lowerAscii level) then none
  else
    let expected := String.intercalate ", " logLevels
    some s!"Unknown log level '{level}' (expected one of {expected})"

/-- The first thing that is wrong with a configuration: its root type, its
implementations in the order of their types, or its log level. -/
def fault? (config : Config) : Option String :=
  if Text.isBlankText config.rootType then some "Root type name is empty"
  else
    (config.implementations.entries.findSome?
      fun (abstractType, implementation) =>
        implementationFault? abstractType implementation).or
      (logLevelFault? config.logLevel)

def validate (config : Config) : Except ConfigError Config :=
  match config.fault? with
  | some reason => .error (.invalid reason)
  | none => .ok config

end Config

end TypeAtlas
