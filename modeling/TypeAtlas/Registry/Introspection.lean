import TypeAtlas.Registry.Store

/-!
# Scripted introspection

A registry may be given a script for some types, which is followed when they
are looked at as beans, before their properties are.  A script can look types
up in the registry that is assembling the type, decide the verdict, fail or
crash.  What its lookups find is reported and changes nothing else.
-/

namespace TypeAtlas

/-- One step of a script. -/
inductive IntrospectionStep where
  | crash (crash : Crash)
  /-- Decides that the type is not a bean. -/
  | reject (reason : String)
  /-- Fails to make sense of the type. -/
  | fail (reason : String)
  /-- Decides that the type is a bean without properties. -/
  | acceptEmpty
  /-- Looks up a type by its name. -/
  | get (name : TypeName)
  /-- Looks up a type by its expression. -/
  | lookup (text : String)
  /-- Takes a reference to a type and follows it. -/
  | reference (text : String)
  /-- Reports what introspection is told. -/
  | survey

/-- The scripts of a registry, by the type that they are for. -/
abbrev IntrospectionScripts := NameMap (List IntrospectionStep)

end TypeAtlas
