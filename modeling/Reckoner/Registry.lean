import Reckoner.Calculator

/-!
# Registries and builders

A registry holds functions and converters that several calculators share.  A builder collects the
settings of a calculator together with functions and converters of its own, which win over those of
the registry; building copies the registry as it is at that moment.
-/

namespace Reckoner

/-- The functions with one more, if its name can be called. -/
def Bindings.registerFunction (functions : Bindings Function) (name : String)
    (function : Function) : Except Fault (Bindings Function) := do
  checkFunctionName name
  return functions.insert name function

/-- Functions and converters for many calculators. -/
structure Registry where
  /-- The functions of the host. -/
  functions : Bindings Function := .empty
  /-- The converters, at first the standard ones. -/
  converters : Converters := .standard

namespace Registry

/-- The registry with a function added. -/
def register (registry : Registry) (name : String) (function : Function) :
    Except Fault Registry := do
  let functions ← registry.functions.registerFunction name function
  return { registry with functions }

/-- The registry without a function. -/
def remove (registry : Registry) (name : String) : Registry :=
  { registry with functions := registry.functions.erase name }

/-- The registry with the converter for a type set. -/
def registerConverter (registry : Registry) {type : NumberType} (converter : Converter type) :
    Registry :=
  { registry with converters := registry.converters.register converter }

/-- The registry without the converter for a type. -/
def removeConverter (registry : Registry) (type : NumberType) : Registry :=
  { registry with converters := registry.converters.remove type }

end Registry

/-- The configuration of a calculator. -/
structure Builder where
  /-- The settings of the calculator. -/
  settings : Settings := {}
  /-- Functions for this calculator alone. -/
  functions : Bindings Function := .empty
  /-- Converters for this calculator alone. -/
  converters : Converters := .empty
  /-- What the calculator shares with others. -/
  registry : Registry := {}

namespace Builder

/-- The builder with a function added. -/
def register (builder : Builder) (name : String) (function : Function) : Except Fault Builder := do
  let functions ← builder.functions.registerFunction name function
  return { builder with functions }

/-- The builder with the converter for a type set. -/
def registerConverter (builder : Builder) {type : NumberType} (converter : Converter type) :
    Builder :=
  { builder with converters := builder.converters.register converter }

/-- The builder with an expression to calculate. -/
def withExpression (builder : Builder) (expression : String) : Builder :=
  { builder with settings := { builder.settings with expression } }

/-- The builder with the expression that a lone operator is. -/
def withOperator (builder : Builder) (operator : Operator) : Builder :=
  builder.withExpression (String.ofList [operator.symbol])

/-- The builder with the expression that a file holds in UTF-8; a missing file has no contents. -/
def withFile (builder : Builder) (path : String) (contents : Option ByteArray) :
    Except Fault Builder :=
  match contents.bind String.fromUTF8? with
  | some expression => .ok (builder.withExpression expression)
  | none => .error (.unreadable path)

/-- The engine of the calculator. -/
def engine (builder : Builder) : Engine :=
  ⟨builder.settings, builder.registry.functions.merge builder.functions⟩

/-- The calculator with results of the given type. -/
def build (builder : Builder) (result : NumberType) : Calculator result :=
  { engine := builder.engine
    converters := builder.registry.converters.merge builder.converters }

end Builder
end Reckoner
