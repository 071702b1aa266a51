import TemplateScopes.Lookup.Tables
import TemplateScopes.Text.LetterCase

/-!
# Lookup contexts

A context holds the tables that the analysis of a template consults.
Accessors and methods are compared without regard to letter case, so the
tables hold them in lower case; rules and known types are compared as they
are.

* The questions `isGlobalAccessor`, `isCollectionMethod`, `fieldType?`,
  `isKnownType` and `infer`.
* `Layer` and `Context.extend`: further entries on top of a context.
  Tables grow, field methods are overridden, new rules come first, and
  what a layer leaves out stays as it was.
* `Context.base`: the context of every template.
-/

namespace TemplateScopes

/-- The tables that the analysis of a template consults. -/
structure Context where
  name : Text
  globalAccessors : List Text
  fieldMethods : OrderedMap Text
  collectionMethods : List Text
  inferenceRules : List (Text × Text)
  defaultType : Text
  booleanType : Text
  relationType : Text
  knownTypes : List Text
  /-- A test that decides about known types in place of the table. -/
  knownTest : Option (Text → Bool)

/-- Entries to put on top of a context.  What is empty or absent changes
nothing. -/
structure Layer where
  name : Option Text := none
  globalAccessors : List Text := []
  fieldMethods : List (Text × Text) := []
  collectionMethods : List Text := []
  inferenceRules : List (Text × Text) := []
  defaultType : Option Text := none
  booleanType : Option Text := none
  relationType : Option Text := none
  knownTypes : List Text := []
deriving DecidableEq, Repr

namespace Context

/-! ## Questions -/

/-- Whether a name is an accessor that every scope has. -/
def isGlobalAccessor (ctx : Context) (name : Text) : Bool :=
  ctx.globalAccessors.contains (Text.lower name)

/-- Whether a name is a method of lists. -/
def isCollectionMethod (ctx : Context) (name : Text) : Bool :=
  ctx.collectionMethods.contains (Text.lower name)

/-- The type of field that has the given method. -/
def fieldType? (ctx : Context) (method : Text) : Option Text :=
  ctx.fieldMethods.get? (Text.lower method)

/-- Whether a name is a class that holds data. -/
def isKnownType (ctx : Context) (name : Text) : Bool :=
  match ctx.knownTest with
  | some test => test name
  | none => ctx.knownTypes.contains name

/-- The type of the first rule whose pattern occurs in the name, or else
the given type. -/
def inferBy (rules : List (Text × Text)) (default name : Text) : Text :=
  match rules.find? fun rule => Text.occursIn rule.1 name with
  | some rule => rule.2
  | none => default

/-- The type that a name suggests. -/
def infer (ctx : Context) (name : Text) : Text :=
  inferBy ctx.inferenceRules ctx.defaultType name

/-! ## Layers -/

/-- The name that a layer gives.  An empty name gives none. -/
def layerName (current : Text) : Option Text → Text
  | none => current
  | some name => if name.isEmpty then current else name

/-- Field methods with their names in lower case. -/
def lowerKeys (entries : List (Text × Text)) : List (Text × Text) :=
  entries.map fun entry => (Text.lower entry.1, entry.2)

/-- The context with a layer on top. -/
def extend (ctx : Context) (layer : Layer) : Context where
  name := layerName ctx.name layer.name
  globalAccessors := ctx.globalAccessors ++ layer.globalAccessors.map Text.lower
  fieldMethods := ctx.fieldMethods.insertAll (lowerKeys layer.fieldMethods)
  collectionMethods := ctx.collectionMethods ++ layer.collectionMethods.map Text.lower
  inferenceRules := layer.inferenceRules ++ ctx.inferenceRules
  defaultType := layer.defaultType.getD ctx.defaultType
  booleanType := layer.booleanType.getD ctx.booleanType
  relationType := layer.relationType.getD ctx.relationType
  knownTypes := ctx.knownTypes ++ layer.knownTypes
  knownTest := ctx.knownTest

/-! ## Contexts to start from -/

/-- The context without any entry. -/
def empty : Context where
  name := "base"
  globalAccessors := []
  fieldMethods := []
  collectionMethods := []
  inferenceRules := []
  defaultType := Tables.defaultType
  booleanType := Tables.booleanType
  relationType := Tables.relationType
  knownTypes := []
  knownTest := none

/-- The context that holds just the entries of a layer, under the name of
the layer even if that is empty. -/
def ofLayer (layer : Layer) (knownTest : Option (Text → Bool)) : Context :=
  { empty.extend layer with name := layer.name.getD empty.name, knownTest }

/-- The entries that every template can use. -/
def baseLayer : Layer where
  globalAccessors := Tables.globalAccessors
  fieldMethods := Tables.fieldMethods
  collectionMethods := Tables.collectionMethods
  inferenceRules := Tables.inferenceRules
  knownTypes := Tables.knownTypes

/-- The context of every template. -/
def base : Context :=
  empty.extend baseLayer

end Context

/-! ## Contexts as listings -/

/-- The contents of a context in a fixed order: tables of names sorted and
without repetitions, field methods by their names, rules as they are
tried. -/
structure ContextListing where
  name : Text
  globalAccessors : List Text
  fieldMethods : List (Text × Text)
  collectionMethods : List Text
  inferenceRules : List (Text × Text)
  defaultType : Text
  booleanType : Text
  relationType : Text
  knownTypes : List Text
deriving DecidableEq, Repr

/-- The contents of a context in a fixed order. -/
def Context.listing (ctx : Context) : ContextListing where
  name := ctx.name
  globalAccessors := Text.sortDistinct ctx.globalAccessors
  fieldMethods := (Text.sortDistinct ctx.fieldMethods.keys).filterMap fun key =>
    (ctx.fieldMethods.get? key).map fun type => (key, type)
  collectionMethods := Text.sortDistinct ctx.collectionMethods
  inferenceRules := ctx.inferenceRules
  defaultType := ctx.defaultType
  booleanType := ctx.booleanType
  relationType := ctx.relationType
  knownTypes := Text.sortDistinct ctx.knownTypes

end TemplateScopes
