import Schemata.Decl.Builder

/-!
# The core vocabulary

The terms that every schema may use to describe its elements: what they are for, who computes them,
what media they hold.  `Core.schema` declares them, and `Core.termNames` lists them.
-/

namespace Schemata.Core

open Decl

/-- The namespace of the vocabulary. -/
def namespaceName : Name := "Org.OData.Core.V1"

/-- What the vocabulary calls its own namespace. -/
def aliasName : Name := "Core"

/-- Says what an element is for. -/
def described (text : String) : Decl.Annotation := .value "Core.Description" (.string text)

/-- Says that a text is in a natural language. -/
def languageDependent : Decl.Annotation := .value "Core.IsLanguageDependent" (.bool true)

/-- Says which type the annotated element must have. -/
def requiresType (name : Name) : Decl.Annotation := .value "Core.RequiresType" (.string name)

/-- Says that a text is the name of a media type. -/
def mediaType : Decl.Annotation := .value "Core.IsMediaType" (.bool true)

/-- A term for some sorts of element; one that is meant for all says nothing of it. -/
def term (name typeName : Name) (appliesTo? : Option String) (annotations : List Decl.Annotation) :
    Item :=
  .term { Term.make name typeName with appliesTo?, annotations }

/-- A term that is true where it is applied without a value. -/
def tag (name : Name) (appliesTo description : String) (annotations : List Decl.Annotation) :
    Item :=
  .term
    { Term.make name "Edm.Boolean" with
      default? := some "true", appliesTo? := some appliesTo
      annotations := described description :: annotations }

/-- The type of the term for optimistic concurrency control. -/
def concurrencyControlType : Item :=
  .complexType
    { Structured.make "OptimisticConcurrencyControlType" with
      properties :=
        [{ Property.make "ETagDependsOn" "Collection(Edm.String)" with
           annotations := [described "The ETag is computed from these properties"] }]
      annotations :=
        [described "If present, the annotated entity set uses optimistic concurrency control"] }

/-- The terms, in the order of declaration. -/
def terms : List Item :=
  [term "Description" "Edm.String" none
      [described "A brief description of a model element", languageDependent],
    term "LongDescription" "Edm.String" none
      [described "A lengthy description of a model element", languageDependent],
    tag "IsLanguageDependent" "Property Term"
      "Properties and terms annotated with this term are language-dependent"
      [requiresType "Edm.String"],
    term "RequiresType" "Edm.String" (some "Term")
      [described ("Properties and terms annotated with this annotation MUST have a type that is " ++
        "identical to or derived from the given type name")],
    term "ResourcePath" "Edm.String" (some "EntitySet Singleton ActionImport FunctionImport")
      [described ("Resource path for entity container child, can be relative to xml:base and " ++
        "the request URL"), .value "Core.IsURL" (.bool true)],
    tag "DereferenceableIDs" "EntityContainer"
      "Entity-ids are URLs that locate the identified entity" [],
    tag "ConventionalIDs" "EntityContainer" "Entity-ids follow OData URL conventions" [],
    tag "Immutable" "Property"
      "A value for this non-key property can be provided on insert and remains unchanged on update"
      [],
    tag "Computed" "Property"
      "A value for this property is generated on both insert and update" [],
    tag "IsURL" "Property Term"
      "Properties and terms annotated with this term MUST contain a valid URL"
      [requiresType "Edm.String"],
    term "AcceptableMediaTypes" "Collection(Edm.String)" (some "EntityType Property")
      [described "Lists the MIME types acceptable for the annotated entity type or stream property",
        mediaType],
    term "MediaType" "Edm.String" (some "Property") [mediaType, requiresType "Edm.Binary"],
    tag "IsMediaType" "Property Term"
      "Properties and terms annotated with this term MUST contain a valid MIME type"
      [requiresType "Edm.String"],
    term "OptimisticConcurrencyControl" "Core.OptimisticConcurrencyControlType" none [],
    term "OptimisticConcurrency" "Collection(Edm.String)" (some "EntitySet")
      [described ("Data modification requires the use of ETags. A non-empty collection contains " ++
        "the set of properties that are used to compute the ETag")]]

/-- The qualified names of the terms. -/
def termNames : List Name := terms.map fun t => qualify namespaceName t.name

/-- The qualified name of the vocabulary's only type. -/
def typeName : Name := qualify namespaceName concurrencyControlType.name

/-- The vocabulary. -/
def schema : Decl.Schema :=
  { Schema.make namespaceName with
    alias? := some aliasName, items := concurrencyControlType :: terms }

end Schemata.Core
