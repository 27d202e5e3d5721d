/-
Which documents describe a schema. A document that parses may still
define a name twice, name a type that nothing defines, or use a directive
where it may not stand; each rule here excludes one such mistake.
-/
import ModelSchema.Graphql.Parts
import ModelSchema.Graphql.Standard

namespace ModelSchema.Graphql

/-- Whether no element of a list occurs twice. -/
def isDistinct {α : Type} [DecidableEq α] : List α → Bool
  | [] => true
  | x :: rest => !rest.contains x && isDistinct rest

-- ============================================================ literals

mutual

/-- Whether no object in a literal gives a field twice. -/
def Literal.isDistinct : Literal → Bool
  | .list items => distinctItems items
  | .object fields => Graphql.isDistinct (fields.map Prod.fst) && distinctFields fields
  | _ => true

/-- `Literal.isDistinct`, item by item. -/
def distinctItems : List Literal → Bool
  | [] => true
  | v :: rest => v.isDistinct && distinctItems rest

/-- `Literal.isDistinct`, field by field. -/
def distinctFields : List (String × Literal) → Bool
  | [] => true
  | (_, v) :: rest => v.isDistinct && distinctFields rest

end

namespace TypeBody

/-- The names of the fields of a body. -/
def fieldNames : TypeBody → List String
  | .object _ fields | .interface _ fields => fields.map FieldDefinition.name
  | .input fields => fields.map InputValue.name
  | _ => []

/-- The names of the values of a body. -/
def valueNames : TypeBody → List String
  | .enum values => values.map EnumValue.name
  | _ => []

/-- The arguments of the fields of a body. -/
def argumentNames : TypeBody → List (List String)
  | .object _ fields | .interface _ fields =>
      fields.map fun f => f.arguments.map InputValue.name
  | _ => []

end TypeBody

/-- Whether an argument has to be given. -/
def InputValue.isRequired (v : InputValue) : Bool := v.type.isNonNull && v.default.isNone

namespace Document

variable (d : Document)

-- ======================================================= unique names

/-- There is at most one definition of the schema. -/
def hasLoneSchema : Bool := d.schemaCount ≤ 1

/-- Each kind of operation has at most one root. -/
def hasDistinctRoots : Bool := isDistinct (d.roots.map Prod.fst)

/-- No type is defined twice. -/
def hasDistinctTypes : Bool := isDistinct (d.types.map TypeDefinition.name)

/-- No directive is defined twice. -/
def hasDistinctDirectives : Bool := isDistinct (d.directives.map DirectiveDefinition.name)

/-- No type has a value twice, its extensions included. -/
def hasDistinctValues : Bool :=
  isDistinct (d.typeParts.flatMap fun t => t.body.valueNames.map fun v => (t.name, v))

/-- No type has a field twice, its extensions included. -/
def hasDistinctFields : Bool :=
  isDistinct (d.typeParts.flatMap fun t => t.body.fieldNames.map fun f => (t.name, f))

/-- No field or directive is defined with an argument twice. -/
def hasDistinctParameters : Bool :=
  d.typeParts.all (fun t => t.body.argumentNames.all isDistinct)
    && d.directives.all fun dir => isDistinct (dir.arguments.map InputValue.name)

/-- No field or directive is given an argument twice. -/
def hasDistinctArguments : Bool :=
  d.argumentLists.all fun args => isDistinct (args.map Prod.fst)

/-- No object in a literal gives a field twice. -/
def hasDistinctLiterals : Bool := d.literals.all Literal.isDistinct

-- ======================================================== known names

/-- Whether the document defines a type. -/
def definesType (name : String) : Bool := d.types.any fun t => t.name = name

/-- Every type that is named is defined; where a schema is described, it
may also be a standard one. -/
def hasKnownTypes : Bool :=
  d.all fun x => x.typeNames.all fun name =>
    d.definesType name || (x.isTypeSystem && Standard.isType name)

/-- Every type that is extended is defined, and of the same kind. -/
def hasKnownExtensions : Bool :=
  d.extensions.all fun e =>
    match d.types.find? fun t => t.name = e.name with
    | some t => t.body.kind = e.body.kind
    | none => false

-- ========================================================= directives

/-- The definition of a directive: the document's own, else the standard
one. -/
def directive? (name : String) : Option DirectiveDefinition :=
  (d.directives ++ Standard.directives).find? fun dir => dir.name = name

/-- Whether a directive may stand at a location with its arguments. -/
def allows (location : String) (use : Directive) : Bool :=
  match d.directive? use.name with
  | some dir =>
      dir.locations.contains location
        && use.arguments.all (fun (name, _) => dir.arguments.any fun a => a.name = name)
        && dir.arguments.all fun a => !a.isRequired || use.arguments.any fun (name, _) =>
          name = a.name
  | none => false

/-- Every directive is known, stands where it may, and has the arguments
that it needs and no other. -/
def hasKnownDirectives : Bool :=
  d.sites.all fun s => s.directives.all (d.allows s.location)

/-- The directives of a place that may not repeat. -/
def singleNames (s : Site) : List String :=
  (s.directives.map Directive.name).filter fun name =>
    (d.directive? name).any fun dir => !dir.repeatable

/-- No directive repeats that may not, on the schema, on a type, or at any
other place. -/
def hasSingleDirectives : Bool :=
  let shared := d.sites.filter fun s => s.owner ≠ .place
  isDistinct (shared.flatMap fun s => (d.singleNames s).map fun name => (s.owner, name))
    && (d.sites.filter fun s => s.owner = .place).all fun s => isDistinct (d.singleNames s)

-- =========================================================== all rules

/-- What a document has to fulfil to describe a schema. -/
def rules : List (Document → Bool) :=
  [hasLoneSchema, hasDistinctRoots, hasDistinctTypes, hasDistinctDirectives,
    hasDistinctValues, hasDistinctFields, hasDistinctParameters, hasDistinctArguments,
    hasDistinctLiterals, hasKnownTypes, hasKnownExtensions, hasKnownDirectives,
    hasSingleDirectives]

/-- Whether a document describes a schema. -/
def isValid : Bool := rules.all fun rule => rule d

end Document

end ModelSchema.Graphql
