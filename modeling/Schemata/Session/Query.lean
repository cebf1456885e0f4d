import Schemata.Model.Declarations
import Schemata.Session.Validation

/-!
# Questions about models

A `Query` is what can be asked about the models of a catalog.  `Session.ask` answers it from what a
session remembers, and `Catalog.answer` from the catalog alone.
-/

namespace Schemata

/-- What can be asked about the models of a catalog. -/
inductive Query where
  | base (t : Declared .type)
  | ancestry (t : Declared .type)
  | key (t : Declared .type)
  | effectiveKey (t : Declared .type)
  | propertyType (p : Declared .property)
  | termType (t : Declared .term)
  | endType (e : AssociationEnd)
  /-- The association of a navigation property. -/
  | association (n : Declared .navigation)
  | fromEnd (n : Declared .navigation)
  | toEnd (n : Declared .navigation)
  | navigationTarget (n : Declared .navigation)
  | navigationType (n : Declared .navigation)
  | extended (k : Declared .container)
  | findEntitySet (k : Declared .container) (name : Name)
  | entityType (s : Declared .entitySet)
  | setAssociation (s : Declared .associationSet)
  | setEnds (s : Declared .associationSet)
  | applied (a : Declared .annot)
  | boundProperty (a : Declared .annot) (i : Nat)
  | view (e : ExprRef)
  /-- The property that an expression leads to, if it is a path. -/
  | pathTarget (e : ExprRef)
  | exprDiagnostics (e : ExprRef)
  /-- Follow every reference of a model. -/
  | resolveAll (m : ModelId)
  | validate (m : ModelId)
  /-- The schemas that a model was built from. -/
  | declarations (m : ModelId)
deriving DecidableEq, Repr

namespace Query

/-- What an answer is. -/
abbrev Answer : Query → Type
  | base _ => Option (Element (Declared .type))
  | ancestry _ => List (Declared .type)
  | key _ | effectiveKey _ => List (Element (Declared .property))
  | propertyType _ | termType _ | navigationType _ => TypeReference
  | endType _ | navigationTarget _ | entityType _ => Element (Declared .type)
  | association _ | setAssociation _ => Element (Declared .association)
  | fromEnd _ | toEnd _ => Element AssociationEnd
  | extended _ => Option (Element (Declared .container))
  | findEntitySet .. => Option (Declared .entitySet)
  | setEnds _ => List (Name × Element (Declared .entitySet))
  | applied _ => AppliedTerm (Declared .term) (Declared .type)
  | boundProperty .. => Element (Declared .property)
  | view _ => ExprView
  | pathTarget _ => Option (Element (Declared .property))
  | exprDiagnostics _ | validate _ => List Diagnostic
  | resolveAll _ => Unit
  | declarations _ => List Decl.Schema

end Query

/-- The answer to a question, from the catalog alone. -/
def Catalog.answer (c : Catalog) : (q : Query) → q.Answer
  | .base t => c.base? t
  | .ancestry t => c.ancestry t
  | .key t => c.key t
  | .effectiveKey t => c.effectiveKey t
  | .propertyType p => c.propertyType p
  | .termType t => c.termType t
  | .endType e => c.endType e
  | .association n => c.navigationAssociation n
  | .fromEnd n => c.fromEnd n
  | .toEnd n => c.toEnd n
  | .navigationTarget n => c.navigationTarget n
  | .navigationType n => c.navigationType n
  | .extended k => c.extended? k
  | .findEntitySet k name => c.findEntitySet? k name
  | .entityType s => c.entityType s
  | .setAssociation s => c.setAssociation s
  | .setEnds s => c.setEnds s
  | .applied a => c.applied a
  | .boundProperty a i => c.boundProperty a i
  | .view e => c.view e
  | .pathTarget e =>
    match c.view e with
    | .path segments => some (c.pathTarget e segments)
    | _ => none
  | .exprDiagnostics e => c.exprDiagnostics e
  | .resolveAll _ => ()
  | .validate m => c.validate m
  | .declarations m => (c.model m).declarations

namespace Session

variable (c : Catalog)

/-- The answer to a question, from what the session remembers. -/
def ask : (q : Query) → Session q.Answer
  | .base t => base? c t
  | .ancestry t => ancestry c t
  | .key t => key c t
  | .effectiveKey t => effectiveKey c t
  | .propertyType p => propertyType c p
  | .termType t => termType c t
  | .endType e => endType c e
  | .association n => navigationAssociation c n
  | .fromEnd n => fromEnd c n
  | .toEnd n => toEnd c n
  | .navigationTarget n => navigationTarget c n
  | .navigationType n => navigationType c n
  | .extended k => extended? c k
  | .findEntitySet k name => findEntitySet? c k name
  | .entityType s => entityType c s
  | .setAssociation s => setAssociation c s
  | .setEnds s => setEnds c s
  | .applied a => applied c a
  | .boundProperty a i => boundProperty c a i
  | .view e => view c e
  | .pathTarget e => do
    match ← view c e with
    | .path segments => return some (← pathTarget c e segments)
    | _ => return none
  | .exprDiagnostics e => exprDiagnostics c e
  | .resolveAll m => resolveAll c m
  | .validate m => validate c m
  | .declarations m => return (c.model m).declarations

/-- Asks one question after another. -/
def askAll (qs : List Query) : Session Unit :=
  qs.forM fun q => discard (ask c q)

end Session

end Schemata
