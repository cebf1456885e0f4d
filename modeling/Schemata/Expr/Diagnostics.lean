import Schemata.Expr.Basic

/-!
# What is wrong with an expression

`Catalog.exprDiagnostics` reports an expression and all that is below it, each node before its
operands.  Where paths lead is not reported: that is found out when they are read.  Below a node
with a wrong number of operands nothing is reported.
-/

namespace Schemata

/-- What is wrong with an expression itself. -/
def ExprView.diagnostics : ExprView → List Diagnostic
  | constant _ _ (.error d) => [d]
  | enumMember members => members.flatMap (·.diagnostics)
  | cast type _ | isType type _ => type.diagnostics
  | record type? _ | collection type? _ => type?.toList.flatMap (·.diagnostics)
  | labelRef target => target.diagnostics
  | malformed p => p.diagnostics
  | constant _ _ (.ok _) | null | path _ | cond .. | apply .. | labeled .. => []

namespace Catalog

variable (c : Catalog)

/-- What is wrong with an expression and with all that is below it. -/
def exprDiagnostics (e : ExprRef) : List Diagnostic :=
  let v := c.view e
  v.diagnostics ++ v.children.attach.flatMap fun ⟨child, _⟩ => exprDiagnostics child
termination_by c.nodesBehind e
decreasing_by exact c.nodesBehind_lt_of_mem_operands (c.mem_operands_of_mem_children ‹_›)

end Catalog

end Schemata
