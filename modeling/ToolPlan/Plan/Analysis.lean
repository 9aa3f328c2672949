import ToolPlan.Plan

/-!
What a plan asks for before it runs: every call it holds, in the order of the text, and the names of
the tools these calls need.
-/

namespace ToolPlan

mutual

/-- The calls within a statement, those of both branches included. -/
def Statement.calls : Statement → List Call
  | .call request => [request]
  | .branch _ yes no => callsOf yes ++ callsOfBranch no
  | .loop _ _ body => callsOf body
  | .assign _ _ => []
  | .finish _ => []
  | .blank => []

def Statement.callsOf : List Statement → List Call
  | [] => []
  | statement :: rest => statement.calls ++ callsOf rest

def Statement.callsOfBranch : Option (List Statement) → List Call
  | none => []
  | some statements => callsOf statements

end

namespace Plan

def calls (plan : Plan) : List Call :=
  Statement.callsOf plan

/-- The names of the tools a plan needs, in order of first appearance. -/
def requiredTools (plan : Plan) : List String :=
  (plan.calls.map Call.name).eraseDups

end Plan

end ToolPlan
