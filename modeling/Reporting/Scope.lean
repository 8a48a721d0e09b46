import Reporting.Json.Basic

/-!
# Scopes

A report is made for an acting user.  An administrator sees every record; an agent sees the records
whose owner is the agent.
-/

namespace Reporting

/-- What an acting user may be. -/
inductive Role where
  | admin
  | agent
  deriving DecidableEq

/-- An acting user. -/
structure Scope where
  userId : String
  role : Role
  deriving DecidableEq

namespace Scope

/-- The scope of an administrator. -/
def admin (userId : String) : Scope := ⟨userId, .admin⟩

/-- The scope of an agent. -/
def agent (userId : String) : Scope := ⟨userId, .agent⟩

/-- Whether a record with this owner is visible. -/
def canSee (scope : Scope) (owner : Option String) : Bool :=
  match scope.role with
  | .admin => true
  | .agent => owner == some scope.userId

end Scope

/-- The key under which a record names its owner. -/
def ownerKey : String := "agentId"

/-- The owner of a record, if it names one by a string. -/
def Json.owner? (record : Json) : Option String :=
  (record.get? ownerKey).bind Json.str?

end Reporting
