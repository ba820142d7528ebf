/-!
# Environment variables

The variables a program is started with, by name.
-/

namespace ArtifactSync

/-- Variables and their values. The first of a name counts. -/
structure Environment where
  bindings : List (String × String)
  deriving DecidableEq, Repr, Inhabited

/-- The value of a variable. -/
def Environment.get? (env : Environment) (name : String) : Option String :=
  (env.bindings.find? fun v => v.1 = name).map Prod.snd

/-- Whether a variable is set, be it to nothing. -/
def Environment.has (env : Environment) (name : String) : Bool :=
  (env.get? name).isSome

/-- Gives a variable a value. -/
def Environment.set (env : Environment) (name value : String) : Environment :=
  ⟨(name, value) :: env.bindings.filter fun v => v.1 ≠ name⟩

end ArtifactSync
