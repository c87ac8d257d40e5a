import Intcode.Settings

/-!
# Settings over time

The settings are read from the environment when they are first needed, and then kept: a
later change of a variable shows only after they are read again or replaced.

Embeds the operations `get_config` and `reset_config`.
-/
namespace Intcode.Settings

/-- The variables that are set, and the settings if they have been needed yet. -/
structure Session where
  assignments : List (String × String) := []
  kept : Option Settings := none
  deriving Repr

namespace Session

def environment (session : Session) : Environment :=
  fun name => session.assignments.lookup name

def assign (session : Session) (name : String) (value : Option String) : Session :=
  let others := session.assignments.filter (·.1 != name)
  match value with
  | none => { session with assignments := others }
  | some text => { session with assignments := (name, text) :: others }

def replace (session : Session) (settings : Settings) : Session :=
  { session with kept := some settings }

def reload (session : Session) : Settings × Session :=
  let settings := ofEnvironment session.environment
  (settings, session.replace settings)

/-- The settings, read from the environment if they have not been needed yet. -/
def current (session : Session) : Settings × Session :=
  match session.kept with
  | some settings => (settings, session)
  | none => session.reload

end Session

end Intcode.Settings
