import Workboard.Config.Environment
import Workboard.Config.Variable
import Workboard.Config.Yaml

/-!
Configuration in layers: the values for development, under a file, under variables of the environment.
-/

namespace Workboard

open Json Config

namespace AppConfig

/-- The tree of the variables that name settings, later ones over earlier ones. -/
def variableLayer (e : Environment) : Value :=
  e.entries.foldl (fun tree (name, text) =>
    match path? name with
    | some path => overlay tree (nest (Written.ofText text) path)
    | none => tree) (.object [])

def fileLayer (file : Option String) : Except ConfigError Value :=
  match file with
  | none => .ok (.object [])
  | some text =>
    match Yaml.table? text with
    | some tree => .ok tree
    | none => .error (.unreadable "the file is not a table")

/-- Reads all layers; a setting of the wrong kind cannot be read. -/
def load (e : Environment) (file : Option String) : Except ConfigError AppConfig := do
  let tree := overlay (overlay development.toTree (← fileLayer file)) (variableLayer e)
  match ofTree? tree with
  | some c => return c
  | none => .error (.unreadable "a setting is missing or of the wrong kind")

end AppConfig

end Workboard
